/-
What readers take from the tokens of a phrase. A reader that takes its own tokens before all that
halts it takes a list of them up to what is behind the list (`separated_listed`); so expressions,
columns and rows are read one at a time, and a statement from its parts.
-/
import NamedStores.Proofs.Sqlite.Scanning
import NamedStores.Sqlite.Reader

namespace NamedStores.Sqlite.Reader

open Token

variable {α β : Type}

/-! ## Single tokens -/

theorem bind_ok {r : Reader α} {f : α → Reader β} {ts us : List Token} {a : α}
    (taken : r ts = .ok (a, us)) : (r >>= f) ts = f a us := by
  show (r ts >>= fun p => f p.1 p.2) = f a us
  rw [taken]
  rfl

theorem map_ok {r : Reader α} {ts us : List Token} {a : α} (taken : r ts = .ok (a, us))
    (f : α → β) : (f <$> r) ts = .ok (f a, us) := by
  show (r ts >>= fun p => pure (f p.1, p.2)) = .ok (f a, us)
  rw [taken]
  rfl

theorem next?_eq (ts : List Token) : next? ts = .ok (ts.head?, ts) := rfl

theorem get_eq (ts : List Token) : (get : Reader (List Token)) ts = .ok (ts, ts) := rfl

theorem accept_cons {isWanted : Token → Bool} {t : Token} (wanted : isWanted t = true)
    (ts : List Token) : accept isWanted (t :: ts) = .ok (true, ts) := by
  rw [accept, bind_ok (next?_eq _)]
  simp only [List.head?_cons, wanted, if_true]
  rfl

/-- No token that is asked for comes next. -/
def Lacks (isWanted : Token → Bool) (ts : List Token) : Prop := ∀ t ∈ ts.head?, isWanted t = false

theorem Lacks.nil {isWanted : Token → Bool} : Lacks isWanted [] := by simp [Lacks]

theorem Lacks.cons {isWanted : Token → Bool} {t : Token} (other : isWanted t = false)
    (ts : List Token) : Lacks isWanted (t :: ts) :=
  fun _ same => Option.some.inj same ▸ other

theorem accept_other {isWanted : Token → Bool} {ts : List Token}
    (other : Lacks isWanted ts) : accept isWanted ts = .ok (false, ts) := by
  rw [accept, bind_ok (next?_eq ts)]
  cases ts with
  | nil => rfl
  | cons t ts =>
    have unwanted := other t rfl
    simp only [List.head?_cons, unwanted, Bool.false_eq_true, if_false]
    rfl

theorem expect_cons {isWanted : Token → Bool} {t : Token} (wanted : isWanted t = true)
    (ts : List Token) : expect isWanted (t :: ts) = .ok ((), ts) := by
  rw [expect, bind_ok (accept_cons wanted ts)]
  rfl

theorem word_cons {w : String} {t : Token} (isIt : isWord w t = true) (ts : List Token) :
    word w (t :: ts) = .ok ((), ts) := expect_cons isIt ts

theorem symbol_cons {s : String} {t : Token} (isIt : isSymbol s t = true) (ts : List Token) :
    symbol s (t :: ts) = .ok ((), ts) := expect_cons isIt ts

theorem name_named (gap : List Char) (n : String) (ts : List Token) :
    name (named gap n :: ts) = .ok (n, ts) := rfl

/-! ## What halts a reader -/

/-- The tokens of a phrase behind which something has ended. -/
def halting : List Token :=
  [sign [] ',', sign [] ')', keyword [' '] "FROM", keyword [' '] "WHERE", keyword [' '] "ORDER"]

/-- Tokens with which nothing goes on. -/
def Halts (ts : List Token) : Prop := ∀ t ∈ ts.head?, t ∈ halting

theorem Halts.nil : Halts [] := by simp [Halts]

theorem Halts.cons {t : Token} (isHalting : t ∈ halting) (ts : List Token) : Halts (t :: ts) :=
  fun _ same => Option.some.inj same ▸ isHalting

theorem Halts.accept {isWanted : Token → Bool} {ts : List Token} (halts : Halts ts)
    (others : halting.all (fun t => !isWanted t) = true) :
    accept isWanted ts = .ok (false, ts) := by
  refine accept_other fun t ht => ?_
  simpa using List.all_eq_true.mp others t (halts t ht)

/-- What no halting token has is not found before what halts. -/
theorem Halts.bind {f : Token → Option α} {ts : List Token} (halts : Halts ts)
    (nones : halting.all (fun t => (f t).isNone) = true) : ts.head?.bind f = none := by
  cases first : ts.head? with
  | none => rfl
  | some t => simpa using List.all_eq_true.mp nones t (halts t first)

/-- The reader takes these tokens before all that halts it. -/
def Takes (r : Reader α) (ts : List Token) (a : α) : Prop :=
  ∀ us, Halts us → r (ts ++ us) = .ok (a, us)

/-! ## Lists -/

/-- **Things that are taken one at a time are taken as a list**, which is at its end where no comma
follows. -/
theorem separated_listed {γ : Type} {item : Reader α} {tokens : List Char → γ → List Token}
    {value : γ → α} {xs : List γ} (items : ∀ x ∈ xs, ∀ gap, Takes item (tokens gap x) (value x))
    (gap : List Char) (nonempty : xs ≠ []) {us : List Token} (halts : Halts us)
    (ended : Lacks (isSymbol ",") us) :
    ∀ fuel, xs.length ≤ fuel →
      separated item fuel (listed tokens gap xs ++ us) = .ok (xs.map value, us) := by
  fun_induction listed tokens gap xs with
  | case1 => exact absurd rfl nonempty
  | case2 gap x =>
    intro fuel enough
    obtain ⟨fuel, rfl⟩ := Nat.exists_eq_add_one_of_ne_zero (Nat.ne_of_gt enough)
    rw [separated, bind_ok (items x List.mem_cons_self gap us halts), bind_ok (accept_other ended)]
    rfl
  | case3 gap x y xs ih =>
    intro fuel enough
    obtain ⟨fuel, rfl⟩ := Nat.exists_eq_add_one_of_ne_zero (Nat.ne_of_gt (Nat.zero_lt_of_lt enough))
    have later := ih (fun z hz => items z (List.mem_cons_of_mem x hz)) (List.cons_ne_nil y xs) fuel
      (Nat.le_of_succ_le_succ enough)
    have halted : Halts (sign [] ',' :: (listed tokens [' '] (y :: xs) ++ us)) :=
      .cons List.mem_cons_self _
    have first := items x List.mem_cons_self gap _ halted
    have comma : isSymbol "," (sign [] ',') = true := rfl
    rw [List.append_assoc, List.cons_append, separated, bind_ok first,
      bind_ok (accept_cons comma _), if_pos rfl, bind_ok later]
    rfl

theorem length_listed {γ : Type} (tokens : List Char → γ → List Token) (gap : List Char)
    (xs : List γ) : xs.length ≤ (listed tokens gap xs).length + 1 := by
  fun_induction listed tokens gap xs with
  | case1 => exact Nat.zero_le _
  | case2 => simp
  | case3 gap x y xs ih =>
    simp only [List.length_cons, List.length_append] at ih ⊢
    omega

theorem list_listed {γ : Type} {item : Reader α} {tokens : List Char → γ → List Token}
    {value : γ → α} {xs : List γ} (items : ∀ x ∈ xs, ∀ gap, Takes item (tokens gap x) (value x))
    (gap : List Char) (nonempty : xs ≠ []) {us : List Token} (halts : Halts us)
    (ended : Lacks (isSymbol ",") us) :
    list item (listed tokens gap xs ++ us) = .ok (xs.map value, us) := by
  refine separated_listed items gap nonempty halts ended _ ?_
  have enough := length_listed tokens gap xs
  rw [List.length_append]
  omega

theorem parenthesized_taken {r : Reader α} {ts us : List Token} {a : α} (gap : List Char)
    (taken : r (ts ++ sign [] ')' :: us) = .ok (a, sign [] ')' :: us)) :
    parenthesized r (sign gap '(' :: ts ++ sign [] ')' :: us) = .ok (a, us) := by
  rw [parenthesized, List.cons_append, bind_ok (symbol_cons rfl _), bind_ok taken,
    bind_ok (symbol_cons rfl us)]
  rfl

/-! ## Expressions -/

/-- Where no operator follows, an expression is at its end. -/
theorem climb_end {ts : List Token} (ended : ts.head?.bind operator? = none) (fuel level : Nat)
    (left : Expr) : climb (fuel + 1) level left ts = .ok (left, ts) := by
  rw [climb, bind_ok (next?_eq ts), ended]
  rfl

theorem exprAt_operand {t : Token} {ts : List Token} {e : Expr}
    (ended : ts.head?.bind operator? = none) (fuel level : Nat)
    (taken : operand (fuel + 1) (t :: ts) = .ok (e, ts)) :
    exprAt (fuel + 2) level (t :: ts) = .ok (e, ts) := by
  rw [exprAt, bind_ok taken, climb_end ended]

theorem expr_cons (t : Token) (ts : List Token) :
    expr (t :: ts) = exprAt (3 * ts.length + 6) 0 (t :: ts) := rfl

theorem expr_bound (gap : List Char) (index : Nat) {us : List Token}
    (ended : us.head?.bind operator? = none) :
    expr (bound gap index :: us) = .ok (.parameter index, us) := by
  rw [expr_cons]
  exact exprAt_operand ended _ 0 rfl

theorem expr_named (gap : List Char) (n : String) {us : List Token}
    (ended : us.head?.bind operator? = none) :
    expr (named gap n :: us) = .ok (.name n true, us) := by
  rw [expr_cons]
  exact exprAt_operand ended _ 0 rfl

/-- A column compared with a parameter. -/
def equation (column : String) (index : Nat) : List Token :=
  [named [' '] column, sign [' '] '=', bound [' '] index]

def equationExpr (column : String) (index : Nat) : Expr :=
  .binary .equal (.name column true) (.parameter index)

theorem expr_equation (column : String) (index : Nat) :
    Takes expr (equation column index) (equationExpr column index) := by
  intro us halts
  have ended := halts.bind (f := operator?) rfl
  have right (fuel : Nat) : exprAt (fuel + 2) 5 (bound [' '] index :: us) =
      .ok (.parameter index, us) := exprAt_operand ended fuel 5 rfl
  have goesOn (fuel : Nat) : climb (fuel + 3) 0 (.name column true)
      (sign [' '] '=' :: bound [' '] index :: us) = .ok (equationExpr column index, us) := by
    show (exprAt (fuel + 2) 5 >>= fun r => climb (fuel + 2) 0 _) (bound [' '] index :: us) = _
    rw [bind_ok (right fuel)]
    exact climb_end ended _ 0 _
  exact goesOn _

/-! ## The clauses of a phrase -/

theorem optional_other {start : String} {r : Reader α} {ts : List Token}
    (other : Lacks (isWord start) ts) : optional start r ts = .ok (none, ts) := by
  rw [optional, bind_ok (accept_other other)]
  rfl

theorem optional_cons {start : String} {r : Reader α} {t : Token} {ts us : List Token} {a : α}
    (isStart : isWord start t = true) (taken : r ts = .ok (a, us)) :
    optional start r (t :: ts) = .ok (some a, us) := by
  rw [optional, bind_ok (accept_cons isStart ts), if_pos rfl, bind_ok taken]
  rfl

/-- The tokens of a filter whose parameter has this number. -/
def filterTokens (index : Nat) : Option String → List Token
  | some column => keyword [' '] "WHERE" :: equation column index
  | none => []

theorem where_filterTokens (index : Nat) (filtered : Option String) {us : List Token}
    (halts : Halts us) (ended : Lacks (isWord "where") us) :
    optional "where" expr (filterTokens index filtered ++ us) =
      .ok (filtered.map fun column => equationExpr column index, us) := by
  cases filtered with
  | none => exact optional_other ended
  | some column => exact optional_cons rfl (expr_equation column index us halts)

theorem alias?_halts {ts : List Token} (halts : Halts ts) : alias? ts = .ok (none, ts) := by
  rw [alias?, bind_ok (halts.accept rfl), if_neg Bool.false_ne_true, bind_ok (next?_eq ts),
    halts.bind rfl]
  rfl

/-- The text of what is read is that of the tokens taken. -/
theorem withText_append {r : Reader α} {ts us : List Token} {a : α}
    (taken : r (ts ++ us) = .ok (a, us)) :
    withText r (ts ++ us) = .ok ((a, spanText ts), us) := by
  rw [withText, bind_ok (get_eq _), bind_ok taken, bind_ok (get_eq us), List.length_append,
    Nat.add_sub_cancel, List.take_left]
  rfl

theorem spanText_singleton (t : Token) : spanText [t] = t.text := by
  rw [spanText, List.flatMap_nil, List.append_nil, text]

/-- A column of a result that is one token, with the name that follows it. -/
theorem resultColumn_cons {t : Token} {ts us : List Token} {e : Expr} {called : Option String}
    (other : isSymbol "*" t = false) (taken : expr (t :: ts) = .ok (e, ts))
    (named : alias? ts = .ok (called, us)) :
    resultColumn (t :: ts) = .ok (.expr e called t.text, us) := by
  have notAll : accept (isSymbol "*") (t :: ts) = .ok (false, t :: ts) :=
    accept_other (.cons other ts)
  have single : expr ([t] ++ ts) = .ok (e, ts) := taken
  have read : withText expr (t :: ts) = .ok ((e, t.text), ts) := by
    rw [← spanText_singleton]
    exact withText_append single
  rw [resultColumn, bind_ok notAll, if_neg Bool.false_ne_true, bind_ok read]
  show (alias? >>= fun n => pure (ResultColumn.expr e n t.text)) ts = _
  rw [bind_ok named]
  rfl

theorem resultColumn_named (gap : List Char) (column : String) :
    Takes resultColumn [named gap column]
      (.expr (.name column true) none (Phrase.quoted column)) := by
  intro us halts
  have read := resultColumn_cons rfl (expr_named gap column (halts.bind rfl)) (alias?_halts halts)
  rwa [show (named gap column).text = Phrase.quoted column from String.ofList_toList] at read

/-- A parameter with the name that its column is given. -/
def calledTokens (gap : List Char) (column : String × Nat) : List Token :=
  [bound gap column.2, keyword [' '] "AS", named [' '] column.1]

theorem resultColumn_called (gap : List Char) (column : String × Nat) :
    Takes resultColumn (calledTokens gap column)
      (.expr (.parameter column.2) (some column.1) "?") := by
  intro us _
  have called : alias? (keyword [' '] "AS" :: named [' '] column.1 :: us) =
      .ok (some column.1, us) := rfl
  exact resultColumn_cons rfl (expr_bound gap column.2 rfl) called

/-! ## Rows and definitions -/

theorem assignment_taken (column : String) (index : Nat) {us : List Token} (halts : Halts us)
    (ended : Lacks (isSymbol ",") us) :
    list assignment (equation column index ++ us) = .ok ([(column, .parameter index)], us) := by
  have items : ∀ c ∈ [column], ∀ _ : List Char,
      Takes assignment (equation c index) (c, .parameter index) := by
    intro c _ _ vs halts
    rw [equation, List.cons_append, assignment, bind_ok (name_named _ c _),
      List.cons_append, bind_ok (symbol_cons rfl _)]
    exact (bind_ok (expr_bound [' '] index (halts.bind rfl))).trans rfl
  exact list_listed items [] (List.cons_ne_nil column []) halts ended

def boundTokens (gap : List Char) (index : Nat) : List Token := [bound gap index]

/-- A row of the parameters with these numbers. -/
def rowTokens (gap : List Char) (indices : List Nat) : List Token :=
  sign gap '(' :: listed boundTokens [] indices ++ [sign [] ')']

theorem row_taken (gap : List Char) {indices : List Nat} (nonempty : indices ≠ []) :
    Takes (parenthesized (list expr)) (rowTokens gap indices) (indices.map .parameter) := by
  intro us _
  have closing : Halts (sign [] ')' :: us) := .cons (by simp [halting]) us
  have items : ∀ index ∈ indices, ∀ gap, Takes expr (boundTokens gap index) (.parameter index) :=
    fun index _ gap _ halts => expr_bound gap index (halts.bind rfl)
  have taken := list_listed items [] nonempty closing (.cons rfl us)
  rw [rowTokens, List.append_assoc]
  exact parenthesized_taken gap taken

/-- A word that may be a name though it is not quoted. -/
def IsPlain (w : String) : Prop :=
  isOneWord w.toList = true ∧ reserved.contains (Case.lowerAsciiText w) = false

theorem IsPlain.nameOf? {w : String} (plain : IsPlain w) (gap : List Char) :
    nameOf? (keyword gap w) = some w := by
  have written : (keyword gap w).text = w := String.ofList_toList
  have kind : (keyword gap w).kind = .word := rfl
  simp only [Reader.nameOf?, kind, written, plain.2, Bool.false_eq_true, if_false]

theorem typeWords_taken {words : List String} (plain : ∀ w ∈ words, IsPlain w) :
    ∀ fuel, words.length ≤ fuel → Takes (typeWords fuel) (words.map (keyword [' '])) () := by
  induction words with
  | nil =>
    intro fuel _ us halts
    cases fuel with
    | zero => rfl
    | succ fuel =>
      rw [List.map_nil, List.nil_append, typeWords, bind_ok (next?_eq us), halts.bind rfl]
      rfl
  | cons w words ih =>
    intro fuel enough us halts
    obtain ⟨fuel, rfl⟩ := Nat.exists_eq_add_one_of_ne_zero (Nat.ne_of_gt (Nat.zero_lt_of_lt enough))
    have isName : nameOf? (keyword [' '] w) = some w := (plain w List.mem_cons_self).nameOf? _
    have later := ih (fun v hv => plain v (List.mem_cons_of_mem w hv)) fuel
      (Nat.le_of_succ_le_succ enough) us halts
    rw [List.map_cons, List.cons_append, typeWords, bind_ok (next?_eq _), List.head?_cons,
      Option.bind_some, isName]
    exact later

theorem columnType_taken {words : List String} (plain : ∀ w ∈ words, IsPlain w) :
    Takes columnType (words.map (keyword [' '])) (spanText (words.map (keyword [' ']))) := by
  intro us halts
  refine (bind_ok (withText_append (a := ()) ?_)).trans rfl
  have enough : words.length ≤ (words.map (keyword [' ']) ++ us).length := by simp
  rw [bind_ok (get_eq _), bind_ok (typeWords_taken plain _ enough us halts), bind_ok (get_eq us)]
  split
  · rw [bind_ok (halts.accept rfl)]
    rfl
  · rfl

theorem constraints_halts {ts : List Token} (halts : Halts ts) (fuel : Nat) (c : ColumnDefinition) :
    constraints fuel c ts = .ok (c, ts) := by
  cases fuel with
  | zero => rfl
  | succ fuel =>
    rw [constraints, bind_ok (halts.accept rfl), if_neg Bool.false_ne_true,
      bind_ok (halts.accept rfl), if_neg Bool.false_ne_true, bind_ok (halts.accept rfl),
      if_neg Bool.false_ne_true, bind_ok (halts.accept rfl)]
    rfl

/-- A column's name with the words of its type. -/
def columnTokens (gap : List Char) (column : String × List String) : List Token :=
  named gap column.1 :: column.2.map (keyword [' '])

theorem written_words {words : List String} (nonempty : words ≠ []) :
    written (words.map (keyword [' '])) = ' ' :: (" ".intercalate words).toList := by
  obtain ⟨w, words, rfl⟩ := List.exists_cons_of_ne_nil nonempty
  rw [String.toList_intercalate, List.map_cons (f := String.toList)]
  refine Eq.trans ?_ (Split.flatMap_cons_eq_intercalate ' ' w.toList (words.map String.toList))
  simp [written, keyword, List.flatMap_map]

theorem spanText_words (words : List String) :
    spanText (words.map (keyword [' '])) = " ".intercalate words := by
  cases words with
  | nil => rfl
  | cons w words =>
    have text : spanText ((w :: words).map (keyword [' '])) =
      String.ofList (written ((w :: words).map (keyword [' ']))).tail := rfl
    rw [text, written_words (List.cons_ne_nil w words), List.tail_cons, String.ofList_toList]

theorem columnDefinition_taken (gap : List Char) {column : String × List String}
    (plain : ∀ w ∈ column.2, IsPlain w) :
    Takes columnDefinition (columnTokens gap column)
      ⟨column.1, " ".intercalate column.2, false, .free⟩ := by
  intro us halts
  have typed := columnType_taken plain us halts
  rw [spanText_words] at typed
  rw [columnTokens, List.cons_append, columnDefinition, bind_ok (name_named gap _ _), bind_ok typed,
    bind_ok (get_eq us)]
  exact constraints_halts halts _ _

/-! ## Statements -/

theorem createTable_taken (table : String) {ts us : List Token} {columns : List ColumnDefinition}
    (defined : parenthesized (list columnDefinition) ts = .ok (columns, us)) :
    createTable (keyword [] "CREATE" :: keyword [' '] "TABLE" :: named [' '] table :: ts) =
      .ok (.createTable table (Phrase.quoted table) columns, us) := by
  have written : writtenName (named [' '] table :: ts) =
      .ok ((table, Phrase.quoted table), ts) := by
    show Except.ok ((table, String.ofList (Phrase.quoted table).toList), ts) = _
    rw [String.ofList_toList]
  rw [createTable, bind_ok (word_cons rfl _), bind_ok (word_cons rfl _), bind_ok written]
  exact (bind_ok defined).trans rfl

/-- A text that holds one statement and nothing behind it. -/
def Says (sql : String) (s : Statement) : Prop :=
  nextStatement? (Token.scan sql) = .ok (some (s, []))

theorem says_of_statement {sql : String} {t : Token} {ts : List Token} {s : Statement}
    (scanned : Token.scan sql = t :: ts) (begins : isSymbol ";" t = false)
    (taken : statement (t :: ts) = .ok (s, [])) : Says sql s := by
  rw [Says, nextStatement?, scanned, List.dropWhile_cons_of_neg (by simp [begins])]
  simp only [taken]

theorem statement_create (ts : List Token) :
    statement (keyword [] "CREATE" :: ts) = createTable (keyword [] "CREATE" :: ts) := by
  rw [statement, bind_ok (next?_eq _)]
  rfl

theorem statement_insert (ts : List Token) :
    statement (keyword [] "INSERT" :: ts) = insert (keyword [] "INSERT" :: ts) := by
  rw [statement, bind_ok (next?_eq _)]
  rfl

theorem insert_unnamed (table : String) {ts us : List Token} {rows : List (List Expr)}
    (values : list (parenthesized (list expr)) ts = .ok (rows, us)) :
    insert (keyword [] "INSERT" :: keyword [' '] "INTO" :: named [' '] table ::
      keyword [' '] "VALUES" :: ts) = .ok (.insert table none rows, us) := by
  rw [insert, bind_ok (word_cons rfl _), bind_ok (word_cons rfl _), bind_ok (name_named _ table _),
    bind_ok (next?_eq _)]
  show (word "values" >>= fun _ => list (parenthesized (list expr)) >>= fun r =>
    pure (Statement.insert table none r)) (keyword [' '] "VALUES" :: ts) = _
  rw [bind_ok (word_cons rfl ts), bind_ok values]
  rfl

theorem insert_named (table : String) {ts us vs : List Token} {columns : List String}
    {rows : List (List Expr)}
    (targets : parenthesized (list name) (sign [' '] '(' :: vs) =
      .ok (columns, keyword [' '] "VALUES" :: ts))
    (values : list (parenthesized (list expr)) ts = .ok (rows, us)) :
    insert (keyword [] "INSERT" :: keyword [' '] "INTO" :: named [' '] table ::
      sign [' '] '(' :: vs) = .ok (.insert table (some columns) rows, us) := by
  rw [insert, bind_ok (word_cons rfl _), bind_ok (word_cons rfl _), bind_ok (name_named _ table _),
    bind_ok (next?_eq _)]
  show (some <$> parenthesized (list name) >>= fun targets => word "values" >>= fun _ =>
    list (parenthesized (list expr)) >>= fun r => pure (Statement.insert table targets r))
    (sign [' '] '(' :: vs) = _
  rw [bind_ok (map_ok targets some), bind_ok (word_cons rfl ts), bind_ok values]
  rfl

theorem statement_update (ts : List Token) :
    statement (keyword [] "UPDATE" :: ts) = update (keyword [] "UPDATE" :: ts) := by
  rw [statement, bind_ok (next?_eq _)]
  rfl

theorem statement_delete (ts : List Token) :
    statement (keyword [] "DELETE" :: ts) = delete (keyword [] "DELETE" :: ts) := by
  rw [statement, bind_ok (next?_eq _)]
  rfl

/-- A query is read clause by clause. -/
theorem select_taken {ts us vs ws xs : List Token} {columns : List ResultColumn}
    {source : Option String} {filter : Option Expr} {order : Option (List SortKey)}
    (shown : list resultColumn ts = .ok (columns, us))
    (taken : optional "from" name us = .ok (source, vs))
    (filtered : optional "where" expr vs = .ok (filter, ws))
    (sorted : optional "order" (do word "by"; list sortKey) ws = .ok (order, xs)) :
    select (keyword [] "SELECT" :: ts) = .ok (⟨columns, source, filter, order.getD []⟩, xs) := by
  rw [select, bind_ok (word_cons rfl _), bind_ok shown, bind_ok taken, bind_ok filtered,
    bind_ok sorted]
  rfl

theorem statement_select {ts us : List Token} {q : Select}
    (taken : select (keyword [] "SELECT" :: ts) = .ok (q, us)) :
    statement (keyword [] "SELECT" :: ts) = .ok (.select none q, us) := by
  rw [statement, bind_ok (next?_eq _)]
  exact (bind_ok taken).trans rfl

end NamedStores.Sqlite.Reader
