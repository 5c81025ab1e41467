/-
Each phrase is read as the statement that it says, whatever characters its names have, with its
parameters counted from one in the order in which they stand (`createTable_says`,
`dropTable_says`, `insert_says`, `update_says`, `delete_says`, `select_says`, `values_says`). Where
a list of a phrase would be empty it says no statement; the types of new columns are plain words,
without sizes.
-/
import NamedStores.Proofs.Sqlite.Reading

namespace NamedStores.Sqlite.Phrase

open Token Reader

theorem says_written {sql : String} {t : Token} {ts : List Token} {s : Statement}
    (text : sql.toList = written (t :: ts)) (spelled : Spelled (t :: ts)) (count : Nat)
    (numbers : (t :: ts).filterMap number? = List.range' 1 count)
    (begins : isSymbol ";" t = false) (taken : statement (t :: ts) = .ok (s, [])) : Says sql s :=
  says_of_statement (scan_written spelled numbers text) begins taken

theorem joins_equation (column : String) (index : Nat) : Joins (equation column index) :=
  fun _ spelled ends =>
    .named .space column (.equals rfl (.bound .space index spelled ends)) (Ends.space _)

theorem joins_filterTokens (index : Nat) (filtered : Option String) :
    Joins (filterTokens index filtered) := by
  intro us spelled ends
  cases filtered with
  | none => exact spelled
  | some column =>
    exact .keyword .space rfl (joins_equation column index us spelled ends) (Ends.space _)

theorem ends_filterTokens (index : Nat) (filtered : Option String) {us : List Token}
    (ends : Ends (written us)) : Ends (written (filterTokens index filtered ++ us)) := by
  cases filtered with
  | none => exact ends
  | some column => exact Ends.space _

theorem halts_filterTokens (index : Nat) (filtered : Option String) {us : List Token}
    (halts : Halts us) : Halts (filterTokens index filtered ++ us) := by
  cases filtered with
  | none => exact halts
  | some column => exact .cons (by simp [halting]) _

theorem lacks_filterTokens (index : Nat) (filtered : Option String) {us : List Token}
    (ended : Lacks (isSymbol ",") us) :
    Lacks (isSymbol ",") (filterTokens index filtered ++ us) := by
  cases filtered with
  | none => exact ended
  | some column => exact .cons rfl _

/-- The parameters of a filter. -/
def filterCount (filtered : Option String) : Nat := filtered.elim 0 fun _ => 1

theorem toList_filter (index : Nat) (filtered : Option String) :
    (filter filtered).toList = written (filterTokens index filtered) := by
  cases filtered <;> simp [filter, filterTokens, equation, written, keyword, named, sign, bound]

/-! ## Tables -/

theorem dropTable_says (table : String) : Says (dropTable table) (.dropTable table) := by
  have text : (dropTable table).toList =
      written [keyword [] "DROP", keyword [' '] "TABLE", named [' '] table] := by
    simp [dropTable, written, keyword, named]
  refine says_written text ?_ 0 rfl rfl rfl
  exact .keyword .none rfl (.keyword .space rfl (.named .space table .nil Ends.nil)
    (Ends.space _)) (Ends.space _)

/-! ## Rows -/

theorem delete_says (table : String) (filtered : Option String) :
    Says (delete table filtered)
      (.delete table (filtered.map fun column => equationExpr column 1)) := by
  have text : (delete table filtered).toList = written
      (keyword [] "DELETE" :: keyword [' '] "FROM" :: named [' '] table ::
        (filterTokens 1 filtered ++ [])) := by
    rw [delete, String.toList_append, toList_filter 1]
    simp [written, keyword, named]
  refine says_written text ?_ (filterCount filtered) ?_ rfl ?_
  · have filter := joins_filterTokens 1 filtered [] .nil Ends.nil
    exact .keyword .none rfl (.keyword .space rfl (.named .space table filter
      (ends_filterTokens 1 filtered Ends.nil)) (Ends.space _)) (Ends.space _)
  · cases filtered <;> rfl
  · have filter := where_filterTokens 1 filtered .nil .nil
    rw [statement_delete, Reader.delete, bind_ok (word_cons rfl _), bind_ok (word_cons rfl _),
      bind_ok (name_named _ table _), bind_ok filter]
    rfl

theorem update_says (table column : String) (filtered : Option String) :
    Says (update table column filtered)
      (.update table [(column, .parameter 1)] (filtered.map fun c => equationExpr c 2)) := by
  have text : (update table column filtered).toList = written
      (keyword [] "UPDATE" :: named [' '] table :: keyword [' '] "SET" ::
        (equation column 1 ++ (filterTokens 2 filtered ++ []))) := by
    rw [update, String.toList_append, toList_filter 2]
    simp [written, keyword, named, sign, bound, equation]
  refine says_written text ?_ (filterCount filtered + 1) ?_ rfl ?_
  · have filter := joins_filterTokens 2 filtered [] .nil Ends.nil
    have set := joins_equation column 1 _ filter (ends_filterTokens 2 filtered Ends.nil)
    exact .keyword .none rfl (.named .space table (.keyword .space rfl set (Ends.space _))
      (Ends.space _)) (Ends.space _)
  · cases filtered <;> rfl
  · have filter := where_filterTokens 2 filtered .nil .nil
    have set := assignment_taken column 1 (halts_filterTokens 2 filtered .nil)
      (lacks_filterTokens 2 filtered .nil)
    rw [statement_update, Reader.update, bind_ok (word_cons rfl _), bind_ok (name_named _ table _),
      bind_ok (word_cons rfl _), bind_ok set, bind_ok filter]
    rfl

/-! ## Results -/

def nameTokens (gap : List Char) (name : String) : List Token := [named gap name]

theorem joins_names (ns : List String) {gap : List Char} (isGap : Gap gap) :
    Joins (listed nameTokens gap ns) :=
  .listed (fun n _ _ isGap _ spelled ends => .named isGap n spelled ends) isGap

theorem toList_names {ns : List String} (nonempty : ns ≠ []) (gap : List Char) :
    gap ++ (names ns).toList = written (listed nameTokens gap ns) := by
  refine (written_listed (fun n _ gap => ?_) gap nonempty).symm
  exact List.append_nil _

theorem numbers_names (ns : List String) (gap : List Char) :
    (listed nameTokens gap ns).filterMap number? = [] := by
  have none : ∀ gap n, (nameTokens gap n).filterMap number? = [] := fun _ _ => rfl
  rw [numbers_listed none]
  simp

def selectionTokens (columns : List String) : List Token :=
  if columns = [] then [sign [' '] '*'] else listed nameTokens [' '] columns

/-- What a selection of columns shows. -/
def shown (columns : List String) : List ResultColumn :=
  if columns = [] then [.all]
  else columns.map fun column => .expr (.name column true) none (quoted column)

theorem joins_selectionTokens (columns : List String) : Joins (selectionTokens columns) := by
  rw [selectionTokens]
  split
  · exact fun _ spelled _ => .sign .space (by decide) spelled
  · exact joins_names columns .space

theorem ends_selectionTokens (columns : List String) (us : List Token) :
    Ends (written (selectionTokens columns ++ us)) := by
  rw [selectionTokens]
  split
  · exact Ends.space _
  · rename_i nonempty
    rw [written_append, ← toList_names nonempty]
    exact Ends.space _

theorem numbers_selectionTokens (columns : List String) :
    (selectionTokens columns).filterMap number? = [] := by
  rw [selectionTokens]
  split
  · rfl
  · exact numbers_names columns [' ']

theorem selection_taken (columns : List String) {us : List Token} (halts : Halts us)
    (ended : Lacks (isSymbol ",") us) :
    list resultColumn (selectionTokens columns ++ us) = .ok (shown columns, us) := by
  rw [selectionTokens, shown]
  split
  · have items : ∀ u ∈ [()], ∀ _ : List Char, Takes resultColumn [sign [' '] '*'] .all :=
      fun _ _ _ us _ => rfl
    exact list_listed items [] (List.cons_ne_nil () []) halts ended
  · rename_i nonempty
    exact list_listed (fun c _ gap => resultColumn_named gap c) [' '] nonempty halts ended

def orderTokens : List Token :=
  [keyword [' '] "ORDER", keyword [' '] "BY", keyword [' '] "rowid"]

theorem sorted_orderTokens : optional "order" (do word "by"; list sortKey) orderTokens =
    .ok (some [⟨.name "rowid" false, false⟩], []) := rfl

def selectTokens (table : String) (columns : List String) (filtered : Option String) :
    List Token :=
  selectionTokens columns ++ (keyword [' '] "FROM" :: named [' '] table ::
    (filterTokens 1 filtered ++ orderTokens))

theorem toList_select (table : String) (columns : List String) (filtered : Option String) :
    (select table columns filtered).toList =
      written (keyword [] "SELECT" :: selectTokens table columns filtered) := by
  have selection : ' ' :: (if columns.isEmpty then "*" else names columns).toList =
      written (selectionTokens columns) := by
    cases columns with
    | nil => rfl
    | cons c columns => exact toList_names (List.cons_ne_nil c columns) [' ']
  simp only [selectTokens, written_cons, written_append, ← selection, ← toList_filter]
  simp [select, written, keyword, named, orderTokens]

theorem spelled_selectTokens (table : String) (columns : List String) (filtered : Option String) :
    Spelled (keyword [] "SELECT" :: selectTokens table columns filtered) := by
  have sorting : Spelled orderTokens := .keyword .space rfl (.keyword .space rfl
    (.keyword .space rfl .nil Ends.nil) (Ends.space _)) (Ends.space _)
  have filter := joins_filterTokens 1 filtered _ sorting (Ends.space _)
  have source := Spelled.keyword .space (w := "FROM") rfl (.named .space table filter
    (ends_filterTokens 1 filtered (Ends.space _))) (Ends.space _)
  have selection := joins_selectionTokens columns _ source (Ends.space _)
  exact .keyword .none rfl selection (ends_selectionTokens columns _)

theorem select_says (table : String) (columns : List String) (filtered : Option String) :
    Says (select table columns filtered) (.select none ⟨shown columns, some table,
      filtered.map fun column => equationExpr column 1, [⟨.name "rowid" false, false⟩]⟩) := by
  refine says_written (toList_select table columns filtered)
    (spelled_selectTokens table columns filtered) (filterCount filtered) ?_ rfl ?_
  · rw [List.filterMap_cons_none rfl, selectTokens, List.filterMap_append, numbers_selectionTokens]
    cases filtered <;> rfl
  · refine statement_select (select_taken (selection_taken columns ?_ ?_)
      (optional_cons rfl (name_named [' '] table _)) (where_filterTokens 1 filtered ?_ ?_)
      sorted_orderTokens)
    · exact .cons (by simp [halting]) _
    · exact .cons rfl _
    · exact .cons (by simp [halting]) _
    · exact .cons rfl _

theorem joins_calledTokens {gap : List Char} (isGap : Gap gap) (column : String × Nat) :
    Joins (calledTokens gap column) := by
  intro us spelled ends
  exact .bound isGap _ (.keyword .space rfl (.named .space _ spelled ends) (Ends.space _))
    (Ends.space _)

theorem toList_called {columns : List (String × Nat)} (nonempty : columns ≠ []) (gap : List Char) :
    gap ++ (commas (columns.map fun c => "? AS " ++ quoted c.1)).toList =
      written (listed calledTokens gap columns) := by
  refine (written_listed (fun c _ gap => ?_) gap nonempty).symm
  simp [calledTokens, written, bound, keyword, named]

theorem numbers_called (columns : List (String × Nat)) (gap : List Char) :
    (listed calledTokens gap columns).filterMap number? = columns.map Prod.snd := by
  have one : ∀ gap c, (calledTokens gap c).filterMap number? = [c.2] := fun _ _ => rfl
  rw [numbers_listed one, List.map_eq_flatMap]

theorem values_says {ns : List String} (nonempty : ns ≠ []) :
    Says (values ns) (.select none ⟨(ns.zipIdx 1).map fun n =>
      .expr (.parameter n.2) (some n.1) "?", none, none, []⟩) := by
  have numbered : ns.zipIdx 1 ≠ [] := by simpa using nonempty
  have parts : ns.map (fun n => "? AS " ++ quoted n) =
      (ns.zipIdx 1).map fun n => "? AS " ++ quoted n.1 := by
    conv => lhs; rw [← List.zipIdx_map_fst 1 ns, List.map_map]
    rfl
  have text : (values ns).toList =
      written (keyword [] "SELECT" :: (listed calledTokens [' '] (ns.zipIdx 1) ++ [])) := by
    rw [values, parts, List.append_nil, written_cons, ← toList_called numbered]
    simp [keyword]
  refine says_written text ?_ ns.length ?_ rfl ?_
  · have listing : Joins (listed calledTokens [' '] (ns.zipIdx 1)) :=
      .listed (fun n _ _ isGap => joins_calledTokens isGap n) .space
    refine .keyword .none rfl (listing _ .nil Ends.nil) ?_
    rw [written_append, ← toList_called numbered]
    exact Ends.space _
  · rw [List.filterMap_cons_none rfl, List.append_nil, numbers_called, List.zipIdx_map_snd]
  · have items : ∀ n ∈ ns.zipIdx 1, ∀ gap, Takes resultColumn (calledTokens gap n)
        (.expr (.parameter n.2) (some n.1) "?") := fun n _ gap => resultColumn_called gap n
    have listing := list_listed items [' '] numbered .nil .nil
    exact statement_select (select_taken listing rfl rfl rfl)

/-! ## Insertions -/

theorem toList_parameters (indices : List Nat) :
    (parameters indices.length).toList = written (listed boundTokens [] indices) := by
  cases indices with
  | nil => rfl
  | cons k indices =>
    have items : ∀ i ∈ k :: indices, ∀ gap, written (boundTokens gap i) = gap ++ "?".toList :=
      fun _ _ _ => List.append_nil _
    rw [written_listed items [] (List.cons_ne_nil k indices), List.map_const', parameters,
      List.nil_append]

theorem joins_rowTokens {gap : List Char} (isGap : Gap gap) (indices : List Nat) :
    Joins (rowTokens gap indices) := by
  intro us spelled ends
  have row : Joins (listed boundTokens [] indices) :=
    .listed (fun i _ _ isGap _ spelled ends => .bound isGap i spelled ends) .none
  rw [rowTokens, List.append_assoc]
  exact .sign isGap (by decide) (row _ (.sign .none (by decide) spelled) (Ends.closing _))

theorem toList_rows {rows : List (List Nat)} (nonempty : rows ≠ []) (gap : List Char) :
    gap ++ (commas (rows.map fun row => "(" ++ parameters row.length ++ ")")).toList =
      written (listed rowTokens gap rows) := by
  refine (written_listed (fun row _ gap => ?_) gap nonempty).symm
  rw [rowTokens, written_append, written_cons, ← toList_parameters]
  simp [written, sign]

theorem numbers_rowTokens (gap : List Char) (indices : List Nat) :
    (rowTokens gap indices).filterMap number? = indices := by
  have one : ∀ gap i, (boundTokens gap i).filterMap number? = [i] := fun _ _ => rfl
  rw [rowTokens, List.filterMap_append, List.filterMap_cons_none rfl, numbers_listed one,
    ← List.map_eq_flatMap]
  simp [number?, sign]

/-- The numbers of the parameters of rows of these widths. -/
def rowsFrom (index : Nat) : List Nat → List (List Nat)
  | [] => []
  | width :: widths => List.range' index width :: rowsFrom (index + width) widths

theorem map_length_rowsFrom (widths : List Nat) :
    ∀ index, (rowsFrom index widths).map List.length = widths := by
  induction widths with
  | nil => exact fun _ => rfl
  | cons width widths ih => intro index; rw [rowsFrom, List.map_cons, ih, List.length_range']

/-- The rows' parameters are numbered through. -/
theorem flatten_rowsFrom (widths : List Nat) :
    ∀ index, ∃ count, (rowsFrom index widths).flatten = List.range' index count := by
  induction widths with
  | nil => exact fun _ => ⟨0, rfl⟩
  | cons width widths ih =>
    intro index
    obtain ⟨count, later⟩ := ih (index + width)
    exact ⟨width + count, by rw [rowsFrom, List.flatten_cons, later, List.range'_append_1]⟩

def targetTokens (columns : List String) : List Token :=
  if columns = [] then []
  else sign [' '] '(' :: listed nameTokens [] columns ++ [sign [] ')']

/-- The columns that an insertion names. -/
def targets (columns : List String) : Option (List String) :=
  if columns = [] then none else some columns

theorem joins_targetTokens (columns : List String) : Joins (targetTokens columns) := by
  rw [targetTokens]
  split
  · exact fun _ spelled _ => spelled
  · intro us spelled ends
    rw [List.append_assoc]
    exact .sign .space (by decide)
      (joins_names columns .none _ (.sign .none (by decide) spelled) (Ends.closing _))

theorem ends_targetTokens (columns : List String) {us : List Token} (ends : Ends (written us)) :
    Ends (written (targetTokens columns ++ us)) := by
  rw [targetTokens]
  split
  · exact ends
  · exact Ends.space _

theorem numbers_targetTokens (columns : List String) :
    (targetTokens columns).filterMap number? = [] := by
  rw [targetTokens]
  split
  · rfl
  · rw [List.filterMap_append, List.filterMap_cons_none rfl, numbers_names]
    rfl

theorem toList_targets (columns : List String) :
    (if columns.isEmpty then "" else " (" ++ names columns ++ ")").toList =
      written (targetTokens columns) := by
  cases columns with
  | nil => rfl
  | cons c columns =>
    have list := toList_names (List.cons_ne_nil c columns) []
    rw [targetTokens, if_neg (List.cons_ne_nil c columns), written_append, written_cons, ← list]
    simp [written, sign]

def insertTokens (table : String) (columns : List String) (rows : List (List Nat)) : List Token :=
  keyword [' '] "INTO" :: named [' '] table :: (targetTokens columns ++
    keyword [' '] "VALUES" :: (listed rowTokens [' '] rows ++ []))

theorem toList_insert (table : String) (columns : List String) {widths : List Nat}
    (nonempty : rowsFrom 1 widths ≠ []) : (insert table columns widths).toList =
      written (keyword [] "INSERT" :: insertTokens table columns (rowsFrom 1 widths)) := by
  have parts : (widths.map fun width => "(" ++ parameters width ++ ")") =
      (rowsFrom 1 widths).map fun row => "(" ++ parameters row.length ++ ")" := by
    conv => lhs; rw [← map_length_rowsFrom widths 1, List.map_map]
    rfl
  simp only [insertTokens, written_cons, written_append, ← toList_targets, ← toList_rows nonempty]
  simp [insert, parts, written, keyword, named]

theorem spelled_insertTokens (table : String) (columns : List String) {rows : List (List Nat)}
    (nonempty : rows ≠ []) : Spelled (keyword [] "INSERT" :: insertTokens table columns rows) := by
  have listing : Joins (listed rowTokens [' '] rows) :=
    .listed (fun row _ _ isGap => joins_rowTokens isGap row) .space
  have values : Spelled (keyword [' '] "VALUES" :: (listed rowTokens [' '] rows ++ [])) := by
    refine .keyword .space rfl (listing _ .nil Ends.nil) ?_
    rw [written_append, ← toList_rows nonempty]
    exact Ends.space _
  have into := joins_targetTokens columns _ values (Ends.space _)
  exact .keyword .none rfl (.keyword .space rfl (.named .space table into
    (ends_targetTokens columns (Ends.space _))) (Ends.space _)) (Ends.space _)

theorem numbers_insertTokens (table : String) (columns : List String) (rows : List (List Nat)) :
    (keyword [] "INSERT" :: insertTokens table columns rows).filterMap number? = rows.flatten := by
  rw [insertTokens, List.filterMap_cons_none rfl, List.filterMap_cons_none rfl,
    List.filterMap_cons_none rfl, List.filterMap_append, numbers_targetTokens,
    List.filterMap_cons_none rfl, List.append_nil, numbers_listed numbers_rowTokens,
    List.flatMap_id', List.nil_append]

theorem insertTokens_taken (table : String) (columns : List String) {rows : List (List Nat)}
    {values : List (List Expr)}
    (taken : list (parenthesized (list expr)) (listed rowTokens [' '] rows ++ []) =
      .ok (values, [])) :
    Reader.insert (keyword [] "INSERT" :: insertTokens table columns rows) =
      .ok (.insert table (targets columns) values, []) := by
  rw [insertTokens, targetTokens, targets]
  split
  · exact insert_unnamed table taken
  · rename_i nonempty
    have items : ∀ c ∈ columns, ∀ gap, Takes name (nameTokens gap c) c := fun _ _ _ _ _ => rfl
    have closing : Halts (sign [] ')' :: keyword [' '] "VALUES" ::
        (listed rowTokens [' '] rows ++ [])) := .cons (by simp [halting]) _
    have targets := list_listed items [] nonempty closing (.cons rfl _)
    rw [List.map_id'] at targets
    rw [List.append_assoc]
    exact insert_named table (parenthesized_taken [' '] targets) taken

theorem insert_says (table : String) (columns : List String) {widths : List Nat}
    (nonempty : widths ≠ []) (wide : ∀ width ∈ widths, width ≠ 0) :
    Says (insert table columns widths) (.insert table (targets columns)
      ((rowsFrom 1 widths).map fun row => row.map .parameter)) := by
  have lengths := map_length_rowsFrom widths 1
  have rows : rowsFrom 1 widths ≠ [] := fun none => nonempty (by rw [← lengths, none]; rfl)
  obtain ⟨count, through⟩ := flatten_rowsFrom widths 1
  refine says_written (toList_insert table columns rows) (spelled_insertTokens table columns rows)
    count ?_ rfl ?_
  · rw [numbers_insertTokens, through]
  · have items : ∀ row ∈ rowsFrom 1 widths, ∀ gap,
        Takes (parenthesized (list expr)) (rowTokens gap row) (row.map .parameter) := by
      intro row hr gap
      have width := List.mem_map_of_mem (f := List.length) hr
      rw [lengths] at width
      exact row_taken gap fun empty => wide _ width (by rw [empty]; rfl)
    rw [statement_insert]
    exact insertTokens_taken table columns (list_listed items [' '] rows .nil .nil)

/-! ## New tables -/

theorem intercalate_ne_empty {w : String} (isOne : isOneWord w.toList = true)
    (words : List String) : " ".intercalate (w :: words) ≠ "" := by
  intro empty
  have chars := congrArg String.toList empty
  rw [String.toList_intercalate] at chars
  cases first : w.toList with
  | nil => simp [isOneWord, first] at isOne
  | cons c more => cases words <;> simp [first, List.intercalate_cons_cons] at chars

theorem written_columnTokens {words : List String} (plain : ∀ w ∈ words, IsPlain w) (name : String)
    (gap : List Char) :
    written (columnTokens gap (name, words)) =
      gap ++ (if (" ".intercalate words).isEmpty then quoted name
        else quoted name ++ " " ++ " ".intercalate words).toList := by
  have parts : written (columnTokens gap (name, words)) =
    gap ++ (quoted name).toList ++ written (words.map (keyword [' '])) := rfl
  cases words with
  | nil => simpa [written] using parts
  | cons w words =>
    have visible := intercalate_ne_empty (plain w List.mem_cons_self).1 words
    rw [parts, written_words (List.cons_ne_nil w words)]
    simp [visible]

theorem ends_words (words : List String) {us : List Token} (ends : Ends (written us)) :
    Ends (written (words.map (keyword [' ']) ++ us)) := by
  cases words with
  | nil => exact ends
  | cons w words => exact Ends.space _

theorem joins_words {words : List String} (plain : ∀ w ∈ words, IsPlain w) :
    Joins (words.map (keyword [' '])) := by
  intro us spelled ends
  induction words with
  | nil => exact spelled
  | cons w words ih =>
    have later := ih fun v hv => plain v (List.mem_cons_of_mem w hv)
    refine .keyword .space (plain w List.mem_cons_self).1 later ?_
    exact ends_words words ends

theorem joins_columnTokens {gap : List Char} (isGap : Gap gap) {column : String × List String}
    (plain : ∀ w ∈ column.2, IsPlain w) : Joins (columnTokens gap column) :=
  fun us spelled ends =>
    .named isGap column.1 (joins_words plain us spelled ends) (ends_words column.2 ends)

theorem numbers_columnTokens (gap : List Char) (column : String × List String) :
    (columnTokens gap column).filterMap number? = [] := by
  have none : ∀ w ∈ column.2, number? (keyword [' '] w) = none := fun _ _ => rfl
  rw [columnTokens, List.filterMap_cons_none rfl, List.filterMap_map]
  exact List.filterMap_eq_nil_iff.mpr none

/-- The types of the columns are plain words, if they have any. -/
theorem createTable_says (table : String) {columns : List (String × List String)}
    (nonempty : columns ≠ []) (plain : ∀ c ∈ columns, ∀ w ∈ c.2, IsPlain w) :
    Says (createTable table (columns.map fun c => (c.1, " ".intercalate c.2)))
      (.createTable table (quoted table)
        (columns.map fun c => ⟨c.1, " ".intercalate c.2, false, .free⟩)) := by
  have definitions :=
    written_listed (fun c hc gap => written_columnTokens (plain c hc) c.1 gap) [] nonempty
  have text : (createTable table (columns.map fun c => (c.1, " ".intercalate c.2))).toList =
      written (keyword [] "CREATE" :: keyword [' '] "TABLE" :: named [' '] table ::
        (sign [' '] '(' :: listed columnTokens [] columns ++ [sign [] ')'])) := by
    simp only [written_cons, written_append, List.cons_append, definitions]
    simp [createTable, written, keyword, named, sign, Function.comp_def]
  refine says_written text ?_ 0 ?_ rfl ?_
  · have listing : Joins (listed columnTokens [] columns) :=
      .listed (fun c hc _ isGap => joins_columnTokens isGap (plain c hc)) .none
    have spelled := listing _ (.sign .none (by decide) .nil) (Ends.closing _)
    exact .keyword .none rfl (.keyword .space rfl (.named .space table
      (.sign .space (by decide) spelled) (Ends.space _)) (Ends.space _)) (Ends.space _)
  · have none : (sign [' '] '(' :: listed columnTokens [] columns ++ [sign [] ')']).filterMap
        number? = [] := by
      rw [List.filterMap_append, List.filterMap_cons_none rfl, numbers_listed numbers_columnTokens]
      simp [number?, sign]
    rw [List.filterMap_cons_none rfl, List.filterMap_cons_none rfl, List.filterMap_cons_none rfl,
      none]
    rfl
  · have items : ∀ c ∈ columns, ∀ gap, Takes columnDefinition (columnTokens gap c)
        ⟨c.1, " ".intercalate c.2, false, .free⟩ :=
      fun c hc gap => columnDefinition_taken gap (plain c hc)
    have closing : Halts [sign [] ')'] := .cons (by simp [halting]) []
    have taken := list_listed items [] nonempty closing (.cons rfl _)
    rw [statement_create]
    exact createTable_taken table (parenthesized_taken [' '] taken)

end NamedStores.Sqlite.Phrase
