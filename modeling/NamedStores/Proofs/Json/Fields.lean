/-
An object read as a structure, against the same object read as a map. The reader of a structure
takes the values of the fields it knows as they come, and passes over the others; it refuses a
value that has not its field's shape, and a field that comes twice. So what it gives, and whether it
gives anything, is decided by the entries that the other reader finds in the same text.
-/
import NamedStores.Proofs.Json.Passing
import NamedStores.Proofs.Json.RoundTrip
import NamedStores.Proofs.Record

namespace NamedStores.Json

/-! ## Shapes that judge values -/

/-- Reading such a shape is reading a value and then taking it or not; so much fuel is needed. -/
def Judges (need : Nat) (shape : Shape) (takes : Json → Bool) : Prop :=
  ∀ {fuel depth bs v rest}, value fuel depth bs = .ok (v, rest) → ∀ fuel' depth', need ≤ fuel' →
    (readAs fuel' depth' shape bs).toOption = if takes v then some (v, rest) else none

/-- What takes null as well. -/
def orNull (takes : Json → Bool) : Json → Bool
  | .null => true
  | v => takes v

theorem mismatch_none {α : Type} (wanted : String) (b : UInt8) (rest : Bytes) :
    (mismatch wanted b rest : Except Fault α).toOption = none := by
  unfold mismatch
  split
  · rfl
  split
  · rfl
  split <;> rfl

/-- A value is a container, or it is read by its first octet. -/
theorem value_cases {fuel depth : Nat} {bs rest : Bytes} {v : Json}
    (h : value fuel depth bs = .ok (v, rest)) : ∃ b more, skipBlanks bs = b :: more ∧
      ((asChar b = '[' ∧ ∃ vs, v = .array vs) ∨ (asChar b = '\x7b' ∧ ∃ es, v = .object es) ∨
        (asChar b ≠ '[' ∧ asChar b ≠ '\x7b' ∧ scalar b more = .ok (v, rest))) := by
  cases fuel with
  | zero => cases h
  | succ fuel =>
    rw [value] at h
    split at h
    · cases h
    next b more visible =>
    refine ⟨b, more, visible, ?_⟩
    split at h
    · next list =>
      split at h
      · cases h
      split at h
      · cases h
      · cases h
        exact .inl ⟨list, _, rfl⟩
    next notList =>
    split at h
    · next object =>
      split at h
      · cases h
      split at h
      · cases h
      · cases h
        exact .inr (.inl ⟨object, _, rfl⟩)
    next notObject => exact .inr (.inr ⟨notList, notObject, h⟩)

/-- A value that is no container, and how a number begins. -/
theorem scalar_cases {b : UInt8} {bs rest : Bytes} {v : Json} (h : scalar b bs = .ok (v, rest)) :
    ((asChar b = '-' || isDigit b) = true ∧ ((∃ n, v = .integer n) ∨ ∃ x, v = .float x)) ∨
      v = .null ∨ (∃ t, v = .bool t) ∨ ∃ s, v = .string s := by
  unfold scalar at h
  split at h
  · obtain ⟨_, -, same⟩ := map_eq_ok h
    cases same
    exact .inr (.inl rfl)
  · obtain ⟨_, -, same⟩ := map_eq_ok h
    cases same
    exact .inr (.inr (.inl ⟨true, rfl⟩))
  · obtain ⟨_, -, same⟩ := map_eq_ok h
    cases same
    exact .inr (.inr (.inl ⟨false, rfl⟩))
  · next minus =>
    exact .inl ⟨by simp only [minus, decide_true, Bool.true_or], Number.read_number _ _ h⟩
  · obtain ⟨_, -, same⟩ := map_eq_ok h
    cases same
    exact .inr (.inr (.inr ⟨_, rfl⟩))
  · split at h
    · next digit =>
      exact .inl ⟨by simp only [digit, Bool.or_true], Number.read_number _ _ h⟩
    · cases h

theorem scalar_integer {b : UInt8} {bs rest : Bytes} {n : Int}
    (h : scalar b bs = .ok (.integer n, rest)) : (asChar b = '-' || isDigit b) = true := by
  rcases scalar_cases h with ⟨number, -⟩ | null | ⟨t, bool⟩ | ⟨s, string⟩
  · exact number
  · cases null
  · cases bool
  · cases string

theorem scalar_ne_object (b : UInt8) (bs rest : Bytes) (es : List (String × Json)) :
    scalar b bs ≠ .ok (.object es, rest) := by
  intro h
  rcases scalar_cases h with ⟨-, ⟨n, integer⟩ | ⟨x, float⟩⟩ | null | ⟨t, bool⟩ | ⟨s, string⟩
  · cases integer
  · cases float
  · cases null
  · cases bool
  · cases string

theorem isSome_unsigned? (bits : Nat) (n : Int) : ((Json.integer n).unsigned? bits).isSome = true ↔
    0 ≤ n ∧ n < Int.ofNat (Nat.pow 2 bits) := by
  rw [Option.isSome_iff_exists]
  constructor
  · intro h
    obtain ⟨m, given⟩ := h
    obtain ⟨same, small⟩ := unsigned?_eq_some.mp given
    cases same
    exact ⟨Int.natCast_nonneg m, Int.ofNat_lt.mpr small⟩
  · intro h
    obtain ⟨low, high⟩ := h
    obtain ⟨m, rfl⟩ := Int.eq_ofNat_of_zero_le low
    exact ⟨m, unsigned?_eq_some.mpr ⟨rfl, Int.ofNat_lt.mp high⟩⟩

theorem judges_unsigned (bits : Nat) :
    Judges 1 (.unsigned bits) fun v => (v.unsigned? bits).isSome := by
  intro fuel depth bs v rest read fuel' depth' enough
  obtain ⟨k, rfl⟩ : ∃ k, fuel' = k + 1 := ⟨fuel' - 1, by omega⟩
  obtain ⟨b, more, visible, kind⟩ := value_cases read
  have asked : readAs (k + 1) depth' (.unsigned bits) bs =
      readInteger (Shape.unsigned bits).wanted 0 (Int.ofNat (Nat.pow 2 bits)) b more := by
    rw [readAs, visible]
  have other (notNumber : ¬ (asChar b = '-' || isDigit b) = true)
      (notInteger : ∀ n, v ≠ .integer n) :
      (readAs (k + 1) depth' (.unsigned bits) bs).toOption =
        if (v.unsigned? bits).isSome then some (v, rest) else none := by
    have refused : v.unsigned? bits = none := by
      cases v <;> first | rfl | exact absurd rfl (notInteger _)
    rw [asked, readInteger, if_neg notNumber, mismatch_none, refused]
    rfl
  rcases kind with ⟨mark, vs, rfl⟩ | ⟨mark, es, rfl⟩ | ⟨-, -, single⟩
  · obtain rfl : b = 0x5B := (asChar_eq_iff (by decide)).mp mark
    exact other (by decide) fun n h => by cases h
  · obtain rfl : b = 0x7B := (asChar_eq_iff (by decide)).mp mark
    exact other (by decide) fun n h => by cases h
  · by_cases number : (asChar b = '-' || isDigit b) = true
    · rw [asked, readInteger, if_pos number, single]
      cases v with
      | integer n =>
        dsimp only
        by_cases bounds : 0 ≤ n ∧ n < Int.ofNat (Nat.pow 2 bits)
        · rw [if_pos bounds, if_pos ((isSome_unsigned? bits n).mpr bounds)]
          rfl
        · rw [if_neg bounds, if_neg fun h => bounds ((isSome_unsigned? bits n).mp h)]
          rfl
      | _ => exact mismatch_none _ _ _
    · refine other number fun n same => ?_
      subst same
      exact number (scalar_integer single)

theorem orNull_of_ne {v : Json} (other : v ≠ .null) (takes : Json → Bool) :
    orNull takes v = takes v := by
  cases v <;> first | rfl | exact absurd rfl other

theorem value_visible {fuel depth : Nat} {b : UInt8} {bs more rest : Bytes} {v : Json}
    (visible : skipBlanks bs = b :: more) (h : value fuel depth bs = .ok (v, rest)) :
    value fuel depth (b :: more) = .ok (v, rest) := by
  cases fuel with
  | zero => cases h
  | succ fuel =>
    rw [value] at h ⊢
    rwa [← visible, skipBlanks_skipBlanks]

theorem judges_optional {need : Nat} {shape : Shape} {takes : Json → Bool}
    (judges : Judges need shape takes) : Judges (need + 1) (.optional shape) (orNull takes) := by
  intro fuel depth bs v rest read fuel' depth' enough
  obtain ⟨k, rfl⟩ : ∃ k, fuel' = k + 1 := ⟨fuel' - 1, by omega⟩
  obtain ⟨b, more, visible, kind⟩ := value_cases read
  have asked : readAs (k + 1) depth' (.optional shape) bs =
      if asChar b = 'n' then scalar b more else readAs k depth' shape (b :: more) := by
    rw [readAs, visible]
  rw [asked]
  by_cases mark : asChar b = 'n'
  · rw [if_pos mark]
    rcases kind with ⟨list, -⟩ | ⟨object, -⟩ | ⟨-, -, single⟩
    · exact absurd (mark.symm.trans list) (by decide)
    · exact absurd (mark.symm.trans object) (by decide)
    · have null : v = .null := by
        rw [scalar, mark] at single
        obtain ⟨left, -, same⟩ := map_eq_ok single
        cases same
        rfl
      rw [single, null]
      rfl
  · have some : v ≠ .null := by
      rintro rfl
      rcases kind with ⟨-, vs, array⟩ | ⟨-, es, object⟩ | ⟨-, -, single⟩
      · cases array
      · cases object
      · have word := scalar_null.mp single
        exact mark ((asChar_eq_iff (by decide)).mpr (List.cons.inj word).1)
    rw [if_neg mark, orNull_of_ne some]
    exact judges (value_visible visible read) k depth' (by omega)

/-! ## Fields -/

section Fields

variable (fields : List (String × Shape)) (takes : Shape → Json → Bool)

/-- The fields given by the entries of an object, the last one first, if none of them is given twice
and each value is taken. -/
def gather (given : List (String × Json)) : List (String × Json) → Option (List (String × Json))
  | [] => some given
  | (name, v) :: es =>
    match (fields.find? (·.1 = name)).map (·.2) with
    | none => gather given es
    | some shape =>
      if given.any (·.1 = name) then none
      else if takes shape v then gather ((name, v) :: given) es
      else none

variable {fields takes} {need : Nat}

/-- The entries that have a known field's name. -/
def known (fields : List (String × Shape)) (es : List (String × Json)) : List (String × Json) :=
  es.filter fun e => (fields.find? (·.1 = e.1)).isSome

theorem known_cons (e : String × Json) (es : List (String × Json)) : known fields (e :: es) =
    if (fields.find? (·.1 = e.1)).isSome then e :: known fields es else known fields es :=
  List.filter_cons

/-- What is gathered is all that is known. -/
theorem gather_eq_some {given got es : List (String × Json)}
    (h : gather fields takes given es = some got) : got = (known fields es).reverse ++ given := by
  induction es generalizing given with
  | nil =>
    cases h
    rfl
  | cons e es ih =>
    obtain ⟨name, v⟩ := e
    rw [gather] at h
    rw [known_cons]
    dsimp only at h ⊢
    cases found : fields.find? (·.1 = name) with
    | none =>
      rw [found] at h
      exact ih h
    | some f =>
      rw [found] at h
      simp only [Option.map_some] at h
      split at h
      · cases h
      split at h
      · rw [ih h, Option.isSome_some, if_pos rfl, List.reverse_cons, List.append_assoc]
        rfl
      · cases h

/-- Known entries with different names and values that are taken are all gathered. -/
theorem gather_of_taken {given es : List (String × Json)}
    (taken : ∀ e ∈ es, ∃ f, fields.find? (·.1 = e.1) = some f ∧ takes f.2 e.2 = true)
    (apart : (es.map (·.1)).Nodup) (fresh : ∀ e ∈ es, e.1 ∉ given.map (·.1)) :
    gather fields takes given es = some (es.reverse ++ given) := by
  induction es generalizing given with
  | nil => rfl
  | cons e es ih =>
    obtain ⟨name, v⟩ := e
    obtain ⟨f, found, taking⟩ := taken (name, v) List.mem_cons_self
    rw [List.map_cons, List.nodup_cons] at apart
    have once : ¬ given.any (·.1 = name) = true := by
      intro twice
      obtain ⟨p, inside, same⟩ := List.any_eq_true.mp twice
      exact fresh (name, v) List.mem_cons_self
        (List.mem_map.mpr ⟨p, inside, of_decide_eq_true same⟩)
    have later : ∀ d ∈ es, d.1 ∉ ((name, v) :: given).map (·.1) := by
      intro d hd inside
      rcases List.mem_cons.mp inside with same | before
      · exact apart.1 (List.mem_map.mpr ⟨d, hd, same⟩)
      · exact fresh d (List.mem_cons_of_mem _ hd) before
    simp only [gather, found, Option.map_some, if_neg once]
    rw [if_pos taking, ih (fun d hd => taken d (List.mem_cons_of_mem _ hd)) apart.2 later,
      List.reverse_cons, List.append_assoc, List.singleton_append]

/-- A known field is looked up among the known entries as in the map of all. -/
theorem find?_known {name : String} (isKnown : (fields.find? (·.1 = name)).isSome = true)
    (es : List (String × Json)) : ((known fields es).reverse.find? (·.1 = name)).map (·.2) =
      (SortedMap.ofList es).get? name := by
  rw [SortedMap.get?_ofList, known, ← List.filter_reverse, List.find?_filter]
  congr 2
  funext e
  by_cases same : e.1 = name
  · simp only [same, isKnown, decide_true, and_self]
  · simp only [same, decide_false, Bool.false_eq_true, and_false]

/-- By induction on the fuel of the reader of entries. -/
theorem readFields_of_entries (judged : ∀ f ∈ fields, Judges need f.2 (takes f.2)) {fuel : Nat} :
    ∀ {depth first bs es rest}, entries fuel depth first bs = .ok (es, rest) →
      ∀ {fuel'}, bs.length + need ≤ fuel' → ∀ depth' given,
        (readFields fuel' depth' fields first given bs).toOption =
          (gather fields takes given es).map fun got => (got, rest) := by
  induction fuel with
  | zero =>
    intro depth first bs es rest h
    cases h
  | succ fuel ih =>
    intro depth first bs es rest h fuel' enough depth' given
    rw [entries] at h
    split at h
    · cases h
    · next left gone =>
      cases h
      obtain ⟨n, used, -⟩ := nextKey_passed gone
      obtain ⟨k, rfl⟩ : ∃ k, fuel' = k + 1 := ⟨fuel' - 1, by omega⟩
      rw [readFields, gone]
      rfl
    next more gone =>
    have taken := (nextKey_passed gone).1
    obtain ⟨k, rfl⟩ : ∃ k, fuel' = k + 1 := ⟨fuel' - 1, by omega⟩
    split at h
    · cases h
    next name behindKey key =>
    have shorter := (readString_passed key).1
    split at h
    · cases h
    next behindColon colon =>
    have shorter' := length_colon colon
    split at h
    · cases h
    next v middle read =>
    obtain ⟨passed, shorter''⟩ := value_passed read
    split at h
    · cases h
    next es left later =>
    cases h
    have going := @ih _ _ _ _ _ later k (by omega) depth'
    rw [readFields, gone]
    simp only [key, gather]
    cases known : fields.find? (·.1 = name) with
    | none =>
      simp only [Option.map_none, colon, passed]
      exact going given
    | some f =>
      have judges := judged f (List.mem_of_find?_eq_some known) read k depth' (by omega)
      simp only [Option.map_some]
      by_cases twice : given.any (·.1 = name) = true
      · rw [if_pos twice, if_pos twice]
        rfl
      · rw [if_neg twice, if_neg twice, colon]
        dsimp only
        by_cases taking : takes f.2 v = true
        · rw [if_pos taking] at judges ⊢
          rw [toOption_eq_some.mp judges]
          exact going _
        · rw [if_neg taking] at judges ⊢
          cases refused : readAs k depth' f.2 behindColon with
          | error e => rfl
          | ok p => rw [refused] at judges; cases judges

/-- The value of each field, or null where none is given. -/
def completed (fields : List (String × Shape)) (given : List (String × Json)) :
    List (String × Json) :=
  fields.map fun f => (f.1, ((given.find? (·.1 = f.1)).map (·.2)).getD .null)

theorem completeFields_optional (optional : ∀ f ∈ fields, f.2.isOptional = true)
    (given : List (String × Json)) (rest : Bytes) :
    completeFields given rest fields = .ok (completed fields given) := by
  induction fields with
  | nil => rfl
  | cons f fields ih =>
    have later := ih fun d hd => optional d (List.mem_cons_of_mem f hd)
    rw [completeFields]
    cases found : given.find? (·.1 = f.1) with
    | none =>
      simp only [Option.map_none, optional f List.mem_cons_self, if_true, later]
      simp only [Except.map, completed, List.map_cons, found]
      rfl
    | some e =>
      simp only [Option.map_some, later]
      simp only [Except.map, completed, List.map_cons, found]
      rfl

theorem get?_completed {name : String} (isKnown : (fields.find? (·.1 = name)).isSome = true)
    (given : List (String × Json)) : SortedMap.get? (completed fields given) name =
      some (((given.find? (·.1 = name)).map (·.2)).getD .null) := by
  obtain ⟨f, found⟩ := Option.isSome_iff_exists.mp isKnown
  have same : f.1 = name := by simpa using List.find?_some found
  have first : (completed fields given).find? (·.1 = name) =
      some (f.1, ((given.find? (·.1 = f.1)).map (·.2)).getD .null) := by
    rw [completed, List.find?_map]
    exact congrArg (Option.map _) found
  rw [SortedMap.get?, first, same]
  rfl

end Fields

/-! ## Whole texts -/

/-- The text is an object that has these entries, as they come. -/
def Spells (bs : Bytes) (es : List (String × Json)) : Prop :=
  ∃ b more rest, skipBlanks bs = b :: more ∧ asChar b = '\x7b' ∧
    entries (2 * bs.length + 2) (nestingLimit - 1) true more = .ok (es, rest) ∧
      finish rest = .ok ()

theorem spells_of_ofOctets {bs : Bytes} {m : Record} (h : ofOctets bs = .ok (.object m)) :
    ∃ es, Spells bs es ∧ m = SortedMap.ofList es := by
  obtain ⟨rest, given, ended⟩ := read_eq_ok.mp (ofOctets_eq_ok.mp h)
  rw [fuelFor, value] at given
  split at given
  · cases given
  next b more visible =>
  split at given
  · split at given
    · cases given
    · split at given <;> cases given
  split at given
  · next object =>
    split at given
    · cases given
    split at given
    · cases given
    next es left read =>
    cases given
    exact ⟨es, ⟨b, more, rest, visible, object, read, ended⟩, rfl⟩
  · exact absurd given (scalar_ne_object _ _ _ _)

/-- Of a text that spells entries the record of these is read. -/
theorem Spells.ofOctets {bs : Bytes} {es : List (String × Json)} (spells : Spells bs es) :
    ofOctets bs = .ok (.object (SortedMap.ofList es)) := by
  obtain ⟨b, more, rest, visible, object, read, ended⟩ := spells
  have notList : ¬ asChar b = '[' := by rw [object]; decide
  have shallow : ¬ nestingLimit ≤ 1 := by decide
  refine ofOctets_eq_ok.mpr (read_eq_ok.mpr ⟨rest, ?_, ended⟩)
  rw [fuelFor, value, visible]
  simp only [if_neg notList, if_pos object, if_neg shallow, read]

/-- The text of an object spells its entries in their order, whatever that is. -/
theorem spells_octets {es : List (String × Json)}
    (readable : ∀ e ∈ es, Readable (nestingLimit - 1) e.2) : Spells (object es).octets es := by
  have written := octets_object es
  have reads := (reads_written (2 * (object es).octets.length + 2)).2.2 true [] readable (by
    rw [written, List.length_cons, List.length_append]
    omega)
  refine ⟨0x7B, _, [], ?_, by decide, reads, rfl⟩
  rw [written]
  exact skipBlanks_visible (by decide) _

/-- An object is read as a structure by its entries alone. -/
theorem ofOctetsAs_structure {fields : List (String × Shape)} {takes : Shape → Json → Bool}
    {need : Nat} (judged : ∀ f ∈ fields, Judges need f.2 (takes f.2))
    (optional : ∀ f ∈ fields, f.2.isOptional = true) {bs : Bytes} {es : List (String × Json)}
    (spells : Spells bs es) (few : need ≤ 3) (name : String) :
    (ofOctetsAs (.structure name fields) bs).toOption =
      (gather fields takes [] es).map fun got => .object (completed fields got) := by
  obtain ⟨b, more, rest, visible, object, read, ended⟩ := spells
  have taken := length_skipBlanks visible
  have filled := readFields_of_entries judged read
    (show more.length + need ≤ 2 * bs.length + 2 by omega) (nestingLimit - 1) []
  have notList : ¬ asChar b = '[' := by rw [object]; decide
  have shallow : ¬ nestingLimit ≤ 1 := by decide
  have asked : readAs (fuelFor bs) nestingLimit (.structure name fields) bs =
      (readFields (2 * bs.length + 2) (nestingLimit - 1) fields true [] more).map fun p =>
        (.object (completed fields p.1), p.2) := by
    rw [fuelFor, readAs, visible]
    simp only [if_neg notList, if_pos object, if_neg shallow, completeFields_optional optional]
    cases readFields (2 * bs.length + 2) (nestingLimit - 1) fields true [] more <;> rfl
  rw [ofOctetsAs, asked]
  cases given : readFields (2 * bs.length + 2) (nestingLimit - 1) fields true [] more with
  | error f =>
    rw [given] at filled
    have none : gather fields takes [] es = none := Option.map_eq_none_iff.mp filled.symm
    rw [none]
    rfl
  | ok p =>
    rw [given] at filled
    obtain ⟨got, gathered, same⟩ := Option.map_eq_some_iff.mp filled.symm
    subst same
    rw [gathered]
    simp only [Except.map, bind, Except.bind, ended]
    rfl

end NamedStores.Json
