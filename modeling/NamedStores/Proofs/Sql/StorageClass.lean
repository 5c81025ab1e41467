/-
Values of SQLite in JSON. The class of a value decides what it becomes, and nothing of it is lost
within its class: the type of the column only tells truth values among integers, and documents
among texts. So null stands for few things, a null and what JSON has no other word for.
-/
import NamedStores.Proofs.Json.Null
import NamedStores.Proofs.Json.RoundTrip
import NamedStores.Proofs.Text.Base64
import NamedStores.Sqlite.Connection

namespace NamedStores

/-! ## Kinds of columns -/

namespace Sql.ColumnKind

/-- The word that tells the kind of a type. -/
def word (typeName : String) : String :=
  String.ofList (Blank.firstWord (typeName.toList.map Case.lowerAscii))

/-- No word is listed under two kinds, and none under text. -/
theorem typeNames_apart : ∀ p ∈ typeNames, ∀ q ∈ typeNames,
    (p.1 = q.1 → p = q) ∧ (∀ name ∈ p.2, name ∈ q.2 → p = q) ∧ p.1 ≠ .text := by
  decide +kernel

/-- A kind with type names of its own is that of the types whose word is one of them. -/
theorem ofTypeName_eq_iff {kind : ColumnKind} {names : List String}
    (listed : (kind, names) ∈ typeNames) {typeName : String} :
    ofTypeName typeName = kind ↔ word typeName ∈ names := by
  rw [ofTypeName, ← word]
  cases found : typeNames.find? fun p => p.2.contains (word typeName) with
  | none =>
    have absent := List.find?_eq_none.mp found (kind, names) listed
    have other := (typeNames_apart _ listed _ listed).2.2
    refine iff_of_false (fun same => other same.symm) fun inside => absent ?_
    exact List.contains_iff_mem.mpr inside
  | some p =>
    have mem := List.mem_of_find?_eq_some found
    have inside : word typeName ∈ p.2 := by simpa using List.find?_some found
    obtain ⟨ofKind, ofWord, -⟩ := typeNames_apart p mem _ listed
    constructor
    · intro same
      rw [ofKind same] at inside
      exact inside
    · intro shared
      exact congrArg Prod.fst (ofWord _ inside shared)

end Sql.ColumnKind

namespace Sqlite

open Sql (ColumnKind)

/-- Columns whose integers are truth values. -/
def MarksTruth (typeName : String) : Prop := ColumnKind.word typeName ∈ ["bool", "boolean"]

/-- Columns whose texts are documents, where they are JSON. -/
def MarksDocuments (typeName : String) : Prop := ColumnKind.word typeName ∈ ["json", "jsonb"]

/-- What a value becomes in a column of a type. -/
inductive Becomes (typeName : String) : Value → Json → Prop
  | null : Becomes typeName .null .null
  | integer (n : Int) : ¬ MarksTruth typeName → Becomes typeName (.integer n) (.integer n)
  | truth (n : Int) (b : Bool) : MarksTruth typeName → (b = true ↔ n ≠ 0) →
      Becomes typeName (.integer n) (.bool b)
  | real (x : Double) : x.isFinite = true → Becomes typeName (.real x) (.float x)
  | beyond (x : Double) : x.isFinite = false → Becomes typeName (.real x) .null
  | text (s : String) : ¬ MarksDocuments typeName → Becomes typeName (.text s) (.string s)
  | document (s : String) (d : Json) : MarksDocuments typeName → Json.ofText s = .ok d →
      Becomes typeName (.text s) d
  | plain (s : String) : MarksDocuments typeName → (∀ d, Json.ofText s ≠ .ok d) →
      Becomes typeName (.text s) (.string s)
  | blob (bs : Bytes) (s : String) : Base64.decode? s.toList = some bs →
      Becomes typeName (.blob bs) (.string s)

theorem kind_boolean {typeName : String} :
    ColumnKind.ofTypeName typeName = .boolean ↔ MarksTruth typeName :=
  ColumnKind.ofTypeName_eq_iff (by decide)

theorem kind_json {typeName : String} :
    ColumnKind.ofTypeName typeName = .json ↔ MarksDocuments typeName :=
  ColumnKind.ofTypeName_eq_iff (by decide)

namespace Value

variable {typeName : String} {v : Value} {x : Json}

/-! ## What values become -/

theorem json_integer (n : Int) :
    (integer n).json (.ofTypeName typeName) = x ↔ Becomes typeName (.integer n) x := by
  rw [json]
  by_cases marked : MarksTruth typeName
  · rw [if_pos (kind_boolean.mpr marked)]
    constructor
    · intro shown
      rw [← shown]
      exact .truth n _ marked decide_eq_true_iff
    · intro h
      cases h with
      | integer _ unmarked => exact absurd marked unmarked
      | truth _ b _ nonzero => rw [Json.bool.injEq, Bool.eq_iff_iff, decide_eq_true_iff, nonzero]
  · rw [if_neg fun kind => marked (kind_boolean.mp kind)]
    constructor
    · intro shown
      rw [← shown]
      exact .integer n marked
    · intro h
      cases h with
      | integer => rfl
      | truth _ _ marked' _ => exact absurd marked' marked

theorem json_real (d : Double) :
    (real d).json (.ofTypeName typeName) = x ↔ Becomes typeName (.real d) x := by
  rw [json, Json.ofDouble]
  constructor
  · intro h
    split at h
    · rename_i finite
      cases h
      exact .real d finite
    · rename_i beyond
      cases h
      exact .beyond d (by simpa using beyond)
  · intro h
    cases h with
    | real _ finite => rw [if_pos finite]
    | beyond _ beyond => rw [beyond]; rfl

theorem json_text (s : String) :
    (text s).json (.ofTypeName typeName) = x ↔ Becomes typeName (.text s) x := by
  rw [json]
  by_cases marked : MarksDocuments typeName
  · rw [if_pos (kind_json.mpr marked)]
    cases read : Json.ofText s with
    | ok d =>
      constructor
      · intro shown
        rw [← shown]
        exact .document s d marked read
      · intro h
        cases h with
        | text _ unmarked => exact absurd marked unmarked
        | document _ _ _ same => exact Except.ok.inj (read.symm.trans same)
        | plain _ _ unread => exact absurd read (unread d)
    | error reason =>
      have unread (d : Json) : Json.ofText s ≠ .ok d := by
        rw [read]
        intro h
        cases h
      constructor
      · intro shown
        rw [← shown]
        exact .plain s marked unread
      · intro h
        cases h with
        | text => rfl
        | document _ _ _ same => exact absurd same (unread _)
        | plain => rfl
  · rw [if_neg fun kind => marked (kind_json.mp kind)]
    constructor
    · intro shown
      rw [← shown]
      exact .text s marked
    · intro h
      cases h with
      | text => rfl
      | document _ _ marked' _ => exact absurd marked' marked
      | plain _ marked' _ => exact absurd marked' marked

theorem json_blob (bs : Bytes) :
    (blob bs).json (.ofTypeName typeName) = x ↔ Becomes typeName (.blob bs) x := by
  rw [json, Base64.text]
  constructor
  · intro shown
    rw [← shown]
    exact .blob bs _ (by rw [String.toList_ofList, Base64.decode?_encode])
  · intro h
    cases h with
    | blob _ s read => rw [← Base64.decode?_eq_some_iff.mp read, String.ofList_toList]

/-- A value becomes what its class and its column say, and nothing else. -/
theorem json_eq_iff : v.json (.ofTypeName typeName) = x ↔ Becomes typeName v x := by
  cases v with
  | null =>
    constructor
    · intro shown
      rw [← shown]
      exact .null
    · intro h
      cases h
      rfl
  | integer n => exact json_integer n
  | real d => exact json_real d
  | text s => exact json_text s
  | blob bs => exact json_blob bs

end Value

/-! ## What becomes null -/

/-- The values that become null: nothing at all, a number that is not finite, and the word. -/
inductive BecomesNull (typeName : String) : Value → Prop
  | null : BecomesNull typeName .null
  | beyond (x : Double) : x.isFinite = false → BecomesNull typeName (.real x)
  | word (s : String) (before after : List Char) : MarksDocuments typeName →
      (∀ c ∈ before ++ after, c ∈ Json.blanks) → s.toList = before ++ "null".toList ++ after →
      BecomesNull typeName (.text s)

theorem becomes_null_iff {typeName : String} {v : Value} :
    Becomes typeName v .null ↔ BecomesNull typeName v := by
  constructor
  · intro h
    cases h with
    | null => exact .null
    | beyond x beyond => exact .beyond x beyond
    | document s d marked read =>
      obtain ⟨before, after, blank, written⟩ := Json.ofText_null.mp read
      exact .word s before after marked blank written
  · intro h
    cases h with
    | null => exact .null
    | beyond x beyond => exact .beyond x beyond
    | word s before after marked blank written =>
      exact .document s .null marked (Json.ofText_null.mpr ⟨before, after, blank, written⟩)

/-! ## What is kept -/

/-- Where the column marks nothing, values of one class that become the same are the same, but for
those that become null. -/
theorem Becomes.unique {typeName : String} (noTruth : ¬ MarksTruth typeName)
    (noDocuments : ¬ MarksDocuments typeName) {v w : Value} {x : Json} (hv : Becomes typeName v x)
    (hw : Becomes typeName w x) (shown : x ≠ .null) (sameClass : v.rank = w.rank) : v = w := by
  cases hv with
  | null => exact absurd rfl shown
  | beyond => exact absurd rfl shown
  | truth _ _ marked _ => exact absurd marked noTruth
  | document _ _ marked _ => exact absurd marked noDocuments
  | plain _ marked _ => exact absurd marked noDocuments
  | integer n _ =>
    cases hw with
    | integer => rfl
    | document _ _ marked _ => exact absurd marked noDocuments
  | real d _ =>
    cases hw with
    | real => rfl
    | document _ _ marked _ => exact absurd marked noDocuments
  | text s _ =>
    cases hw with
    | text => rfl
    | document _ _ marked _ => exact absurd marked noDocuments
    | plain _ marked _ => exact absurd marked noDocuments
    | blob => cases sameClass
  | blob bs s read =>
    cases hw with
    | text => cases sameClass
    | document _ _ marked _ => exact absurd marked noDocuments
    | plain _ marked _ => exact absurd marked noDocuments
    | blob bs' _ read' => rw [Option.some.inj (read.symm.trans read')]

/-! ## Cells -/

/-- The cells of the rows fetched are the values of the result, each by the type of its column. -/
theorem rowsOf_becomes {r : Relation} {i j : Nat} {row : Sql.Row} {column : Sql.Column} {x : Json}
    (fetched : (Run.rowsOf r)[i]? = some row) (cell : row[j]? = some (column, x)) :
    ∃ values v, r.rows[i]? = some values ∧ values[j]? = some v ∧ Becomes column.typeName v x := by
  rw [Run.rowsOf, List.getElem?_map, Option.map_eq_some_iff] at fetched
  obtain ⟨values, delivered, rfl⟩ := fetched
  obtain ⟨⟨column', kind⟩, v, typed, inside, same⟩ := List.getElem?_zipWith_eq_some.mp cell
  rw [List.getElem?_map, Option.map_eq_some_iff] at typed
  obtain ⟨declared, -, told⟩ := typed
  cases told
  cases same
  exact ⟨values, v, delivered, inside, Value.json_eq_iff.mp rfl⟩

/-- **A cell follows its storage class.** It becomes what its class and the type of its column say,
and nothing else; null comes of few values; where the column marks nothing, the value can be told
from its class and what it became. In a column of documents a document that was written comes
back. So does every cell of the rows that are fetched become what its value and its column say. -/
theorem cell_follows_storage_class (typeName : String) (v : Value) :
    (∀ x, v.json (.ofTypeName typeName) = x ↔ Becomes typeName v x) ∧
      (v.json (.ofTypeName typeName) = .null ↔ BecomesNull typeName v) ∧
      (¬ MarksTruth typeName → ¬ MarksDocuments typeName → ∀ w : Value, v.rank = w.rank →
        v.json (.ofTypeName typeName) ≠ .null →
        v.json (.ofTypeName typeName) = w.json (.ofTypeName typeName) → v = w) ∧
      (∀ document : Json, MarksDocuments typeName → document.Integral → document.Ordered →
        document.depth < Json.nestingLimit →
        (Value.text document.text).json (.ofTypeName typeName) = document) ∧
      ∀ (r : Relation) (i j : Nat) (row : Sql.Row) (column : Sql.Column) (x : Json),
        (Run.rowsOf r)[i]? = some row → row[j]? = some (column, x) →
        ∃ values v, r.rows[i]? = some values ∧ values[j]? = some v ∧
          Becomes column.typeName v x := by
  refine ⟨fun x => Value.json_eq_iff, Value.json_eq_iff.trans becomes_null_iff, ?_, ?_,
    fun r i j row column x => rowsOf_becomes⟩
  · intro noTruth noDocuments w sameClass shown same
    have hv : Becomes typeName v (v.json (.ofTypeName typeName)) := Value.json_eq_iff.mp rfl
    exact hv.unique noTruth noDocuments (Value.json_eq_iff.mp same.symm) shown sameClass
  · intro document marked integral ordered shallow
    have octets : Utf8.ofString document.text = document.octets := by
      rw [Utf8.ofString, Json.text, String.toList_ofList, Json.octets]
    refine Value.json_eq_iff.mpr (.document _ _ marked ?_)
    rw [Json.ofText, octets, Json.ofOctets_octets integral ordered shallow]

theorem document_comes_back :
    MarksDocuments "JSONB NOT NULL" ∧
      (Value.text "[null]").json (.ofTypeName "JSONB NOT NULL") = .array [.null] := by
  have marked : MarksDocuments "JSONB NOT NULL" := by
    rw [MarksDocuments]
    decide +kernel
  have integral : (Json.array [.null]).Integral := by
    refine .array fun v hv => ?_
    rw [List.mem_singleton.mp hv]
    exact .null
  have ordered : (Json.array [.null]).Ordered := by
    refine .array fun v hv => ?_
    rw [List.mem_singleton.mp hv]
    exact .null
  have written : (Json.array [.null]).text = "[null]" := by decide +kernel
  obtain ⟨-, -, -, back, -⟩ := cell_follows_storage_class "JSONB NOT NULL" .null
  have cell := back (.array [.null]) marked integral ordered (by decide)
  rw [written] at cell
  exact ⟨marked, cell⟩

example : (Value.integer 0x100000000).json (.ofTypeName "Boolean not null") = .bool true := by rfl

example : (Value.blob [0xDE, 0xAD]).json .text = .string "3q0=" := by rfl

end Sqlite

end NamedStores
