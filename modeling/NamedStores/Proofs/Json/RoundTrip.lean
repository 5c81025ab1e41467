/-
A value is read back from the text that was written of it, and all of the text is used up. The
integers must fit 64 bits, with or without a sign, and the containers must not nest deeper than
the reader goes; keys and strings may hold any text.

The reader's fuel is twice the length of the text and more. Each of the three readers, for
values, items and entries, calls the others with one less, so the induction is on the fuel.
-/
import NamedStores.Json.Shape
import NamedStores.Proofs.Json.Ordered
import NamedStores.Proofs.Json.Scalar

namespace NamedStores.Json

/-- All numbers in the value are integers that a signed or an unsigned word of 64 bits holds. -/
inductive Integral : Json → Prop
  | null : Integral .null
  | bool (b : Bool) : Integral (.bool b)
  | integer (n : Int) : -0x8000000000000000 ≤ n → n < 0x10000000000000000 → Integral (.integer n)
  | string (s : String) : Integral (.string s)
  | array {vs : List Json} : (∀ v ∈ vs, Integral v) → Integral (.array vs)
  | object {es : Record} : (∀ e ∈ es, Integral e.2) → Integral (.object es)

mutual

/-- How many containers are open at once in the text of a value, at most. -/
def depth : Json → Nat
  | .array items => depthItems items + 1
  | .object entries => depthEntries entries + 1
  | _ => 0

def depthItems : List Json → Nat
  | [] => 0
  | v :: items => max (depth v) (depthItems items)

def depthEntries : List (String × Json) → Nat
  | [] => 0
  | (_, v) :: entries => max (depth v) (depthEntries entries)

end

theorem depth_array (vs : List Json) : depth (.array vs) = depthItems vs + 1 := rfl

theorem depth_object (es : Record) : depth (.object es) = depthEntries es + 1 := rfl

theorem depthItems_cons (v : Json) (vs : List Json) :
    depthItems (v :: vs) = max v.depth (depthItems vs) := rfl

theorem depthEntries_cons (e : String × Json) (es : List (String × Json)) :
    depthEntries (e :: es) = max e.2.depth (depthEntries es) := rfl

theorem depth_le_depthItems {v : Json} {vs : List Json} (hv : v ∈ vs) : v.depth ≤ depthItems vs := by
  induction vs with
  | nil => cases hv
  | cons w vs ih =>
    rw [depthItems_cons]
    rcases List.mem_cons.1 hv with rfl | later
    · exact Nat.le_max_left _ _
    · exact Nat.le_trans (ih later) (Nat.le_max_right _ _)

theorem depth_le_depthEntries {e : String × Json} {es : List (String × Json)} (he : e ∈ es) :
    e.2.depth ≤ depthEntries es := by
  induction es with
  | nil => cases he
  | cons d es ih =>
    rw [depthEntries_cons]
    rcases List.mem_cons.1 he with rfl | later
    · exact Nat.le_max_left _ _
    · exact Nat.le_trans (ih later) (Nat.le_max_right _ _)

/-- A value that a reader takes back, if so many containers less one may be open. -/
structure Readable (limit : Nat) (v : Json) : Prop where
  integral : Integral v
  ordered : Ordered v
  shallow : v.depth < limit

theorem Readable.items {limit : Nat} {vs : List Json} (h : Readable limit (.array vs)) :
    1 < limit ∧ ∀ v ∈ vs, Readable (limit - 1) v := by
  obtain ⟨integral, ordered, shallow⟩ := h
  rw [depth_array] at shallow
  cases integral with
  | array integral =>
    cases ordered with
    | array ordered =>
      refine ⟨by omega, fun v hv => ⟨integral v hv, ordered v hv, ?_⟩⟩
      have inner := depth_le_depthItems hv
      omega

theorem Readable.entries {limit : Nat} {es : List (String × Json)}
    (h : Readable limit (.object es)) :
    1 < limit ∧ SortedMap.Ordered es ∧ ∀ e ∈ es, Readable (limit - 1) e.2 := by
  obtain ⟨integral, ordered, shallow⟩ := h
  rw [depth_object] at shallow
  cases integral with
  | object integral =>
    cases ordered with
    | object ascending ordered =>
      refine ⟨by omega, ascending, fun e he => ⟨integral e he, ordered e he, ?_⟩⟩
      have inner := depth_le_depthEntries he
      omega

/-! ## The text of a value -/

/-- The comma before what is left of a list, unless it is the first or there is nothing left. -/
def comma {α : Type} (first : Bool) (left : List α) : List Char :=
  if first || left.isEmpty then [] else [',']

theorem writeItems_cons (v : Json) (vs : List Json) :
    writeItems (v :: vs) = write v ++ (comma false vs ++ writeItems vs) := by
  cases vs with
  | nil => exact (List.append_nil _).symm
  | cons w vs => rfl

theorem writeEntries_cons (k : String) (v : Json) (es : List (String × Json)) :
    writeEntries ((k, v) :: es) =
      writeString k ++ ':' :: (write v ++ (comma false es ++ writeEntries es)) := by
  cases es with
  | nil => rw [writeEntries, comma, writeEntries]; simp
  | cons e es => rfl

theorem encode_writeString (s : String) : Utf8.encode (writeString s) =
    0x22 :: (Utf8.encode (s.toList.flatMap escape) ++ [0x22]) := by
  rw [writeString, Utf8.encode_append]
  rfl

theorem octets_array (vs : List Json) :
    (array vs).octets = 0x5B :: (Utf8.encode (comma true vs ++ writeItems vs) ++ [0x5D]) := by
  rw [octets, write, Utf8.encode_append, Utf8.encode_cons_ascii (by decide)]
  rfl

theorem octets_object (es : List (String × Json)) :
    (object es).octets = 0x7B :: (Utf8.encode (comma true es ++ writeEntries es) ++ [0x7D]) := by
  rw [octets, write, Utf8.encode_append, Utf8.encode_cons_ascii (by decide)]
  rfl

/-- The first octet of the text, which no reader takes for the end of a list. -/
theorem octets_head {v : Json} (hv : Integral v) :
    ∃ b bs, v.octets = b :: bs ∧ isBlank b = false ∧ asChar b ≠ ']' := by
  cases hv with
  | null => exact ⟨0x6E, _, rfl, by decide, by decide⟩
  | bool b =>
    cases b
    · exact ⟨0x66, _, rfl, by decide, by decide⟩
    · exact ⟨0x74, _, rfl, by decide, by decide⟩
  | integer n low high =>
    obtain ⟨b, bs, written, opens, -⟩ := scalar_writeInteger low high
    exact ⟨b, bs, by rw [octets, write, written], opens.visible, opens.notListEnd⟩
  | string s => exact ⟨0x22, _, encode_writeString s, by decide, by decide⟩
  | array _ => exact ⟨0x5B, _, octets_array _, by decide, by decide⟩
  | object _ => exact ⟨0x7B, _, octets_object _, by decide, by decide⟩

theorem octets_length_pos {v : Json} (hv : Integral v) : 0 < v.octets.length := by
  obtain ⟨b, bs, written, -⟩ := octets_head hv
  rw [written]
  exact Nat.succ_pos _

/-! ## Between values -/

theorem skipBlanks_visible {b : UInt8} (hb : isBlank b = false) (bs : Bytes) :
    skipBlanks (b :: bs) = b :: bs :=
  List.dropWhile_cons_of_neg (by simp [hb])

/-- An item that is there is gone on to, past the comma before it. -/
theorem nextItem_comma (first : Bool) (v : Json) (vs : List Json) {b : UInt8}
    (visible : isBlank b = false) (notEnd : asChar b ≠ ']') (bs : Bytes) :
    nextItem first (Utf8.encode (comma first (v :: vs)) ++ b :: bs) = .ok (.more (b :: bs)) := by
  cases first with
  | true =>
    simp only [nextItem, comma, List.isEmpty_cons, Bool.true_or, if_true, Utf8.encode,
      List.flatMap_nil, List.nil_append, skipBlanks_visible visible, if_neg notEnd]
  | false =>
    have written : Utf8.encode (comma false (v :: vs)) ++ b :: bs = 0x2C :: b :: bs := rfl
    have blank : isBlank 0x2C = false := by decide
    have mark : asChar 0x2C = ',' := by decide
    have other : ¬ ',' = ']' := by decide
    simp only [nextItem, written, skipBlanks_visible blank, mark, if_neg other,
      Bool.false_eq_true, if_false, if_true, skipBlanks_visible visible, if_neg notEnd]

theorem nextKey_comma (first : Bool) (e : String × Json) (es : List (String × Json))
    (bs : Bytes) :
    nextKey first (Utf8.encode (comma first (e :: es)) ++ 0x22 :: bs) = .ok (.more bs) := by
  cases first <;> rfl

/-- What comes after a value in a container ends a number. -/
theorem endsNumber_comma {α : Type} (left : List α) (text : List Char) {b : UInt8}
    (hb : isDigit b = false ∧ asChar b ≠ '.' ∧ Number.isExponentMark b = false) (rest : Bytes)
    (only : left = [] → text = []) :
    EndsNumber (Utf8.encode (comma false left ++ text) ++ b :: rest) := by
  cases left with
  | nil =>
    rw [only rfl]
    exact endsNumber_cons hb rest
  | cons a left => exact endsNumber_cons ⟨by decide, by decide, by decide⟩ _

/-- The text of the items of a list, of which there is one at least. -/
theorem encode_items (first : Bool) (v : Json) (vs : List Json) :
    Utf8.encode (comma first (v :: vs) ++ writeItems (v :: vs)) =
      Utf8.encode (comma first (v :: vs)) ++
        (v.octets ++ Utf8.encode (comma false vs ++ writeItems vs)) := by
  rw [writeItems_cons, Utf8.encode_append, Utf8.encode_append, octets]

theorem endsNumber_items (vs : List Json) (rest : Bytes) :
    EndsNumber (Utf8.encode (comma false vs ++ writeItems vs) ++ 0x5D :: rest) :=
  endsNumber_comma vs _ ⟨by decide, by decide, by decide⟩ rest fun none => by rw [none]; rfl

/-! ## Values, items and entries -/

theorem value_scalar {b : UInt8} (hb : OpensScalar b) (fuel limit : Nat) (bs : Bytes) :
    value (fuel + 1) limit (b :: bs) = scalar b bs := by
  rw [value, skipBlanks_visible hb.visible]
  dsimp only
  rw [if_neg hb.notList, if_neg hb.notObject]

section Steps

variable {fuel : Nat}
  (ihValue : ∀ {v limit} rest, Readable limit v → 2 * v.octets.length ≤ fuel → EndsNumber rest →
    value fuel limit (v.octets ++ rest) = .ok (v, rest))
  (ihItems : ∀ {vs limit} first rest, (∀ v ∈ vs, Readable limit v) →
    2 * (Utf8.encode (comma first vs ++ writeItems vs)).length + 1 ≤ fuel →
    items fuel limit first (Utf8.encode (comma first vs ++ writeItems vs) ++ 0x5D :: rest) =
      .ok (vs, rest))
  (ihEntries : ∀ {es limit} first rest, (∀ e ∈ es, Readable limit e.2) →
    2 * (Utf8.encode (comma first es ++ writeEntries es)).length + 1 ≤ fuel →
    entries fuel limit first (Utf8.encode (comma first es ++ writeEntries es) ++ 0x7D :: rest) =
      .ok (es, rest))

include ihItems ihEntries in
theorem value_reads_succ {v : Json} {limit : Nat} (rest : Bytes) (hv : Readable limit v)
    (enough : 2 * v.octets.length ≤ fuel + 1) (ends : EndsNumber rest) :
    value (fuel + 1) limit (v.octets ++ rest) = .ok (v, rest) := by
  cases hv.integral with
  | null => rfl
  | bool b => cases b <;> rfl
  | integer n low high =>
    obtain ⟨b, bs, written, opens, reads⟩ := scalar_writeInteger low high
    rw [octets, write, written, List.cons_append, value_scalar opens, reads rest ends]
  | string s =>
    have opens : OpensScalar 0x22 := ⟨by decide, by decide, by decide, by decide⟩
    have quote (bs : Bytes) : scalar 0x22 bs =
        (readString bs).map fun p => (.string p.1, p.2) := rfl
    rw [octets, write, encode_writeString, List.cons_append, value_scalar opens, quote,
      List.append_assoc, List.singleton_append, readString_escape]
    rfl
  | @array vs _ =>
    obtain ⟨deep, readable⟩ := hv.items
    rw [octets_array, List.length_cons, List.length_append, List.length_singleton] at enough
    have inner := ihItems true rest readable (by omega)
    have mark : asChar 0x5B = '[' := by decide
    rw [octets_array, List.cons_append, List.append_assoc, List.singleton_append, value,
      skipBlanks_visible (by decide)]
    dsimp only
    rw [if_pos mark, if_neg (by omega), inner]
  | @object es _ =>
    obtain ⟨deep, ascending, readable⟩ := hv.entries
    rw [octets_object, List.length_cons, List.length_append, List.length_singleton] at enough
    have inner := ihEntries true rest readable (by omega)
    have mark : asChar 0x7B = '\x7b' := by decide
    have other : ¬ asChar 0x7B = '[' := by decide
    rw [octets_object, List.cons_append, List.append_assoc, List.singleton_append, value,
      skipBlanks_visible (by decide)]
    dsimp only
    rw [if_neg other, if_pos mark, if_neg (by omega), inner]
    dsimp only
    rw [ascending.ofList_eq]

include ihValue ihItems in
theorem items_reads_succ {vs : List Json} {limit : Nat} (first : Bool) (rest : Bytes)
    (readable : ∀ v ∈ vs, Readable limit v)
    (enough : 2 * (Utf8.encode (comma first vs ++ writeItems vs)).length + 1 ≤ fuel + 1) :
    items (fuel + 1) limit first (Utf8.encode (comma first vs ++ writeItems vs) ++ 0x5D :: rest) =
      .ok (vs, rest) := by
  cases vs with
  | nil =>
    have nothing : Utf8.encode (comma first ([] : List Json) ++ writeItems []) ++ 0x5D :: rest =
        0x5D :: rest := by
      cases first <;> rfl
    rw [nothing]
    rfl
  | cons v vs =>
    have hv := readable v List.mem_cons_self
    obtain ⟨b, bs, head, visible, notEnd⟩ := octets_head hv.integral
    have some := octets_length_pos hv.integral
    rw [encode_items, List.length_append, List.length_append] at enough
    have value_read := ihValue _ hv (by omega) (endsNumber_items vs rest)
    have items_read := ihItems false rest
      (fun w hw => readable w (List.mem_cons_of_mem v hw)) (by omega)
    have next := nextItem_comma first v vs visible notEnd
      (bs ++ (Utf8.encode (comma false vs ++ writeItems vs) ++ 0x5D :: rest))
    rw [← List.cons_append, ← head] at next
    rw [items, encode_items, List.append_assoc, List.append_assoc, next]
    dsimp only
    rw [value_read]
    dsimp only
    rw [items_read]

include ihValue ihEntries in
theorem entries_reads_succ {es : List (String × Json)} {limit : Nat} (first : Bool)
    (rest : Bytes) (readable : ∀ e ∈ es, Readable limit e.2)
    (enough : 2 * (Utf8.encode (comma first es ++ writeEntries es)).length + 1 ≤ fuel + 1) :
    entries (fuel + 1) limit first
      (Utf8.encode (comma first es ++ writeEntries es) ++ 0x7D :: rest) = .ok (es, rest) := by
  cases es with
  | nil =>
    have nothing : Utf8.encode (comma first ([] : List (String × Json)) ++ writeEntries []) ++
        0x7D :: rest = 0x7D :: rest := by
      cases first <;> rfl
    rw [nothing]
    rfl
  | cons e es =>
    obtain ⟨k, v⟩ := e
    have hv : Readable limit v := readable (k, v) List.mem_cons_self
    generalize later : Utf8.encode (comma false es ++ writeEntries es) = text
    have written : Utf8.encode (comma first ((k, v) :: es) ++ writeEntries ((k, v) :: es)) =
        Utf8.encode (comma first ((k, v) :: es)) ++
          0x22 :: (Utf8.encode (k.toList.flatMap escape) ++ 0x22 :: 0x3A :: (v.octets ++ text)) := by
      rw [writeEntries_cons, Utf8.encode_append, Utf8.encode_append, encode_writeString,
        Utf8.encode_cons_ascii (by decide), Utf8.encode_append, later, octets, List.cons_append,
        List.append_assoc, List.singleton_append]
      rfl
    rw [written, List.length_append, List.length_cons, List.length_append, List.length_cons,
      List.length_cons, List.length_append] at enough
    have ends : EndsNumber (text ++ 0x7D :: rest) := by
      rw [← later]
      exact endsNumber_comma es _ ⟨by decide, by decide, by decide⟩ rest fun none => by
        rw [none]; rfl
    have value_read := ihValue (text ++ 0x7D :: rest) hv (by omega) ends
    have entries_read := ihEntries false rest
      (fun w hw => readable w (List.mem_cons_of_mem (k, v) hw)) (by rw [later]; omega)
    rw [later] at entries_read
    have colon_read (bs : Bytes) : colon (0x3A :: bs) = .ok bs := rfl
    rw [entries, written, List.append_assoc, List.cons_append, nextKey_comma]
    dsimp only
    rw [List.append_assoc, List.cons_append, readString_escape]
    dsimp only
    rw [List.cons_append, colon_read]
    dsimp only
    rw [List.append_assoc, value_read]
    dsimp only
    rw [entries_read]

end Steps

/-- By induction on the fuel, for values, items and entries together. -/
theorem reads_written (fuel : Nat) :
    (∀ {v limit} rest, Readable limit v → 2 * v.octets.length ≤ fuel → EndsNumber rest →
      value fuel limit (v.octets ++ rest) = .ok (v, rest)) ∧
    (∀ {vs limit} first rest, (∀ v ∈ vs, Readable limit v) →
      2 * (Utf8.encode (comma first vs ++ writeItems vs)).length + 1 ≤ fuel →
      items fuel limit first (Utf8.encode (comma first vs ++ writeItems vs) ++ 0x5D :: rest) =
        .ok (vs, rest)) ∧
    (∀ {es limit} first rest, (∀ e ∈ es, Readable limit e.2) →
      2 * (Utf8.encode (comma first es ++ writeEntries es)).length + 1 ≤ fuel →
      entries fuel limit first (Utf8.encode (comma first es ++ writeEntries es) ++ 0x7D :: rest) =
        .ok (es, rest)) := by
  induction fuel with
  | zero =>
    refine ⟨fun _ hv enough => ?_, fun _ _ _ enough => ?_, fun _ _ _ enough => ?_⟩
    · have some := octets_length_pos hv.integral
      omega
    · omega
    · omega
  | succ fuel ih =>
    obtain ⟨ihValue, ihItems, ihEntries⟩ := ih
    exact ⟨value_reads_succ ihItems ihEntries, items_reads_succ ihValue ihItems,
      entries_reads_succ ihValue ihEntries⟩

/-! ## The whole text -/

section Text

variable {v : Json} (integral : Integral v) (ordered : Ordered v) (shallow : v.depth < nestingLimit)

include integral ordered shallow

/-- The text of a value is used up in reading it. -/
theorem value_octets : value (fuelFor v.octets) nestingLimit v.octets = .ok (v, []) := by
  have enough : 2 * v.octets.length ≤ fuelFor v.octets := Nat.le_add_right _ _
  have reads := (reads_written (fuelFor v.octets)).1 [] ⟨integral, ordered, shallow⟩ enough
    endsNumber_nil
  rwa [List.append_nil] at reads

theorem ofOctets_octets : ofOctets v.octets = .ok v := by
  simp only [ofOctets, read, value_octets integral ordered shallow, bind, Except.bind]
  rfl

/-- Reading a value of any shape is reading a value. -/
theorem ofOctetsAs_octets : ofOctetsAs .any v.octets = .ok v := by
  obtain ⟨b, bs, head, visible, -⟩ := octets_head integral
  have enough : 2 * v.octets.length ≤ 2 * v.octets.length + 2 := Nat.le_add_right _ _
  have reads := (reads_written (2 * v.octets.length + 2)).1 [] ⟨integral, ordered, shallow⟩ enough
    endsNumber_nil
  rw [List.append_nil] at reads
  have whole : readAs (fuelFor v.octets) nestingLimit .any v.octets = .ok (v, []) := by
    rw [fuelFor, readAs]
    rw [head] at reads ⊢
    rw [skipBlanks_visible visible]
    exact reads
  simp only [ofOctetsAs, whole, bind, Except.bind]
  rfl

end Text

end NamedStores.Json
