/-
Maps held as lists of pairs in ascending order of their keys. Inserting keeps the order, so
walking the list visits the keys in order whatever the order of insertion.
-/
namespace NamedStores

/-- Pairs of a key and its value, in ascending order of the keys. -/
abbrev SortedMap (κ α : Type) := List (κ × α)

namespace SortedMap

variable {κ α : Type} [LT κ] [DecidableLT κ] [DecidableEq κ]

def get? (m : SortedMap κ α) (k : κ) : Option α :=
  (m.find? (·.1 = k)).map (·.2)

def contains (m : SortedMap κ α) (k : κ) : Bool :=
  (get? m k).isSome

def keys (m : SortedMap κ α) : List κ :=
  m.map (·.1)

/-- Puts a value under a key, in the place of the value there was. -/
def insert : SortedMap κ α → κ → α → SortedMap κ α
  | [], k, a => [(k, a)]
  | (k', a') :: m, k, a =>
    if k < k' then (k, a) :: (k', a') :: m
    else if k = k' then (k, a) :: m
    else (k', a') :: insert m k a

def erase (m : SortedMap κ α) (k : κ) : SortedMap κ α :=
  m.filter (·.1 ≠ k)

/-- Of two values with one key the later stays. -/
def ofList (pairs : List (κ × α)) : SortedMap κ α :=
  pairs.foldl (fun m p => insert m p.1 p.2) []

theorem get?_insert_self (m : SortedMap κ α) (k : κ) (a : α) : get? (insert m k a) k = some a := by
  induction m with
  | nil => simp [get?, insert]
  | cons p m ih =>
    obtain ⟨k', a'⟩ := p
    unfold insert
    split
    · simp [get?]
    · split
      · simp [get?]
      · next hne =>
        have : ¬ k' = k := fun h => hne h.symm
        simpa [get?, List.find?_cons, this] using ih

theorem get?_insert_other (m : SortedMap κ α) {k k' : κ} (a : α) (hne : k' ≠ k) :
    get? (insert m k a) k' = get? m k' := by
  have hne' : ¬ k = k' := fun h => hne h.symm
  induction m with
  | nil => simp [get?, insert, hne']
  | cons p m ih =>
    obtain ⟨j, b⟩ := p
    unfold insert
    split
    · simp [get?, hne']
    · split
      · next h => subst h; simp [get?, hne']
      · by_cases hj : j = k'
        · simp [get?, hj]
        · simpa [get?, List.find?_cons, hj] using ih

end SortedMap

end NamedStores
