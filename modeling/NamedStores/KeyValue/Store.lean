/-
What a key/value server keeps: for each database index and key the octets of a value and how
long it lives, in nanoseconds, if not for good.
-/
import NamedStores.SortedMap
import NamedStores.Text.Utf8

namespace NamedStores.KeyValue

structure Entry where
  value : Bytes
  ttl : Option Nat
  deriving DecidableEq

abbrev Store := SortedMap Int (SortedMap String Entry)

namespace Store

/-- The entries of one database. -/
def database (s : Store) (index : Int) : SortedMap String Entry :=
  (SortedMap.get? s index).getD []

def find? (s : Store) (index : Int) (key : String) : Option Entry :=
  (s.database index).get? key

def value? (s : Store) (index : Int) (key : String) : Option Bytes :=
  (s.find? index key).map (·.value)

def put (s : Store) (index : Int) (key : String) (e : Entry) : Store :=
  SortedMap.insert s index ((s.database index).insert key e)

/-- Puts octets under a key and leaves its time to live. -/
def putRaw (s : Store) (index : Int) (key : String) (value : Bytes) : Store :=
  s.put index key ⟨value, (s.find? index key).bind (·.ttl)⟩

def erase (s : Store) (index : Int) (key : String) : Store :=
  SortedMap.insert s index ((s.database index).erase key)

/-- Every entry with its index and key, in their order. -/
def toList (s : Store) : List (Int × String × Entry) :=
  s.flatMap fun (index, entries) => entries.map fun (key, e) => (index, key, e)

theorem find?_put_self (s : Store) (index : Int) (key : String) (e : Entry) :
    (s.put index key e).find? index key = some e := by
  simp [find?, database, put, SortedMap.get?_insert_self]

theorem find?_put_other (s : Store) {index index' : Int} {key key' : String} (e : Entry)
    (h : ¬ (index' = index ∧ key' = key)) :
    (s.put index key e).find? index' key' = s.find? index' key' := by
  by_cases hi : index' = index
  · subst hi
    have hk : key' ≠ key := fun hk => h ⟨rfl, hk⟩
    simp [find?, database, put, SortedMap.get?_insert_self, SortedMap.get?_insert_other _ _ hk]
  · simp [find?, database, put, SortedMap.get?_insert_other _ _ hi]

end Store

end NamedStores.KeyValue
