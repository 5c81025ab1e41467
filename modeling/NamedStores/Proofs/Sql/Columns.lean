/-
Columns against the objects of a result. An object goes by names: it has one entry for each name
among its row's columns, and of columns that share a name the last is read back. A row whose columns
are named apart loses none of them. The columns of a result are those of its first row, so they
speak for another row as far as that row has the same.
-/
import Mathlib.Data.List.Dedup
import NamedStores.Proofs.SortedMap
import NamedStores.Proofs.Sql.RowLimit
import NamedStores.Sqlite.Driver

namespace NamedStores.Sql

namespace ResultSet

/-! ## Objects -/

/-- The names of a row's columns, in their order. -/
def namesOf (row : Row) : List String := row.map (·.1.name)

theorem names_of_columns (row : Row) : (columnsOf row).map (·.name) = namesOf row := by
  simp [columnsOf, namesOf]

/-- What a cell puts into an object. -/
def entry (cell : Column × Json) : String × Json := (cell.1.name, cell.2)

theorem record_eq (row : Row) : record row = SortedMap.ofList (row.map entry) := rfl

theorem keys_record (row : Row) : (SortedMap.keys (record row)).Perm (namesOf row).dedup := by
  have distinct : (SortedMap.keys (record row)).Nodup := (SortedMap.ofList_ordered _).nodup_keys
  refine (List.perm_ext_iff_of_nodup distinct (List.nodup_dedup _)).mpr fun name => ?_
  rw [record_eq, SortedMap.mem_keys_ofList, List.mem_dedup, List.map_map]
  rfl

theorem length_record (row : Row) : (record row).length = (namesOf row).dedup.length := by
  rw [← (keys_record row).length_eq, SortedMap.keys, List.length_map]

/-- No entry is missing exactly when no two columns share a name. -/
theorem length_record_eq_iff (row : Row) :
    (record row).length = (columnsOf row).length ↔ (namesOf row).Nodup := by
  have names : (columnsOf row).length = (namesOf row).length := by
    rw [← names_of_columns, List.length_map]
  rw [length_record, names]
  constructor
  · intro same
    exact List.dedup_eq_self.mp ((List.dedup_sublist _).eq_of_length same)
  · intro apart
    rw [apart.dedup]

theorem get?_record_last (front : Row) {back : Row} {column : Column} (value : Json)
    (last : column.name ∉ namesOf back) :
    SortedMap.get? (record (front ++ (column, value) :: back)) column.name = some value := by
  rw [record_eq, List.map_append, List.map_cons]
  refine SortedMap.get?_ofList_last _ value fun p hp same => ?_
  obtain ⟨q, hq, rfl⟩ := List.mem_map.mp hp
  exact last (List.mem_map.mpr ⟨q, hq, same⟩)

theorem get?_record {row : Row} {i : Nat} {column : Column} {value : Json}
    (here : row[i]? = some (column, value)) (last : column.name ∉ (namesOf row).drop (i + 1)) :
    SortedMap.get? (record row) column.name = some value := by
  obtain ⟨inside, at_i⟩ := List.getElem?_eq_some_iff.mp here
  have cut : row = row.take i ++ (column, value) :: row.drop (i + 1) := by
    rw [← at_i, List.getElem_cons_drop, List.take_append_drop]
  have behind : column.name ∉ namesOf (row.drop (i + 1)) := by
    rwa [namesOf, List.map_drop]
  rw [cut]
  exact get?_record_last (row.take i) value behind

/-- An object that holds a row by the names of its columns. -/
structure ByName (row : Row) (object : Record) : Prop where
  /-- There is one entry for each name. -/
  entries : object.length = (namesOf row).dedup.length
  /-- They are as many as the columns exactly when the columns are named apart. -/
  whole : object.length = (columnsOf row).length ↔ (namesOf row).Nodup
  /-- The entry under a name is the cell of the last column that has it. -/
  last : ∀ (i : Nat) (column : Column) (value : Json), row[i]? = some (column, value) →
    column.name ∉ (namesOf row).drop (i + 1) → SortedMap.get? object column.name = some value

/-- Columns each of which is read back from an object with the value that it has in the row. -/
structure ReadsBack (columns : List Column) (row : Row) (object : Record) : Prop where
  entries : object.length = columns.length
  value : ∀ (i : Nat) (column : Column), columns[i]? = some column →
    ∃ value, row[i]? = some (column, value) ∧ SortedMap.get? object column.name = some value

theorem record_byName (row : Row) : ByName row (record row) where
  entries := length_record row
  whole := length_record_eq_iff row
  last _ _ _ here last := get?_record here last

theorem ByName.readsBack {row : Row} {object : Record} (byName : ByName row object)
    (apart : (namesOf row).Nodup) : ReadsBack (columnsOf row) row object where
  entries := byName.whole.mpr apart
  value i column here := by
    obtain ⟨⟨column', value⟩, at_i, rfl⟩ : ∃ p, row[i]? = some p ∧ p.1 = column := by
      simpa [columnsOf] using here
    refine ⟨value, at_i, byName.last i column' value at_i fun again => ?_⟩
    have name_at : (namesOf row)[i]? = some column'.name := by simp [namesOf, at_i]
    obtain ⟨j, hj⟩ := List.mem_iff_getElem?.mp again
    rw [List.getElem?_drop] at hj
    have inside := (List.getElem?_eq_some_iff.mp name_at).1
    have same : i = i + 1 + j := (List.getElem?_inj inside apart).mp (name_at.trans hj.symm)
    omega

/-! ## Results -/

/-- The rows that are kept are first among those delivered, and the columns are the first one's. -/
theorem collect_of_fetch {ε : Type} {limit : Nat} {items : List (Except ε Row)} {rows : List Row}
    (fetched : fetch (limit + 1) items = .ok rows) (milliseconds : Nat) :
    (∀ (k : Nat) (object : Record), (collect limit rows milliseconds).rows[k]? = some object →
      ∃ row, items[k]? = some (.ok row) ∧ object = record row) ∧
    ∀ row, items[0]? = some (.ok row) →
      (collect limit rows milliseconds).columns = columnsOf row := by
  have taken := fetch_eq_ok.mp fetched
  constructor
  · intro k object here
    obtain ⟨row, kept, rfl⟩ : ∃ row, (rows.take limit)[k]? = some row ∧ record row = object :=
      Option.map_eq_some_iff.mp ((List.getElem?_map ..).symm.trans here)
    obtain ⟨under, at_k⟩ : k < limit ∧ rows[k]? = some row := by
      simpa [List.getElem?_take] using kept
    refine ⟨row, ?_, rfl⟩
    have both : (items.take (limit + 1))[k]? = some (.ok row) := by simp [taken, at_k]
    rwa [List.getElem?_take_of_lt (by omega)] at both
  · intro row first
    cases items with
    | nil => simp at first
    | cons item items =>
      obtain rfl : item = .ok row := by simpa using first
      cases rows with
      | nil => simp at taken
      | cons row' rows =>
        obtain rfl : row = row' := by simpa using (List.cons.inj taken).1
        rfl

end ResultSet

namespace Handle

open ResultSet

variable {ω κ : Type}

/-- **No column is lost that has a name of its own.** Every row is held by the names of its columns.
In what a query gives back each object is that of a row delivered, the columns are those of the first
row, and each of them is read back with its own value from every row that has these columns under
different names. -/
theorem columns_read_back (d : Driver ω κ) {h : Handle κ} {live : Live κ}
    (connected : h.client = some live) (r : Request) (w : ω) {result : ResultSet}
    (answer : (query d h r w).1 = .ok result) :
    (∀ row, ByName row (record row)) ∧
    (∀ row, (delivered d live r w).1[0]? = some (.ok row) → result.columns = columnsOf row) ∧
    ∀ (k : Nat) (object : Record), result.rows[k]? = some object →
      ∃ row, (delivered d live r w).1[k]? = some (.ok row) ∧ object = record row ∧
        (result.columns = columnsOf row → (result.columns.map (·.name)).Nodup →
          ReadsBack result.columns row object) := by
  refine ⟨record_byName, ?_⟩
  rw [query_eq connected] at answer
  cases fetched : fetch (r.rows + 1) (delivered d live r w).1 with
  | error e =>
    rw [fetched] at answer
    cases answer
  | ok rows =>
    rw [fetched] at answer
    cases answer
    obtain ⟨objects, columns⟩ := collect_of_fetch fetched (elapsed d live r w)
    refine ⟨columns, fun k object here => ?_⟩
    obtain ⟨row, there, rfl⟩ := objects k object here
    refine ⟨row, there, rfl, fun same apart => ?_⟩
    rw [same, names_of_columns] at apart
    rw [same]
    exact (record_byName row).readsBack apart


/-- One empty database in memory, and the connection to it. -/
def emptyMemory : Sqlite.World := ⟨[(.unnamed 0, [])], [], [⟨.unnamed 0, false, 0, true⟩]⟩

def memoryClient : Live Sqlite.Client := ⟨⟨0⟩, some "3", 30⟩

def memoryHandle : Handle Sqlite.Client :=
  { (NamedStores.Handle.create "main" ⟨false, false⟩ "databases" 0 : Handle Sqlite.Client) with
    client := some memoryClient }

/-- What a query comes to there. -/
def askedInMemory (sql : String) : Except Failure ResultSet :=
  (query Sqlite.driver memoryHandle (Request.ofText sql) emptyMemory).1

/-- Two constants under two names. -/
def constants (first second : String) : Row :=
  [(⟨first, "NULL"⟩, .integer 1), (⟨second, "NULL"⟩, .integer 2)]

theorem asked_of_delivered {sql : String} {row : Row}
    (one : (delivered Sqlite.driver memoryClient (Request.ofText sql) emptyMemory).1 = [.ok row]) :
    askedInMemory sql = .ok ⟨columnsOf row, [record row], false, 0⟩ := by
  rw [askedInMemory, query_eq rfl, one]
  rfl

/-- Columns out of the order of their names are read back as well. -/
theorem constants_read_back : ∃ object,
    askedInMemory "SELECT 1 AS b, 2 AS a" = .ok ⟨columnsOf (constants "b" "a"), [object], false, 0⟩ ∧
      SortedMap.get? object "b" = some (.integer 1) ∧
      SortedMap.get? object "a" = some (.integer 2) := by
  have one : (delivered Sqlite.driver memoryClient (Request.ofText "SELECT 1 AS b, 2 AS a")
      emptyMemory).1 = [.ok (constants "b" "a")] := rfl
  have answer := asked_of_delivered one
  obtain ⟨-, -, objects⟩ := columns_read_back Sqlite.driver (h := memoryHandle) rfl _ _ answer
  obtain ⟨row, there, -, reads⟩ := objects 0 _ rfl
  rw [one] at there
  cases there
  obtain ⟨-, value⟩ := reads rfl (by decide)
  obtain ⟨_, first, read_first⟩ := value 0 ⟨"b", "NULL"⟩ rfl
  obtain ⟨_, second, read_second⟩ := value 1 ⟨"a", "NULL"⟩ rfl
  cases first
  cases second
  exact ⟨_, answer, read_first, read_second⟩

/-- Of two columns with one name the first is lost, and the columns of a first row need not be those
of a row behind it, which another statement may have given. -/
theorem columns_lost :
    (askedInMemory "SELECT 1 AS a, 2 AS a" =
        .ok ⟨columnsOf (constants "a" "a"), [record (constants "a" "a")], false, 0⟩ ∧
      (columnsOf (constants "a" "a")).length = 2 ∧ (record (constants "a" "a")).length = 1 ∧
      (constants "a" "a")[0]? = some (⟨"a", "NULL"⟩, .integer 1) ∧
      SortedMap.get? (record (constants "a" "a")) "a" ≠ some (.integer 1)) ∧
    (askedInMemory "SELECT 1 AS a; SELECT 2 AS b").toOption.map
      (fun result => (result.columns.map (·.name), result.rows.map SortedMap.keys)) =
        some (["a"], [["a"], ["b"]]) := by
  have one : (delivered Sqlite.driver memoryClient (Request.ofText "SELECT 1 AS a, 2 AS a")
      emptyMemory).1 = [.ok (constants "a" "a")] := rfl
  have read : SortedMap.get? (record (constants "a" "a")) "a" = some (.integer 2) := rfl
  refine ⟨⟨asked_of_delivered one, rfl, rfl, rfl, fun first => ?_⟩, by decide +kernel⟩
  rw [read] at first
  cases first

end Handle

end NamedStores.Sql
