import SqlKit.Assoc
import SqlKit.Sqlite.Statement
import SqlKit.Sqlite.Store

/-!
# Tables of keys

A content of a database: tables by name, each with one column of integers, which are its keys and
stand in ascending order.

    insertKey? ks k = none ↔ k ∈ ks                                    (insertKey?_eq_none_iff)
    x ∈ place k ks ↔ x = k ∨ x ∈ ks                                    (mem_place)
-/

namespace SqlKit.Sqlite

/-- A table whose rows are its keys. -/
structure KeyTable where
  column : String
  /-- In ascending order. -/
  keys : List Int64 := []
deriving DecidableEq

/-- Tables by name. -/
abbrev Tables := Assoc KeyTable

namespace Tables

/-! ## Keys -/

/-- Puts a key before the first one that is greater. -/
def place (k : Int64) : List Int64 → List Int64
  | [] => [k]
  | x :: xs => if k.toInt < x.toInt then k :: x :: xs else x :: place k xs

/-- Adds a key in its place, unless it is there. -/
def insertKey? (keys : List Int64) (k : Int64) : Option (List Int64) :=
  if k ∈ keys then none else some (place k keys)

/-- The key of a new row that asks for none: one more than the last. -/
def nextKey? (keys : List Int64) : Result Int64 :=
  match Datum.int64? ((keys.getLast?.map fun k => k.toInt + 1).getD 1) with
  | some k => .ok k
  | none => .error (.database "database or disk is full")

/-- The key that a datum asks for. -/
def key? (keys : List Int64) (d : Datum) : Result Int64 :=
  match d, d.integer? with
  | .null, _ => nextKey? keys
  | _, some k => .ok k
  | _, none => .error (.database "datatype mismatch")

/-- Adds keys one after another; gives those that were added, too. -/
def insertAll (name : String) (t : KeyTable) : List Datum → Result (List Int64 × KeyTable)
  | [] => .ok ([], t)
  | d :: ds => do
    let k ← key? t.keys d
    match insertKey? t.keys k with
    | none => .error (.integrity ("UNIQUE constraint failed: " ++ name ++ "." ++ t.column))
    | some keys =>
      let (ks, t) ← insertAll name { t with keys } ds
      return (k :: ks, t)

/-! ## Conditions -/

/-- Gives terms their parameters, in the order of the terms; gives the parameters left over. -/
def fill : List Term → List Datum → List Datum × List Datum
  | [], args => ([], args)
  | .datum d :: ts, args =>
    let (ds, rest) := fill ts args
    (d :: ds, rest)
  | .mark :: ts, args =>
    let (ds, rest) := fill ts (args.drop 1)
    ((args.head?.getD .null) :: ds, rest)

/-- The same for rows of terms. -/
def fillRows : List (List Term) → List Datum → List (List Datum)
  | [], _ => []
  | r :: rs, args =>
    let (row, rest) := fill r args
    row :: fillRows rs rest

/-- Does a key meet a condition? -/
def meets (filter : Option (Comparison × Term)) (args : List Datum) (k : Int64) : Bool :=
  match filter with
  | none => true
  | some (op, t) =>
    match (fill [t] args).1.head?.bind (Datum.compareWith? k) with
    | some o => op.holds o
    | none => false

/-! ## Statements -/

/-- The table of a name. -/
def table? (ts : Tables) (name : String) : Result KeyTable :=
  match ts.get? name with
  | some t => .ok t
  | none => .error (.database ("no such table: " ++ name))

/-- One datum to a row. -/
def rowsOf (keys : List Int64) : List (List Datum) := keys.map fun k => [.integer k]

/-- Inserts rows. -/
def insertRows (name : String) (returning : Bool) (ds : List Datum) (ts : Tables) :
    Result (Change Tables) := do
  let (ks, t) ← insertAll name (← table? ts name) ds
  return {
    content := ts.insert name t
    rows := if returning then rowsOf ks else []
    count := ks.length }

/-- Deletes the rows that meet a condition, or all rows.  All rows are cleared away even where there
are none. -/
def deleteRows (name : String) (filter : Option (Comparison × Term)) (args : List Datum)
    (ts : Tables) : Result (Change Tables) := do
  let t ← table? ts name
  let (gone, kept) := t.keys.partition (meets filter args)
  return {
    content := ts.insert name { t with keys := kept }
    count := gone.length
    isWritten := filter.isNone || !gone.isEmpty }

/-- The keys of a table that meet a condition. -/
def selectRows (name : String) (wanted : Int64 → Bool) (descending : Bool) (ts : Tables) :
    List (List Datum) :=
  let keys := (((ts.get? name).map KeyTable.keys).getD []).filter wanted
  rowsOf (if descending then keys.reverse else keys)

/-- The column of a table that a statement names. -/
def column? (t : KeyTable) (name : String) : Result Unit :=
  if name = t.column then .ok () else .error (.database ("no such column: " ++ name))

/-- What a statement means. -/
def prepare (sql : String) (ts : Tables) : Statement → Result (Prepared Tables)
  | .begin writes => .ok ⟨0, [], fun _ => .begin writes⟩
  | .commit => .ok ⟨0, [], fun _ => .commit⟩
  | .rollback => .ok ⟨0, [], fun _ => .rollback⟩
  | .create name column place =>
    match ts.get? name with
    | some _ => .error (.database ("table " ++ name ++ " already exists in " ++ sql ++
        " at offset " ++ Digits.text place))
    | none => .ok ⟨0, [], fun _ =>
        .change false fun ts => .ok { content := ts.insert name { column } }⟩
  | s@(.insert name column terms returning) => do
    let t ← table? ts name
    column? t column
    return ⟨s.marks, if returning then [t.column] else [], fun args =>
      .change true (insertRows name returning (fill terms args).1)⟩
  | s@(.select name column filter descending) => do
    let t ← table? ts name
    column? t (column.getD t.column)
    return ⟨s.marks, [t.column], fun args =>
      .read (selectRows name (meets filter args) descending)⟩
  | s@(.delete name filter) => do
    let _ ← table? ts name
    return ⟨s.marks, [], fun args => .change true (deleteRows name filter args)⟩
  | s@(.values columns rows) => .ok ⟨s.marks, columns, fun args => .give (fillRows rows args)⟩

/-- Statements on tables of keys. -/
def language : Language Tables := fun sql ts => do
  prepare sql ts (← Statement.ofText? sql)

/-! ## Lemmas -/

theorem insertKey?_eq_none_iff {ks : List Int64} {k : Int64} :
    insertKey? ks k = none ↔ k ∈ ks := by
  simp [insertKey?]

theorem mem_place {ks : List Int64} {k x : Int64} : x ∈ place k ks ↔ x = k ∨ x ∈ ks := by
  induction ks with
  | nil => simp [place]
  | cons y ys ih =>
    simp only [place]
    split
    · simp
    · simp only [List.mem_cons, ih]
      constructor <;> rintro (h | h | h) <;> simp [h]

end Tables

end SqlKit.Sqlite
