import SqlKit.Json.Written
import SqlKit.Postgres.Parameter
import SqlKit.Row

/-!
# Cells of PostgreSQL's answers

How the binary form of a type is read.  A type of fixed width takes exactly its bytes; what is no
datum of its type is an error that names the column.  A type that is not known is read as a text if it
is one, and otherwise comes out as null.

    ofCell i t none = .ok .null                                        (ofCell_none)
-/

namespace SqlKit.Postgres

open Calendar

/-- The bytes, if there are exactly so many. -/
def exactly? (width : Nat) (b : Bytes) : Option Bytes := if b.length = width then some b else none

/-- The integer of so many bytes. -/
def int? (width : Nat) (b : Bytes) : Option Int := (exactly? width b).map BigEndian.decode

/-- The point in time so many microseconds after 2000-01-01 00:00. -/
def momentOfMicros? (n : Int) : Option DateTime :=
  DateTime.ofSeconds? (86400 * epochDay + n / 1000000) (n % 1000000 * 1000).toNat

/-- The time of day so many microseconds after midnight, days aside. -/
def timeOfMicros? (n : Int) : Option TimeOfDay :=
  let inDay := n % (86400 * 1000000)
  TimeOfDay.ofSeconds? (inDay / 1000000).toNat (inDay % 1000000 * 1000).toNat

/-- JSON text in bytes. -/
def json? (b : Bytes) : Option Json := (utf8? b).bind Json.parse?

/-- Reads a datum of a type that has a kind of value of its own. -/
def decode? (t : DataType) (b : Bytes) : Option Value :=
  match t with
  | .bool => (exactly? 1 b).map fun b => .bool (b ≠ [0])
  | .int2 => (int? 2 b).map fun i => .int (Int64.ofInt i)
  | .int4 => (int? 4 b).map fun i => .int (Int64.ofInt i)
  | .int8 => (int? 8 b).map fun i => .int (Int64.ofInt i)
  | .float4 => (exactly? 4 b).map fun b =>
      .float (Binary32.widen ⟨UInt32.ofNat (BigEndian.value b)⟩)
  | .float8 => (exactly? 8 b).map fun b => .float ⟨UInt64.ofNat (BigEndian.value b)⟩
  | .bytea => some (.bytes b)
  | .uuid => (Uuid.ofBytes? b).map .uuid
  | .date => do return .date (← Date.ofDayNumber? (epochDay + (← int? 4 b)))
  | .timestamp => do return .dateTime (← momentOfMicros? (← int? 8 b))
  | .timestamptz => do return .instant (← momentOfMicros? (← int? 8 b))
  | .time => do return .time (← timeOfMicros? (← int? 8 b))
  | .json => (json? b).map .json
  | .jsonb =>
    match b with
    | 1 :: rest => (json? rest).map .json
    | _ => none
  | .text | .varchar | .bpchar | .name | .unknown | .other _ => none

/-- Reads a datum of any other type, where it is a text. -/
def text? (t : DataType) (b : Bytes) : Option Value :=
  if t.isText then (utf8? b).map .string else none

/-- Does a type have a kind of value of its own? -/
def isKnown : DataType → Bool
  | .text | .varchar | .bpchar | .name | .unknown | .other _ => false
  | _ => true

/-- The value of a cell in a column. -/
def ofCell (column : Nat) (t : DataType) (cell : Option Bytes) : Result Value :=
  match cell with
  | none => .ok .null
  | some b =>
    if isKnown t then
      match decode? t b with
      | some v => .ok v
      | none =>
        let i := Digits.text column
        .error (.database ("Column " ++ i ++ ": error deserializing column " ++ i))
    else .ok ((text? t b).getD .null)

/-- The values of the cells of a row, from column `k` on. -/
def ofCells (k : Nat) : List (DataType × Option Bytes) → Result (List Value)
  | [] => .ok []
  | (t, cell) :: rest => do
    let v ← ofCell k t cell
    let vs ← ofCells (k + 1) rest
    return v :: vs

/-- A row of the server. -/
def row (columns : List (String × DataType)) (cells : List (Option Bytes)) : Result Row := do
  Row.ofLists? (columns.map (·.1)) (← ofCells 0 ((columns.map (·.2)).zip cells))

theorem ofCell_none (i : Nat) (t : DataType) : ofCell i t none = .ok .null := rfl

end SqlKit.Postgres
