import SqlKit.Json.Written
import SqlKit.Value

/-!
# Rows

A row has a name for each of its values.  Values are read out by type: a `FromValue` instance says
which values of a row stand for the type, the value of that kind and perhaps another that servers use
in its place.

    (Row.ofLists? cs vs) is a row ↔ cs.length = vs.length              (ofLists?_isOk_iff)
    ofValue? .null = .ok none   for every optional type                (ofValue?_option_null)
-/

namespace SqlKit

open Calendar

/-! ## Rows -/

/-- Column names and values, as many of one as of the other. -/
structure Row where
  columns : List String
  values : List Value
  length_eq : columns.length = values.length

namespace Row

/-- The row of these columns and values. -/
def ofLists? (columns : List String) (values : List Value) : Result Row :=
  if h : columns.length = values.length then .ok ⟨columns, values, h⟩
  else
    .error (.database ("Row has " ++ Digits.text columns.length ++ " columns but " ++
      Digits.text values.length ++ " values"))

def size (r : Row) : Nat := r.columns.length

def isEmpty (r : Row) : Bool := r.columns.isEmpty

/-- The value of the first column of that name. -/
def value? (r : Row) (column : String) : Option Value :=
  ((r.columns.zip r.values).find? fun e => e.1 = column).map (·.2)

/-- The values by column; of equal names the last counts. -/
def toAssoc (r : Row) : Assoc Value := Assoc.ofList (r.columns.zip r.values)

end Row

/-! ## Reading values -/

/-- A type that values can be read as. -/
class FromValue (α : Type) where
  ofValue? : Value → Result α

namespace FromValue

def mismatch (expected : String) (v : Value) : Error :=
  .database ("Expected " ++ expected ++ ", got " ++ v.inspect)

instance : FromValue Value := ⟨.ok⟩

instance : FromValue Int64 where
  ofValue?
    | .int i => .ok i
    | v => .error (mismatch "Int" v)

instance : FromValue Int32 where
  ofValue?
    | .int i =>
      if i.toInt < -2147483648 then
        .error (.database "Int value out of i32 range: number too small to fit in target type")
      else if 2147483647 < i.toInt then
        .error (.database "Int value out of i32 range: number too large to fit in target type")
      else .ok i.toInt32
    | v => .error (mismatch "Int" v)

instance : FromValue Binary64 where
  ofValue?
    | .float x => .ok x
    | .int i => .ok (.ofInt i.toInt)
    | v => .error (mismatch "Float" v)

/-- Servers without a boolean type hand out integers. -/
instance : FromValue Bool where
  ofValue?
    | .bool b => .ok b
    | .int i => .ok (i ≠ 0)
    | v => .error (mismatch "Bool" v)

instance : FromValue String where
  ofValue?
    | .string s => .ok s
    | v => .error (mismatch "String" v)

instance : FromValue Bytes where
  ofValue?
    | .bytes b => .ok b
    | v => .error (mismatch "Bytes" v)

/-- Reads a text, or fails with the given error. -/
def parsed {α : Type} (r : Option α) (e : Error) : Result α :=
  match r with
  | some x => .ok x
  | none => .error e

instance : FromValue Uuid where
  ofValue?
    | .uuid u => .ok u
    | .string s => parsed (Uuid.parse? s) (.database "Invalid UUID string")
    | v => .error (mismatch "Uuid" v)

instance : FromValue Date where
  ofValue?
    | .date d => .ok d
    | .string s => parsed (Date.parse? s) (.database "Invalid date string")
    | v => .error (mismatch "Date" v)

instance : FromValue DateTime where
  ofValue?
    | .dateTime t => .ok t
    | .string s => parsed (DateTime.parse? s) (.database "Invalid datetime string")
    | v => .error (mismatch "DateTime" v)

instance : FromValue Json where
  ofValue?
    | .json j => .ok j
    | .string s => parsed (Json.parse? s) (.serialization "Invalid JSON string")
    | v => .error (mismatch "Json" v)

/-- Null stands for a missing value. -/
instance {α : Type} [FromValue α] : FromValue (Option α) where
  ofValue?
    | .null => .ok none
    | v => (ofValue? v : Result α).map some

end FromValue

namespace Row

/-- The value of a column, read as a type. -/
def get? (α : Type) [FromValue α] (r : Row) (column : String) : Result α :=
  match r.value? column with
  | some v => FromValue.ofValue? v
  | none => .error (.database ("Column '" ++ column ++ "' not found in row"))

/-- The value at a position, read as a type. -/
def getAt? (α : Type) [FromValue α] (r : Row) (i : Nat) : Result α :=
  match r.values[i]? with
  | some v => FromValue.ofValue? v
  | none =>
    .error (.database ("Column index " ++ Digits.text i ++ " out of bounds (row has " ++
      Digits.text r.values.length ++ " columns)"))

/-! ## Lemmas -/

theorem ofLists?_isOk_iff (cs : List String) (vs : List Value) :
    (ofLists? cs vs).isOk = true ↔ cs.length = vs.length := by
  unfold ofLists?
  split
  · next h => simp [h, Except.isOk, Except.toBool]
  · next h => simp [h, Except.isOk, Except.toBool]

theorem ofValue?_option_null {α : Type} [FromValue α] :
    (FromValue.ofValue? .null : Result (Option α)) = .ok none := rfl

end Row

end SqlKit
