import SqlKit.Json.Written
import SqlKit.Value

/-!
# Values as tagged JSON

A value travels as an object of two members, `type` and `value`; null has no `value`.  Numbers are
numbers, bytes are arrays of numbers, dates and identifiers are text in ISO form.  Reading accepts the
two members in either order, ignores other members, refuses repeated ones, and also accepts an array
of the two.

    tagged (.list vs) = tag "List" (.array (vs.map tagged))            (tagged_list)
-/

namespace SqlKit.Value

open Calendar

/-! ## Writing -/

/-- The object with a type and a value. -/
def tag (type : String) (value : Json) : Json := .object [("type", .string type), ("value", value)]

mutual

/-- The tagged form. -/
def tagged : Value → Json
  | null => .object [("type", .string "Null")]
  | bool b => tag "Bool" (.bool b)
  | int i => tag "Int" (.int i.toInt)
  | float x => tag "Float" (.ofFloat x)
  | string s => tag "String" (.string s)
  | bytes b => tag "Bytes" (.array (b.map fun x => .int x.toNat))
  | date d => tag "Date" (.string d.text)
  | dateTime t => tag "DateTime" (.string t.isoText)
  | instant t => tag "DateTimeTz" (.string t.zuluText)
  | time t => tag "Time" (.string t.text)
  | uuid u => tag "Uuid" (.string u.text)
  | json j => tag "Json" j
  | list items => tag "List" (.array (taggedItems items))

def taggedItems : List Value → List Json
  | [] => []
  | v :: vs => tagged v :: taggedItems vs

end

/-! ## Reading -/

/-- An integer of the given range. -/
def intBetween? (lo hi : Int) : Json → Option Int
  | .int i => if lo ≤ i ∧ i ≤ hi then some i else none
  | _ => none

/-- A number of either kind as a double. -/
def double? : Json → Option Binary64
  | .int i => some (.ofInt i)
  | .float x => some x
  | _ => none

def text? : Json → Option String
  | .string s => some s
  | _ => none

def byte? (j : Json) : Option UInt8 := (intBetween? 0 255 j).map fun i => UInt8.ofNat i.toNat

/-- A list of bytes given as numbers. -/
def bytes? : Json → Option Bytes
  | .array items => items.mapM byte?
  | _ => none

/-- Reads the content of a type other than `List`. -/
def ofContent? (type : String) (j : Json) : Option Value :=
  match type with
  | "Null" => match j with
    | .null => some null
    | _ => none
  | "Bool" => match j with
    | .bool b => some (bool b)
    | _ => none
  | "Int" => (intBetween? (-9223372036854775808) 9223372036854775807 j).map fun i => int (.ofInt i)
  | "Float" => (double? j).map float
  | "String" => (text? j).map string
  | "Bytes" => (bytes? j).map bytes
  | "Date" => (text? j).bind fun s => (Date.parseIso? s).map date
  | "DateTime" => (text? j).bind fun s => (DateTime.parseIso? s).map dateTime
  | "DateTimeTz" => (text? j).bind fun s => (DateTime.parseUtc? s).map instant
  | "Time" => (text? j).bind fun s => (TimeOfDay.parseIso? s).map time
  | "Uuid" => (text? j).bind fun s => (Uuid.parse? s).map uuid
  | "Json" => some (json j)
  | _ => none

/-- The two members of a tagged object, as far as they were met. -/
structure Tagged where
  type : Option Json.Written
  value : Option Json.Written
  /-- The value stood in front of the type. -/
  valueFirst : Bool

/-- Collects the two members and passes over all others. -/
def collect? (acc : Tagged) : List (List Json.CodeUnit × Json.Written) → Option Tagged
  | [] => some acc
  | (key, w) :: ms => do
    let k ← Json.unitsText? key
    if k = "type" then
      if acc.type.isSome then none else collect? { acc with type := some w } ms
    else if k = "value" then
      if acc.value.isSome then none
      else collect? { acc with value := some w, valueFirst := acc.type.isNone } ms
    else collect? acc ms

/-- The name of a type: a string, or an object whose one member has that key and null. -/
def typeName? : Json.Written → Option String
  | .string us => Json.unitsText? us
  | .object [(us, .null)] => Json.unitsText? us
  | _ => none

/-- Reads a tagged value nested at most `depth` deep. -/
def ofTagged? : Nat → Json.Written → Option Value
  | 0, _ => none
  | depth + 1, w => do
    let fields ← match w with
      | .object ms => collect? ⟨none, none, false⟩ ms
      | .array [t, v] => some ⟨some t, some v, false⟩
      | _ => none
    let type ← fields.type >>= typeName?
    match fields.value with
    | none => if type = "Null" then some null else none
    | some v =>
      if fields.valueFirst && (v.toJson? depth).isNone then none
      else if type = "List" then
        match v, depth with
        | .array items, d + 1 => (items.mapM (ofTagged? d)).map list
        | _, _ => none
      else (v.toJson? depth).bind (ofContent? type)

/-- Reads a tagged value from JSON text. -/
def parseTagged? (s : String) : Option Value := (Json.read? s).bind (ofTagged? Json.maxDepth)

/-! ## Lemmas -/

theorem taggedItems_eq_map (vs : List Value) : taggedItems vs = vs.map tagged := by
  induction vs with
  | nil => rfl
  | cons v vs ih => simp [taggedItems, ih]

theorem tagged_list (vs : List Value) : (list vs).tagged = tag "List" (.array (vs.map tagged)) := by
  rw [tagged, taggedItems_eq_map]

end SqlKit.Value
