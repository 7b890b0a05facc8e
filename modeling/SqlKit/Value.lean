import SqlKit.Calendar.Reading
import SqlKit.Dialect
import SqlKit.Json.Basic
import SqlKit.Uuid

/-!
# Values

A `Value` is what a statement binds and what a row holds, independent of any server.  It has a text,
an inspection text that names its kind, a JSON form and, for each dialect, a literal.

    (Value.list vs).literal d = "(" ++ ", ".intercalate (vs.map (literal d)) ++ ")"  (literal_list)
-/

namespace SqlKit

open Calendar

/-- A value of a statement or a row. -/
inductive Value where
  | null
  | bool (b : Bool)
  | int (i : Int64)
  | float (x : Binary64)
  | string (s : String)
  | bytes (b : Bytes)
  | date (d : Date)
  | dateTime (t : DateTime)
  /-- A point in time, in UTC. -/
  | instant (t : DateTime)
  | time (t : TimeOfDay)
  | uuid (u : Uuid)
  | json (j : Json)
  | list (items : List Value)

instance : Inhabited Value := ⟨.null⟩

namespace Value

/-! ## Text -/

def isNull : Value → Bool
  | null => true
  | _ => false

/-- The text of a string value. -/
def asString? : Value → Option String
  | string s => some s
  | _ => none

mutual

/-- The plain text. -/
def text : Value → String
  | null => "NULL"
  | bool b => if b then "true" else "false"
  | int i => Digits.intText i.toInt
  | float x => Layout.plain.text x
  | string s => s
  | bytes b => "<" ++ Digits.text b.length ++ " bytes>"
  | date d => d.text
  | dateTime t => t.text
  | instant t => t.utcText
  | time t => t.text
  | uuid u => u.text
  | json j => j.text
  | list items => Text.bracketed (texts items)

def texts : List Value → List String
  | [] => []
  | v :: vs => text v :: texts vs

end

mutual

/-- The text for a reader, which names the kind of the value. -/
def inspect : Value → String
  | null => "Null"
  | bool b => if b then "Bool(true)" else "Bool(false)"
  | int i => "Int(" ++ Digits.intText i.toInt ++ ")"
  | float x => "Float(" ++ Layout.inspect.text x ++ ")"
  | string s => "String(" ++ Text.quoted s ++ ")"
  | bytes b => "Bytes(" ++ Text.bracketed (b.map fun x => Digits.text x.toNat) ++ ")"
  | date d => "Date(" ++ d.text ++ ")"
  | dateTime t => "DateTime(" ++ t.isoText ++ ")"
  | instant t => "DateTimeTz(" ++ t.zuluText ++ ")"
  | time t => "Time(" ++ t.text ++ ")"
  | uuid u => "Uuid(" ++ u.text ++ ")"
  | json j => "Json(" ++ j.inspect ++ ")"
  | list items => "List(" ++ Text.bracketed (inspects items) ++ ")"

def inspects : List Value → List String
  | [] => []
  | v :: vs => inspect v :: inspects vs

end

mutual

/-- The JSON form.  Bytes become hexadecimal text, a float that is not finite becomes null, and what
JSON has no form for becomes its text. -/
def toJson : Value → Json
  | null => .null
  | bool b => .bool b
  | int i => .int i.toInt
  | float x => .ofFloat x
  | string s => .string s
  | bytes b => .string (Digits.hexText b)
  | date d => .string d.text
  | dateTime t => .string t.text
  | instant t => .string t.utcText
  | time t => .string t.text
  | uuid u => .string u.text
  | json j => j
  | list items => .array (toJsons items)

def toJsons : List Value → List Json
  | [] => []
  | v :: vs => toJson v :: toJsons vs

end

mutual

/-- The value as a literal of a dialect. -/
def literal (d : Dialect) : Value → String
  | null => "NULL"
  | bool b => if b then "TRUE" else "FALSE"
  | int i => Digits.intText i.toInt
  | float x => Layout.plain.text x
  | string s => d.quoteLiteral s
  | bytes b => "X'" ++ Digits.hexUpperText b ++ "'"
  | date x => d.quoteLiteral x.text
  | dateTime t => d.quoteLiteral t.text
  | instant t => d.quoteLiteral t.utcText
  | time t => d.quoteLiteral t.text
  | uuid u => d.quoteLiteral u.text
  | json j => d.quoteLiteral j.text
  | list items => "(" ++ ", ".intercalate (literals d items) ++ ")"

def literals (d : Dialect) : List Value → List String
  | [] => []
  | v :: vs => literal d v :: literals d vs

end

/-- A value that may be missing. -/
def ofOption {α : Type} (make : α → Value) : Option α → Value
  | none => null
  | some x => make x

/-! ## Lemmas -/

theorem texts_eq_map (vs : List Value) : texts vs = vs.map text := by
  induction vs with
  | nil => rfl
  | cons v vs ih => simp [texts, ih]

theorem toJsons_eq_map (vs : List Value) : toJsons vs = vs.map toJson := by
  induction vs with
  | nil => rfl
  | cons v vs ih => simp [toJsons, ih]

theorem literals_eq_map (d : Dialect) (vs : List Value) : literals d vs = vs.map (literal d) := by
  induction vs with
  | nil => rfl
  | cons v vs ih => simp [literals, ih]

theorem literal_list (d : Dialect) (vs : List Value) :
    (list vs).literal d = "(" ++ ", ".intercalate (vs.map (literal d)) ++ ")" := by
  rw [literal, literals_eq_map]

end Value

end SqlKit
