import SqlKit.Assoc
import SqlKit.Number.Shortest
import SqlKit.Text.Inspect

/-!
# JSON values

Numbers are integers of 64 bits, signed or unsigned, or doubles.  The members of an object stand in
ascending order of their keys, each key once.

    itemTexts js = js.map text                                         (itemTexts_eq_map)
    at? (k :: ks) (.object ms) = (ms.get? k).bind (at? ks)             (at?_cons_object)
-/

namespace SqlKit

/-- A JSON value. -/
inductive Json where
  | null
  | bool (b : Bool)
  | int (i : Int)
  | float (x : Binary64)
  | string (s : String)
  | array (items : List Json)
  | object (members : List (String × Json))

namespace Json

/-! ## Text -/

/-- A character inside a string: quotes, backslashes and controls are escaped. -/
def escape (c : Char) : List Char :=
  if c = '"' ∨ c = '\\' then ['\\', c]
  else if c.toNat = 8 then ['\\', 'b']
  else if c = '\t' then ['\\', 't']
  else if c = '\n' then ['\\', 'n']
  else if c.toNat = 12 then ['\\', 'f']
  else if c = '\r' then ['\\', 'r']
  else if c.toNat < 32 then ['\\', 'u', '0', '0'] ++ Digits.hexPair 'a' (UInt8.ofNat c.toNat)
  else [c]

/-- A string in quotes. -/
def quote (s : String) : String := String.ofList ('"' :: s.toList.flatMap escape ++ ['"'])

/-- The text of a double, which is no JSON number unless it is finite. -/
def floatText (x : Binary64) : String := Layout.json.text x

mutual

/-- The compact text. -/
def text : Json → String
  | null => "null"
  | bool b => if b then "true" else "false"
  | int i => Digits.intText i
  | float x => floatText x
  | string s => quote s
  | array items => "[" ++ ",".intercalate (itemTexts items) ++ "]"
  | object ms => "\x7b" ++ ",".intercalate (memberTexts ms) ++ "\x7d"

def itemTexts : List Json → List String
  | [] => []
  | j :: js => text j :: itemTexts js

def memberTexts : List (String × Json) → List String
  | [] => []
  | (k, v) :: ms => (quote k ++ ":" ++ text v) :: memberTexts ms

end

mutual

/-- The text for a reader, which names the kind of each value. -/
def inspect : Json → String
  | null => "Null"
  | bool b => if b then "Bool(true)" else "Bool(false)"
  | int i => "Number(" ++ Digits.intText i ++ ")"
  | float x => "Number(" ++ floatText x ++ ")"
  | string s => "String(" ++ Text.quoted s ++ ")"
  | array items => "Array " ++ Text.bracketed (itemInspects items)
  | object ms => "Object \x7b" ++ ", ".intercalate (memberInspects ms) ++ "\x7d"

def itemInspects : List Json → List String
  | [] => []
  | j :: js => inspect j :: itemInspects js

def memberInspects : List (String × Json) → List String
  | [] => []
  | (k, v) :: ms => (Text.quoted k ++ ": " ++ inspect v) :: memberInspects ms

end

/-- A double as JSON; what is not finite has no number and becomes null. -/
def ofFloat (x : Binary64) : Json :=
  match x.magnitude with
  | .finite .. => .float x
  | _ => .null

/-- Follows keys into nested objects. -/
def at? : List String → Json → Option Json
  | [], j => some j
  | k :: ks, .object ms => (Assoc.get? k ms).bind (at? ks)
  | _ :: _, _ => none

/-- Is the value an object? -/
def isObject : Json → Bool
  | object _ => true
  | _ => false

/-! ## Lemmas -/

theorem itemTexts_eq_map (js : List Json) : itemTexts js = js.map text := by
  induction js with
  | nil => rfl
  | cons j js ih => simp [itemTexts, ih]

theorem at?_cons_object (k : String) (ks : List String) (ms : Assoc Json) :
    at? (k :: ks) (.object ms) = (Assoc.get? k ms).bind (at? ks) := rfl

end Json

end SqlKit
