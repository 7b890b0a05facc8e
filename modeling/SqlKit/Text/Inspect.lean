import SqlKit.Text.Digits
import SqlKit.Text.Shown

/-!
# Inspection text

The form values take in messages for a reader: strings in double quotes with escapes, lists in
brackets, options by constructor.

    escape c = [c] for a shown character other than quote and backslash (escape_of_isShown)
-/

namespace SqlKit.Text

/-! ## Algorithm -/

/-- A character inside a quoted text.  The well-known controls have escapes of one letter, all else
that is not shown is written by its number. -/
def escape (c : Char) : List Char :=
  if c = '"' ∨ c = '\\' then ['\\', c]
  else if c = '\n' then ['\\', 'n']
  else if c = '\r' then ['\\', 'r']
  else if c = '\t' then ['\\', 't']
  else if c.toNat = 0 then ['\\', '0']
  else if isShown c then [c]
  else "\\u\x7b".toList ++ Nat.toDigits 16 c.toNat ++ ['\x7d']

/-- A text in double quotes. -/
def quoted (s : String) : String := String.ofList ('"' :: s.toList.flatMap escape ++ ['"'])

/-- A list in brackets. -/
def bracketed (items : List String) : String := "[" ++ ", ".intercalate items ++ "]"

/-- An optional value by its constructor. -/
def optional (item : Option String) : String :=
  match item with
  | none => "None"
  | some s => "Some(" ++ s ++ ")"

/-- A record with named fields. -/
def recordText (name : String) (fields : List (String × String)) : String :=
  name ++ " \x7b " ++ ", ".intercalate (fields.map fun f => f.1 ++ ": " ++ f.2) ++ " \x7d"

/-- A record that shows only some of its fields. -/
def openRecordText (name : String) (fields : List (String × String)) : String :=
  name ++ " \x7b " ++ String.join (fields.map fun f => f.1 ++ ": " ++ f.2 ++ ", ") ++ ".. \x7d"

/-! ## Lemmas -/

theorem escape_of_isShown {c : Char} (h : isShown c = true) (hq : c ≠ '"') (hb : c ≠ '\\') :
    escape c = [c] := by
  have h1 : c ≠ '\n' := by rintro rfl; exact absurd h (by decide)
  have h2 : c ≠ '\r' := by rintro rfl; exact absurd h (by decide)
  have h3 : c ≠ '\t' := by rintro rfl; exact absurd h (by decide)
  have h4 : c.toNat ≠ 0 := by
    intro h0
    simp [isShown, h0] at h
  simp [escape, hq, hb, h1, h2, h3, h4, h]

end SqlKit.Text
