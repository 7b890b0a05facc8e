import SqlKit.Error
import SqlKit.Text.Blank
import SqlKit.Text.Quoted

/-!
# Dialects

A dialect fixes the spelling of placeholders and of string literals; identifiers are quoted the same
everywhere.  Literals double their quotes, and with MySQL, where the backslash escapes, backslashes
too.

    readLiteral? (quoteLiteral d s ++ r) = some (s, r)   if r does not start with a quote
                                                                       (readLiteral?_quoteLiteral)
-/

namespace SqlKit

/-- A family of SQL servers. -/
inductive Dialect where
  | postgres
  | mysql
  | sqlite
deriving DecidableEq, Repr

namespace Dialect

/-! ## Algorithm -/

/-- The name of the dialect. -/
def vendor : Dialect → String
  | postgres => "postgres"
  | mysql => "mysql"
  | sqlite => "sqlite"

/-- Placeholders carry a number. -/
def isNumbered : Dialect → Bool
  | postgres => true
  | mysql | sqlite => false

/-- How placeholders look. -/
def placeholderStyle : Dialect → String
  | postgres => "$n"
  | mysql => "%s"
  | sqlite => "?"

/-- The placeholder of the parameter with the given number, counted from one. -/
def placeholder : Dialect → Nat → String
  | postgres, n => "$" ++ Digits.text n
  | mysql, _ => "%s"
  | sqlite, _ => "?"

/-- The backslash escapes inside a string literal. -/
def backslashEscapes : Dialect → Bool
  | mysql => true
  | postgres | sqlite => false

/-- A string literal. -/
def quoteLiteral (d : Dialect) (s : String) : String :=
  String.ofList (Text.Quoted.quote '\'' d.backslashEscapes s.toList)

/-- Reads a string literal off the front of a text. -/
def readLiteral? (d : Dialect) (s : List Char) : Option (List Char × List Char) :=
  Text.Quoted.read? '\'' d.backslashEscapes s

/-- The dialect with one of its names, blanks around it and the case of letters aside. -/
def ofName? (name : String) : Result Dialect :=
  let key := String.ofList (Text.lowerAscii (Text.trim name.toList))
  if key ∈ ["postgres", "postgresql", "pg"] then .ok postgres
  else if key ∈ ["mysql", "mariadb"] then .ok mysql
  else if key ∈ ["sqlite", "sqlite3"] then .ok sqlite
  else .error (.notImplemented ("the '" ++ key ++ "' engine") "postgres, mysql or sqlite")

end Dialect

/-- An identifier in double quotes. -/
def quoteIdent (s : String) : String := String.ofList (Text.Quoted.quote '"' false s.toList)

/-- Reads a quoted identifier off the front of a text. -/
def readIdent? (s : List Char) : Option (List Char × List Char) := Text.Quoted.read? '"' false s

/-! ## Lemmas -/

/-- A literal is one token, and its content is the text it was written for. -/
theorem Dialect.readLiteral?_quoteLiteral (d : Dialect) (s : String) (r : List Char)
    (hr : r.head? ≠ some '\'') :
    d.readLiteral? ((d.quoteLiteral s).toList ++ r) = some (s.toList, r) := by
  simpa [readLiteral?, quoteLiteral] using
    Text.Quoted.read?_quote (by decide) d.backslashEscapes s.toList r hr

/-- A quoted identifier is one token, and its content is the name it was written for. -/
theorem readIdent?_quoteIdent (s : String) (r : List Char) (hr : r.head? ≠ some '"') :
    readIdent? ((quoteIdent s).toList ++ r) = some (s.toList, r) := by
  simpa [readIdent?, quoteIdent] using Text.Quoted.read?_quote (by decide) false s.toList r hr

/-- Only numbered placeholders depend on the number. -/
theorem Dialect.placeholder_eq_of_not_isNumbered {d : Dialect} (h : d.isNumbered = false)
    (m n : Nat) : d.placeholder m = d.placeholder n := by
  cases d <;> first | rfl | exact absurd h (by decide)

end SqlKit
