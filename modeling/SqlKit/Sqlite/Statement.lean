import SqlKit.Dialect
import SqlKit.Sqlite.Datum

/-!
# Statements of SQLite

The part of SQL that tables of numbers need: transactions, tables with one integer column that is
their key, inserting, selecting and deleting rows, and rows written out as they are.  Of a text with
several statements the first is read.

    a text of blanks has no tokens                                     (scan_of_blank)
-/

namespace SqlKit.Sqlite

/-! ## Tokens -/

inductive Token where
  /-- A word of the language, in upper case. -/
  | key (word : String)
  | name (s : String)
  | number (n : Nat)
  | literal (s : String)
  | symbol (s : String)
deriving DecidableEq

namespace Token

/-- The words of the language. -/
def words : List String :=
  ["AS", "ASC", "BEGIN", "BY", "COMMIT", "CREATE", "DEFERRED", "DELETE", "DESC", "END", "EXCLUSIVE",
    "FROM", "IMMEDIATE", "INSERT", "INTEGER", "INTO", "KEY", "NULL", "ORDER", "PRIMARY",
    "RETURNING", "ROLLBACK", "SELECT", "TABLE", "TRANSACTION", "VALUES", "WHERE"]

/-- The symbols of two characters. -/
def pairs : List String := ["<=", ">=", "<>", "!=", "=="]

/-- A character of a word. -/
def isWordChar (c : Char) : Bool := c.isAlphanum || c = '_' || 0x80 ≤ c.toNat

/-- A word of the language or a name. -/
def ofWord (w : List Char) : Token :=
  let upper := String.ofList (Text.upperAscii w)
  if upper ∈ words then .key upper else .name (String.ofList w)

/-- The token at the front of a text that starts with `c`, and the text after it. -/
def first (c : Char) (cs : List Char) : Token × List Char :=
  let other : Token × List Char :=
    let two := String.ofList (c :: cs.take 1)
    if two ∈ pairs then (.symbol two, cs.drop 1) else (.symbol (String.ofList [c]), cs)
  if c.isDigit then
    match Digits.value? ((c :: cs).takeWhile Char.isDigit) with
    | some n => (.number n, cs.dropWhile Char.isDigit)
    | none => other
  else if isWordChar c then (ofWord ((c :: cs).takeWhile isWordChar), cs.dropWhile isWordChar)
  else match readIdent? (c :: cs), Dialect.sqlite.readLiteral? (c :: cs) with
    | some (s, rest), _ => (.name (String.ofList s), rest)
    | none, some (s, rest) => (.literal (String.ofList s), rest)
    | none, none => other

/-- The number of bytes between a text and its rest. -/
def bytesTo (cs rest : List Char) : Nat :=
  (String.ofList (cs.take (cs.length - rest.length))).utf8ByteSize

/-- The tokens up to the end of the first statement, with the places where they start; `fuel` bounds
their number. -/
def scan : Nat → Nat → List Char → List (Nat × Token)
  | 0, _, _ | _, _, [] => []
  | fuel + 1, place, c :: cs =>
    if Text.isBlank c then scan fuel (place + c.utf8Size) cs
    else
      let (t, rest) := first c cs
      if t = .symbol ";" then []
      else (place, t) :: scan fuel (place + bytesTo (c :: cs) rest) rest

/-- The tokens of a statement, with the places where they start. -/
def ofText (s : String) : List (Nat × Token) := scan s.length 0 s.toList

end Token

/-! ## Statements -/

/-- A parameter or a datum. -/
inductive Term where
  | mark
  | datum (d : Datum)
deriving DecidableEq

inductive Comparison where
  | eq
  | ne
  | lt
  | le
  | gt
  | ge
deriving DecidableEq

/-- A comparison holds of two things that compare so. -/
def Comparison.holds : Comparison → Ordering → Bool
  | .eq, o => o = .eq
  | .ne, o => o ≠ .eq
  | .lt, o => o = .lt
  | .le, o => o ≠ .gt
  | .gt, o => o = .gt
  | .ge, o => o ≠ .lt

inductive Statement where
  /-- Opens a transaction, which may want to be the one that writes from its start. -/
  | begin (writes : Bool)
  | commit
  | rollback
  /-- Makes a table; `place` is where its name stands. -/
  | create (table column : String) (place : Nat)
  | insert (table column : String) (rows : List Term) (returning : Bool)
  | select (table : String) (column : Option String) (filter : Option (Comparison × Term))
      (descending : Bool)
  | delete (table : String) (filter : Option (Comparison × Term))
  /-- Rows written out. -/
  | values (columns : List String) (rows : List (List Term))

namespace Statement

/-- A term. -/
def term? : List Token → Option (Term × List Token)
  | .symbol "?" :: ts => some (.mark, ts)
  | .number n :: ts => (Datum.int64? n).map fun i => (.datum (.integer i), ts)
  | .symbol "-" :: .number n :: ts => (Datum.int64? (-n)).map fun i => (.datum (.integer i), ts)
  | .literal s :: ts => some (.datum (.text s), ts)
  | .key "NULL" :: ts => some (.datum .null, ts)
  | _ => none

/-- Items between commas; `fuel` bounds their number. -/
def commas? {α : Type} (item : List Token → Option (α × List Token)) :
    Nat → List Token → Option (List α × List Token)
  | 0, _ => none
  | fuel + 1, ts => do
    let (a, ts) ← item ts
    match ts with
    | .symbol "," :: ts =>
      let (as, ts) ← commas? item fuel ts
      return (a :: as, ts)
    | _ => return ([a], ts)

/-- Items between commas. -/
def list? {α : Type} (item : List Token → Option (α × List Token)) (ts : List Token) :
    Option (List α × List Token) := commas? item ts.length ts

/-- Terms in parentheses. -/
def row? : List Token → Option (List Term × List Token)
  | .symbol "(" :: ts => do
    match ← list? term? ts with
    | (terms, .symbol ")" :: ts) => return (terms, ts)
    | _ => none
  | _ => none

/-- The name of a column that is written out as a term. -/
def label : List Token → String
  | .number n :: _ => Digits.text n
  | .symbol "-" :: .number n :: _ => "-" ++ Digits.text n
  | .literal s :: _ => "'" ++ s ++ "'"
  | .key w :: _ => w
  | _ => "?"

/-- A term with the name of its column. -/
def item? (ts : List Token) : Option ((String × Term) × List Token) := do
  match ← term? ts with
  | (t, .key "AS" :: .name n :: rest) => return ((n, t), rest)
  | (t, rest) => return ((label ts, t), rest)

/-- A comparison. -/
def comparison? : String → Option Comparison
  | "=" | "==" => some .eq
  | "<>" | "!=" => some .ne
  | "<" => some .lt
  | "<=" => some .le
  | ">" => some .gt
  | ">=" => some .ge
  | _ => none

/-- A condition on the key, if there is one. -/
def filter? : List Token → Option (Option (Comparison × Term) × List Token)
  | .key "WHERE" :: .name _ :: .symbol op :: ts => do
    let (t, ts) ← term? ts
    return (some (← comparison? op, t), ts)
  | ts => some (none, ts)

/-- The order of rows, if one is given. -/
def descending? : List Token → Option Bool
  | [] | [.key "ORDER", .key "BY", .name _] | [.key "ORDER", .key "BY", .name _, .key "ASC"] =>
    some false
  | [.key "ORDER", .key "BY", .name _, .key "DESC"] => some true
  | _ => none

/-- What stands after `SELECT`. -/
def select? : List Token → Option Statement
  | .name c :: .key "FROM" :: .name t :: ts => do
    let (filter, ts) ← filter? ts
    return .select t (some c) filter (← descending? ts)
  | .symbol "*" :: .key "FROM" :: .name t :: ts => do
    let (filter, ts) ← filter? ts
    return .select t none filter (← descending? ts)
  | ts => do
    match ← list? item? ts with
    | (items, []) => return .values (items.map (·.1)) [items.map (·.2)]
    | _ => none

/-- What stands after `VALUES`. -/
def values? (ts : List Token) : Option Statement := do
  match ← list? row? ts with
  | (rows, []) =>
    let width := (rows.head?.map List.length).getD 0
    if rows.all (·.length = width) then
      return .values ((List.range width).map fun i => "column" ++ Digits.text (i + 1)) rows
    else none
  | _ => none

/-- What stands after the columns of an `INSERT`. -/
def insert? (table column : String) (ts : List Token) : Option Statement := do
  let (rows, ts) ← list? row? ts
  let terms ← rows.mapM fun
    | [t] => some t
    | _ => none
  match ts with
  | [] => return .insert table column terms false
  | [.key "RETURNING", .symbol "*"] => return .insert table column terms true
  | _ => none

/-- The statement that tokens spell; `place` is where the third one stands. -/
def ofTokens? (place : Nat) : List Token → Option Statement
  | .key "BEGIN" :: ts =>
    match ts.filter (· ≠ .key "TRANSACTION") with
    | [] | [.key "DEFERRED"] => some (.begin false)
    | [.key "IMMEDIATE"] | [.key "EXCLUSIVE"] => some (.begin true)
    | _ => none
  | [.key "COMMIT"] | [.key "COMMIT", .key "TRANSACTION"] | [.key "END"]
  | [.key "END", .key "TRANSACTION"] => some .commit
  | [.key "ROLLBACK"] | [.key "ROLLBACK", .key "TRANSACTION"] => some .rollback
  | [.key "CREATE", .key "TABLE", .name t, .symbol "(", .name c, .key "INTEGER", .key "PRIMARY",
      .key "KEY", .symbol ")"] => some (.create t c place)
  | .key "INSERT" :: .key "INTO" :: .name t :: .symbol "(" :: .name c :: .symbol ")" ::
      .key "VALUES" :: ts => insert? t c ts
  | .key "SELECT" :: ts => select? ts
  | .key "VALUES" :: ts => values? ts
  | .key "DELETE" :: .key "FROM" :: .name t :: ts => do
    match ← filter? ts with
    | (filter, []) => return .delete t filter
    | _ => none
  | _ => none

/-- Reads the first statement of a text.  A text that is no statement is refused at its first
word. -/
def ofText? (sql : String) : Result Statement :=
  let tokens := Token.ofText sql
  match ofTokens? ((tokens[2]?.map (·.1)).getD 0) (tokens.map (·.2)) with
  | some s => .ok s
  | none =>
    let word := String.ofList (Text.firstWord sql.toList)
    .error (.database ("near \"" ++ word ++ "\": syntax error in " ++ sql ++ " at offset " ++
      Digits.text ((tokens.head?.map (·.1)).getD 0)))

/-- How many parameters there are. -/
def marks : Statement → Nat
  | begin _ | commit | rollback | create .. => 0
  | insert _ _ rows _ => rows.count .mark
  | select _ _ filter _ | delete _ filter =>
    match filter with
    | some (_, .mark) => 1
    | _ => 0
  | values _ rows => rows.flatten.count .mark

end Statement

/-! ## Lemmas -/

theorem Token.scan_of_blank {cs : List Char} (h : ∀ c ∈ cs, Text.isBlank c = true)
    (fuel place : Nat) : Token.scan fuel place cs = [] := by
  induction cs generalizing fuel place with
  | nil => cases fuel <;> rfl
  | cons c cs ih =>
    cases fuel with
    | zero => rfl
    | succ fuel => simp [scan, h c (by simp), ih fun d hd => h d (by simp [hd])]

end SqlKit.Sqlite
