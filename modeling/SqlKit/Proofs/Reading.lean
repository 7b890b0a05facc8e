import SqlKit.Mysql.Placeholders
import SqlKit.Query.Compiler

/-!
# Reading predicates

A reader for the boolean part of SQL, independent of how statements are written.  It splits a text
into tokens, puts what stands between parentheses together, and reads what is left with the usual
precedence: `NOT` binds tighter than `AND`, `AND` tighter than `OR`.  The `AND` of a `BETWEEN` and
whatever stands between `CASE` and `END` belong to one predicate.  Quotations that do not end,
comments and lone parentheses are refused; so are lists and queries, which are no predicates.

    "a AND b OR c"     (a and b) or c
    "NOT (a OR b)"     not (a or b)
    "x BETWEEN 1 AND 2"   one predicate
-/

namespace SqlKit

/-! ## Truth -/

/-- A truth value of SQL. -/
inductive Truth where
  | false | unknown | true
deriving DecidableEq, Repr

namespace Truth

def not : Truth → Truth
  | false => true
  | unknown => unknown
  | true => false

def and : Truth → Truth → Truth
  | false, _ => false
  | _, false => false
  | true, t => t
  | t, true => t
  | unknown, unknown => unknown

def or : Truth → Truth → Truth
  | true, _ => true
  | _, true => true
  | false, t => t
  | t, false => t
  | unknown, unknown => unknown

/-- All of them. -/
def all : List Truth → Truth
  | [] => true
  | t :: ts => t.and (all ts)

end Truth

/-! ## Formulas -/

/-- A boolean combination of predicates, which are kept as texts. -/
inductive Reading where
  | leaf (text : String)
  | not (r : Reading)
  | and (a b : Reading)
  | or (a b : Reading)
deriving DecidableEq, Repr

namespace Reading

/-- The truth value when `v` says what the predicates are. -/
def eval (v : String → Truth) : Reading → Truth
  | leaf t => v t
  | not r => (r.eval v).not
  | and a b => (a.eval v).and (b.eval v)
  | or a b => (a.eval v).or (b.eval v)

/-- The predicates, in order. -/
def leaves : Reading → List String
  | leaf t => [t]
  | not r => r.leaves
  | and a b => a.leaves ++ b.leaves
  | or a b => a.leaves ++ b.leaves

def connect (a : Reading) : Connective → Reading → Reading
  | .and, b => and a b
  | .or, b => or a b

/-- Operands with connectives between them; an `AND` takes what stands in front of it, an `OR` waits
for all that follows. -/
def ofLinks : Reading → List (Connective × Reading) → Reading
  | x, [] => x
  | x, (.and, y) :: ls => ofLinks (and x y) ls
  | x, (.or, y) :: ls => or x (ofLinks y ls)

end Reading

/-! ## Tokens -/

inductive Token where
  | blank (c : Char)
  | word (cs : List Char)
  /-- What stands between two quotes. -/
  | quoted (q : Char) (cs : List Char)
  | sign (c : Char)
  | opening
  | closing
deriving DecidableEq, Repr

def Token.chars : Token → List Char
  | blank c => [c]
  | word cs => cs
  | quoted q cs => q :: (cs ++ [q])
  | sign c => [c]
  | opening => ['(']
  | closing => [')']

namespace Lexer

/-- What the characters read last belong to. -/
inductive State where
  | gap
  | word (cs : List Char)
  /-- A minus sign, unless it starts a comment. -/
  | minus
  /-- A slash, unless it starts a comment. -/
  | slash
  | quoted (q : Char) (cs : List Char)
  /-- Behind a backslash between quotes. -/
  | escaped (q : Char) (cs : List Char)
deriving DecidableEq, Repr

/-- The token that ends when something else begins. -/
def State.pending : State → List Token
  | word cs => [.word cs]
  | minus => [.sign '-']
  | slash => [.sign '/']
  | _ => []

/-- Letters, digits and what else words consist of. -/
def isWordChar (c : Char) : Bool := c.isAlphanum || c = '_' || c = '$' || 128 ≤ c.toNat

def isBlank (c : Char) : Bool := c ∈ [' ', '\n', '\t', '\r']

/-- A character at the beginning of a token. -/
def start (d : Dialect) (c : Char) : Option (List Token × State) :=
  if isWordChar c then some ([], .word [c])
  else if Mysql.isQuote c then some ([], .quoted c [])
  else if isBlank c then some ([.blank c], .gap)
  else if c = '(' then some ([.opening], .gap)
  else if c = ')' then some ([.closing], .gap)
  else if c = '-' then some ([], .minus)
  else if c = '/' then some ([], .slash)
  else if c = '#' ∧ d = .mysql then none
  else some ([.sign c], .gap)

/-- A character that ends what was read last. -/
def next (d : Dialect) (s : State) (c : Char) : Option (List Token × State) :=
  (start d c).map fun p => (s.pending ++ p.1, p.2)

def step (d : Dialect) : State → Char → Option (List Token × State)
  | .gap, c => start d c
  | .word cs, c => if isWordChar c then some ([], .word (cs ++ [c])) else next d (.word cs) c
  | .minus, c => if c = '-' then none else next d .minus c
  | .slash, c => if c = '*' then none else next d .slash c
  | .quoted q cs, c =>
    if c = q then some ([.quoted q cs], .gap)
    else if d.backslashEscapes = true ∧ q = '\'' ∧ c = '\\' then some ([], .escaped q cs)
    else some ([], .quoted q (cs ++ [c]))
  | .escaped q cs, c => some ([], .quoted q (cs ++ ['\\', c]))

def run (d : Dialect) : State → List Char → Option (List Token × State)
  | s, [] => some ([], s)
  | s, c :: cs => (step d s c).bind fun p => (run d p.2 cs).map fun q => (p.1 ++ q.1, q.2)

/-- Between quotes. -/
def State.isOpen : State → Bool
  | quoted _ _ => true
  | escaped _ _ => true
  | _ => false

/-- The tokens of a text that ends outside of quotes. -/
def lex? (d : Dialect) (cs : List Char) : Option (List Token) :=
  (run d .gap cs).bind fun p => if p.2.isOpen then none else some (p.1 ++ p.2.pending)

end Lexer

/-! ## Parentheses -/

/-- A token, or all that stands in a pair of parentheses with what it reads as. -/
inductive Lump where
  | token (t : Token)
  | group (chars : List Char) (reading : Option Reading)

namespace Lump

def chars : Lump → List Char
  | token t => t.chars
  | group cs _ => cs

def isBlank : Lump → Bool
  | token (.blank _) => true
  | _ => false

/-- A keyword, in letters of either case. -/
def isWord (w : String) : Lump → Bool
  | token (.word cs) => cs.map Char.toUpper = w.toList
  | _ => false

def isComma : Lump → Bool
  | token (.sign ',') => true
  | _ => false

end Lump

/-- How far the text is inside `CASE … END` and whether the `AND` of a `BETWEEN` is to come. -/
structure Scope where
  cases : Nat
  between : Bool
deriving DecidableEq, Repr

namespace Scope

def top : Scope := ⟨0, false⟩

def after (s : Scope) (l : Lump) : Scope :=
  if l.isWord "CASE" then { s with cases := s.cases + 1 }
  else if l.isWord "END" then { s with cases := s.cases - 1 }
  else if s.cases = 0 ∧ l.isWord "BETWEEN" then { s with between := true }
  else if s.cases = 0 ∧ l.isWord "AND" then { s with between := false }
  else s

/-- A word that connects two predicates here. -/
def connective? (s : Scope) (l : Lump) : Option Connective :=
  if s ≠ top then none
  else if l.isWord "AND" then some .and
  else if l.isWord "OR" then some .or
  else none

end Scope

namespace Lump

/-! ## Precedence -/

/-- The parts between the connectives. -/
def parts? : Scope → List Lump → Option (List Lump × List (Connective × List Lump))
  | s, [] => if s = .top then some ([], []) else none
  | s, l :: ls =>
    match s.connective? l with
    | some op => (parts? .top ls).map fun p => ([], (op, p.1) :: p.2)
    | none => (parts? (s.after l) ls).map fun p => (l :: p.1, p.2)

/-- The lumps without the blanks at the end. -/
def trimEnd (ls : List Lump) : List Lump := (ls.reverse.dropWhile isBlank).reverse

/-- A predicate, or a formula in parentheses. -/
def primary? (ls : List Lump) : Option Reading :=
  match trimEnd ls with
  | [group _ (some r)] => some r
  | ms => if ms.any isComma then none else some (.leaf (String.ofList (ms.flatMap chars)))

/-- One part, which may be negated. -/
def operand? : List Lump → Option Reading
  | [] => none
  | l :: ls =>
    if l.isBlank then operand? ls
    else if l.isWord "NOT" then (operand? ls).map .not
    else if l.isWord "SELECT" || l.isWord "WITH" || l.isWord "VALUES" then none
    else primary? (l :: ls)

def links? : List (Connective × List Lump) → Option (List (Connective × Reading))
  | [] => some []
  | (op, ls) :: rest =>
    (operand? ls).bind fun r => (links? rest).map fun rs => (op, r) :: rs

end Lump

/-- Operands with connectives between them. -/
structure Chain where
  first : Reading
  links : List (Connective × Reading)
deriving DecidableEq, Repr

namespace Chain

def reading (c : Chain) : Reading := .ofLinks c.first c.links

/-- There is an `OR` outside of all parentheses. -/
def hasOr (c : Chain) : Bool := c.links.any fun l => l.1 = .or

def ofLumps? (ls : List Lump) : Option Chain :=
  (Lump.parts? .top ls).bind fun p =>
    (Lump.operand? p.1).bind fun x => (Lump.links? p.2).map fun rs => ⟨x, rs⟩

/-- All that stands in a pair of parentheses. -/
def group (ls : List Lump) : Lump :=
  .group ('(' :: (ls.flatMap Lump.chars ++ [')'])) ((ofLumps? ls).map reading)

/-- Puts together what stands between parentheses; what is still open is on the stack. -/
def nest : List (List Lump) → List Token → Option (List (List Lump))
  | st, [] => some st
  | st, .opening :: ts => nest ([] :: st) ts
  | ls :: ms :: st, .closing :: ts => nest ((ms ++ [group ls]) :: st) ts
  | _, .closing :: _ => none
  | ls :: st, t :: ts => nest ((ls ++ [.token t]) :: st) ts
  | [], _ :: _ => none

def nest? (ts : List Token) : Option (List Lump) :=
  match nest [[]] ts with
  | some [ls] => some ls
  | _ => none

/-- The lumps of a text. -/
def lumps? (d : Dialect) (s : String) : Option (List Lump) := (Lexer.lex? d s.toList).bind nest?

def ofText? (d : Dialect) (s : String) : Option Chain := (lumps? d s).bind ofLumps?

end Chain

/-- What a text reads as. -/
def Reading.ofText? (d : Dialect) (s : String) : Option Reading :=
  (Chain.ofText? d s).map Chain.reading

example : Reading.ofText? .postgres "NOT a = 1 AND (b OR c) OR x BETWEEN 1 AND 2" =
    some (.or (.and (.not (.leaf "a = 1")) (.or (.leaf "b") (.leaf "c")))
      (.leaf "x BETWEEN 1 AND 2")) := by rfl

end SqlKit
