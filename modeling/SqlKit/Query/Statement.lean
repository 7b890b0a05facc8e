import SqlKit.Query.Table
import SqlKit.Value

/-!
# Statements

The syntax of statements, as plain data: expressions, conditions, function and window calls, sources
and joins, and a `Statement` that collects the clauses given so far.  Statements nest: in sub-queries,
in common table expressions and in `INSERT … SELECT`.  A `Script` is a statement with those that go
before it.

A statement keeps every clause it was given, also those its kind does not write.

    c.not.not = c   unless c is itself a negation                      (not_not_of_ne)
-/

namespace SqlKit

/-! ## Small parts -/

/-- A comparison operator. -/
inductive CompareOp where
  | eq | ne | gt | ge | lt | le | like | ilike
deriving DecidableEq, Repr

def CompareOp.sql : CompareOp → String
  | eq => "="
  | ne => "<>"
  | gt => ">"
  | ge => ">="
  | lt => "<"
  | le => "<="
  | like => "LIKE"
  | ilike => "ILIKE"

/-- A connective of two conditions. -/
inductive Connective where
  | and | or
deriving DecidableEq, Repr

def Connective.sql : Connective → String
  | and => "AND"
  | or => "OR"

/-- A sort direction. -/
inductive Direction where
  | asc | desc
deriving DecidableEq, Repr

def Direction.sql : Direction → String
  | asc => "ASC"
  | desc => "DESC"

/-- What a function call names. -/
inductive FunctionName where
  | named (name : String)
  /-- The function that builds a JSON object, which dialects name differently. -/
  | jsonObject
deriving DecidableEq, Repr

/-- A way to join. -/
inductive JoinKind where
  | inner | left | right | full | cross
deriving DecidableEq, Repr

def JoinKind.sql : JoinKind → String
  | inner => "INNER JOIN"
  | left => "LEFT JOIN"
  | right => "RIGHT JOIN"
  | full => "FULL JOIN"
  | cross => "CROSS JOIN"

/-- What a statement does. -/
inductive StatementKind where
  | select | insert | update | delete | begin | commit | rollback
deriving DecidableEq, Repr

/-- The name of a kind. -/
def StatementKind.name : StatementKind → String
  | select => "Select"
  | insert => "Insert"
  | update => "Update"
  | delete => "Delete"
  | begin => "Begin"
  | commit => "Commit"
  | rollback => "Rollback"

/-- What happens to a row that is there already. -/
inductive ConflictAction where
  | nothing
  /-- Columns and the literals they are set to; a text that starts with `EXCLUDED.` stands as it
  is. -/
  | update (assignments : List (String × Value))

/-- The `ON CONFLICT` clause. -/
structure OnConflict where
  targets : List String
  action : ConflictAction

/-! ## The nested parts -/

mutual

/-- What a select list, a grouping, a partition or an argument of a window call consists of. -/
inductive Expr where
  | column (c : Column)
  | raw (sql : String)
  | value (v : Value)
  | call (f : Call)
  | window (w : WindowCall)
  | condition (c : Condition)
  | subquery (s : Statement)
  | named (e : Expr) («alias» : String)

/-- The right-hand side of a comparison or an argument of a function. -/
inductive Operand where
  | value (v : Value)
  | column (c : Column)
  | expr (e : Expr)

/-- A function call. -/
structure Call where
  name : FunctionName
  args : List Operand
  «alias» : Option String

/-- A sort key. -/
structure OrderItem where
  expr : Expr
  direction : Direction

/-- The rows a window call looks at. -/
structure WindowSpec where
  partitionBy : List Expr
  orderBy : List OrderItem
  frame : Option String

/-- The window of a call: one defined by the statement, or one of its own. -/
inductive Over where
  | named (name : String)
  | spec (s : WindowSpec)

/-- An aggregate or ranking call over a window. -/
structure WindowCall where
  name : String
  args : List Expr
  distinct : Bool
  filter : Option Condition
  window : Option Over
  «alias» : Option String

/-- A boolean expression. -/
inductive Condition where
  | compare (left : Column) (op : CompareOp) (right : Operand)
  | null (c : Column) (negated : Bool)
  | connect (left : Condition) (op : Connective) (right : Condition)
  | inList (c : Column) (negated : Bool) (values : List Value)
  | inQuery (c : Column) (negated : Bool) (query : Statement)
  | between (c : Column) (lower upper : Value)
  | negation (inner : Condition)
  | raw (sql : String)

/-- What rows are taken from. -/
inductive Source where
  | table (t : Table)
  | subquery (query : Statement) («alias» : Option String)
  | raw (sql : String)

/-- A joined source. -/
structure Join where
  kind : JoinKind
  source : Source
  on : Option Condition

/-- The body of a common table expression. -/
inductive CteBody where
  | query (q : Statement)
  | raw (sql : String)

/-- A common table expression. -/
structure Cte where
  name : String
  body : CteBody

/-- One item of a `SET` list. -/
inductive Assignment where
  | set (column : String) (value : Operand)
  | raw (sql : String)

/-- A window the statement defines. -/
structure WindowDef where
  name : String
  spec : WindowSpec

/-- One statement and every clause it was given. -/
structure Statement where
  kind : StatementKind := .select
  selects : List Expr := []
  distinct : Bool := false
  sources : List Source := []
  joins : List Join := []
  wheres : List Condition := []
  groups : List Expr := []
  orders : List OrderItem := []
  limit : Option Nat := none
  offset : Option Nat := none
  returning : List String := []
  ctes : List Cte := []
  insertTable : Option Table := none
  insertColumns : List String := []
  insertRows : List (List Value) := []
  insertQuery : Option Statement := none
  updateTable : Option Table := none
  updates : List Assignment := []
  deleteSource : Option Source := none
  windows : List WindowDef := []
  onConflict : Option OnConflict := none

end

/-- A statement and the scripts that go before it, first things first. -/
structure Script where
  chain : List Script
  last : Statement

/-! ## Building the parts -/

namespace Expr

/-- Names an expression; an earlier name is replaced. -/
def as (e : Expr) («alias» : String) : Expr :=
  match e with
  | named inner _ => named inner «alias»
  | e => named e «alias»

end Expr

namespace Operand

def raw (sql : String) : Operand := expr (.raw sql)

end Operand

namespace Call

def of (name : String) (args : List Operand) : Call := ⟨.named name, args, none⟩

/-- The JSON object of keys and values. -/
def jsonObject (pairs : List (String × Operand)) : Call :=
  ⟨.jsonObject, pairs.flatMap fun p => [.value (.string p.1), p.2], none⟩

def as (c : Call) («alias» : String) : Call := { c with «alias» := some «alias» }

def count (arg : Operand) : Call := of "COUNT" [arg]
def countAll : Call := of "COUNT" [.raw "*"]
def sum (arg : Operand) : Call := of "SUM" [arg]
def avg (arg : Operand) : Call := of "AVG" [arg]
def min (arg : Operand) : Call := of "MIN" [arg]
def max (arg : Operand) : Call := of "MAX" [arg]
def lower (arg : Operand) : Call := of "LOWER" [arg]
def upper (arg : Operand) : Call := of "UPPER" [arg]
def coalesce (args : List Operand) : Call := of "COALESCE" args
def now : Call := of "NOW" []

end Call

namespace OrderItem

/-- A key given as text: a minus sign in front asks for descending order, a plus sign is dropped. -/
def ofKey (key : String) : OrderItem :=
  match key.toList with
  | '-' :: r => ⟨.raw (String.ofList r), .desc⟩
  | '+' :: r => ⟨.raw (String.ofList r), .asc⟩
  | _ => ⟨.raw key, .asc⟩

end OrderItem

namespace WindowSpec

def empty : WindowSpec := ⟨[], [], none⟩

def partition (s : WindowSpec) (items : List Expr) : WindowSpec :=
  { s with partitionBy := s.partitionBy ++ items }

def order (s : WindowSpec) (items : List OrderItem) : WindowSpec :=
  { s with orderBy := s.orderBy ++ items }

def rowsBetween (s : WindowSpec) (a b : String) : WindowSpec :=
  { s with frame := some ("ROWS BETWEEN " ++ a ++ " AND " ++ b) }

def rangeBetween (s : WindowSpec) (a b : String) : WindowSpec :=
  { s with frame := some ("RANGE BETWEEN " ++ a ++ " AND " ++ b) }

def isEmpty (s : WindowSpec) : Bool :=
  s.partitionBy.isEmpty && s.orderBy.isEmpty && s.frame.isNone

end WindowSpec

namespace Condition

/-- A comparison; to be equal or unequal to null is a test for null. -/
def compareWith (left : Column) (op : CompareOp) (right : Operand) : Condition :=
  match op, right with
  | .eq, .value .null => null left false
  | .ne, .value .null => null left true
  | op, right => compare left op right

def and (a b : Condition) : Condition := connect a .and b

def or (a b : Condition) : Condition := connect a .or b

/-- The negation; that of a negation is what it negates. -/
def not : Condition → Condition
  | negation inner => inner
  | c => negation c

end Condition

namespace WindowCall

def of (name : String) (args : List Expr) : WindowCall := ⟨name, args, false, none, none, none⟩

def withDistinct (w : WindowCall) : WindowCall := { w with distinct := true }

/-- Restricts the rows that count; a second filter is added to the first. -/
def restrict (w : WindowCall) (c : Condition) : WindowCall :=
  { w with filter := some (match w.filter with
      | some f => f.and c
      | none => c) }

def overSpec (w : WindowCall) (s : WindowSpec) : WindowCall := { w with window := some (.spec s) }

def overNamed (w : WindowCall) (name : String) : WindowCall :=
  { w with window := some (.named name) }

def as (w : WindowCall) («alias» : String) : WindowCall := { w with «alias» := some «alias» }

/-- An integer argument stands as it is. -/
def integer (n : Int) : Expr := .raw (Digits.intText n)

def rowNumber : WindowCall := of "ROW_NUMBER" []
def rank : WindowCall := of "RANK" []
def denseRank : WindowCall := of "DENSE_RANK" []
def percentRank : WindowCall := of "PERCENT_RANK" []
def cumeDist : WindowCall := of "CUME_DIST" []
def ntile (buckets : Int) : WindowCall := of "NTILE" [integer buckets]

/-- A look at another row; a default of null is left out. -/
def shifted (name : String) (column : Expr) (offset : Int) (default : Value) : WindowCall :=
  of name (column :: integer offset :: if default.isNull then [] else [.value default])

def lag (column : Expr) (offset : Int) (default : Value) : WindowCall :=
  shifted "LAG" column offset default

def lead (column : Expr) (offset : Int) (default : Value) : WindowCall :=
  shifted "LEAD" column offset default

def firstValue (column : Expr) : WindowCall := of "FIRST_VALUE" [column]
def lastValue (column : Expr) : WindowCall := of "LAST_VALUE" [column]
def nthValue (column : Expr) (n : Int) : WindowCall := of "NTH_VALUE" [column, integer n]
def sum (column : Expr) : WindowCall := of "SUM" [column]
def avg (column : Expr) : WindowCall := of "AVG" [column]
def count (column : Expr) : WindowCall := of "COUNT" [column]
def min (column : Expr) : WindowCall := of "MIN" [column]
def max (column : Expr) : WindowCall := of "MAX" [column]

end WindowCall

namespace Source

/-- A letter or underscore, then letters, digits and underscores, all of them ASCII. -/
def isIdentifier (s : List Char) : Bool :=
  match s with
  | c :: cs => (c.isAlpha || c = '_') && cs.all fun d => d.isAlphanum || d = '_'
  | [] => false

/-- A text that is an identifier, or two with a dot between them, names a table; any other stands as
it is. -/
def ofText (s : String) : Source :=
  let parts := Text.splitAll '.' s.toList
  if parts.length ≤ 2 ∧ parts.all isIdentifier then table (.ofPath s) else raw s

end Source

namespace Statement

def empty : Statement := {}

/-- Something has been asked of the statement already, so that opening another one puts it aside. -/
def isDirty (s : Statement) : Bool :=
  s.kind ≠ .select || !s.selects.isEmpty || !s.sources.isEmpty

/-- Running the statement gives rows. -/
def returnsRows (s : Statement) : Bool := s.kind = .select || !s.returning.isEmpty

/-- Puts a definition in the place of one with its name, or at the end. -/
def putWindow (d : WindowDef) : List WindowDef → List WindowDef
  | [] => [d]
  | w :: ws => if w.name = d.name then d :: ws else w :: putWindow d ws

/-- Defines a window; a later definition of the same name replaces the earlier one. -/
def defineWindow (s : Statement) (name : String) (spec : WindowSpec) : Statement :=
  { s with windows := putWindow ⟨name, spec⟩ s.windows }

end Statement

namespace Script

def ofStatement (s : Statement) : Script := ⟨[], s⟩

def empty : Script := ofStatement .empty

/-- Puts the last statement behind the others and starts a new one. -/
def archive (s : Script) : Script := ⟨s.chain ++ [ofStatement s.last], .empty⟩

/-- The parts of the script in order; the last statement stands alone. -/
def parts (s : Script) : List Script := s.chain ++ [ofStatement s.last]

end Script

/-! ## Lemmas -/

theorem Condition.not_not_of_ne {c : Condition} (h : ∀ d, c ≠ .negation d) : c.not.not = c := by
  cases c <;> first | rfl | exact absurd rfl (h _)

/-- The names that remain are the old ones, and the new one at the end if it was not there. -/
theorem Statement.map_name_putWindow (d : WindowDef) (ws : List WindowDef) :
    (putWindow d ws).map (·.name) =
      if d.name ∈ ws.map (·.name) then ws.map (·.name) else ws.map (·.name) ++ [d.name] := by
  induction ws with
  | nil => simp [putWindow]
  | cons w ws ih =>
    by_cases h : w.name = d.name
    · simp [putWindow, h]
    · have h' : ¬ d.name = w.name := fun e => h e.symm
      simp only [putWindow, h, if_false, List.map_cons, ih, List.mem_cons, h', false_or]
      split <;> rfl

end SqlKit
