import SqlKit.Query.Writer
import SqlKit.Query.Predicate
import SqlKit.Query.References

/-!
# The builder

A builder holds a script under construction.  Each call gives a new builder or an error.  Opening a
statement puts a statement that is under way aside.  A SELECT without a source of its own takes its
FROM from the tables its columns belong to, less those it joins; `settle` writes that FROM down.  In
strict mode the same clause twice in a row is a mistake, which is remembered and reported by every
later call that can fail.

    b.run [] = b,  b.run (s :: ss) = (b.apply s).run ss, or b.run ss if the call fails
                                                                       (run_cons)
    (b.step c).script = b.script                                       (script_step)
    b.settle.implied = b.implied                                       (implied_settle)
-/

namespace SqlKit

/-- The clauses that calls name. -/
inductive Clause where
  | select | from | join | leftJoin | rightJoin | fullJoin | crossJoin | on | where | and | groupBy
  | orderBy | limit | offset | returning | with | window | insert | values | onConflict | update
  | set | delete
deriving DecidableEq, Repr

def Clause.name : Clause → String
  | select => "SELECT"
  | .from => "FROM"
  | join => "JOIN"
  | leftJoin => "LEFT JOIN"
  | rightJoin => "RIGHT JOIN"
  | fullJoin => "FULL JOIN"
  | crossJoin => "CROSS JOIN"
  | on => "ON"
  | .where => "WHERE"
  | and => "AND"
  | groupBy => "GROUP BY"
  | orderBy => "ORDER BY"
  | limit => "LIMIT"
  | offset => "OFFSET"
  | returning => "RETURNING"
  | .with => "WITH"
  | window => "WINDOW"
  | insert => "INSERT"
  | values => "VALUES"
  | onConflict => "ON CONFLICT"
  | update => "UPDATE"
  | .set => "SET"
  | delete => "DELETE"

def JoinKind.clause : JoinKind → Clause
  | inner => .join
  | left => .leftJoin
  | right => .rightJoin
  | full => .fullJoin
  | cross => .crossJoin

/-- A script under construction. -/
structure Builder where
  dialect : Dialect
  script : Script
  /-- Tables whose columns have been used, in the order of their first use. -/
  implied : List Table
  /-- The sources of the last statement stem from `implied`. -/
  fromImplied : Bool
  /-- The name the builder gets as a source. -/
  «alias» : Option String
  strict : Bool
  lastClause : Option Clause
  /-- The first clause that was repeated in strict mode. -/
  repeated : Option Clause

namespace Builder

/-! ## State -/

def new (d : Dialect) : Builder := ⟨d, .empty, [], false, none, false, none, none⟩

/-- The statement under way. -/
def statement (b : Builder) : Statement := b.script.last

def modify (b : Builder) (f : Statement → Statement) : Builder :=
  { b with script := { b.script with last := f b.script.last } }

/-- Records a clause. -/
def step (b : Builder) (c : Clause) : Builder :=
  { b with
    lastClause := some c
    repeated :=
      if b.strict ∧ b.lastClause = some c ∧ b.repeated.isNone then some c else b.repeated }

/-- Fails if a clause was repeated in strict mode. -/
def check (b : Builder) : Result Unit :=
  match b.repeated with
  | some c => .error (.argument ("Invalid Query Chaining: repeated " ++ c.name ++ " more than once"))
  | none => .ok ()

/-- The builder, if no clause was repeated in strict mode. -/
def checked (b : Builder) : Result Builder := b.check.map fun _ => b

/-- Takes in tables that have not been met before. -/
def imply (b : Builder) (tables : List Table) : Builder :=
  { b with implied := (b.implied ++ tables).eraseDups }

/-- The tables that a statement joins. -/
def joinedTables (s : Statement) : List Table :=
  s.joins.filterMap fun j => match j.source with
    | .table t => some t
    | _ => none

/-- The sources that implied tables give: joined ones are left out, and several get an alias each. -/
def impliedSources (implied joined : List Table) : List Source :=
  let tables := implied.filter fun t => !joined.any fun j => j.reference = t.reference
  if tables.length ≤ 1 then tables.map .table else tables.map fun t => .table t.aliased

/-- Writes down the implied sources of a SELECT that was given none. -/
def settle (b : Builder) : Builder :=
  if b.statement.kind ≠ .select then b
  else if !b.statement.sources.isEmpty && !b.fromImplied then b
  else
    match impliedSources b.implied (joinedTables b.statement) with
    | [] => b
    | ss => { b.modify fun s => { s with sources := ss } with fromImplied := true }

/-- The script as it will be compiled. -/
def settled (b : Builder) : Script := b.settle.script

/-- Opens a statement; one that is under way is settled and put aside. -/
def openStatement (b : Builder) (c : Clause) (kind : StatementKind) : Builder :=
  let b := b.step c
  let b :=
    if b.statement.isDirty then
      { b.settle with script := b.settle.script.archive, implied := [], fromImplied := false }
    else b
  b.modify fun s => { s with kind := kind }

/-- Drops sources that stem from implied tables. -/
def dropImplied (b : Builder) : Builder :=
  if b.fromImplied then { b.modify fun s => { s with sources := [] } with fromImplied := false }
  else b

/-! ## Calls -/

def setStrict (b : Builder) (on : Bool) : Builder := { b with strict := on }

def as (b : Builder) (name : String) : Builder := { b with «alias» := some name }

def pushSelects (b : Builder) (items : List Expr) : Builder :=
  (b.imply (items.flatMap Expr.tables)).modify fun s => { s with selects := s.selects ++ items }

def select (b : Builder) (items : List Expr) : Builder :=
  (b.openStatement .select .select).pushSelects items

def selectDistinct (b : Builder) (items : List Expr) : Builder :=
  ((b.openStatement .select .select).modify fun s => { s with distinct := true }).pushSelects items

def addSource (b : Builder) (source : Source) : Builder :=
  (b.step .from).dropImplied.modify fun s => { s with sources := s.sources ++ [source] }

def addSources (b : Builder) (sources : List Source) : Result Builder := do
  b.check
  if sources.isEmpty then
    .error (.missingArgument ("FROM requires at least one source (" ++
      Digits.text b.implied.length ++ " implied from selected fields)"))
  else
    ((b.step .from).dropImplied.modify fun s => { s with sources := s.sources ++ sources }).checked

def join (b : Builder) (kind : JoinKind) (source : Source) : Builder :=
  (b.step kind.clause).modify fun s => { s with joins := s.joins ++ [⟨kind, source, none⟩] }

/-- Adds a condition to one that may be there. -/
def conjoin (old : Option Condition) (c : Condition) : Condition :=
  match old with
  | some o => o.and c
  | none => c

def on (b : Builder) (p : Predicate) : Result Builder := do
  b.check
  let c ← p.condition?
  match b.statement.joins.getLast? with
  | none => .error (.argument "ON requires a preceding JOIN")
  | some j =>
    if j.kind = .cross then .error (.argument "CROSS JOIN does not take an ON condition")
    else
      ((b.step .on).modify fun s =>
        { s with joins := s.joins.dropLast ++ [{ j with on := some (conjoin j.on c) }] }).checked

/-- Adds a condition under the clause that the call names. -/
def restrict (b : Builder) (clause : Clause) (p : Predicate) : Result Builder := do
  b.check
  let c ← p.condition?
  (((b.step clause).imply c.tables).modify fun s =>
    { s with wheres := s.wheres ++ [c] }).settle.checked

def groupBy (b : Builder) (items : List Expr) : Builder :=
  (b.step .groupBy).modify fun s => { s with groups := s.groups ++ items }

def orderBy (b : Builder) (items : List OrderItem) : Builder :=
  (b.step .orderBy).modify fun s => { s with orders := s.orders ++ items }

def limit (b : Builder) (n : Nat) : Builder :=
  (b.step .limit).modify fun s => { s with limit := some n }

def offset (b : Builder) (n : Nat) : Builder :=
  (b.step .offset).modify fun s => { s with offset := some n }

def limitOffset (b : Builder) (n m : Nat) : Builder :=
  (b.step .limit).modify fun s => { s with limit := some n, offset := some m }

/-- Replaces the columns to return; none stands for all of them. -/
def returning (b : Builder) (columns : List String) : Builder :=
  (b.step .returning).modify fun s =>
    { s with returning := if columns.isEmpty then ["*"] else columns }

def addCte (b : Builder) (name : String) (body : CteBody) : Builder :=
  (b.step .with).modify fun s => { s with ctes := s.ctes ++ [⟨name, body⟩] }

def window (b : Builder) (name : String) (spec : WindowSpec) : Builder :=
  (b.step .window).modify fun s => s.defineWindow name spec

def insertInto (b : Builder) (table : Table) (columns : List String) : Builder :=
  (b.openStatement .insert .insert).modify fun s =>
    { s with insertTable := some table, insertColumns := columns }

/-- Adds rows; they have to be as wide as the column list, or else as the first of them. -/
def values (b : Builder) (rows : List (List Value)) : Result Builder := do
  b.check
  if b.statement.kind ≠ .insert then .error (.argument "VALUES requires INSERT")
  else if rows.all List.isEmpty then
    .error (.missingArgument "VALUES requires at least one value")
  else
    let columns := b.statement.insertColumns.length
    let width := if columns = 0 then (rows.headD []).length else columns
    match rows.find? fun row => row.length ≠ width with
    | some row =>
      .error (.argument ("VALUES row has " ++ Digits.text row.length ++ " values but " ++
        Digits.text width ++ " columns are expected"))
    | none =>
      ((b.step .values).modify fun s => { s with insertRows := s.insertRows ++ rows }).checked

def insertFrom (b : Builder) (query : Statement) : Result Builder := do
  b.check
  if b.statement.kind ≠ .insert then .error (.argument "INSERT … SELECT requires INSERT")
  else ((b.step .values).modify fun s => { s with insertQuery := some query }).checked

def onConflict (b : Builder) (c : OnConflict) : Result Builder := do
  b.check
  if b.statement.kind ≠ .insert then .error (.argument "ON CONFLICT requires INSERT")
  else .ok ((b.step .onConflict).modify fun s => { s with onConflict := some c })

def update (b : Builder) (table : Table) : Builder :=
  (b.openStatement .update .update).modify fun s => { s with updateTable := some table }

def set (b : Builder) (assignments : List Assignment) : Result Builder := do
  b.check
  if b.statement.kind ≠ .update then .error (.argument "SET requires UPDATE")
  else if assignments.isEmpty then
    .error (.missingArgument "SET requires at least one assignment")
  else
    ((b.step .set).modify fun s => { s with updates := s.updates ++ assignments }).checked

def deleteFrom (b : Builder) (source : Source) : Builder :=
  (b.openStatement .delete .delete).modify fun s => { s with deleteSource := some source }

/-- Opens a DELETE whose target is given as a source later. -/
def delete (b : Builder) : Builder := b.openStatement .delete .delete

/-! ## Output -/

/-- The script with placeholders, and the values to bind. -/
def build (b : Builder) : Result Compiled := do
  b.check
  b.settled.compile b.dialect

/-- The text alone. -/
def toSql (b : Builder) : Result String := b.build.map Compiled.sql

/-- The script with its values written out. -/
def print (b : Builder) : Result String := do
  b.check
  b.settled.print b.dialect

/-- The builder as a source of another statement. -/
def toSource (b : Builder) : Source := .subquery b.settled.last b.alias

/-! ## Runs of calls -/

/-- Values handed in as one list: a list in the first place makes every item a row. -/
def rowsOfValues (vs : List Value) : List (List Value) :=
  match vs with
  | .list _ :: _ => vs.map fun v => match v with
    | .list row => row
    | v => [v]
  | _ => [vs]

/-- A call of the builder. -/
inductive Step where
  | strict (on : Bool)
  | as (name : String)
  | select (items : List Expr)
  | selectDistinct (items : List Expr)
  | addSource (source : Source)
  | addSources (sources : List Source)
  | join (kind : JoinKind) (source : Source)
  | on (p : Predicate)
  | where (p : Predicate)
  | and (p : Predicate)
  | groupBy (items : List Expr)
  | orderBy (items : List OrderItem)
  | limit (n : Nat)
  | offset (n : Nat)
  | limitOffset (n m : Nat)
  | returning (columns : List String)
  | addCte (name : String) (body : CteBody)
  | window (name : String) (spec : WindowSpec)
  | insertInto (table : Table) (columns : List String)
  | values (rows : List (List Value))
  | insertFrom (query : Statement)
  | onConflict (c : OnConflict)
  | update (table : Table)
  | set (assignments : List Assignment)
  | deleteFrom (source : Source)
  | delete
  | union
  | upsert
  | without

/-- Makes one call. -/
def apply (b : Builder) : Step → Result Builder
  | .strict on => .ok (b.setStrict on)
  | .as name => .ok (b.as name)
  | .select items => .ok (b.select items)
  | .selectDistinct items => .ok (b.selectDistinct items)
  | .addSource s => .ok (b.addSource s)
  | .addSources ss => b.addSources ss
  | .join kind s => .ok (b.join kind s)
  | .on p => b.on p
  | .where p => b.restrict .where p
  | .and p => b.restrict .and p
  | .groupBy items => .ok (b.groupBy items)
  | .orderBy items => .ok (b.orderBy items)
  | .limit n => .ok (b.limit n)
  | .offset n => .ok (b.offset n)
  | .limitOffset n m => .ok (b.limitOffset n m)
  | .returning columns => .ok (b.returning columns)
  | .addCte name body => .ok (b.addCte name body)
  | .window name spec => .ok (b.window name spec)
  | .insertInto table columns => .ok (b.insertInto table columns)
  | .values rows => b.values rows
  | .insertFrom q => b.insertFrom q
  | .onConflict c => b.onConflict c
  | .update table => .ok (b.update table)
  | .set as => b.set as
  | .deleteFrom s => .ok (b.deleteFrom s)
  | .delete => .ok b.delete
  | .union => .error (.notImplemented "UNION" "with() and raw SQL")
  | .upsert => .error (.notImplemented "UPSERT" "on_conflict()")
  | .without => .error (.notImplemented "WITHOUT" "a narrower select()")

/-- Makes one call; a call that fails changes nothing. -/
def advance (b : Builder) (s : Step) : Builder :=
  match b.apply s with
  | .ok b' => b'
  | .error _ => b

/-- Makes calls in turn. -/
def run (b : Builder) (steps : List Step) : Builder := steps.foldl advance b

/-! ## Lemmas -/

theorem run_cons (b : Builder) (s : Step) (ss : List Step) :
    b.run (s :: ss) = (b.advance s).run ss := rfl

theorem script_step (b : Builder) (c : Clause) : (b.step c).script = b.script := rfl

theorem implied_settle (b : Builder) : b.settle.implied = b.implied := by
  unfold settle
  split
  · rfl
  · split
    · rfl
    · split <;> rfl

theorem chain_settle (b : Builder) : b.settle.script.chain = b.script.chain := by
  unfold settle
  split
  · rfl
  · split
    · rfl
    · split <;> rfl

end Builder

end SqlKit
