import SqlKit.Mysql.Datum
import SqlKit.Mysql.Fault
import SqlKit.Mysql.Options
import SqlKit.Mysql.Placeholders
import SqlKit.Server
import SqlKit.Session.Connection

/-!
# Sessions on a MySQL server

A statement without parameters is sent as a text, any other is prepared first and sent with as many
parameters as it takes.  Placeholders become question marks on the way.

    without a result there are no rows                                 (rowsOf_of_no_columns)
-/

namespace SqlKit.Mysql

/-- The answer to a statement. -/
structure Reply where
  fault : Option ServerError := none
  /-- The error of preparing it. -/
  prepareFault : Option ServerError := none
  /-- The server closes the connection. -/
  hangsUp : Bool := false
  /-- How many parameters it takes, if that is another number than that of its marks. -/
  params : Option Nat := none
  /-- The columns of a result; none if there is no result. -/
  columns : List (String × ColumnType) := []
  rows : List (List Datum) := []
  /-- Rows changed. -/
  affected : Nat := 0

/-- Rows changed; a result changes none. -/
def Reply.count (r : Reply) : Nat := if r.columns.isEmpty then r.affected else 0

variable {τ : Type} (s : Server τ Reply Datum Fault)

/-- Fails on a connection that is closed. -/
def checkOpen (c : Nat) : Exchange Fault τ Unit := do
  if (← get).isLost c then throw .closed

/-- Takes the answer to a statement that was sent. -/
def accept (c : Nat) (r : Reply) : Exchange Fault τ Reply := do
  if r.hangsUp then
    modify fun w => w.lose c
    throw .hungUp
  match r.fault with
  | some e => throw (.server e)
  | none => return r

/-- Sends a text. -/
def text (c : Nat) (sql : String) : Exchange Fault τ Reply := do
  checkOpen c
  let r ← s.ask c sql
  s.send c (.text sql)
  accept c r

/-- Prepares a statement and sends it with its parameters. -/
def prepared (c : Nat) (sql : String) (params : List Value) : Exchange Fault τ Reply := do
  checkOpen c
  let r ← s.ask c sql
  if let some e := r.prepareFault then
    s.send c (.prepare sql)
    throw (.server e)
  let expected := r.params.getD (sql.toList.count '?')
  if expected ≠ params.length then throw (.parameterCount expected params.length)
  s.send c (.prepared sql (params.map Datum.ofValue))
  accept c r

/-- Sends a statement in the form its parameters ask for. -/
def request (c : Nat) (sql : String) (params : List Value) : Action (Wire τ) Reply :=
  let sql := withMarks sql
  ExceptT.adapt Fault.toError (if params.isEmpty then text s c sql else prepared s c sql params)

/-- Opens a connection and sets its session up. -/
def login (o : Options) : Action (Wire τ) Nat := ExceptT.adapt Fault.toError do
  let c ← s.connect [("user", o.user.getD ""), ("database", o.database)]
  for sql in o.setup do
    let _ ← text s c sql
  return c

/-- The rows of an answer. -/
def rowsOf (r : Reply) : Result (List Row) :=
  if r.columns.isEmpty then .ok []
  else r.rows.mapM fun cells => Row.ofLists? (r.columns.map (·.1))
    ((r.columns.zip cells).map fun e => e.2.toValue e.1.2)

/-- Runs a statement; gives the number of rows it changed. -/
def execute (c : Nat) (sql : String) (params : List Value) : Action (Wire τ) Nat :=
  Reply.count <$> request s c sql params

/-- Runs a query; gives all its rows. -/
def fetch (c : Nat) (sql : String) (params : List Value) : Action (Wire τ) (List Row) := do
  Action.ofResult (rowsOf (← request s c sql params))

theorem rowsOf_of_no_columns {r : Reply} (h : r.columns = []) : rowsOf r = .ok [] := by
  simp [rowsOf, h]

end SqlKit.Mysql
