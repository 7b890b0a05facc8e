import SqlKit.Postgres.Cell
import SqlKit.Postgres.Fault
import SqlKit.Server
import SqlKit.Session.Connection

/-!
# Sessions on a PostgreSQL server

A statement without parameters is sent as a text, which may hold several; any other and every query is
prepared first.  The server then says which types the parameters have, and only parameters that fit
are sent.

    nothing is sent on a closed connection                             (text_of_isLost)
-/

namespace SqlKit.Postgres

/-- The answer to a statement. -/
structure Reply where
  fault : Option ServerError := none
  /-- The error of preparing it. -/
  prepareFault : Option ServerError := none
  /-- The server closes the connection. -/
  hangsUp : Bool := false
  params : List DataType := []
  columns : List (String × DataType) := []
  rows : List (List (Option Bytes)) := []
  /-- Rows changed, if that is another number than that of the rows given. -/
  affected : Option Nat := none
  /-- Rows changed by each statement of a text. -/
  completions : Option (List Nat) := none

/-- Rows changed. -/
def Reply.count (r : Reply) : Nat := r.affected.getD r.rows.length

/-- A parameter in its binary form; null has none. -/
abbrev Parameter := Option Bytes

variable {τ : Type} (s : Server τ Reply Parameter Fault)

/-- Fails on a connection that is closed. -/
def checkOpen (c : Nat) : Exchange Fault τ Unit := do
  if (← get).isLost c then throw .closed

/-- Takes the answer to a statement that was sent. -/
def accept (c : Nat) (r : Reply) : Exchange Fault τ Reply := do
  if r.hangsUp then
    modify fun w => w.lose c
    throw .closed
  match r.fault with
  | some e => throw (.server e)
  | none => return r

/-- Sends a text; gives the number of rows changed by all its statements. -/
def text (c : Nat) (sql : String) : Exchange Fault τ Nat := do
  checkOpen c
  let r ← s.ask c sql
  s.send c (.text sql)
  let r ← accept c r
  return (r.completions.getD [r.count]).foldl (· + ·) 0

/-- Prepares a statement and sends it with its parameters. -/
def prepared (c : Nat) (sql : String) (params : List Value) : Exchange Fault τ Reply := do
  checkOpen c
  let r ← s.ask c sql
  if let some e := r.prepareFault then
    s.send c (.prepare sql)
    throw (.server e)
  if r.params.length ≠ params.length then
    throw (.parameterCount r.params.length params.length)
  match encodeAll 0 (r.params.zip params) with
  | .error k => throw (.parameter k)
  | .ok bytes =>
    s.send c (.prepared sql bytes)
    accept c r

/-- An exchange as an action. -/
def act {α : Type} (x : Exchange Fault τ α) : Action (Wire τ) α := ExceptT.adapt Fault.toError x

/-- Runs a statement; gives the number of rows it changed. -/
def execute (c : Nat) (sql : String) (params : List Value) : Action (Wire τ) Nat :=
  act (if params.isEmpty then text s c sql else Reply.count <$> prepared s c sql params)

/-- Runs a query; gives all its rows. -/
def fetch (c : Nat) (sql : String) (params : List Value) : Action (Wire τ) (List Row) := do
  let r ← act (prepared s c sql params)
  r.rows.mapM fun cells => Action.ofResult (row r.columns cells)

theorem text_of_isLost {c : Nat} {w : Wire τ} (h : w.isLost c = true) (sql : String) :
    ((text s c sql).run).run w = (.error .closed, w) := by
  have hc : ((checkOpen (τ := τ) c).run).run w = (.error .closed, w) := by
    show (if w.isLost c = true then _ else _ : Exchange Fault τ Unit) w = _
    rw [if_pos h]
    rfl
  show (ExceptT.bind (checkOpen c) _ : Exchange Fault τ Nat) w = _
  simp only [ExceptT.bind, ExceptT.mk, bind, StateT.bind]
  have hc' : (checkOpen (τ := τ) c : Exchange Fault τ Unit) w = (.error .closed, w) := hc
  rw [hc']
  rfl

end SqlKit.Postgres
