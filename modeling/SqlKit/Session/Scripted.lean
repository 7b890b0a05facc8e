import SqlKit.Session.Connection
import SqlKit.Session.Rule

/-!
# Scripted connections

A connection whose answers are laid down beforehand: every statement changes the same number of rows
and every query gives the same number, unless a rule makes it fail.  All calls are recorded.

    a query that is told to gives n rows                               (length_answer)
-/

namespace SqlKit.Scripted

/-- A call that was made. -/
inductive Call where
  | begin
  | done
  | execute (sql : String) (params : List Value)
  | fetch (sql : String) (params : List Value)

/-- What a scripted connection was told and what has happened. -/
structure State where
  active : Bool := false
  rowCount : Nat := 0
  /-- How many rows a query gives. -/
  rows : Nat := 2
  /-- How many rows a statement changes. -/
  affected : Nat := 1
  /-- The statements that fail. -/
  rules : List (Rule Error) := []
  beginFault : Option Error := none
  doneFault : Option Error := none
  log : List Call := []

/-- The rows 1, 2, … of a query, in one column. -/
def answer (n : Nat) : List Row :=
  (List.range n).map fun i => ⟨["n"], [.int (Int64.ofNat (i + 1))], rfl⟩

/-- Records a statement, fails by the rules or counts rows. -/
def call (record : Call) (sql : String) (count : Nat) : Action State Nat := do
  let s ← get
  let (e, rules) := Rule.answer? sql s.rules
  set { s with log := s.log ++ [record], rules }
  match e with
  | some e => throw e
  | none =>
    modify fun s => { s with rowCount := count }
    return count

/-- Records a change of the session, which fails with `fault` or unless `wanted` is the state of
things. -/
def change (record : Call) (fault : Option Error) (wanted : Bool) (otherwise : Error) :
    Action State Unit := do
  let s ← get
  set { s with log := s.log ++ [record] }
  if let some e := fault then throw e
  if s.active ≠ wanted then throw otherwise
  modify fun s => { s with active := !wanted }

/-- The connection. -/
def connection : Connection State where
  isActive s := s.active
  rowCount s := s.rowCount
  begin := do change .begin (← get).beginFault false .alreadyConnected
  done := do change .done (← get).doneFault true .notConnected
  execute sql params := do call (.execute sql params) sql (← get).affected
  fetchAll sql params := do return answer (← call (.fetch sql params) sql (← get).rows)

theorem length_answer (n : Nat) : (answer n).length = n := by simp [answer]

end SqlKit.Scripted
