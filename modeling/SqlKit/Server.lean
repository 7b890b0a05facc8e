import SqlKit.Session.Rule

/-!
# Servers

A server takes logins and answers statements on numbered connections.  To its clients it is an
interface: what it answers and what it takes note of are steps on its own state.  A client knows how
many connections it has opened and which of them the server has closed.

    a connection that was lost is lost                                 (isLost_lose)
    an exchange that fails ends what follows                           (Exchange.run_bind)
-/

namespace SqlKit

/-- Something a server receives; a parameter is a `π`. -/
inductive Message (π : Type) where
  | startup (fields : List (String × String))
  /-- A statement as a text. -/
  | text (sql : String)
  /-- A statement that could not be prepared. -/
  | prepare (sql : String)
  /-- A prepared statement with its parameters. -/
  | prepared (sql : String) (params : List π)

/-- A server with states `τ`, whose answers are `ρ` and whose errors `ε`. -/
structure Server (τ ρ π ε : Type) where
  /-- Takes a login. -/
  login : List (String × String) → τ → Except ε Unit × τ
  /-- Chooses the answer to a statement on a connection. -/
  answer : Nat → String → τ → ρ × τ
  /-- Takes note of what it receives. -/
  receive : Nat → Message π → τ → τ

/-- A server and the connections to it. -/
structure Wire (τ : Type) where
  server : τ
  /-- How many connections were opened. -/
  opened : Nat := 0
  /-- The connections that the server has closed. -/
  lost : List Nat := []

/-- A step over a wire, which may fail with an `ε`. -/
abbrev Exchange (ε τ α : Type) := ExceptT ε (StateM (Wire τ)) α

namespace Server

variable {τ ρ π ε : Type} (s : Server τ ρ π ε)

/-- Asks for the answer to a statement. -/
def ask (c : Nat) (sql : String) : Exchange ε τ ρ := modifyGet fun w =>
  let (r, server) := s.answer c sql w.server
  (r, { w with server })

/-- Sends something. -/
def send (c : Nat) (m : Message π) : Exchange ε τ Unit := modify fun w =>
  { w with server := s.receive c m w.server }

/-- Logs in; gives the number of the new connection. -/
def connect (fields : List (String × String)) : Exchange ε τ Nat := do
  let w ← get
  let (r, server) := s.login fields w.server
  match r with
  | .error e =>
    set { w with server }
    throw e
  | .ok _ =>
    set { w with server, opened := w.opened + 1 }
    return w.opened

end Server

namespace Wire

variable {τ : Type}

/-- The server has closed a connection. -/
def isLost (w : Wire τ) (c : Nat) : Bool := w.lost.contains c

/-- Notes that the server closes a connection. -/
def lose (w : Wire τ) (c : Nat) : Wire τ := { w with lost := c :: w.lost }

theorem isLost_lose (w : Wire τ) (c : Nat) : (w.lose c).isLost c = true := by
  simp [isLost, lose]

end Wire

theorem Exchange.run_bind {ε τ α β : Type} (x : Exchange ε τ α) (f : α → Exchange ε τ β)
    (w : Wire τ) :
    (x >>= f).run.run w = match x.run.run w with
      | (.ok a, w') => (f a).run.run w'
      | (.error e, w') => (.error e, w') := by
  simp only [ExceptT.run_bind, StateT.run_bind]
  cases h : StateT.run (ExceptT.run x) w with
  | mk r w' => cases r <;> rfl

/-! ## Scripted servers -/

/-- A server that was told what to answer, and what it has received. -/
structure Playbook (ρ π ε : Type) where
  /-- The error of every attempt to reach it. -/
  outage : Option ε := none
  /-- The error of every login. -/
  refusal : Option ε := none
  rules : List (Rule ρ) := []
  /-- The answer to statements that no rule fits. -/
  otherwise : ρ
  received : List (Message π) := []

/-- The server that keeps to it. -/
def Playbook.server (ρ π ε : Type) : Server (Playbook ρ π ε) ρ π ε where
  login fields s :=
    match s.outage with
    | some e => (.error e, s)
    | none =>
      let s := { s with received := s.received ++ [Message.startup fields] }
      match s.refusal with
      | some e => (.error e, s)
      | none => (.ok (), s)
  answer _ sql s :=
    let (a, rules) := Rule.answer? sql s.rules
    (a.getD s.otherwise, { s with rules })
  receive _ m s := { s with received := s.received ++ [m] }

end SqlKit
