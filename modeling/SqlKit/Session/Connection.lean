import SqlKit.Query.Transaction
import SqlKit.Row
import SqlKit.Text.Blank

/-!
# Connections

A connection holds a session or none; with a session it runs statements.  What a connection does is a
step on a state, which may fail and leaves a state either way.  On top of its operations stand running
compiled statements, several at a time, and whole transactions.

    orRollback of a step that succeeds is the step                     (orRollback_of_ok)
    without a session nothing is sent: transact fails and keeps the state   (transact_of_inactive)
-/

namespace SqlKit

/-- A step on a state. -/
abbrev Action (σ α : Type) := ExceptT Error (StateM σ) α

namespace Action

variable {σ α : Type}

/-- The result of a step and the state it leaves. -/
def on (a : Action σ α) (s : σ) : Result α × σ := (ExceptT.run a).run s

/-- A step that says what it does to the state. -/
def of (f : σ → Result α × σ) : Action σ α := ExceptT.mk (fun s => f s)

/-- A result without a step. -/
def ofResult (r : Result α) : Action σ α := of fun s => (r, s)

/-- Runs a step and gives its result as a value, so that a failure does not end what follows. -/
def attempt (a : Action σ α) : Action σ (Result α) := of fun s => ((.ok (a.on s).1), (a.on s).2)

end Action

/-- The operations of a connection. -/
structure Connection (σ : Type) where
  /-- Is a session held? -/
  isActive : σ → Bool
  /-- Rows changed by the last statement, or given by the last query. -/
  rowCount : σ → Nat
  /-- Takes a session. -/
  begin : Action σ Unit
  /-- Gives the session back. -/
  done : Action σ Unit
  /-- Runs a statement; gives the number of rows it changed. -/
  execute : String → List Value → Action σ Nat
  /-- Runs a query; gives all its rows. -/
  fetchAll : String → List Value → Action σ (List Row)
  /-- Runs a query; gives at most so many of its rows. -/
  fetchMany : String → List Value → Nat → Action σ (List Row) :=
    fun sql params limit => do return (← fetchAll sql params).take limit

/-- What a statement of a transaction gave. -/
inductive Outcome where
  | rows (rows : List Row)
  | affected (count : Nat)

/-! ## Statements -/

/-- What a statement does to a session's transaction, by its first word: it opens one, ends one or
leaves things as they are. -/
def opensTransaction? (sql : String) : Option Bool :=
  let word := ((Text.firstWord sql.toList).reverse.dropWhile (· = ';')).reverse
  match String.ofList (Text.upperAscii word) with
  | "BEGIN" | "START" => some true
  | "COMMIT" | "ROLLBACK" | "END" | "ABORT" => some false
  | _ => none

namespace Connection

variable {σ : Type} (c : Connection σ)

/-- Runs a compiled statement. -/
def run (q : Compiled) : Action σ Nat := c.execute q.sql q.params

/-- Runs a compiled query. -/
def fetch (q : Compiled) : Action σ (List Row) := c.fetchAll q.sql q.params

/-- Runs statements one after another; gives the sum of their counts. -/
def executeMany : List Compiled → Action σ Nat
  | [] => pure 0
  | q :: qs => do
    let n ← c.run q
    let rest ← executeMany qs
    return n + rest

/-! ## Transactions -/

/-- Rolls back, whatever comes of it. -/
def rollBack : Action σ Unit := do
  let _ ← (c.execute "ROLLBACK" []).attempt

/-- Runs a step; when it fails, rolls back and fails with the same error. -/
def orRollback {α : Type} (a : Action σ α) : Action σ α := do
  match ← a.attempt with
  | .ok x => return x
  | .error e =>
    c.rollBack
    throw e

/-- Runs one statement of a transaction. -/
def perform (s : Script) (q : Compiled) : Action σ Outcome :=
  if s.last.returnsRows then .rows <$> c.fetch q else .affected <$> c.run q

/-- Runs statements up to the first that fails. -/
def performAll : List (Script × Compiled) → Action σ (List Outcome)
  | [] => pure []
  | (s, q) :: rest => do
    let o ← c.perform s q
    let os ← performAll rest
    return o :: os

/-- Ends a transaction. -/
def finish : Ending → Action σ Unit
  | .rollback => do
    let _ ← c.execute "ROLLBACK" []
  | .commit => do
    let _ ← c.orRollback (c.execute "COMMIT" [])

/-- Runs a transaction on the session that is held.  What fails before its end is rolled back; a
rollback that was asked for is not repeated. -/
def transact (t : Transaction) : Action σ (List Outcome) := do
  if !c.isActive (← get) then throw .notConnected
  let compiled ← Action.ofResult t.statements
  let _ ← c.execute "BEGIN" []
  let outcomes ← c.orRollback (c.performAll (t.body.zip compiled))
  c.finish t.ending
  return outcomes

/-- Takes a session, runs a transaction and gives the session back.  The transaction's error counts
before that of giving back. -/
def transactAlone (t : Transaction) : Action σ (List Outcome) := do
  c.begin
  let outcome ← (c.transact t).attempt
  let released ← c.done.attempt
  let outcomes ← Action.ofResult outcome
  Action.ofResult released
  return outcomes

end Connection

/-! ## Lemmas -/

variable {σ α : Type}

theorem Action.on_of (f : σ → Result α × σ) (s : σ) : (Action.of f).on s = f s := rfl

theorem Action.on_ofResult (r : Result α) (s : σ) : (Action.ofResult r).on s = (r, s) := rfl

theorem Action.on_attempt (a : Action σ α) (s : σ) :
    a.attempt.on s = (.ok (a.on s).1, (a.on s).2) := rfl

theorem Action.on_bind {β : Type} (a : Action σ α) (f : α → Action σ β) (s : σ) :
    (a >>= f).on s = match a.on s with
      | (.ok x, s') => (f x).on s'
      | (.error e, s') => (.error e, s') := by
  simp only [Action.on, ExceptT.run_bind, StateT.run_bind]
  cases h : StateT.run (ExceptT.run a) s with
  | mk r s' => cases r <;> rfl

namespace Connection

variable {c : Connection σ} {q : Compiled} {qs : List Compiled} {s : σ} {n total : Nat}

/-- Behind a statement that succeeds the others are run, and their counts are added to its own. -/
theorem executeMany_cons_of_ok (h : ((c.run q).on s).1 = .ok n) (qs : List Compiled) :
    (c.executeMany (q :: qs)).on s =
      (((c.executeMany qs).on ((c.run q).on s).2).1.map (n + ·),
        ((c.executeMany qs).on ((c.run q).on s).2).2) := by
  rw [executeMany, Action.on_bind]
  cases hq : (c.run q).on s with
  | mk r s' =>
    rw [hq] at h
    cases h
    dsimp only
    rw [Action.on_bind]
    cases (c.executeMany qs).on s' with
    | mk r' s'' => cases r' <;> rfl

/-- Statements that succeed do so one after another. -/
theorem exists_of_executeMany_cons (h : ((c.executeMany (q :: qs)).on s).1 = .ok total) :
    ∃ n m, ((c.run q).on s).1 = .ok n ∧
      ((c.executeMany qs).on ((c.run q).on s).2).1 = .ok m ∧ n + m = total := by
  cases hfirst : ((c.run q).on s).1 with
  | error x =>
    have hq : (c.run q).on s = (.error x, ((c.run q).on s).2) := Prod.ext hfirst rfl
    rw [executeMany, Action.on_bind, hq] at h
    cases h
  | ok n =>
    rw [executeMany_cons_of_ok hfirst] at h
    cases hrest : ((c.executeMany qs).on ((c.run q).on s).2).1 with
    | error x => rw [hrest] at h; cases h
    | ok m =>
      rw [hrest] at h
      exact ⟨n, m, rfl, rfl, Except.ok.inj h⟩

end Connection

/-- Results that are worked out one after another leave the state as it is. -/
theorem Action.on_mapM_ofResult {β : Type} (f : α → Result β) (l : List α) (s : σ) :
    (l.mapM fun x => Action.ofResult (f x)).on s = (l.mapM f, s) := by
  induction l with
  | nil => rfl
  | cons x l ih =>
    simp only [List.mapM_cons, Action.on_bind, Action.on_ofResult]
    cases f x with
    | error e => rfl
    | ok y =>
      simp only [ih]
      cases l.mapM f <;> rfl

theorem Connection.orRollback_of_ok (c : Connection σ) {a : Action σ α} {s s' : σ} {x : α}
    (h : a.on s = (.ok x, s')) : (c.orRollback a).on s = (.ok x, s') := by
  rw [orRollback, Action.on_bind, Action.on_attempt, h]
  rfl

theorem Connection.transact_of_inactive (c : Connection σ) (t : Transaction) {s : σ}
    (h : c.isActive s = false) : (c.transact t).on s = (.error .notConnected, s) := by
  have hs : (get : Action σ σ).on s = (.ok s, s) := rfl
  rw [transact, Action.on_bind, hs]
  simp only [h, Bool.not_false, if_true]
  rw [Action.on_bind]
  rfl

end SqlKit
