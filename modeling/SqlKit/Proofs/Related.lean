import Mathlib.Logic.Relation
import SqlKit.Session.Connection

/-!
# Related connections

Whole transactions are put together from the statements of a connection.  What relates the statements
of two connections, and is kept when actions are put together, relates their transactions.

    related statements make related transactions                       (related_transact)
    what every statement keeps to, transactions keep to                (within_transactAlone)
-/

namespace SqlKit

/-- A relation between actions that is kept when actions are put together. -/
structure Congruent {σ τ : Type} (R : (α : Type) → Action σ α → Action τ α → Prop) : Prop where
  ofResult : ∀ {α : Type} (r : Result α), R α (.ofResult r) (.ofResult r)
  bind : ∀ {α β : Type} {a : Action σ α} {b : Action τ α} {f : α → Action σ β} {g : α → Action τ β},
    R α a b → (∀ x, R β (f x) (g x)) → R β (a >>= f) (b >>= g)
  attempt : ∀ {α : Type} {a : Action σ α} {b : Action τ α}, R α a b → R _ a.attempt b.attempt

theorem Action.ext {σ α : Type} {a b : Action σ α} (h : ∀ s, a.on s = b.on s) : a = b := funext h

namespace Connection

variable {σ τ : Type} {R : (α : Type) → Action σ α → Action τ α → Prop}

/-- What fails is rolled back, and its error stays. -/
theorem orRollback_of_error {α : Type} (c : Connection σ) {a : Action σ α} {s s' s'' : σ} {e : Error}
    (h : a.on s = (.error e, s')) (hback : c.rollBack.on s' = (.ok (), s'')) :
    (c.orRollback a).on s = (.error e, s'') := by
  rw [orRollback, Action.on_bind, Action.on_attempt, h]
  dsimp only
  rw [Action.on_bind, hback]
  rfl

/-- The statements of two connections are related, and so is whether they are held. -/
structure Related (R : (α : Type) → Action σ α → Action τ α → Prop) (c : Connection σ)
    (d : Connection τ) : Prop where
  isActive : R Bool (get >>= fun s => pure (c.isActive s)) (get >>= fun s => pure (d.isActive s))
  execute : ∀ sql params, R Nat (c.execute sql params) (d.execute sql params)
  fetchAll : ∀ sql params, R _ (c.fetchAll sql params) (d.fetchAll sql params)

/-- What a transaction does with a session that is held. -/
def transactHeld (c : Connection σ) (t : Transaction) : Action σ (List Outcome) := do
  let compiled ← Action.ofResult t.statements
  let _ ← c.execute "BEGIN" []
  let outcomes ← c.orRollback (c.performAll (t.body.zip compiled))
  c.finish t.ending
  return outcomes

/-- First of all a transaction looks whether a session is held. -/
theorem transact_eq (c : Connection σ) (t : Transaction) :
    c.transact t = (get >>= fun s => pure (c.isActive s)) >>= fun active =>
      if active then c.transactHeld t else Action.ofResult (.error .notConnected) := by
  refine Action.ext fun s => ?_
  have hget : (get : Action σ σ).on s = (.ok s, s) := rfl
  rw [transact, Action.on_bind, hget, Action.on_bind, Action.on_bind, hget]
  have hpure : (pure (c.isActive s) : Action σ Bool).on s = (.ok (c.isActive s), s) := rfl
  simp only [hpure]
  cases c.isActive s <;> rfl

variable (hR : Congruent R) {c : Connection σ} {d : Connection τ} (h : Related R c d)
include hR h

theorem related_orRollback {α : Type} {a : Action σ α} {b : Action τ α} (hab : R α a b) :
    R α (c.orRollback a) (d.orRollback b) := by
  refine hR.bind (hR.attempt hab) fun r => ?_
  cases r with
  | ok x => exact hR.ofResult (.ok x)
  | error e =>
    have hback : R Unit c.rollBack d.rollBack :=
      hR.bind (hR.attempt (h.execute "ROLLBACK" [])) fun _ => hR.ofResult (.ok ())
    exact hR.bind hback fun _ => hR.ofResult (.error e)

theorem related_performAll (l : List (Script × Compiled)) :
    R _ (c.performAll l) (d.performAll l) := by
  induction l with
  | nil => exact hR.ofResult (.ok [])
  | cons q l ih =>
    obtain ⟨s, q⟩ := q
    refine hR.bind ?_ fun o => hR.bind ih fun os => hR.ofResult (.ok (o :: os))
    unfold perform
    split
    · simp only [← bind_pure_comp]
      exact hR.bind (h.fetchAll q.sql q.params) fun rows => hR.ofResult (.ok (Outcome.rows rows))
    · simp only [← bind_pure_comp]
      exact hR.bind (h.execute q.sql q.params) fun n => hR.ofResult (.ok (Outcome.affected n))

theorem related_finish (ending : Ending) : R _ (c.finish ending) (d.finish ending) := by
  cases ending with
  | rollback => exact hR.bind (h.execute "ROLLBACK" []) fun _ => hR.ofResult (.ok ())
  | commit =>
    exact hR.bind (related_orRollback hR h (h.execute "COMMIT" [])) fun _ => hR.ofResult (.ok ())

/-- **Related transactions.**  They are related statement by statement, whatever fails. -/
theorem related_transact (t : Transaction) : R _ (c.transact t) (d.transact t) := by
  have hheld : R _ (c.transactHeld t) (d.transactHeld t) :=
    hR.bind (hR.ofResult _) fun compiled =>
      hR.bind (h.execute "BEGIN" []) fun _ =>
        hR.bind (related_orRollback hR h (related_performAll hR h _)) fun outcomes =>
          hR.bind (related_finish hR h t.ending) fun _ => hR.ofResult (.ok outcomes)
  rw [transact_eq, transact_eq]
  refine hR.bind h.isActive fun active => ?_
  cases active with
  | true => exact hheld
  | false => exact hR.ofResult (.error .notConnected)

theorem related_transactAlone (begin : R Unit c.begin d.begin) (done : R Unit c.done d.done)
    (t : Transaction) : R _ (c.transactAlone t) (d.transactAlone t) :=
  hR.bind begin fun _ =>
    hR.bind (hR.attempt (related_transact hR h t)) fun outcome =>
      hR.bind (hR.attempt done) fun released =>
        hR.bind (hR.ofResult outcome) fun os =>
          hR.bind (hR.ofResult released) fun _ => hR.ofResult (.ok os)

end Connection

/-! ## What actions keep to -/

namespace Action

variable {σ : Type} (P : σ → σ → Prop) {α β : Type}

/-- Whatever state it starts in, the state that an action leaves is related to it. -/
def Within (a : Action σ α) : Prop := ∀ s, P s (a.on s).2

variable {P} [IsPreorder σ P]

theorem within_ofResult (r : Result α) : Within P (ofResult r) := fun s => refl_of P s

theorem within_pure (x : α) : Within P (pure x) := within_ofResult (.ok x)

omit [IsPreorder σ P] in
theorem Within.attempt {a : Action σ α} (h : Within P a) : Within P a.attempt := h

theorem Within.bind {a : Action σ α} {f : α → Action σ β} (ha : Within P a)
    (hf : ∀ x, Within P (f x)) : Within P (a >>= f) := by
  intro s
  rw [on_bind]
  have hstep := ha s
  cases hx : a.on s with
  | mk r s' =>
    rw [hx] at hstep
    cases r with
    | error e => exact hstep
    | ok x => exact trans_of P hstep (hf x s')

variable (P) in
theorem congruent_within : Congruent fun _ (a _ : Action σ _) => Within P a where
  ofResult := within_ofResult
  bind := Within.bind
  attempt := Within.attempt

end Action

namespace Connection

open SqlKit.Action

variable {σ : Type} {P : σ → σ → Prop} [IsPreorder σ P] {c : Connection σ}

theorem related_within (execute : ∀ sql params, Within P (c.execute sql params))
    (fetchAll : ∀ sql params, Within P (c.fetchAll sql params)) :
    Related (fun _ (a _ : Action σ _) => Within P a) c c :=
  ⟨fun s => refl_of P s, execute, fetchAll⟩

theorem within_transactAlone (begin : Within P c.begin) (done : Within P c.done)
    (execute : ∀ sql params, Within P (c.execute sql params))
    (fetchAll : ∀ sql params, Within P (c.fetchAll sql params)) (t : Transaction) :
    Within P (c.transactAlone t) :=
  related_transactAlone (congruent_within P) (related_within execute fetchAll) begin done t

end Connection

end SqlKit
