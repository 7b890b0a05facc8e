import SqlKit.Proofs.Engine.Handles
import SqlKit.Proofs.Related

/-!
# A handle at work on its connection

What a handle does with the connection that it holds it could do with the connection alone: the same
results, and the same world afterwards.  Nothing else changes but what the handle remembers.

    a transaction of a handle is one of its connection                 (mirrors_transact)
-/

namespace SqlKit

variable {ω : Type}

/-- A connection of the world by its number, always held. -/
def Vendor.bare (v : Vendor ω) (c : Nat) : Connection ω where
  isActive _ := true
  rowCount _ := 0
  begin := pure ()
  done := pure ()
  execute := v.execute c
  fetchAll sql params := v.fetch c sql params none

namespace Engine

open Lookup

/-- Nothing has changed but the world and what one handle remembers. -/
structure Stays (who : Holder) (e e' : Engine ω) : Prop where
  now : e'.now = e.now
  pools : e'.pools = e.pools
  opened : e'.opened = e.opened
  current : e'.current = e.current
  handles : ∀ who', who' ≠ who → e'.handles who' = e.handles who'
  pool : (e'.handles who).map (·.pool) = (e.handles who).map (·.pool)

section Stays

variable {who : Holder} {e e' e'' : Engine ω}

theorem Stays.refl (who : Holder) (e : Engine ω) : Stays who e e :=
  ⟨rfl, rfl, rfl, rfl, fun _ _ => rfl, rfl⟩

theorem Stays.trans (h : Stays who e e') (h' : Stays who e' e'') : Stays who e e'' where
  now := h'.now.trans h.now
  pools := h'.pools.trans h.pools
  opened := h'.opened.trans h.opened
  current := h'.current.trans h.current
  handles who' hwho := (h'.handles who' hwho).trans (h.handles who' hwho)
  pool := h'.pool.trans h.pool

theorem Stays.held?_eq (h : Stays who e e') (who' : Holder) : e'.held? who' = e.held? who' := by
  have hpool : (e'.handles who').map (·.pool) = (e.handles who').map (·.pool) := by
    by_cases hwho : who' = who
    · rw [hwho]
      exact h.pool
    · rw [h.handles who' hwho]
  unfold held?
  rw [h.pools]
  cases hh : e.handles who' <;> cases hh' : e'.handles who' <;> simp [hh, hh'] at hpool ⊢
  rw [hpool]

theorem stays_world (who : Holder) (e : Engine ω) (w : ω) : Stays who e { e with world := w } :=
  ⟨rfl, rfl, rfl, rfl, fun _ _ => rfl, rfl⟩

theorem stays_onHandle (who : Holder) (e : Engine ω) (f : Handle → Handle)
    (hf : ∀ h, (f h).pool = h.pool) : Stays who e (e.onHandle who f) where
  now := rfl
  pools := rfl
  opened := rfl
  current := rfl
  handles _ hwho := put_of_ne _ _ hwho
  pool := by
    simp only [onHandle, put_self, Option.map_map]
    exact congrArg (Option.map · _) (funext hf)

end Stays

/-! ## Mirrors -/

/-- While the handle holds the connection, an action of the engine does what the other one does with
the world. -/
def Mirrors (who : Holder) (c : Nat) (α : Type) (a : Action (Engine ω) α) (b : Action ω α) : Prop :=
  ∀ e : Engine ω, e.held? who = some c →
    (a.on e).1 = (b.on e.world).1 ∧ (a.on e).2.world = (b.on e.world).2 ∧ Stays who e (a.on e).2

variable {who : Holder} {c : Nat} {α β : Type}

theorem Mirrors.bind {a : Action (Engine ω) α} {b : Action ω α} {f : α → Action (Engine ω) β}
    {g : α → Action ω β} (h : Mirrors who c α a b) (hfg : ∀ x, Mirrors who c β (f x) (g x)) :
    Mirrors who c β (a >>= f) (b >>= g) := by
  intro e hc
  obtain ⟨hresult, hworld, hstays⟩ := h e hc
  rw [Action.on_bind, Action.on_bind]
  cases ha : a.on e with
  | mk r e' =>
    cases hb : b.on e.world with
    | mk r' w =>
      rw [ha] at hresult hworld hstays
      rw [hb] at hresult hworld
      obtain rfl : r = r' := hresult
      obtain rfl : e'.world = w := hworld
      cases r with
      | error x => exact ⟨rfl, rfl, hstays⟩
      | ok x =>
        obtain ⟨hresult, hworld, hrest⟩ := hfg x e' ((hstays.held?_eq who).trans hc)
        exact ⟨hresult, hworld, hstays.trans hrest⟩

theorem Mirrors.attempt {a : Action (Engine ω) α} {b : Action ω α} (h : Mirrors who c α a b) :
    Mirrors who c (Result α) a.attempt b.attempt := by
  intro e hc
  obtain ⟨hresult, hworld, hstays⟩ := h e hc
  exact ⟨congrArg Except.ok hresult, hworld, hstays⟩

theorem congruent_mirrors (who : Holder) (c : Nat) : Congruent (Mirrors (ω := ω) who c) where
  ofResult _ e _ := ⟨rfl, rfl, .refl who e⟩
  bind := Mirrors.bind
  attempt := Mirrors.attempt

variable (v : Vendor ω) (who c)

theorem mirrors_execute (sql : String) (params : List Value) :
    Mirrors who c Nat (execute v who sql params) (v.execute c sql params) := by
  intro e hc
  rw [on_execute v hc]
  exact ⟨rfl, rfl, (stays_world who e _).trans (stays_onHandle who _ _ fun h => h.pool_after sql _)⟩

theorem mirrors_query (sql : String) (params : List Value) (limit : Option Nat) :
    Mirrors who c (List Row) (query v who sql params limit) (v.fetch c sql params limit) := by
  intro e hc
  rw [on_query v hc]
  cases (v.fetch c sql params limit).on e.world with
  | mk r w =>
    cases r with
    | error x => exact ⟨rfl, rfl, stays_world who e w⟩
    | ok rows =>
      exact ⟨rfl, rfl, (stays_world who e w).trans (stays_onHandle who _ _ fun _ => rfl)⟩

/-- Statements change nothing but the world and what their handle remembers, held or not. -/
theorem stays_execute (sql : String) (params : List Value) (e : Engine ω) :
    Stays who e ((execute v who sql params).on e).2 := by
  cases hc : e.held? who with
  | none =>
    rw [execute_of_not_held v who sql params hc]
    exact .refl who e
  | some c => exact (mirrors_execute who c v sql params e hc).2.2

theorem stays_query (sql : String) (params : List Value) (limit : Option Nat) (e : Engine ω) :
    Stays who e ((query v who sql params limit).on e).2 := by
  cases hc : e.held? who with
  | none =>
    rw [on_query_of_not_held v hc]
    exact .refl who e
  | some c => exact (mirrors_query who c v sql params limit e hc).2.2

theorem stays_fetchMany (sql : String) (params : List Value) (limit : Nat) (e : Engine ω) :
    Stays who e (((session v who).fetchMany sql params limit).on e).2 := by
  show Stays who e (Action.on (if v.canStop then _ else _) e).2
  split
  · exact stays_query who v sql params (some limit) e
  · rw [Action.on_bind]
    have hquery := stays_query who v sql params none e
    cases hx : (query v who sql params none).on e with
    | mk r e' =>
      rw [hx] at hquery
      cases r <;> exact hquery

/-- **Transactions of handles.**  A transaction that runs on a handle gives what it gives on the
connection of the handle, and makes the same of the world. -/
theorem mirrors_transact (t : Transaction) :
    Mirrors who c _ ((session v who).transact t) ((v.bare c).transact t) := by
  refine Connection.related_transact (congruent_mirrors who c) ⟨fun e hc => ?_, ?_, ?_⟩ t
  · refine ⟨?_, rfl, .refl who e⟩
    show Except.ok (e.held? who).isSome = Except.ok true
    rw [hc]
    rfl
  · exact mirrors_execute who c v
  · exact fun sql params => mirrors_query who c v sql params none

/-! ## Transactions of an engine -/

variable {v who c} {e e' : Engine ω}

/-- Engines run related transactions if what the handle of the transaction does is related. -/
theorem related_transaction {τ : Type} {v' : Vendor τ}
    {R : (α : Type) → Action (Engine ω) α → Action (Engine τ) α → Prop} (hR : Congruent R)
    (h : Connection.Related R (session v .engine) (session v' .engine))
    (connection : R Unit (connection v .engine) (connection v' .engine))
    (begin : R Unit (begin v .engine) (begin v' .engine))
    (done : R Unit (done v .engine) (done v' .engine))
    (drop : R Unit (modify (drop v .engine)) (modify (Engine.drop v' .engine))) (t : Transaction) :
    R _ (transaction v t) (transaction v' t) :=
  hR.bind connection fun _ =>
    hR.bind (hR.attempt (Connection.related_transactAlone hR h begin done t)) fun outcomes =>
      hR.bind drop fun _ => hR.ofResult outcomes

/-- What all that the handle of a transaction does keeps to, the transaction keeps to. -/
theorem within_transaction {P : Engine ω → Engine ω → Prop} [IsPreorder (Engine ω) P]
    (connection : Action.Within P (connection v .engine)) (begin : Action.Within P (begin v .engine))
    (done : Action.Within P (done v .engine))
    (execute : ∀ sql params, Action.Within P (execute v .engine sql params))
    (query : ∀ sql params, Action.Within P (query v .engine sql params none))
    (drop : ∀ e : Engine ω, P e (e.drop v .engine)) (t : Transaction) :
    Action.Within P (transaction v t) :=
  related_transaction (Action.congruent_within P) (Connection.related_within execute query) connection
    begin done drop t

theorem on_transactAlone_of_error {x : Error} (h : (begin v who).on e = (.error x, e'))
    (t : Transaction) : ((session v who).transactAlone t).on e = (.error x, e') := by
  have hbegin : (session v who).begin.on e = (.error x, e') := h
  rw [Connection.transactAlone, Action.on_bind, hbegin]

/-- A transaction on a session of its own, once it has the session. -/
theorem on_transactAlone_of_ok (h : (begin v who).on e = (.ok (), e')) (hc : e'.held? who = some c)
    (t : Transaction) :
    ((session v who).transactAlone t).on e =
      (((session v who).transact t).on e').map id (Engine.letGo v.giveBack · who) := by
  have hbegin : (session v who).begin.on e = (.ok (), e') := h
  obtain ⟨-, -, hstays⟩ := mirrors_transact who c v t e' hc
  rw [Connection.transactAlone, Action.on_bind, hbegin]
  dsimp only
  rw [Action.on_bind, Action.on_attempt]
  dsimp only
  rw [Action.on_bind, Action.on_attempt]
  cases hx : ((session v who).transact t).on e' with
  | mk r e'' =>
    rw [hx] at hstays
    have hdone : (session v who).done.on e'' = (.ok (), e''.letGo v.giveBack who) :=
      on_done v ((hstays.held?_eq who).trans hc)
    dsimp only
    rw [hdone, Action.on_bind, Action.on_ofResult]
    cases r <;> rfl

/-- An engine that is connected runs a transaction on a new handle and drops the handle. -/
theorem on_transaction {n : Nat} (hn : e.current = some n) (hfree : e.handles .engine = none)
    (t : Transaction) :
    (transaction v t).on e =
      (((session v .engine).transactAlone t).on
        { e with handles := put e.handles .engine (some { pool := n }) }).map id (drop v .engine) := by
  have hheld : e.held? .engine = none := by simp [held?, hfree]
  have hmade : (connection v .engine).on e =
      (.ok (), { e with handles := put e.handles .engine (some { pool := n }) }) := by
    rw [on_connection v hn, drop, letGo_of_not_held hheld]
    dsimp only
    rw [put_put]
  rw [transaction, Action.on_bind, hmade]
  dsimp only
  rw [Action.on_bind, Action.on_attempt]
  rfl

end Engine

end SqlKit
