import SqlKit.Engine

/-!
# Handles at work

What the operations of a handle make of an engine, for a handle that holds a connection.

    a statement acts on the world and on what the handle remembers     (on_execute, on_query)
    giving back is letting go                                          (done_snd)
    a connection becomes idle only if it was found fit to be lent      (reusable_of_lends)
-/

namespace SqlKit

namespace Pool

variable {ι κ : Type} [DecidableEq ι]

/-- What is idle after a connection was given back was idle before or may be lent again. -/
theorem mem_idle_release {p : Pool ι κ} {who : ι} {reusable : Bool} {now : Duration} {o : Opened κ}
    (h : o ∈ (p.step (.release who reusable now)).idle) :
    o ∈ p.idle ∨ p.held? who = some o ∧ p.refuses o reusable now = false := by
  unfold step held? at *
  cases hphase : p.phase? who with
  | none => simp [hphase] at h; exact .inl h
  | some phase =>
    cases phase with
    | holding o' =>
      simp only [hphase] at h ⊢
      split at h
      · exact .inl h
      · next hrefuses =>
        rcases List.mem_append.1 h with h | h
        · exact .inl h
        · rw [List.mem_singleton] at h
          subst h
          exact .inr ⟨rfl, by simpa using hrefuses⟩
    | _ => simp [hphase] at h; exact .inl h

/-- What somebody holds only the parties tell. -/
theorem held?_congr {p p' : Pool ι κ} (h : p'.parties = p.parties) (who : ι) :
    p'.held? who = p.held? who := by
  simp only [held?, phase?, party?, h]

/-- Who has given a connection back holds none. -/
theorem held?_release (p : Pool ι κ) (who : ι) (reusable : Bool) (now : Duration) :
    (p.step (.release who reusable now)).held? who = none := by
  have hgone (p' : Pool ι κ) (h : p'.parties = (p.remove who).parties) : p'.held? who = none := by
    have hnone : p'.party? who = none := by
      rw [party?, h]
      exact List.find?_eq_none.2 fun q hq => by simpa using (List.mem_filter.1 hq).2
    simp [held?, phase?, hnone]
  cases hphase : p.phase? who with
  | none => simp [step, held?, hphase]
  | some phase =>
    cases phase with
    | holding o =>
      simp only [step, hphase]
      split <;> exact hgone _ rfl
    | _ => simp [step, held?, hphase]

/-- The others hold what they held. -/
theorem held?_release_of_ne (p : Pool ι κ) {who who' : ι} (hne : who' ≠ who) (reusable : Bool)
    (now : Duration) : (p.step (.release who reusable now)).held? who' = p.held? who' := by
  have hkept (p' : Pool ι κ) (h : p'.parties = (p.remove who).parties) :
      p'.held? who' = p.held? who' := by
    have hparty : p'.party? who' = p.party? who' := by
      rw [party?, party?, h, remove, List.find?_filter]
      congr 1
      funext q
      by_cases hq : q.name = who'
      · simp [hq, hne]
      · simp [hq]
    simp only [held?, phase?, hparty]
  cases hphase : p.phase? who with
  | none => simp [step, hphase]
  | some phase =>
    cases phase with
    | holding o =>
      simp only [step, hphase]
      split <;> exact hkept _ rfl
    | _ => simp [step, hphase]

omit [DecidableEq ι] in
theorem reusable_of_not_refuses {p : Pool ι κ} {o : Opened κ} {reusable : Bool} {now : Duration}
    (h : p.refuses o reusable now = false) : reusable = true := by
  simp [refuses] at h
  exact h.1.1.1

end Pool

theorem Handle.pool_after (h : Handle) (sql : String) (r : Result Nat) :
    (h.after sql r).pool = h.pool := by
  unfold after
  rfl

namespace Engine

open Lookup

variable {ω : Type} (v : Vendor ω) {e : Engine ω} {who : Holder} {c : Nat}

/-- What a handle takes for granted: a transaction is open. -/
def isFlagged (e : Engine ω) (who : Holder) : Bool :=
  ((e.handles who).map (·.inTransaction)).getD false

theorem held?_eq_some_iff :
    e.held? who = some c ↔
      ∃ h o, e.handles who = some h ∧ (e.pools h.pool).held? who = some o ∧ o.conn = c := by
  unfold held?
  cases e.handles who with
  | none => simp
  | some h => cases hheld : (e.pools h.pool).held? who <;> simp [hheld]

theorem held?_onHandle (f : Handle → Handle) (hf : ∀ h, (f h).pool = h.pool) (who' : Holder) :
    (e.onHandle who f).held? who' = e.held? who' := by
  unfold held? onHandle
  by_cases hwho : who' = who
  · subst hwho
    cases e.handles who' with
    | none => simp
    | some h => simp [hf]
  · simp [put_of_ne _ _ hwho]

theorem isFlagged_onHandle {h : Handle} (hh : e.handles who = some h) (f : Handle → Handle) :
    (e.onHandle who f).isFlagged who = (f h).inTransaction := by
  simp [isFlagged, onHandle, hh]

theorem on_execute (hc : e.held? who = some c) (sql : String) (params : List Value) :
    (execute v who sql params).on e =
      let x := (v.execute c sql params).on e.world
      (x.1, { e with world := x.2 }.onHandle who fun h => h.after sql x.1) := by
  rw [execute, Action.on_of, hc]

theorem on_query (hc : e.held? who = some c) (sql : String) (params : List Value)
    (limit : Option Nat) :
    (query v who sql params limit).on e =
      match (v.fetch c sql params limit).on e.world with
      | (.error x, w) => (.error x, { e with world := w })
      | (.ok rows, w) =>
        (.ok rows, { e with world := w }.onHandle who fun h => { h with rowCount := rows.length }) := by
  have hheld : (onHeld who fun conn => v.fetch conn sql params limit).on e =
      (((v.fetch c sql params limit).on e.world).1,
        { e with world := ((v.fetch c sql params limit).on e.world).2 }) := by
    rw [onHeld, Action.on_of, hc]
  unfold query
  rw [Action.on_bind, hheld]
  cases (v.fetch c sql params limit).on e.world with
  | mk r w => cases r <;> rfl

theorem on_query_of_not_held (hc : e.held? who = none) (sql : String) (params : List Value)
    (limit : Option Nat) : (query v who sql params limit).on e = (.error .notConnected, e) := by
  have hheld : (onHeld who fun conn => v.fetch conn sql params limit).on e =
      (.error .notConnected, e) := by
    rw [onHeld, Action.on_of, hc]
  unfold query
  rw [Action.on_bind, hheld]

section Statements

variable (hc : e.held? who = some c) (sql : String) (params : List Value) (limit : Option Nat)
include hc

theorem world_execute :
    ((execute v who sql params).on e).2.world = ((v.execute c sql params).on e.world).2 := by
  rw [on_execute v hc]
  rfl

theorem isFlagged_execute :
    ((execute v who sql params).on e).2.isFlagged who =
      match opensTransaction? sql with
      | some opens => opens && ((v.execute c sql params).on e.world).1.isOk
      | none => e.isFlagged who := by
  obtain ⟨h, -, hh, -, -⟩ := held?_eq_some_iff.1 hc
  rw [on_execute v hc]
  refine (isFlagged_onHandle hh _).trans ?_
  simp only [isFlagged, hh]
  cases hopens : opensTransaction? sql <;> simp [Handle.after, hopens]

theorem world_query :
    ((query v who sql params limit).on e).2.world = ((v.fetch c sql params limit).on e.world).2 := by
  rw [on_query v hc]
  cases (v.fetch c sql params limit).on e.world with
  | mk r w => cases r <;> rfl

theorem isFlagged_query :
    ((query v who sql params limit).on e).2.isFlagged who = e.isFlagged who := by
  obtain ⟨h, -, hh, -, -⟩ := held?_eq_some_iff.1 hc
  rw [on_query v hc]
  cases (v.fetch c sql params limit).on e.world with
  | mk r w =>
    cases r with
    | error x => rfl
    | ok rows =>
      refine (isFlagged_onHandle hh _).trans ?_
      simp [isFlagged, hh]

end Statements

/-- A statement that succeeds is what its handle counts. -/
theorem rowCount_execute {sql : String} {params : List Value} {n : Nat}
    (h : ((execute v who sql params).on e).1 = .ok n) :
    (session v who).rowCount ((execute v who sql params).on e).2 = n := by
  cases hc : e.held? who with
  | none => rw [execute_of_not_held v who sql params hc] at h; cases h
  | some c =>
    obtain ⟨handle, -, hhandle, -, -⟩ := held?_eq_some_iff.1 hc
    rw [on_execute v hc] at h ⊢
    have hcount : ((v.execute c sql params).on e.world).1 = .ok n := h
    simp [session, onHandle, hhandle, Handle.after, hcount]

/-- A query that succeeds counts the rows that it gives. -/
theorem rowCount_query {sql : String} {params : List Value} {limit : Option Nat} {rows : List Row}
    (h : ((query v who sql params limit).on e).1 = .ok rows) :
    (session v who).rowCount ((query v who sql params limit).on e).2 = rows.length := by
  cases hc : e.held? who with
  | none => rw [on_query_of_not_held v hc] at h; cases h
  | some c =>
    obtain ⟨handle, -, hhandle, -, -⟩ := held?_eq_some_iff.1 hc
    rw [on_query v hc] at h ⊢
    cases hfetch : (v.fetch c sql params limit).on e.world with
    | mk r w =>
      rw [hfetch] at h
      cases r with
      | error x => cases h
      | ok rows' =>
        cases h
        simp [session, onHandle, hhandle]

/-- Ending the use of a connection, the handle forgets its transaction and the pool gets the connection
back. -/
theorem letGo_of_held {h : Handle} (hh : e.handles who = some h) (hc : e.held? who = some c)
    (tidy : Nat → Bool → ω → Bool × ω) :
    e.letGo tidy who =
      ({ e with world := (tidy c h.inTransaction e.world).2 }.onPool h.pool
        (.release who (tidy c h.inTransaction e.world).1 e.now)).onHandle who
          fun h => { h with inTransaction := false } := by
  unfold letGo
  rw [hh, hc]

theorem letGo_of_not_held (hc : e.held? who = none) (tidy : Nat → Bool → ω → Bool × ω) :
    e.letGo tidy who = e := by
  unfold letGo
  rw [hc]
  cases e.handles who <;> rfl

/-- Once its connection is given back, a handle holds nothing. -/
theorem held?_letGo (tidy : Nat → Bool → ω → Bool × ω) (e : Engine ω) (who : Holder) :
    (e.letGo tidy who).held? who = none := by
  cases hc : e.held? who with
  | none => rwa [letGo_of_not_held hc]
  | some c =>
    obtain ⟨h, o, hh, ho, -⟩ := held?_eq_some_iff.1 hc
    rw [letGo_of_held hh hc, held?_onHandle]
    · simp [held?, onPool, hh, Pool.held?_release]
    · exact fun _ => rfl

/-- The others hold what they held. -/
theorem held?_letGo_of_ne (tidy : Nat → Bool → ω → Bool × ω) (e : Engine ω) {who' : Holder}
    (hne : who' ≠ who) : (e.letGo tidy who).held? who' = e.held? who' := by
  cases hc : e.held? who with
  | none => rw [letGo_of_not_held hc]
  | some c =>
    obtain ⟨h, o, hh, -, -⟩ := held?_eq_some_iff.1 hc
    rw [letGo_of_held hh hc, held?_onHandle]
    · unfold held? onPool
      cases e.handles who' with
      | none => rfl
      | some h' =>
        by_cases hpool : h'.pool = h.pool
        · simp [hpool, Pool.held?_release_of_ne _ hne]
        · simp [put_of_ne _ _ hpool]
    · exact fun _ => rfl

/-- What one handle remembers does not matter to the others. -/
theorem held?_put_of_ne (e : Engine ω) {who' : Holder} (hne : who' ≠ who) (h : Option Handle) :
    ({ e with handles := put e.handles who h } : Engine ω).held? who' = e.held? who' := by
  unfold held?
  dsimp only
  rw [put_of_ne _ _ hne]

theorem held?_drop_of_ne (e : Engine ω) {who' : Holder} (hne : who' ≠ who) :
    (e.drop v who).held? who' = e.held? who' :=
  (held?_put_of_ne _ hne none).trans (held?_letGo_of_ne v.abandon e hne)

theorem current_letGo (tidy : Nat → Bool → ω → Bool × ω) (e : Engine ω) (who : Holder) :
    (e.letGo tidy who).current = e.current := by
  unfold letGo
  split <;> rfl

theorem drop_of_not_held (hc : e.held? who = none) :
    e.drop v who = { e with handles := put e.handles who none } := by
  unfold drop
  rw [letGo_of_not_held hc]

theorem on_connection {n : Nat} (hn : e.current = some n) :
    (connection v who).on e = (.ok (), { e.drop v who with
      handles := put (e.drop v who).handles who (some { pool := n }) }) := by
  rw [connection, Action.on_of, hn]

/-- An engine that is not connected opens a new pool, unless its settings are wrong. -/
theorem on_connect (hn : e.current = none) (hv : v.fault = none) :
    (connect v).on e =
      let x := Pool.warm v.login.on .engine e.now (Pool.new v.config v.keeps, e.world)
      match x.1 with
      | .error y => (.error y, { e with world := x.2.2 })
      | .ok _ => (.ok (), { e with
          world := x.2.2
          pools := put e.pools e.opened x.2.1
          opened := e.opened + 1
          current := some e.opened }) := by
  obtain ⟨world, now, pools, opened, current, handles⟩ := e
  obtain ⟨dialect, config, keeps, fault⟩ := v
  obtain rfl : current = none := hn
  obtain rfl : fault = none := hv
  rfl

theorem disconnect_of_not_isConnected (hn : e.current = none) :
    disconnect.on e = (.error .notConnected, e) := by
  rw [disconnect, Action.on_of, hn]

theorem on_disconnect {n : Nat} (hn : e.current = some n) :
    disconnect.on e = (.ok (), { (e.onPool n .close).onPool n .shut with current := none }) := by
  rw [disconnect, Action.on_of, hn]

theorem on_done (hc : e.held? who = some c) :
    (done v who).on e = (.ok (), e.letGo v.giveBack who) := by
  rw [done, Action.on_of, hc]

theorem done_of_not_held (hc : e.held? who = none) :
    (done v who).on e = (.error .notConnected, e) := by
  rw [done, Action.on_of, hc]

/-- Giving back is letting go, if there is anything. -/
theorem done_snd (e : Engine ω) (who : Holder) : ((done v who).on e).2 = e.letGo v.giveBack who := by
  cases hc : e.held? who with
  | none => rw [done_of_not_held v hc, letGo_of_not_held hc]
  | some c => rw [on_done v hc]

/-- A handle that holds nothing takes a connection from its pool. -/
theorem on_begin_of_unheld {h : Handle} (hh : e.handles who = some h) (hc : e.held? who = none) :
    (begin v who).on e =
      let x := Pool.take v.login.on who e.now (e.pools h.pool, e.world)
      (x.1.mapError fun x => if x = .poolClosed then v.closedFault else x,
        { e with world := x.2.2, pools := put e.pools h.pool x.2.1 }.waited x.1) := by
  rw [begin, Action.on_of, hh]
  show (if (e.held? who).isSome then _ else _) = _
  rw [hc]
  rfl

/-- Waiting takes nothing but time. -/
theorem waited_eq {α : Type} (e : Engine ω) (r : Result α) :
    e.waited r = { e with now := (e.waited r).now } := by
  unfold waited
  split <;> rfl

theorem on_begin_of_no_handle (hh : e.handles who = none) :
    (begin v who).on e = (.error .notConnected, e) := by
  rw [begin, Action.on_of, hh]

theorem on_begin_of_held (hc : e.held? who = some c) :
    (begin v who).on e = (.error .alreadyConnected, e) := by
  obtain ⟨h, -, hh, -, -⟩ := held?_eq_some_iff.1 hc
  rw [begin, Action.on_of, hh]
  show (if (e.held? who).isSome then _ else _) = _
  rw [hc]
  rfl

/-- No handle takes a connection if it does not exist or holds one. -/
theorem begin_cases (v : Vendor ω) (who : Holder) (e : Engine ω) :
    ((e.handles who).isNone ∨ (e.held? who).isSome) ∧ (∃ x, (begin v who).on e = (.error x, e)) ∨
      ∃ h, e.handles who = some h ∧ e.held? who = none := by
  cases hh : e.handles who with
  | none => exact .inl ⟨.inl rfl, _, on_begin_of_no_handle v hh⟩
  | some h =>
    cases hc : e.held? who with
    | some c => exact .inl ⟨.inr rfl, _, on_begin_of_held v hc⟩
    | none => exact .inr ⟨h, rfl, rfl⟩

/-- A connection has become idle. -/
def Lends (c : Nat) (e e' : Engine ω) : Prop :=
  ∃ n, c ∉ (e.pools n).idle.map (·.conn) ∧ c ∈ (e'.pools n).idle.map (·.conn)

theorem world_letGo (hc : e.held? who = some c) (tidy : Nat → Bool → ω → Bool × ω) :
    (e.letGo tidy who).world = (tidy c (e.isFlagged who) e.world).2 := by
  obtain ⟨h, -, hh, -, -⟩ := held?_eq_some_iff.1 hc
  rw [letGo_of_held hh hc]
  simp [onHandle, onPool, isFlagged, hh]

theorem pools_letGo {h : Handle} (hh : e.handles who = some h) (hc : e.held? who = some c)
    (tidy : Nat → Bool → ω → Bool × ω) :
    (e.letGo tidy who).pools = put e.pools h.pool
      ((e.pools h.pool).step (.release who (tidy c (e.isFlagged who) e.world).1 e.now)) := by
  rw [letGo_of_held hh hc]
  simp [onHandle, onPool, isFlagged, hh]

/-- The pool makes a connection idle only if it was found fit to be lent again. -/
theorem reusable_of_lends (hc : e.held? who = some c) (tidy : Nat → Bool → ω → Bool × ω)
    (hlends : Lends c e (e.letGo tidy who)) : (tidy c (e.isFlagged who) e.world).1 = true := by
  obtain ⟨h, -, hh, -, -⟩ := held?_eq_some_iff.1 hc
  obtain ⟨n, hout, hin⟩ := hlends
  rw [letGo_of_held hh hc] at hin
  have hflag : e.isFlagged who = h.inTransaction := by simp [isFlagged, hh]
  rw [hflag]
  by_cases hn : n = h.pool
  · subst hn
    obtain ⟨o, ho, hoc⟩ := List.mem_map.1 hin
    simp only [onHandle, onPool, put_self] at ho
    rcases Pool.mem_idle_release ho with hold | ⟨-, hrefuses⟩
    · exact absurd (List.mem_map.2 ⟨o, hold, hoc⟩) hout
    · exact Pool.reusable_of_not_refuses hrefuses
  · simp only [onHandle, onPool, put_of_ne _ _ hn] at hin
    exact absurd hin hout

end Engine

end SqlKit
