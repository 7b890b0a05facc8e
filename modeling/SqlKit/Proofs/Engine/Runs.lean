import Mathlib.Logic.Relation
import SqlKit.Proofs.Engine.Working

/-!
# Runs of an engine

An engine is asked for one thing after another, for any number of handles.  What it does falls into a
few moves; a transaction of its own is several of them.

    what an engine does on request is a row of moves                   (reaches_after)
    however a handle gives its connection up, it lets it go            (release_eq)
    what one handle is asked for leaves the other handles              (minds_after)
-/

namespace SqlKit

namespace Engine

open Lookup

variable {ω : Type}

/-! ## Requests -/

/-- What can be asked of an engine and its handles. -/
inductive Op where
  | connect
  | disconnect
  | connection (name : String)
  | drop (name : String)
  | begin (name : String)
  | done (name : String)
  | execute (name sql : String) (params : List Value)
  | fetchAll (name sql : String) (params : List Value)
  | fetchMany (name sql : String) (params : List Value) (limit : Nat)
  | transaction (t : Transaction)
  /-- Time passes. -/
  | pass (d : Duration)

section Runs

variable (v : Vendor ω)

/-- The engine when it has done what it was asked for. -/
def after (e : Engine ω) : Op → Engine ω
  | .connect => ((connect v).on e).2
  | .disconnect => (disconnect.on e).2
  | .connection name => ((connection v (.handle name)).on e).2
  | .drop name => e.drop v (.handle name)
  | .begin name => ((session v (.handle name)).begin.on e).2
  | .done name => ((session v (.handle name)).done.on e).2
  | .execute name sql params => (((session v (.handle name)).execute sql params).on e).2
  | .fetchAll name sql params => (((session v (.handle name)).fetchAll sql params).on e).2
  | .fetchMany name sql params limit =>
    (((session v (.handle name)).fetchMany sql params limit).on e).2
  | .transaction t => ((transaction v t).on e).2
  | .pass d => { e with now := ⟨e.now.nanos + d.nanos⟩ }

def run (e : Engine ω) (ops : List Op) : Engine ω := ops.foldl (after v) e

theorem run_append (e : Engine ω) (ops ops' : List Op) :
    e.run v (ops ++ ops') = (e.run v ops).run v ops' := List.foldl_append ..

theorem after_done (e : Engine ω) (name : String) :
    e.after v (.done name) = e.letGo v.giveBack (.handle name) := done_snd ..

theorem after_connection {e : Engine ω} {n : Nat} (hn : e.current = some n) (name : String) :
    e.after v (.connection name) = { e.drop v (.handle name) with
      handles := put (e.drop v (.handle name)).handles (.handle name) (some { pool := n }) } :=
  congrArg Prod.snd (on_connection v hn)

/-- Nothing happens, or the handle goes on an errand, which may take time. -/
theorem after_begin (e : Engine ω) (name : String) :
    ((e.handles (.handle name)).isNone ∨ (e.held? (.handle name)).isSome) ∧
        e.after v (.begin name) = e ∨
      ∃ h x now, e.handles (.handle name) = some h ∧ e.held? (.handle name) = none ∧
        Pool.take v.login.on (.handle name) e.now (e.pools h.pool, e.world) = x ∧
        e.after v (.begin name) =
          { e with world := x.2.2, pools := put e.pools h.pool x.2.1, now := now } := by
  rcases begin_cases v (.handle name) e with ⟨hnone, x, hon⟩ | ⟨h, hh, hc⟩
  · exact .inl ⟨hnone, congrArg Prod.snd hon⟩
  · exact .inr ⟨h, _, _, hh, hc, rfl,
      (congrArg Prod.snd (on_begin_of_unheld v hh hc)).trans (waited_eq ..)⟩

/-- No request of a run is a bad one, where that depends on the engine that is asked. -/
def never (bad : Engine ω → Op → Bool) : Engine ω → List Op → Bool
  | _, [] => true
  | e, op :: ops => !bad e op && never bad (e.after v op) ops

theorem never_append (bad : Engine ω → Op → Bool) (e : Engine ω) (ops ops' : List Op) :
    never v bad e (ops ++ ops') = (never v bad e ops && never v bad (e.run v ops) ops') := by
  induction ops generalizing e with
  | nil => rfl
  | cons op ops ih =>
    simp only [List.cons_append, never, ih, Bool.and_assoc]
    rfl

end Runs

/-! ## Answers -/

/-- What a request is answered. -/
inductive Answer where
  | done (r : Result Unit)
  | count (r : Result Nat)
  | rows (r : Result (List Row))
  | outcomes (r : Result (List Outcome))

section Answers

variable (v : Vendor ω)

/-- The answer of an engine to a request. -/
def answer (e : Engine ω) : Op → Answer
  | .connect => .done ((connect v).on e).1
  | .disconnect => .done (disconnect.on e).1
  | .connection name => .done ((connection v (.handle name)).on e).1
  | .drop _ | .pass _ => .done (.ok ())
  | .begin name => .done ((session v (.handle name)).begin.on e).1
  | .done name => .done ((session v (.handle name)).done.on e).1
  | .execute name sql params => .count (((session v (.handle name)).execute sql params).on e).1
  | .fetchAll name sql params => .rows (((session v (.handle name)).fetchAll sql params).on e).1
  | .fetchMany name sql params limit =>
    .rows (((session v (.handle name)).fetchMany sql params limit).on e).1
  | .transaction t => .outcomes ((transaction v t).on e).1

/-- The answers to one request after another. -/
def answers (e : Engine ω) : List Op → List Answer
  | [] => []
  | op :: ops => e.answer v op :: (e.after v op).answers ops

end Answers

/-! ## Moves -/

section Moves

variable (v : Vendor ω)

/-- What statements on a connection make of the world. -/
inductive Works (c : Nat) (w : ω) : ω → Prop where
  | idle : Works c w w
  | execute {w' : ω} (before : Works c w w') (sql : String) (params : List Value) :
      Works c w ((v.execute c sql params).on w').2
  | fetch {w' : ω} (before : Works c w w') (sql : String) (params : List Value)
      (limit : Option Nat) : Works c w ((v.fetch c sql params limit).on w').2

/-- A move of an engine. -/
inductive Move (e : Engine ω) : Engine ω → Prop where
  | pass (now : Duration) : Move e { e with now }
  /-- A handle works on the connection that it holds, and remembers something else. -/
  | work {who : Holder} {c : Nat} {h h' : Handle} {w : ω} (handle : e.handles who = some h)
      (held : e.held? who = some c) (works : Works v c e.world w) (pool : h'.pool = h.pool) :
      Move e { e with world := w, handles := put e.handles who (some h') }
  | letGo {who : Holder} {c : Nat} (held : e.held? who = some c) {tidy : Nat → Bool → ω → Bool × ω}
      (tidies : tidy = v.giveBack ∨ tidy = v.abandon) : Move e (e.letGo tidy who)
  /-- A handle that holds nothing is dropped. -/
  | forget {who : Holder} (unheld : e.held? who = none) :
      Move e { e with handles := put e.handles who none }
  | make {who : Holder} {n : Nat} (current : e.current = some n) (none : e.handles who = none) :
      Move e { e with handles := put e.handles who (some { pool := n }) }
  | take {who : Holder} {h : Handle} (handle : e.handles who = some h)
      (unheld : e.held? who = none) {x : Result Unit × Pool Holder Nat × ω}
      (result : Pool.take v.login.on who e.now (e.pools h.pool, e.world) = x) :
      Move e { e with world := x.2.2, pools := put e.pools h.pool x.2.1 }
  | connect (unconnected : e.current = none) {pool : Pool Holder Nat} {w : ω}
      (result : Pool.warm v.login.on .engine e.now (Pool.new v.config v.keeps, e.world) =
        (.ok (), pool, w)) :
      Move e { e with
        world := w
        pools := put e.pools e.opened pool
        opened := e.opened + 1
        current := some e.opened }
  /-- Connecting fails, and what it has opened is lost. -/
  | fail (unconnected : e.current = none) {x : Error} {pool : Pool Holder Nat} {w : ω}
      (result : Pool.warm v.login.on .engine e.now (Pool.new v.config v.keeps, e.world) =
        (.error x, pool, w)) : Move e { e with world := w }
  | disconnect {n : Nat} (current : e.current = some n) :
      Move e { (e.onPool n .close).onPool n .shut with current := none }

/-- One move after another. -/
def Reaches : Engine ω → Engine ω → Prop := Relation.ReflTransGen (Move v)

instance : IsPreorder (Engine ω) (Reaches v) :=
  inferInstanceAs (IsPreorder _ (Relation.ReflTransGen (Move v)))

/-- Whatever state it starts in, an action is a row of moves. -/
abbrev Moving {α : Type} (a : Action (Engine ω) α) : Prop := Action.Within (Reaches v) a

end Moves

section Requests

variable {v : Vendor ω} {α β : Type}

theorem Move.reaches {e e' : Engine ω} (h : Move v e e') : Reaches v e e' := .single h

variable (who : Holder)

/-- Work on the world and a change of what the handle remembers are one move. -/
theorem reaches_onHandle {e : Engine ω} {c : Nat} (hc : e.held? who = some c) {w : ω}
    (hw : Works v c e.world w) (f : Handle → Handle) (hf : ∀ h, (f h).pool = h.pool) :
    Reaches v e ({ e with world := w }.onHandle who f) := by
  obtain ⟨h, -, hh, -, -⟩ := held?_eq_some_iff.1 hc
  have hmove : Move v e { e with world := w, handles := put e.handles who (some (f h)) } :=
    .work hh hc hw (hf h)
  simp only [onHandle, hh, Option.map_some]
  exact hmove.reaches

theorem reaches_work {e : Engine ω} {c : Nat} (hc : e.held? who = some c) {w : ω}
    (hw : Works v c e.world w) : Reaches v e { e with world := w } := by
  have hsame : { e with world := w }.onHandle who id = { e with world := w } := by
    have hput : put e.handles who ((e.handles who).map id) = e.handles := by
      funext k
      by_cases hk : k = who
      · subst hk
        simp
      · rw [put_of_ne _ _ hk]
    simp only [onHandle, hput]
  rw [← hsame]
  exact reaches_onHandle who hc hw id fun _ => rfl

theorem moving_execute (sql : String) (params : List Value) : Moving v (execute v who sql params) := by
  intro e
  cases hc : e.held? who with
  | none =>
    rw [execute_of_not_held v who sql params hc]
    exact .refl
  | some c =>
    have hw : Works v c e.world ((v.execute c sql params).on e.world).2 := .execute .idle sql params
    rw [on_execute v hc]
    exact reaches_onHandle who hc hw _ fun h => h.pool_after sql _

theorem moving_query (sql : String) (params : List Value) (limit : Option Nat) :
    Moving v (query v who sql params limit) := by
  intro e
  cases hc : e.held? who with
  | none =>
    rw [on_query_of_not_held v hc]
    exact .refl
  | some c =>
    have hw : Works v c e.world ((v.fetch c sql params limit).on e.world).2 :=
      .fetch .idle sql params limit
    rw [on_query v hc]
    cases hx : (v.fetch c sql params limit).on e.world with
    | mk r w =>
      rw [hx] at hw
      cases r with
      | error x => exact reaches_work who hc hw
      | ok rows => exact reaches_onHandle who hc hw _ fun _ => rfl

theorem reaches_letGo {tidy : Nat → Bool → ω → Bool × ω}
    (htidy : tidy = v.giveBack ∨ tidy = v.abandon) (e : Engine ω) :
    Reaches v e (e.letGo tidy who) := by
  cases hc : e.held? who with
  | none =>
    rw [letGo_of_not_held hc]
    exact .refl
  | some c => exact (Move.letGo hc htidy).reaches

theorem moving_done : Moving v (done v who) := by
  intro e
  rw [done_snd]
  exact reaches_letGo who (.inl rfl) e

theorem reaches_drop (e : Engine ω) : Reaches v e (e.drop v who) :=
  (reaches_letGo who (.inr rfl) e).tail (.forget (held?_letGo _ e who))

theorem moving_connection : Moving v (connection v who) := by
  intro e
  cases hn : e.current with
  | none =>
    rw [connection_of_not_isConnected v who hn]
    exact .refl
  | some n =>
    rw [on_connection v hn]
    exact (reaches_drop who e).tail (.make ((current_letGo ..).trans hn) (put_self ..))

theorem reaches_waited (r : Result α) (e : Engine ω) : Reaches v e (e.waited r) := by
  unfold waited
  split
  · exact (Move.pass _).reaches
  · exact .refl

theorem moving_begin : Moving v (begin v who) := by
  intro e
  rcases begin_cases v who e with ⟨-, x, hon⟩ | ⟨h, hh, hc⟩
  · rw [hon]
    exact .refl
  · rw [on_begin_of_unheld v hh hc]
    exact (Move.take hh hc rfl).reaches.trans (reaches_waited _ _)

/-- Connecting fails and changes nothing, or fails and loses what it has opened, or makes a new pool. -/
theorem connect_cases (v : Vendor ω) (e : Engine ω) :
    (∃ x, (connect v).on e = (.error x, e)) ∨ e.current = none ∧ ∃ r pool w,
      Pool.warm v.login.on .engine e.now (Pool.new v.config v.keeps, e.world) = (r, pool, w) ∧
      (connect v).on e = match r with
        | .error x => (.error x, { e with world := w })
        | .ok _ => (.ok (), { e with
            world := w
            pools := put e.pools e.opened pool
            opened := e.opened + 1
            current := some e.opened }) := by
  by_cases hconnected : e.isConnected = true
  · exact .inl ⟨_, connect_of_isConnected v hconnected⟩
  · cases hfault : v.fault with
    | some x =>
      refine .inl ⟨x, ?_⟩
      show (if e.isConnected = true then _ else _) = _
      rw [if_neg hconnected, hfault]
    | none =>
      have hcurrent : e.current = none := by simpa [isConnected] using hconnected
      cases hwarm : Pool.warm v.login.on Holder.engine e.now (Pool.new v.config v.keeps, e.world) with
      | mk r x =>
        refine .inr ⟨hcurrent, r, x.1, x.2, rfl, ?_⟩
        rw [on_connect v hcurrent hfault, hwarm]
        cases r <;> rfl

theorem moving_connect : Moving v (connect v) := by
  intro e
  rcases connect_cases v e with ⟨x, hon⟩ | ⟨hcurrent, r, pool, w, hwarm, hon⟩
  · rw [hon]
    exact .refl
  · rw [hon]
    cases r with
    | error x => exact (Move.fail hcurrent hwarm).reaches
    | ok _ => exact (Move.connect hcurrent hwarm).reaches

theorem moving_disconnect : Moving v disconnect := by
  intro e
  cases hn : e.current with
  | none =>
    rw [disconnect_of_not_isConnected hn]
    exact .refl
  | some n =>
    rw [on_disconnect hn]
    exact (Move.disconnect hn).reaches

/-! ## Whole transactions -/

theorem moving_transaction (t : Transaction) : Moving v (transaction v t) :=
  within_transaction (moving_connection .engine) (moving_begin .engine) (moving_done .engine)
    (moving_execute .engine) (fun sql params => moving_query .engine sql params none)
    (reaches_drop .engine) t

theorem moving_fetchMany (sql : String) (params : List Value) (limit : Nat) :
    Moving v ((session v who).fetchMany sql params limit) := by
  show Moving v (if v.canStop then _ else _)
  split
  · exact moving_query who sql params (some limit)
  · exact (moving_query who sql params none).bind fun _ => Action.within_pure _

/-- What an engine does on request is a row of moves. -/
theorem reaches_after (e : Engine ω) (op : Op) : Reaches v e (e.after v op) := by
  cases op with
  | connect => exact moving_connect e
  | disconnect => exact moving_disconnect e
  | connection name => exact moving_connection _ e
  | drop name => exact reaches_drop _ e
  | begin name => exact moving_begin _ e
  | done name => exact moving_done _ e
  | execute name sql params => exact moving_execute _ sql params e
  | fetchAll name sql params => exact moving_query _ sql params none e
  | fetchMany name sql params limit => exact moving_fetchMany _ sql params limit e
  | transaction t => exact moving_transaction t e
  | pass d => exact (Move.pass _).reaches

theorem reaches_run (e : Engine ω) (ops : List Op) : Reaches v e (e.run v ops) := by
  induction ops generalizing e with
  | nil => exact .refl
  | cons op ops ih => exact (reaches_after e op).trans (ih (e.after v op))

end Requests

/-! ## Giving connections up -/

section Releases

/-- How a handle gives up the connection that it holds. -/
inductive Release where
  | done
  /-- It gives the connection back, and the rollback fails. -/
  | failing
  | drop
  /-- Another handle gets its name. -/
  | replace
deriving DecidableEq

variable (v : Vendor ω)

def release (who : Holder) (e : Engine ω) : Release → Engine ω
  | .done => ((done v who).on e).2
  | .failing => e.letGo v.abandon who
  | .drop => e.drop v who
  | .replace => ((connection v who).on e).2

/-- An engine makes new handles only while it is connected. -/
def allows (e : Engine ω) : Release → Bool
  | .replace => e.isConnected
  | _ => true

/-- How the connection is tidied up. -/
def Release.tidy : Release → Nat → Bool → ω → Bool × ω
  | .done => v.giveBack
  | _ => v.abandon

theorem Release.tidies (how : Release) : how.tidy v = v.giveBack ∨ how.tidy v = v.abandon := by
  cases how with
  | done => exact .inl rfl
  | _ => exact .inr rfl

/-- Giving a connection up is letting it go; some handles may have changed. -/
theorem release_eq (who : Holder) {e : Engine ω} {how : Release} (h : e.allows how = true) :
    ∃ handles, e.release v who how = { e.letGo (how.tidy v) who with handles := handles } := by
  cases how with
  | done => exact ⟨_, done_snd v e who⟩
  | failing => exact ⟨_, rfl⟩
  | drop => exact ⟨_, rfl⟩
  | replace =>
    obtain ⟨n, hn⟩ := Option.isSome_iff_exists.1 h
    exact ⟨_, congrArg Prod.snd (on_connection v hn)⟩

theorem reaches_release (who : Holder) (e : Engine ω) (how : Release) :
    Reaches v e (e.release v who how) := by
  cases how with
  | done => exact moving_done who e
  | failing => exact reaches_letGo who (.inr rfl) e
  | drop => exact reaches_drop who e
  | replace => exact moving_connection who e

end Releases

/-! ## Handles of others -/

/-- A handle has acted: it has neither connected nor disconnected its engine, nor changed what the other
handles remember. -/
structure Minds (who : Holder) (e e' : Engine ω) : Prop where
  current : e'.current = e.current
  handles : ∀ who', who' ≠ who → e'.handles who' = e.handles who'

section Minds

variable {v : Vendor ω} {α β : Type} {who : Holder} {e e' e'' : Engine ω}

theorem Minds.refl (who : Holder) (e : Engine ω) : Minds who e e := ⟨rfl, fun _ _ => rfl⟩

theorem Minds.trans (h : Minds who e e') (h' : Minds who e' e'') : Minds who e e'' :=
  ⟨h'.current.trans h.current, fun who' hne => (h'.handles who' hne).trans (h.handles who' hne)⟩

theorem Stays.minds (h : Stays who e e') : Minds who e e' := ⟨h.current, h.handles⟩

theorem minds_put (who : Holder) (e : Engine ω) (h : Option Handle) :
    Minds who e { e with handles := put e.handles who h } := ⟨rfl, fun _ hne => put_of_ne _ _ hne⟩

theorem minds_letGo (tidy : Nat → Bool → ω → Bool × ω) (e : Engine ω) (who : Holder) :
    Minds who e (e.letGo tidy who) := by
  unfold letGo
  split
  · exact ⟨rfl, fun _ hne => put_of_ne _ _ hne⟩
  · exact .refl who e

theorem minds_drop (e : Engine ω) (who : Holder) : Minds who e (e.drop v who) :=
  (minds_letGo ..).trans (minds_put ..)

theorem minds_connection (e : Engine ω) (who : Holder) :
    Minds who e ((connection v who).on e).2 := by
  cases hn : e.current with
  | none =>
    rw [connection_of_not_isConnected v who hn]
    exact .refl who e
  | some n =>
    rw [on_connection v hn]
    exact (minds_drop e who).trans (minds_put ..)

theorem minds_waited (r : Result α) (e : Engine ω) : Minds who e (e.waited r) := by
  unfold waited
  split <;> exact ⟨rfl, fun _ _ => rfl⟩

theorem minds_begin (e : Engine ω) (who : Holder) : Minds who e ((begin v who).on e).2 := by
  rcases begin_cases v who e with ⟨-, x, hon⟩ | ⟨h, hh, hc⟩
  · rw [hon]
    exact .refl who e
  · have htake (pools : Nat → Pool Holder Nat) (w : ω) :
        Minds who e { e with world := w, pools := pools } := ⟨rfl, fun _ _ => rfl⟩
    rw [on_begin_of_unheld v hh hc]
    exact (htake _ _).trans (minds_waited _ _)

theorem minds_done (e : Engine ω) (who : Holder) : Minds who e ((done v who).on e).2 := by
  rw [done_snd]
  exact minds_letGo ..

instance : IsPreorder (Engine ω) (Minds who) where
  refl := .refl who
  trans _ _ _ := Minds.trans

/-- A transaction of the engine minds the handles as the handle does that it makes. -/
theorem minds_transaction (t : Transaction) (e : Engine ω) :
    Minds .engine e ((transaction v t).on e).2 :=
  within_transaction (P := Minds .engine) (fun e => minds_connection e .engine)
    (fun e => minds_begin e .engine) (fun e => minds_done e .engine)
    (fun sql params e => (stays_execute .engine v sql params e).minds)
    (fun sql params e => (stays_query .engine v sql params none e).minds)
    (fun e => minds_drop e .engine) t e

/-- Whose request it is, if it is a handle's. -/
def Op.who? : Op → Option Holder
  | .connect | .disconnect | .pass _ => none
  | .connection name | .drop name | .begin name | .done name | .execute name .. | .fetchAll name ..
  | .fetchMany name .. => some (.handle name)
  | .transaction _ => some .engine

theorem minds_after {op : Op} (h : op.who? = some who) (e : Engine ω) : Minds who e (e.after v op) := by
  cases op with
  | connect | disconnect | pass => cases h
  | connection name =>
    cases h
    exact minds_connection e _
  | drop name =>
    cases h
    exact minds_drop e _
  | begin name =>
    cases h
    exact minds_begin e _
  | done name =>
    cases h
    exact minds_done e _
  | execute name sql params =>
    cases h
    exact (stays_execute _ v sql params e).minds
  | fetchAll name sql params =>
    cases h
    exact (stays_query _ v sql params none e).minds
  | fetchMany name sql params limit =>
    cases h
    exact (stays_fetchMany _ v sql params limit e).minds
  | transaction t =>
    cases h
    exact minds_transaction t e

/-- An engine that is connected stays so until it is disconnected. -/
theorem current_after {n : Nat} (hn : e.current = some n) {op : Op} (hop : op ≠ .disconnect) :
    (e.after v op).current = some n := by
  have hminds (hop : op.who?.isSome = true) : (e.after v op).current = some n := by
    obtain ⟨who, hwho⟩ := Option.isSome_iff_exists.1 hop
    exact (minds_after hwho e).current.trans hn
  cases op with
  | connect =>
    have hconnected : e.isConnected = true := by simp [isConnected, hn]
    rw [after, connect_of_isConnected v hconnected]
    exact hn
  | disconnect => exact absurd rfl hop
  | pass d => exact hn
  | _ => exact hminds rfl

theorem handles_connect (e : Engine ω) : ((connect v).on e).2.handles = e.handles := by
  rw [connect, Action.on_of]
  split
  · rfl
  · split
    · rfl
    · split
      dsimp only
      split <;> rfl

theorem handles_disconnect (e : Engine ω) : (disconnect.on e).2.handles = e.handles := by
  rw [disconnect, Action.on_of]
  split <;> rfl

/-- A transaction of the engine drops the handle that it made. -/
theorem handles_transaction (t : Transaction) (h : e.handles .engine = none) :
    ((transaction v t).on e).2.handles .engine = none := by
  rw [transaction, Action.on_bind]
  cases hn : e.current with
  | none =>
    rw [connection_of_not_isConnected v .engine hn]
    exact h
  | some n =>
    rw [on_connection v hn]
    generalize ({ e.drop v .engine with handles := _ } : Engine ω) = e₁
    exact put_self ((((session v .engine).transactAlone t).on e₁).2.letGo v.abandon .engine).handles
      Holder.engine none

/-- Between requests the engine has no handle of its own. -/
theorem handles_engine_after (h : e.handles .engine = none) (op : Op) :
    (e.after v op).handles .engine = none := by
  have hminds (name : String) (hop : op.who? = some (.handle name)) :
      (e.after v op).handles .engine = none :=
    ((minds_after hop e).handles .engine Holder.noConfusion).trans h
  cases op with
  | connect => exact (congrFun (handles_connect e) _).trans h
  | disconnect => exact (congrFun (handles_disconnect e) _).trans h
  | pass d => exact h
  | transaction t => exact handles_transaction t h
  | _ => exact hminds _ rfl

theorem handles_engine_run (h : e.handles .engine = none) (ops : List Op) :
    (e.run v ops).handles .engine = none := by
  induction ops generalizing e with
  | nil => exact h
  | cons op ops ih => exact ih (handles_engine_after h op)

end Minds

end Engine

end SqlKit
