import SqlKit.Proofs.Sqlite.Connections
import SqlKit.Proofs.Sqlite.Drafts

/-!
# Bystanders

How far the session on a connection has come, and what its draft is, makes no difference to anything
that happens on the other connections.

    statements on another connection do not depend on it               (execute_setStage, fetch_setStage)
    no request of another handle does                                  (Sound.ignores)
    what others are answered does not tell                             (Sound.run_restage)
-/

namespace SqlKit

namespace Engine

/-- The engine with the session on a connection at another stage. -/
def restage {δ : Type} (e : Engine (Sqlite.World δ)) (c : Nat) (s : Option (Sqlite.Stage δ)) :
    Engine (Sqlite.World δ) :=
  { e with world := e.world.setStage c s }

end Engine

namespace Sqlite

open Lookup

variable {δ : Type}

namespace World

/-! ## The stage of a session -/

@[simp] theorem setStage_setStage (w : World δ) (c : Nat) (s s' : Option (Stage δ)) :
    (w.setStage c s).setStage c s' = w.setStage c s' := by
  simp [setStage, setSession, put_put]

@[simp] theorem setStage_self (w : World δ) (c : Nat) : w.setStage c (w.stage c) = w := by
  simp [setStage, setSession, stage]

section Others

variable {c c' : Nat} (hc : c' ≠ c) (w : World δ) (s : Option (Stage δ))
include hc

theorem sessions_setStage_of_ne : (w.setStage c s).sessions c' = w.sessions c' := put_of_ne _ _ hc

theorem setSession_setStage (x : Session δ) :
    (w.setStage c s).setSession c' x = (w.setSession c' x).setStage c s := by
  simp [setStage, setSession, put_comm _ hc, put_of_ne _ _ hc.symm]

theorem setStage_comm (s' : Option (Stage δ)) :
    (w.setStage c s).setStage c' s' = (w.setStage c' s').setStage c s := by
  rw [setStage, sessions_setStage_of_ne hc, setSession_setStage hc]
  rfl

theorem setChanges_setStage (n : Nat) :
    (w.setStage c s).setChanges c' n = (w.setChanges c' n).setStage c s := by
  rw [setChanges, sessions_setStage_of_ne hc, setSession_setStage hc]
  rfl

theorem isAutocommit_setStage_of_ne : (w.setStage c s).isAutocommit c' = w.isAutocommit c' := by
  rw [isAutocommit, stage_setStage_of_ne w s hc]
  rfl

theorem view_setStage_of_ne : (w.setStage c s).view c' = w.view c' := by
  rw [view, stage_setStage_of_ne w s hc]
  rfl

theorem writable?_setStage_of_ne : (w.setStage c s).writable? c' = w.writable? c' := by
  rw [writable?, stage_setStage_of_ne w s hc]
  rfl

/-! ## Statements -/

omit hc in
theorem setDatabase_setStage (d : Database δ) :
    (w.setStage c s).setDatabase c' d = (w.setDatabase c' d).setStage c s := rfl

theorem abandon_setStage : (w.setStage c s).abandon c' = (w.abandon c').setStage c s := by
  unfold abandon
  rw [stage_setStage_of_ne w s hc]
  split
  · rw [setDatabase_setStage, setStage_comm hc]
    rfl
  · rw [setStage_comm hc]

theorem commit_setStage :
    (w.setStage c s).commit c' = (w.commit c').map id (·.setStage c s) := by
  unfold commit
  dsimp only
  rw [stage_setStage_of_ne w s hc]
  split
  · rfl
  · have hobjection (x : δ) : (w.setStage c s).objection x = w.objection x := rfl
    rw [hobjection]
    split
    · rfl
    · rw [setDatabase_setStage, setStage_comm hc]
      rfl
  · rw [setStage_comm hc]
    rfl

theorem rollback_setStage :
    (w.setStage c s).rollback c' = (w.rollback c').map id (·.setStage c s) := by
  unfold rollback
  rw [isAutocommit_setStage_of_ne hc, abandon_setStage hc]
  split <;> rfl

theorem read_setStage : (w.setStage c s).read c' = (w.read c').map id (·.setStage c s) := by
  unfold read
  dsimp only
  rw [stage_setStage_of_ne w s hc, view_setStage_of_ne hc, setStage_comm hc]
  split <;> rfl

theorem keep_setStage (x : δ) (isChanged : Bool) :
    (w.setStage c s).keep c' x isChanged = (w.keep c' x isChanged).setStage c s := by
  unfold keep
  dsimp only
  rw [stage_setStage_of_ne w s hc]
  split
  · rfl
  · rw [setDatabase_setStage, setStage_comm hc]
    rfl

theorem begin_setStage (writes : Bool) :
    (w.setStage c s).begin c' writes = (w.begin c' writes).map id (·.setStage c s) := by
  unfold begin
  dsimp only
  rw [isAutocommit_setStage_of_ne hc, writable?_setStage_of_ne hc, setStage_comm hc]
  split
  · rfl
  · rfl
  · split
    · rfl
    · split
      · rw [keep_setStage hc]
        rfl
      · rw [keep_setStage hc]
        rfl

theorem change_setStage (isCounted : Bool) (apply : δ → Result (Change δ)) :
    (w.setStage c s).change c' isCounted apply =
      (w.change c' isCounted apply).map id (·.setStage c s) := by
  have hcount (n : Nat) (w : World δ) :
      (if isCounted then (w.setStage c s).setChanges c' n else w.setStage c s) =
        (if isCounted then w.setChanges c' n else w).setStage c s := by
    split
    · exact setChanges_setStage hc w s n
    · rfl
  have hchecked : (w.setStage c s).checked c' = w.checked c' := by
    funext ch
    unfold checked
    rw [isAutocommit_setStage_of_ne hc]
    rfl
  unfold change
  dsimp only
  rw [writable?_setStage_of_ne hc, hchecked]
  cases w.writable? c' with
  | none => exact congrArg (Prod.mk _) (hcount 0 w)
  | some x =>
    dsimp only
    cases apply x >>= w.checked c' with
    | error e =>
      dsimp only
      rw [keep_setStage hc, hcount]
      rfl
    | ok ch =>
      dsimp only
      rw [keep_setStage hc, hcount]
      rfl

theorem run_setStage (effect : Effect δ) :
    (w.setStage c s).run c' effect = (w.run c' effect).map id (·.setStage c s) := by
  cases effect with
  | begin writes =>
    simp only [run, begin_setStage hc]
    rfl
  | commit =>
    simp only [run, commit_setStage hc]
    rfl
  | rollback =>
    simp only [run, rollback_setStage hc]
    rfl
  | give rows => rfl
  | read rows =>
    simp only [run, read_setStage hc]
    rfl
  | change isCounted apply => exact change_setStage hc w s isCounted apply

variable (lang : Language δ) (sql : String) (params : List Value)

theorem execute_setStage :
    (execute lang c' sql params).on (w.setStage c s) =
      ((execute lang c' sql params).on w).map id (·.setStage c s) := by
  rw [on_execute, on_execute, view_setStage_of_ne hc]
  cases lang.meaning (w.view c') sql params with
  | error x => rfl
  | ok m =>
    dsimp only
    rw [run_setStage hc]
    cases w.run c' m.2 with
    | mk r w' =>
      cases r with
      | error x => rfl
      | ok rows =>
        dsimp only [Prod.map, id]
        rw [sessions_setStage_of_ne hc]

theorem fetch_setStage (limit : Option Nat) :
    (fetch lang c' sql params limit).on (w.setStage c s) =
      ((fetch lang c' sql params limit).on w).map id (·.setStage c s) := by
  rw [on_fetch, on_fetch, view_setStage_of_ne hc]
  cases lang.meaning (w.view c') sql params with
  | error x => rfl
  | ok m =>
    dsimp only
    split
    · rfl
    · rw [run_setStage hc]
      cases w.run c' m.2 with
      | mk r w' => cases r <;> rfl

end Others

end World

/-! ## Requests of others -/

/-- While the handle `who` holds the connection `c`, an action lets it, and neither depends on the stage
of the session there nor changes it. -/
def Unaware (v : Vendor (World δ)) (who : Holder) (c : Nat) (α : Type)
    (a : Action (Engine (World δ)) α) : Prop :=
  ∀ e, Sound v e → e.held? who = some c →
    Sound v (a.on e).2 ∧ (a.on e).2.held? who = some c ∧
      ∀ s, a.on (e.restage c s) = (a.on e).map id (·.restage c s)

theorem congruent_unaware (v : Vendor (World δ)) (who : Holder) (c : Nat) :
    Congruent fun α (a _ : Action (Engine (World δ)) α) => Unaware v who c α a where
  ofResult _ _ he hc := ⟨he, hc, fun _ => rfl⟩
  bind {α β a _ f _} ha hf := by
    intro e he hc
    obtain ⟨he', hc', hon⟩ := ha e he hc
    simp only [Action.on_bind, hon]
    cases hx : a.on e with
    | mk r e' =>
      rw [hx] at he' hc'
      cases r with
      | error x => exact ⟨he', hc', fun _ => rfl⟩
      | ok x => exact hf x e' he' hc'
  attempt {α a _} ha := by
    intro e he hc
    obtain ⟨he', hc', hon⟩ := ha e he hc
    refine ⟨he', hc', fun s => ?_⟩
    simp only [Action.on_attempt, hon]
    rfl

section Others

variable {lang : Language δ} {name : String} {config : PoolConfig} {who who' : Holder} {c : Nat}
  {e : Engine (World δ)}

theorem unaware_execute (hwho : who' ≠ who) (sql : String) (params : List Value) :
    Unaware (vendor lang name config) who c Nat
      (Engine.execute (vendor lang name config) who' sql params) := by
  intro e he hc
  refine ⟨(he.reaches (Engine.moving_execute who' sql params e)).sound,
    ((Engine.stays_execute who' _ sql params e).held?_eq who).trans hc, fun s => ?_⟩
  have hsame : (e.restage c s).held? who' = e.held? who' := rfl
  cases hc' : e.held? who' with
  | none =>
    rw [Engine.execute_of_not_held _ _ _ _ hc', Engine.execute_of_not_held _ _ _ _ (hsame.trans hc')]
    rfl
  | some c' =>
    have hne : c' ≠ c := by
      rintro rfl
      exact hwho (he.eq_of_held hc' hc)
    rw [Engine.on_execute _ hc', Engine.on_execute _ (hsame.trans hc')]
    have hexecute : ((vendor lang name config).execute c' sql params).on (e.restage c s).world =
        (((vendor lang name config).execute c' sql params).on e.world).map id (·.setStage c s) :=
      World.execute_setStage hne e.world s lang sql params
    rw [hexecute]
    rfl

theorem unaware_query (hwho : who' ≠ who) (sql : String) (params : List Value) (limit : Option Nat) :
    Unaware (vendor lang name config) who c (List Row)
      (Engine.query (vendor lang name config) who' sql params limit) := by
  intro e he hc
  refine ⟨(he.reaches (Engine.moving_query who' sql params limit e)).sound,
    ((Engine.stays_query who' _ sql params limit e).held?_eq who).trans hc, fun s => ?_⟩
  have hsame : (e.restage c s).held? who' = e.held? who' := rfl
  cases hc' : e.held? who' with
  | none =>
    rw [Engine.on_query_of_not_held _ hc', Engine.on_query_of_not_held _ (hsame.trans hc')]
    rfl
  | some c' =>
    have hne : c' ≠ c := by
      rintro rfl
      exact hwho (he.eq_of_held hc' hc)
    rw [Engine.on_query _ hc', Engine.on_query _ (hsame.trans hc')]
    have hfetch : ((vendor lang name config).fetch c' sql params limit).on (e.restage c s).world =
        (((vendor lang name config).fetch c' sql params limit).on e.world).map id (·.setStage c s) :=
      World.fetch_setStage hne e.world s lang sql params limit
    rw [hfetch]
    cases ((vendor lang name config).fetch c' sql params limit).on e.world with
    | mk r w => cases r <;> rfl

/-- What another handle gives up was not the connection `c`. -/
theorem letGo_restage (he : Sound (vendor lang name config) e) (hc : e.held? who = some c)
    (hwho : who' ≠ who) {tidy : Nat → Bool → World δ → Bool × World δ}
    (tidies : tidy = (vendor lang name config).giveBack ∨ tidy = (vendor lang name config).abandon)
    (s : Option (Stage δ)) : (e.restage c s).letGo tidy who' = (e.letGo tidy who').restage c s := by
  have hsame : (e.restage c s).held? who' = e.held? who' := rfl
  cases hc' : e.held? who' with
  | none => rw [Engine.letGo_of_not_held hc', Engine.letGo_of_not_held (hsame.trans hc')]
  | some c' =>
    obtain ⟨h, -, hh, -, -⟩ := Engine.held?_eq_some_iff.1 hc'
    have hne : c' ≠ c := by
      rintro rfl
      exact hwho (he.eq_of_held hc' hc)
    have htidy (b : Bool) : tidy c' b (e.restage c s).world =
        (tidy c' b e.world).map id (·.setStage c s) := by
      rcases tidies with rfl | rfl
      · exact Prod.ext ((giveBack_fst c' b _).trans (giveBack_fst c' b _).symm)
          (World.abandon_setStage hne e.world s)
      · exact Prod.ext (World.isAutocommit_setStage_of_ne hne e.world s)
          (World.abandon_setStage hne e.world s)
    rw [Engine.letGo_of_held hh hc', Engine.letGo_of_held (e := e.restage c s) hh (hsame.trans hc'),
      htidy]
    rfl

theorem drop_restage (he : Sound (vendor lang name config) e) (hc : e.held? who = some c)
    (hwho : who' ≠ who) (s : Option (Stage δ)) :
    (e.restage c s).drop (vendor lang name config) who' =
      (e.drop (vendor lang name config) who').restage c s := by
  unfold Engine.drop
  rw [letGo_restage he hc hwho (.inr rfl)]
  rfl

theorem unaware_drop (hwho : who' ≠ who) :
    Unaware (vendor lang name config) who c Unit
      (modify (Engine.drop (vendor lang name config) who')) := by
  intro e he hc
  exact ⟨(he.reaches (Engine.reaches_drop who' e)).sound, (Engine.held?_drop_of_ne _ e hwho.symm).trans hc,
    fun s => congrArg (Prod.mk _) (drop_restage he hc hwho s)⟩

theorem unaware_done (hwho : who' ≠ who) :
    Unaware (vendor lang name config) who c Unit (Engine.done (vendor lang name config) who') := by
  intro e he hc
  refine ⟨(he.reaches (Engine.moving_done who' e)).sound, ?_, fun s => ?_⟩
  · rw [Engine.done_snd]
    exact (Engine.held?_letGo_of_ne _ e hwho.symm).trans hc
  · have hsame : (e.restage c s).held? who' = e.held? who' := rfl
    cases hc' : e.held? who' with
    | none =>
      rw [Engine.done_of_not_held _ hc', Engine.done_of_not_held _ (hsame.trans hc')]
      rfl
    | some c' =>
      rw [Engine.on_done _ hc', Engine.on_done _ (hsame.trans hc'), letGo_restage he hc hwho (.inl rfl)]
      rfl

theorem unaware_connection (hwho : who' ≠ who) :
    Unaware (vendor lang name config) who c Unit
      (Engine.connection (vendor lang name config) who') := by
  intro e he hc
  refine ⟨(he.reaches (Engine.moving_connection who' e)).sound, ?_, fun s => ?_⟩
  · cases hn : e.current with
    | none =>
      rw [Engine.connection_of_not_isConnected _ _ hn]
      exact hc
    | some n =>
      rw [Engine.on_connection _ hn]
      exact (Engine.held?_put_of_ne _ hwho.symm _).trans
        ((Engine.held?_drop_of_ne _ e hwho.symm).trans hc)
  · have hsame : (e.restage c s).current = e.current := rfl
    cases hn : e.current with
    | none =>
      rw [Engine.connection_of_not_isConnected _ _ hn,
        Engine.connection_of_not_isConnected _ _ (hsame.trans hn)]
      rfl
    | some n =>
      rw [Engine.on_connection _ hn, Engine.on_connection _ (hsame.trans hn),
        drop_restage he hc hwho]
      rfl

theorem login_setStage (c : Nat) (s : Option (Stage δ)) (w : World δ) :
    login.on (w.setStage c s) = (login.on w).map id (·.setStage c s) := by
  have hplace : (w.setStage c s).place = w.place := rfl
  rw [login_eq, login_eq, hplace]
  cases w.place <;> rfl

theorem unaware_begin (hwho : who' ≠ who) :
    Unaware (vendor lang name config) who c Unit (Engine.begin (vendor lang name config) who') := by
  intro e he hc
  refine ⟨(he.reaches (Engine.moving_begin who' e)).sound, ?_, fun s => ?_⟩
  · rcases Engine.begin_cases (vendor lang name config) who' e with ⟨-, x, hon⟩ | ⟨h, hh, hc'⟩
    · rw [hon]
      exact hc
    · obtain ⟨h', o, hh', ho, rfl⟩ := Engine.held?_eq_some_iff.1 hc
      have htaken := he.orderly.taken hh hc'
      rw [Engine.on_begin_of_unheld _ hh hc']
      dsimp only
      rw [Engine.waited_eq]
      refine Engine.held?_eq_some_iff.2 ⟨h', o, hh', ?_, rfl⟩
      dsimp only
      by_cases hpool : h'.pool = h.pool
      · rw [hpool, put_self, htaken.held?_of_ne hwho.symm, ← hpool]
        exact ho
      · rw [put_of_ne _ _ hpool]
        exact ho
  · have hsame : (e.restage c s).held? who' = e.held? who' := rfl
    cases hh : e.handles who' with
    | none =>
      rw [Engine.on_begin_of_no_handle _ hh, Engine.on_begin_of_no_handle (e := e.restage c s) _ hh]
      rfl
    | some h =>
      cases hc' : e.held? who' with
      | some c' =>
        rw [Engine.on_begin_of_held _ hc', Engine.on_begin_of_held _ (hsame.trans hc')]
        rfl
      | none =>
        have htake : Pool.take (vendor lang name config).login.on who' (e.restage c s).now
            ((e.restage c s).pools h.pool, (e.restage c s).world) =
              (Pool.take (vendor lang name config).login.on who' e.now
                (e.pools h.pool, e.world)).map id (Prod.map id (·.setStage c s)) :=
          Pool.take_map (login_setStage c s) who' e.now (e.pools h.pool) e.world
        rw [Engine.on_begin_of_unheld _ hh hc',
          Engine.on_begin_of_unheld (e := e.restage c s) _ hh (hsame.trans hc'), htake]
        generalize Pool.take _ who' e.now (e.pools h.pool, e.world) = x
        obtain ⟨r, p, w⟩ := x
        cases r with
        | ok _ => rfl
        | error y => cases y <;> rfl

theorem unaware_connect :
    Unaware (vendor lang name config) who c Unit (Engine.connect (vendor lang name config)) := by
  intro e he hc
  refine ⟨(he.reaches (Engine.moving_connect e)).sound, ?_, fun s => ?_⟩
  · obtain ⟨h, o, hh, ho, rfl⟩ := Engine.held?_eq_some_iff.1 hc
    rcases Engine.connect_cases (vendor lang name config) e with ⟨x, hon⟩ | ⟨-, r, p, w, -, hon⟩
    · rw [hon]
      exact hc
    · rw [hon]
      cases r with
      | error x => exact hc
      | ok _ =>
        -- The new pool is not the pool of the handle.
        have hpool : h.pool ≠ e.opened := Nat.ne_of_lt (he.orderly.known who h hh)
        refine Engine.held?_eq_some_iff.2 ⟨h, o, hh, ?_, rfl⟩
        dsimp only
        rw [put_of_ne _ _ hpool]
        exact ho
  · have hsame : (e.restage c s).isConnected = e.isConnected := rfl
    cases hn : e.current with
    | some n =>
      have hconnected : e.isConnected = true := by simp [Engine.isConnected, hn]
      rw [Engine.connect_of_isConnected _ hconnected,
        Engine.connect_of_isConnected _ (hsame.trans hconnected)]
      rfl
    | none =>
      have hwarm : Pool.warm (vendor lang name config).login.on Holder.engine (e.restage c s).now
          (Pool.new (vendor lang name config).config (vendor lang name config).keeps,
            (e.restage c s).world) =
              (Pool.warm (vendor lang name config).login.on Holder.engine e.now
                (Pool.new (vendor lang name config).config (vendor lang name config).keeps,
                  e.world)).map id (Prod.map id (·.setStage c s)) :=
        Pool.warm_map (login_setStage c s) Holder.engine e.now _ e.world
      rw [Engine.on_connect _ hn rfl, Engine.on_connect (e := e.restage c s) _ hn rfl, hwarm]
      generalize Pool.warm _ Holder.engine e.now _ = x
      obtain ⟨r, p, w⟩ := x
      cases r <;> rfl

theorem unaware_disconnect :
    Unaware (vendor lang name config) who c Unit Engine.disconnect := by
  intro e he hc
  refine ⟨(he.reaches (Engine.moving_disconnect e)).sound, ?_, fun s => ?_⟩
  · cases hn : e.current with
    | none =>
      rw [Engine.disconnect_of_not_isConnected hn]
      exact hc
    | some n =>
      obtain ⟨h, o, hh, ho, rfl⟩ := Engine.held?_eq_some_iff.1 hc
      rw [Engine.on_disconnect hn]
      refine Engine.held?_eq_some_iff.2 ⟨h, o, hh, ?_, rfl⟩
      exact (Pool.held?_congr (he.orderly.parties_disconnect n h.pool) who).trans ho
  · cases hn : e.current with
    | none =>
      rw [Engine.disconnect_of_not_isConnected hn,
        Engine.disconnect_of_not_isConnected (e := e.restage c s) hn]
      rfl
    | some n =>
      rw [Engine.on_disconnect hn, Engine.on_disconnect (e := e.restage c s) hn]
      rfl

theorem unaware_transaction (hwho : .engine ≠ who) (t : Transaction) :
    Unaware (vendor lang name config) who c _ (Engine.transaction (vendor lang name config) t) := by
  have hrelated : Connection.Related
      (fun α (a _ : Action (Engine (World δ)) α) => Unaware (vendor lang name config) who c α a)
      (Engine.session (vendor lang name config) Holder.engine)
      (Engine.session (vendor lang name config) Holder.engine) :=
    ⟨fun e he hc => ⟨he, hc, fun _ => rfl⟩, unaware_execute hwho,
      fun sql params => unaware_query hwho sql params none⟩
  exact Engine.related_transaction (congruent_unaware _ who c) hrelated (unaware_connection hwho)
    (unaware_begin hwho) (unaware_done hwho) (unaware_drop hwho) t

/-- What comes of a request that is unaware of a session: whatever its stage is, it stays, and the
answer is the same. -/
structure Ignores (v : Vendor (World δ)) (who : Holder) (c : Nat) (e : Engine (World δ))
    (op : Engine.Op) : Prop where
  sound : Sound v (e.after v op)
  held : (e.after v op).held? who = some c
  after : ∀ s, (e.restage c s).after v op = (e.after v op).restage c s
  answer : ∀ s, (e.restage c s).answer v op = e.answer v op

/-- No request but those of the handle itself depends on the stage of its session. -/
theorem Sound.ignores (he : Sound (vendor lang name config) e) (hc : e.held? who = some c)
    {op : Engine.Op} (hop : op.who? ≠ some who) : Ignores (vendor lang name config) who c e op := by
  have of_unaware {α : Type} {a : Action (Engine (World δ)) α} (f : Result α → Engine.Answer)
      (h : Unaware (vendor lang name config) who c α a)
      (hafter : ∀ e, e.after (vendor lang name config) op = (a.on e).2)
      (hanswer : ∀ e, e.answer (vendor lang name config) op = f (a.on e).1) :
      Ignores (vendor lang name config) who c e op := by
    obtain ⟨he', hc', hon⟩ := h e he hc
    refine ⟨?_, ?_, fun s => ?_, fun s => ?_⟩
    · rwa [hafter]
    · rwa [hafter]
    · rw [hafter, hafter, hon]
      rfl
    · rw [hanswer, hanswer, hon]
      rfl
  have hwho {who' : Holder} (h : op.who? = some who') : who' ≠ who := by
    rintro rfl
    exact hop h
  cases op with
  | connect => exact of_unaware .done unaware_connect (fun _ => rfl) fun _ => rfl
  | disconnect => exact of_unaware .done unaware_disconnect (fun _ => rfl) fun _ => rfl
  | connection n => exact of_unaware .done (unaware_connection (hwho rfl)) (fun _ => rfl) fun _ => rfl
  | drop n =>
    exact of_unaware .done (unaware_drop (hwho rfl)) (fun _ => rfl) fun _ => rfl
  | begin n => exact of_unaware .done (unaware_begin (hwho rfl)) (fun _ => rfl) fun _ => rfl
  | done n => exact of_unaware .done (unaware_done (hwho rfl)) (fun _ => rfl) fun _ => rfl
  | execute n sql params =>
    exact of_unaware .count (unaware_execute (hwho rfl) sql params) (fun _ => rfl) fun _ => rfl
  | fetchAll n sql params =>
    exact of_unaware .rows (unaware_query (hwho rfl) sql params none) (fun _ => rfl) fun _ => rfl
  | fetchMany n sql params limit =>
    exact of_unaware .rows (unaware_query (hwho rfl) sql params (some limit)) (fun _ => rfl)
      fun _ => rfl
  | transaction t =>
    exact of_unaware .outcomes (unaware_transaction (hwho rfl) t) (fun _ => rfl) fun _ => rfl
  | pass d => exact ⟨(he.reaches (Engine.Move.pass _).reaches).sound, hc, fun _ => rfl, fun _ => rfl⟩

/-- What others are answered does not tell how far a session has come, and does not change it. -/
theorem Sound.run_restage (he : Sound (vendor lang name config) e) (hc : e.held? who = some c)
    {ops : List Engine.Op} (hops : ∀ op ∈ ops, op.who? ≠ some who) (s : Option (Stage δ)) :
    (e.restage c s).run (vendor lang name config) ops =
        (e.run (vendor lang name config) ops).restage c s ∧
      (e.restage c s).answers (vendor lang name config) ops =
        e.answers (vendor lang name config) ops ∧
      (e.run (vendor lang name config) ops).held? who = some c := by
  induction ops generalizing e with
  | nil => exact ⟨rfl, rfl, hc⟩
  | cons op ops ih =>
    obtain ⟨hop, hrest⟩ := List.forall_mem_cons.1 hops
    have hignores := he.ignores hc hop
    obtain ⟨hrun, hanswers, hheld⟩ := ih hignores.sound hignores.held hrest
    refine ⟨?_, ?_, hheld⟩
    · show ((e.restage c s).after (vendor lang name config) op).run _ ops = _
      rw [hignores.after]
      exact hrun
    · rw [Engine.answers, Engine.answers, hignores.answer, hignores.after, hanswers]

theorem Sound.stage_run (he : Sound (vendor lang name config) e) (hc : e.held? who = some c)
    {ops : List Engine.Op} (hops : ∀ op ∈ ops, op.who? ≠ some who) :
    (e.run (vendor lang name config) ops).world.stage c = e.world.stage c := by
  have hself : e.restage c (e.world.stage c) = e := by
    unfold Engine.restage
    rw [World.setStage_self]
  have hrun := (he.run_restage hc hops (e.world.stage c)).1
  rw [hself] at hrun
  rw [hrun]
  exact World.stage_setStage ..

end Others

end Sqlite

end SqlKit
