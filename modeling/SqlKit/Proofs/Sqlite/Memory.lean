import SqlKit.Proofs.Pool.Single
import SqlKit.Proofs.Sqlite.Connections
import SqlKit.Sqlite.Tables

/-!
# Databases in memory

A database in memory lives in the one connection of its pool.  What a session commits is there for all
later ones as long as the pool keeps this connection.  It does not always: it closes the connection if
its handle is dropped in a transaction, or if it is too old when it is taken or given back.  The next
session then finds a new database.

    a pool keeps its one connection until a request loses it           (Stands.alone_run)
    what is committed stays, unless a request loses it                 (run_memory_remembers)
    dropping a handle in a transaction may lose it                     (run_memory_lost)
-/

namespace SqlKit.Sqlite

open Lookup

variable {δ : Type}

/-! ## Requests -/

/-- A request loses the connection of the pool `n`: its handle is dropped in a transaction, or it is too
old when it is taken or given back. -/
def loses (n : Nat) (e : Engine (World δ)) : Engine.Op → Bool
  | .connection name | .drop name => ((e.pools n).held? (.handle name)).any fun o =>
      !e.world.isAutocommit o.conn || (e.pools n).isExpired o e.now
  | .done name => ((e.pools n).held? (.handle name)).any ((e.pools n).isExpired · e.now)
  | .begin name =>
    (e.handles (.handle name)).any (·.pool = n) && (e.held? (.handle name)).isNone &&
      (e.pools n).isStale e.now
  | .transaction _ => (e.pools n).isStale e.now
  | _ => false

/-- A request is for statements, and these may be on the connection `c`. -/
def touches (c : Nat) (e : Engine (World δ)) : Engine.Op → Bool
  | .execute name .. | .fetchAll name .. | .fetchMany name .. => e.held? (.handle name) = some c
  | .transaction _ => true
  | _ => false

/-! ## Contents -/

namespace World

variable {w w' : World δ}

theorem database_of_own (h : w.place = .own) (c : Nat) : w.database c = w.databases c := by
  unfold database
  rw [key_of_own h]

theorem Spares.committed_eq {c c' : Nat} (h : Spares c w w') (hown : w.place = .own) (hc : c' ≠ c) :
    (w'.databases c').committed = (w.databases c').committed := by
  rw [h.databases c' (by rwa [key_of_own hown])]

end World

variable {lang : Language δ} {name : String} {config : PoolConfig} {e : Engine (World δ)} {n c : Nat}

theorem committed_letGo {tidy : Nat → Bool → World δ → Bool × World δ}
    (tidies : tidy = (vendor lang name config).giveBack ∨ tidy = (vendor lang name config).abandon)
    (e : Engine (World δ)) (who : Holder) (k : Nat) :
    ((e.letGo tidy who).world.databases k).committed = (e.world.databases k).committed := by
  cases hheld : e.held? who with
  | none => rw [Engine.letGo_of_not_held hheld]
  | some c' => rw [Engine.world_letGo hheld, tidy_snd tidies, World.committed_abandon]

/-- Who works on another connection, or on none, writes nothing into the database of this one. -/
theorem committed_of_spares (hown : e.world.place = .own) {who : Holder} (hheld : e.held? who ≠ some c)
    {e' : Engine (World δ)} (hsame : e.held? who = none → e' = e)
    (hspares : ∀ c', e.held? who = some c' → e.world.Spares c' e'.world) :
    (e'.world.databases c).committed = (e.world.databases c).committed := by
  cases hc : e.held? who with
  | none => rw [hsame hc]
  | some c' =>
    have hne : c ≠ c' := by
      rintro rfl
      exact hheld hc
    exact (hspares c' hc).committed_eq hown hne

theorem committed_query (name : String) (config : PoolConfig) (hown : e.world.place = .own)
    {who : Holder} (hheld : e.held? who ≠ some c) (sql : String) (params : List Value)
    (limit : Option Nat) :
    let e' := ((Engine.query (vendor lang name config) who sql params limit).on e).2
    (e'.world.databases c).committed = (e.world.databases c).committed := by
  refine committed_of_spares hown hheld
    (fun hc => congrArg Prod.snd (Engine.on_query_of_not_held _ hc ..)) fun c' hc => ?_
  rw [Engine.world_query _ hc]
  exact World.spares_fetch lang c' sql params limit e.world

theorem committed_execute (name : String) (config : PoolConfig) (hown : e.world.place = .own)
    {who : Holder} (hheld : e.held? who ≠ some c) (sql : String) (params : List Value) :
    let e' := ((Engine.execute (vendor lang name config) who sql params).on e).2
    (e'.world.databases c).committed = (e.world.databases c).committed := by
  refine committed_of_spares hown hheld
    (fun hc => congrArg Prod.snd (Engine.execute_of_not_held _ _ _ _ hc)) fun c' hc => ?_
  rw [Engine.world_execute _ hc]
  exact World.spares_execute lang c' sql params e.world

/-! ## Connected engines -/

/-- An engine is connected by its pool `n`, where connections have data of their own. -/
structure Stands (v : Vendor (World δ)) (n : Nat) (e : Engine (World δ)) : Prop where
  sound : Sound v e
  free : e.handles .engine = none
  own : e.world.place = .own
  current : e.current = some n

namespace Stands

theorem after (h : Stands (vendor lang name config) n e) {op : Engine.Op} (hop : op ≠ .disconnect) :
    Stands (vendor lang name config) n (e.after (vendor lang name config) op) := by
  have hlater := h.sound.reaches (Engine.reaches_after e op)
  exact ⟨hlater.sound, Engine.handles_engine_after h.free op, hlater.world.place.trans h.own,
    Engine.current_after h.current hop⟩

theorem run (h : Stands (vendor lang name config) n e) {ops : List Engine.Op}
    (hops : .disconnect ∉ ops) :
    Stands (vendor lang name config) n (e.run (vendor lang name config) ops) := by
  induction ops generalizing e with
  | nil => exact h
  | cons op ops ih =>
    obtain ⟨hop, hrest⟩ := List.ne_and_not_mem_of_not_mem_cons hops
    exact ih (h.after hop.symm) hrest

/-- Connecting once more does nothing. -/
theorem after_connect (h : Stands (vendor lang name config) n e) :
    e.after (vendor lang name config) .connect = e := by
  have hconnected : e.isConnected = true := by simp [Engine.isConnected, h.current]
  exact congrArg Prod.snd (Engine.connect_of_isConnected _ hconnected)

/-- The pool is open. -/
theorem unshut (h : Stands (vendor lang name config) n e) : (e.pools n).isShut = false :=
  (h.sound.orderly.current n (h.sound.orderly.bounded n h.current)).2 h.current

/-- The pool of a database in memory has room for one connection. -/
theorem alone (h : Stands (vendor lang memory config) n e) (hconns : (e.pools n).conns = [c]) :
    (e.pools n).Alone c where
  resting := h.sound.orderly.resting n
  maxSize := by simp [h.sound.orderly.config n, vendor, maxSize_poolConfig_memory]
  keeps := by simp [h.sound.orderly.keeps n, vendor, maxSize_poolConfig_memory]
  unshut := h.unshut
  conns := hconns

/-- The connection of the pool was opened. -/
theorem lt_opened (h : Stands (vendor lang name config) n e) (halone : (e.pools n).Alone c) :
    c < e.world.opened := by
  refine h.sound.opened n c ?_
  rw [halone.conns]
  exact List.mem_singleton_self c

/-- Requests that are not for statements on a connection write nothing into its database. -/
theorem committed_after (h : Stands (vendor lang name config) n e) {op : Engine.Op}
    (hop : op ≠ .disconnect) (hc : touches c e op = false) :
    ((e.after (vendor lang name config) op).world.databases c).committed =
      (e.world.databases c).committed := by
  cases op with
  | connect => rw [h.after_connect]
  | disconnect => exact absurd rfl hop
  | connection who =>
    rw [Engine.after_connection _ h.current]
    exact committed_letGo (.inr rfl) e _ c
  | drop who => exact committed_letGo (.inr rfl) e _ c
  | begin who =>
    rcases Engine.after_begin (vendor lang name config) e who with
      ⟨-, hon⟩ | ⟨h', x, now, hh, hheld, hx, hon⟩
    · rw [hon]
    · have htaken := h.sound.orderly.taken hh hheld
      rw [hx] at htaken
      rw [hon]
      rcases world_taken htaken with hw | hw <;> dsimp only <;> rw [hw]
  | done who =>
    rw [Engine.after_done]
    exact committed_letGo (.inl rfl) e _ c
  | execute who sql params =>
    exact committed_execute name config h.own (of_decide_eq_false hc) sql params
  | fetchAll who sql params =>
    exact committed_query name config h.own (of_decide_eq_false hc) sql params none
  | fetchMany who sql params limit =>
    exact committed_query name config h.own (of_decide_eq_false hc) sql params (some limit)
  | transaction t => cases hc
  | pass d => rfl

/-- What it makes of the pool that a handle lets its connection go. -/
theorem errand_letGo (h : Stands (vendor lang name config) n e)
    (tidy : Nat → Bool → World δ → Bool × World δ) (who : Holder) (opener : World δ → Result Nat × World δ) :
    Pool.Errand opener who e.now (e.pools n) e.world
      (((e.pools n).held? who).any fun o =>
        !(tidy o.conn (e.isFlagged who) e.world).1 || (e.pools n).isExpired o e.now)
      ((e.letGo tidy who).pools n) := by
  rw [h.sound.orderly.pool_letGo tidy who n]
  cases ho : (e.pools n).held? who with
  | none => exact .none
  | some o => exact .release ho _

/-- What a request makes of the pool, and whether it loses the connection. -/
theorem errand (h : Stands (vendor lang name config) n e) {op : Engine.Op} (hop : op ≠ .disconnect) :
    ∃ who, Pool.Errand login.on who e.now (e.pools n) e.world (loses n e op)
      ((e.after (vendor lang name config) op).pools n) := by
  cases op with
  | connect =>
    rw [h.after_connect]
    exact ⟨.engine, .none⟩
  | disconnect => exact absurd rfl hop
  | connection who =>
    rw [Engine.after_connection _ h.current]
    exact ⟨_, h.errand_letGo (vendor lang name config).abandon (.handle who) _⟩
  | drop who => exact ⟨_, h.errand_letGo (vendor lang name config).abandon (.handle who) _⟩
  | done who =>
    have herrand := h.errand_letGo (vendor lang name config).giveBack (.handle who) login.on
    simp only [reusable_giveBack, Bool.not_true, Bool.false_or] at herrand
    rw [Engine.after_done]
    exact ⟨_, herrand⟩
  | begin who =>
    refine ⟨.handle who, ?_⟩
    rcases Engine.after_begin (vendor lang name config) e who with
      ⟨hnone, hon⟩ | ⟨h', x, now, hh, hheld, hx, hon⟩
    · have hkept : loses n e (.begin who) = false := by
        rcases hnone with hnone | hsome
        · simp [loses, Option.isNone_iff_eq_none.1 hnone]
        · simp [loses, Option.isNone_eq_false_iff.2 hsome]
      rw [hon, hkept]
      exact .none
    · have hlost : loses n e (.begin who) = (decide (h'.pool = n) && (e.pools n).isStale e.now) := by
        simp [loses, hh, hheld]
      have htaken := h.sound.orderly.taken hh hheld
      rw [hx] at htaken
      rw [hon, hlost]
      dsimp only
      by_cases hn : h'.pool = n
      · subst hn
        rw [put_self, decide_eq_true rfl, Bool.true_and]
        exact .take (h.sound.orderly.not_mem_parties hh hheld) htaken
      · rw [put_of_ne _ _ (Ne.symm hn), decide_eq_false hn, Bool.false_and]
        exact .none
  | transaction t =>
    obtain ⟨x, htaken, hcases⟩ := h.sound.orderly.on_transaction h.free h.current t
    have hnew := h.sound.orderly.not_mem_of_no_handle h.free n
    refine ⟨.engine, ?_⟩
    show Pool.Errand _ _ _ _ _ _ (((Engine.transaction (vendor lang name config) t).on e).2.pools n)
    rcases hcases with ⟨-, -, hpools⟩ | ⟨o, ho, hsource, flag, -, -, hpools⟩
    · rw [hpools, put_self]
      exact .take hnew htaken
    · rw [hpools, put_self, reusable_giveBack]
      exact .takeRelease hnew htaken ho hsource
  | execute who sql params =>
    have hpools := (Engine.stays_execute (.handle who) (vendor lang name config) sql params e).pools
    exact ⟨.engine, hpools ▸ .none⟩
  | fetchAll who sql params =>
    have hpools := (Engine.stays_query (.handle who) (vendor lang name config) sql params none e).pools
    exact ⟨.engine, hpools ▸ .none⟩
  | fetchMany who sql params limit =>
    have hpools :=
      (Engine.stays_fetchMany (.handle who) (vendor lang name config) sql params limit e).pools
    exact ⟨.engine, hpools ▸ .none⟩
  | pass d => exact ⟨.engine, .none⟩

/-- A connection that the pool does not have it never gets again. -/
theorem not_mem_run (h : Stands (vendor lang name config) n e) (hc : c ∉ (e.pools n).conns)
    (hlt : c < e.world.opened) (ops : List Engine.Op) :
    c ∉ ((e.run (vendor lang name config) ops).pools n).conns := by
  intro hmem
  rcases (h.sound.reaches (Engine.reaches_run e ops)).conns n c hmem with hmem | hle
  · exact hc hmem
  · omega

/-- While no request loses it, the pool has its one connection; afterwards it has it no more. -/
theorem alone_run (h : Stands (vendor lang name config) n e) (halone : (e.pools n).Alone c)
    {ops : List Engine.Op} (hops : .disconnect ∉ ops) :
    if Engine.never (vendor lang name config) (loses n) e ops then
      ((e.run (vendor lang name config) ops).pools n).Alone c
    else c ∉ ((e.run (vendor lang name config) ops).pools n).conns := by
  induction ops generalizing e with
  | nil => exact halone
  | cons op ops ih =>
    obtain ⟨hop, hrest⟩ := List.ne_and_not_mem_of_not_mem_cons hops
    obtain ⟨who, herrand⟩ := h.errand hop.symm
    have hlt := h.lt_opened halone
    have hnew := login_ne hlt
    have hlater := h.sound.reaches (Engine.reaches_after e op)
    rw [Engine.never]
    cases hloses : loses n e op with
    | false =>
      rw [hloses] at herrand
      rw [Bool.not_false, Bool.true_and]
      exact ih (h.after hop.symm) (herrand.alone halone hnew) hrest
    | true =>
      rw [hloses] at herrand
      rw [Bool.not_true, Bool.false_and, if_neg Bool.false_ne_true]
      exact (h.after hop.symm).not_mem_run (herrand.not_mem_conns halone hnew)
        (Nat.lt_of_lt_of_le hlt hlater.world.opened) ops

/-- While no statement may be on a connection, nothing is written into its database. -/
theorem committed_run (h : Stands (vendor lang name config) n e) {ops : List Engine.Op}
    (hops : .disconnect ∉ ops)
    (hquiet : Engine.never (vendor lang name config) (touches c) e ops = true) :
    ((e.run (vendor lang name config) ops).world.databases c).committed =
      (e.world.databases c).committed := by
  induction ops generalizing e with
  | nil => rfl
  | cons op ops ih =>
    obtain ⟨hop, hrest⟩ := List.ne_and_not_mem_of_not_mem_cons hops
    rw [Engine.never, Bool.and_eq_true, Bool.not_eq_true'] at hquiet
    exact (ih (h.after hop.symm) hrest hquiet.2).trans (h.committed_after hop.symm hquiet.1)

end Stands

/-- Connecting opens the one connection of the pool. -/
theorem Sound.connect_memory (he : Sound (vendor lang memory config) e)
    (hfree : e.handles .engine = none) (hown : e.world.place = .own)
    (hok : ((Engine.connect (vendor lang memory config)).on e).1.isOk = true) :
    let e' := e.after (vendor lang memory config) .connect
    Stands (vendor lang memory config) e.opened e' ∧ (e'.pools e.opened).Alone e.world.opened := by
  have hlater := he.reaches (Engine.reaches_after e .connect)
  have hfree' := Engine.handles_engine_after (v := vendor lang memory config) hfree .connect
  obtain ⟨x, hon⟩ | ⟨-, r, pool, w, hwarm, hon⟩ := Engine.connect_cases (vendor lang memory config) e
  · rw [hon] at hok
    cases hok
  · cases r with
    | error x =>
      rw [hon] at hok
      cases hok
    | ok _ =>
      have hafter := congrArg Prod.snd hon
      have hstands : Stands (vendor lang memory config) e.opened
          (e.after (vendor lang memory config) .connect) :=
        ⟨hlater.sound, hfree', hlater.world.place.trans hown, congrArg Engine.current hafter⟩
      have hstocked := Engine.stocked_connect (vendor lang memory config) e
      rw [hwarm] at hstocked
      obtain ⟨cs, hopens, hlength, hpool⟩ := hstocked.exists_opened
      have hone : cs.length = 1 := by simp [hlength, vendor, poolConfig]
      have hcs := (opens_login hopens).2
      rw [hone, List.range'_one] at hcs
      have hpools : (e.after (vendor lang memory config) .connect).pools e.opened = pool :=
        (congrArg (fun e' : Engine (World δ) => e'.pools e.opened) hafter).trans (put_self ..)
      refine ⟨hstands, hstands.alone ?_⟩
      rw [hpools, hpool, hcs]
      rfl

/-- A session gets the one connection if the pool still has it, not too old. -/
theorem conn_eq_iff_of_taken (hlt : c < e.world.opened) {b : Bool}
    (hpool : if b then (e.pools n).Alone c else c ∉ (e.pools n).conns) {who : Holder}
    {x : Result Unit × Pool Holder Nat × World δ}
    (htaken : Pool.Taken login.on who e.now (e.pools n) e.world x)
    (hwho : who ∉ (e.pools n).parties.map (·.name)) {o : Pool.Opened Nat}
    (ho : x.2.1.held? who = some o)
    (hsource : o ∈ (e.pools n).idle ∨ login.on e.world = (.ok o.conn, x.2.2)) :
    o.conn = c ↔ (b && !(e.pools n).isStale e.now) = true := by
  have hnew := login_ne hlt
  cases b with
  | false =>
    rw [if_neg Bool.false_ne_true] at hpool
    refine iff_of_false ?_ (by simp)
    rintro rfl
    rcases hsource with hidle | hopened
    · exact hpool (List.mem_append_left _ (List.mem_map_of_mem hidle))
    · exact hnew _ hopened
  | true =>
    rw [if_pos rfl] at hpool
    rw [Bool.true_and]
    cases hstale : (e.pools n).isStale e.now with
    | false => exact iff_of_true ((hpool.taken htaken hwho hstale).of_held ho).1 rfl
    | true =>
      refine iff_of_false ?_ Bool.noConfusion
      rintro rfl
      exact hpool.not_mem_taken htaken hstale hnew (Pool.mem_conns_of_held ho)

/-! ## What later sessions find -/

/-- What a session finds in the world `w` when the engine `e'` has lent it the connection `c'`; `e` was
the engine at some time before, and `w₀` the world in the beginning. -/
structure Finds (w₀ : World δ) (e e' : Engine (World δ)) (n c : Nat) (isKept : Bool) (c' : Nat)
    (w : World δ) : Prop where
  same : c' = c ↔ isKept = true
  /-- On the same connection a session finds what was committed, -/
  committed : c' = c → w.view c' = (e.world.database c).committed
  /-- on a new one what was there in the beginning. -/
  fresh : c' ∉ (e'.pools n).conns → w.view c' = (w₀.database c').committed

/-- What holds of the pool `n` and its connection `c`, when an engine that has just been connected as `e`
is asked for `ops` and then for `rest`. -/
structure Remembers (v : Vendor (World δ)) (w₀ : World δ) (n c : Nat) (e : Engine (World δ))
    (ops rest : List Engine.Op) : Prop where
  conns : c ∈ ((e.run v (ops ++ rest)).pools n).conns ↔ Engine.never v (loses n) e (ops ++ rest) = true
  /-- Handles find what was committed before `rest`, unless a request has lost it. -/
  begins : ∀ name, let x := (Engine.begin v (.handle name)).on (e.run v (ops ++ rest))
    x.1.isOk = true → ∃ c', x.2.held? (.handle name) = some c' ∧
      Finds w₀ (e.run v ops) (e.run v (ops ++ rest)) n c
        (Engine.never v (loses n) e (ops ++ rest ++ [.begin name])) c' x.2.world
  /-- So do transactions of the engine. -/
  transacts : ∀ t, let x := (Engine.transaction v t).on (e.run v (ops ++ rest))
    x.1.isOk = true → ∃ c' w, x.1 = (((v.bare c').transact t).on w).1 ∧
      Finds w₀ (e.run v ops) (e.run v (ops ++ rest)) n c
        (Engine.never v (loses n) e (ops ++ rest ++ [.transaction t])) c' w

section Remembering

variable {w₀ : World δ} {ops rest : List Engine.Op}

theorem Stands.finds (h : Stands (vendor lang name config) n e) (halone : (e.pools n).Alone c)
    (hgrows : w₀.Grows e.world) (hown : w₀.place = .own) (hops : .disconnect ∉ ops ++ rest)
    (hquiet : Engine.never (vendor lang name config) (touches c)
      (e.run (vendor lang name config) ops) rest = true)
    {op : Engine.Op} {who : Holder} {x : Result Unit × Pool Holder Nat × World δ}
    {o : Pool.Opened Nat} :
    let e' := e.run (vendor lang name config) (ops ++ rest)
    (hloses : loses n e' op = (e'.pools n).isStale e'.now) →
    Pool.Taken login.on who e'.now (e'.pools n) e'.world x →
    who ∉ (e'.pools n).parties.map (·.name) → x.2.1.held? who = some o →
    (o ∈ (e'.pools n).idle ∨ login.on e'.world = (.ok o.conn, x.2.2)) →
    Finds w₀ (e.run (vendor lang name config) ops) e' n c
      (Engine.never (vendor lang name config) (loses n) e (ops ++ rest ++ [op])) o.conn x.2.2 := by
  intro e' hloses htaken hwho ho hsource
  have h' : Stands (vendor lang name config) n e' := h.run hops
  have hlater : Later (vendor lang name config) e e' := h.sound.reaches (Engine.reaches_run e _)
  have hlt : c < e'.world.opened := Nat.lt_of_lt_of_le (h.lt_opened halone) hlater.world.opened
  -- Nobody has been on the connection, so that its session is outside of a transaction.
  have hview : x.2.2.view o.conn = (e'.world.databases o.conn).committed := by
    have hstage := h'.sound.outside o.conn (h'.sound.not_isLent_of_taken hsource)
    have hview' : e'.world.view o.conn = (e'.world.databases o.conn).committed := by
      rw [World.view, hstage]
      exact congrArg Database.committed (World.database_of_own h'.own o.conn)
    rcases world_taken htaken with hw | hw <;> rw [hw, ← hview']
    rfl
  refine ⟨?_, fun hc => ?_, fun hfresh => ?_⟩
  · rw [conn_eq_iff_of_taken hlt (h.alone_run halone hops) htaken hwho ho hsource, ← hloses,
      Engine.never_append _ _ _ (ops ++ rest) [op], Engine.never, Engine.never, Bool.and_true]
  · obtain ⟨hops, hrest⟩ := not_or.1 (mt List.mem_append.2 hops)
    rw [hview, hc, World.database_of_own (h.run hops).own, ← (h.run hops).committed_run hrest hquiet,
      ← Engine.run_append]
  · rcases hsource with hidle | hopened
    · exact absurd (List.mem_append_left _ (List.mem_map_of_mem hidle)) hfresh
    · have hfresh := (hgrows.trans hlater.world).fresh hown e'.world.opened (Nat.le_refl _)
      rw [hview, World.database_of_own hown, (eq_of_login hopened).1, hfresh]

/-- What a handle, or the engine for a transaction, finds when it takes a connection. -/
theorem Stands.remembers (h : Stands (vendor lang name config) n e) (halone : (e.pools n).Alone c)
    (hgrows : w₀.Grows e.world) (hown : w₀.place = .own) (hops : .disconnect ∉ ops ++ rest)
    (hquiet : Engine.never (vendor lang name config) (touches c)
      (e.run (vendor lang name config) ops) rest = true) :
    Remembers (vendor lang name config) w₀ n c e ops rest where
  conns := by
    have hpool := h.alone_run halone hops
    split at hpool
    · next hkept => exact iff_of_true (by simp [hpool.conns]) hkept
    · next hlost => exact iff_of_false hpool hlost
  begins who := by
    intro x hx
    have h' := h.run hops
    obtain ⟨handle, y, o, hh, hpool, hheld, htaken, ho, hsource, hon⟩ :=
      h'.sound.orderly.on_begin h'.current hx
    have hwho := h'.sound.orderly.not_mem_parties hh hheld
    rw [hpool] at hwho
    have hx₂ : x.2 = _ := hon
    refine ⟨o.conn, ?_, ?_⟩ <;> rw [hx₂]
    · refine Engine.held?_eq_some_iff.2 ⟨handle, o, hh, ?_, rfl⟩
      rw [hpool]
      dsimp only
      rw [put_self]
      exact ho
    · refine h.finds halone hgrows hown hops hquiet ?_ htaken hwho ho hsource
      simp [loses, hh, hpool, hheld]
  transacts t := by
    intro x hx
    have h' := h.run hops
    obtain ⟨x, htaken, hcases⟩ := h'.sound.orderly.on_transaction h'.free h'.current t
    rcases hcases with ⟨hfails, -⟩ | ⟨o, ho, hsource, flag, hresult, -⟩
    · rw [hfails] at hx
      cases hx
    · exact ⟨o.conn, x.2.2, hresult, h.finds halone hgrows hown hops hquiet rfl htaken
        (h'.sound.orderly.not_mem_of_no_handle h'.free n) ho hsource⟩

end Remembering

/-- **What is committed in memory stays for all later sessions, unless a request loses it.**  Whatever
an engine on a database in memory was asked for before: from the time that it is connected until it is
disconnected, a session works on the same connection and finds there what was committed before `rest`,
which asks for no statements on it, if and only if no request has lost it. -/
theorem run_memory_remembers (lang : Language δ) (config : PoolConfig) {w : World δ}
    (own : w.place = .ofName memory) (outside : ∀ c, w.stage c = none)
    (before ops rest : List Engine.Op) :
    let v := vendor lang memory config
    let e₀ := (Engine.new v w).run v before
    let e := e₀.after v .connect
    ((Engine.connect v).on e₀).1.isOk = true → .disconnect ∉ ops ++ rest →
    Engine.never v (touches e₀.world.opened) (e.run v ops) rest = true →
    Remembers v w e₀.opened e₀.world.opened e ops rest := by
  intro v e₀ e connected stays quiet
  have hown : w.place = .own := own.trans (by decide)
  have hlater : Later v (Engine.new v w) e₀ :=
    (sound_new lang memory config outside).reaches (Engine.reaches_run _ before)
  have hfree : e₀.handles .engine = none := Engine.handles_engine_run rfl before
  have hown₀ : e₀.world.place = .own := hlater.world.place.trans hown
  have hconnect : Later v e₀ e := hlater.sound.reaches (Engine.reaches_after e₀ .connect)
  obtain ⟨hstands, halone⟩ := hlater.sound.connect_memory hfree hown₀ connected
  exact hstands.remembers halone (hlater.world.trans hconnect.world) hown stays quiet

/-- A row is put into a table, and found by the next session. -/
theorem run_memory_remembers_insert :
    let w : World Tables := .new .own []
    let v := vendor Tables.language memory ⟨0, 2, ⟨0⟩, none⟩
    let e₀ := Engine.new v w
    let e := e₀.after v .connect
    let ops : List Engine.Op := [.connection "a", .begin "a",
      .execute "a" "CREATE TABLE u (id INTEGER PRIMARY KEY)" [],
      .execute "a" "INSERT INTO u (id) VALUES (?)" [.int 1]]
    let rest : List Engine.Op := [.done "a", .connection "b"]
    let x := (Engine.begin v (.handle "b")).on (e.run v (ops ++ rest))
    ((Engine.connect v).on e₀).1.isOk = true ∧ Engine.Op.disconnect ∉ ops ++ rest ∧
      Engine.never v (touches 0) (e.run v ops) rest = true ∧ Remembers v w 0 0 e ops rest ∧
      Engine.never v (loses 0) e (ops ++ rest ++ [.begin "b"]) = true ∧ x.1.isOk = true ∧
      x.2.world.view 0 = [("u", ⟨"id", [1]⟩)] := by
  intro w v e₀ e ops rest x
  have hconnected : ((Engine.connect v).on e₀).1.isOk = true := by decide +kernel
  have hstays : Engine.Op.disconnect ∉ ops ++ rest := by simp [ops, rest]
  have hquiet : Engine.never v (touches 0) (e.run v ops) rest = true := by decide +kernel
  exact ⟨hconnected, hstays, hquiet,
    run_memory_remembers Tables.language ⟨0, 2, ⟨0⟩, none⟩ rfl (fun _ => rfl) [] ops rest hconnected
      hstays hquiet,
    by decide +kernel, by decide +kernel, by decide +kernel⟩

/-- A handle that is dropped in a transaction takes with it what was committed before. -/
theorem run_memory_lost :
    let w : World Tables := .new .own []
    let v := vendor Tables.language memory ⟨0, 2, ⟨0⟩, none⟩
    let e := (Engine.new v w).after v .connect
    let ops : List Engine.Op := [.connection "a", .begin "a",
      .execute "a" "CREATE TABLE u (id INTEGER PRIMARY KEY)" [],
      .execute "a" "INSERT INTO u (id) VALUES (?)" [.int 1], .execute "a" "BEGIN" []]
    let rest : List Engine.Op := [.drop "a", .connection "b"]
    let x := (Engine.begin v (.handle "b")).on (e.run v (ops ++ rest))
    ((Engine.connect v).on (Engine.new v w)).1.isOk = true ∧
      ((e.run v ops).world.database 0).committed = [("u", ⟨"id", [1]⟩)] ∧
      Engine.never v (touches 0) (e.run v ops) rest = true ∧
      x.1.isOk = true ∧ x.2.held? (.handle "b") = some 1 ∧ x.2.world.view 1 = [] := by
  decide +kernel

end SqlKit.Sqlite
