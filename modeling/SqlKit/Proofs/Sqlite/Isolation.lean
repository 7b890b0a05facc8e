import SqlKit.Proofs.Sqlite.Atomicity
import SqlKit.Proofs.Sqlite.Bystanders
import SqlKit.Sqlite.Tables

/-!
# Sessions are isolated

A connection is lent again only outside of a transaction.  A handle may end in the middle of one: it
gives its connection back and the transaction is rolled back, or rolling back fails, or it is dropped,
and then the pool closes the connection.  Whatever its draft was, nobody sees anything of it, neither
before the end nor afterwards.

    in a transaction a statement keeps what it does to itself          (hidden_execute, hidden_fetch)
    however a handle ends, its draft is forgotten                      (Sound.releases, Sound.secret)
    so it is in every state that an engine comes to                    (run_isolated)
-/

namespace SqlKit

namespace Sqlite

open Lookup

variable {δ : Type}

namespace World

variable {w w' : World δ} {c : Nat}

/-! ## What the others do not see -/

/-- What has happened on a connection the others do not see. -/
structure Hidden (c : Nat) (w w' : World δ) : Prop where
  committed : ∀ k, (w'.databases k).committed = (w.databases k).committed
  sessions : ∀ c', c' ≠ c → w'.sessions c' = w.sessions c'
  view : ∀ c', c' ≠ c → w'.view c' = w.view c'

theorem Spares.hidden (h : Spares c w w')
    (hcommitted : ∀ k, (w'.databases k).committed = (w.databases k).committed) : Hidden c w w' := by
  refine ⟨hcommitted, h.sessions, fun c' hc => ?_⟩
  have hkey : w'.key c' = w.key c' := by
    unfold key
    rw [h.place]
  unfold World.view database
  rw [h.stage_eq hc, hkey, hcommitted]

theorem hidden_abandon (w : World δ) (c : Nat) : Hidden c w (w.abandon c) :=
  (spares_abandon w c).hidden (committed_abandon w c)

/-- Only outside of a transaction a content that is kept is committed. -/
theorem committed_keep {x : δ} {isChanged : Bool}
    (h : (w.keep c x isChanged).isAutocommit c = false) (k : Nat) :
    ((w.keep c x isChanged).databases k).committed = (w.databases k).committed := by
  revert h
  unfold keep
  dsimp only
  cases hstage : w.stage c with
  | none => simp [isAutocommit, hstage]
  | some s =>
    exact fun _ => committed_setDatabase w c (d := { w.database c with writer := some c }) rfl k

theorem committed_begin (w : World δ) (c : Nat) (writes : Bool) (k : Nat)
    (h : (w.begin c writes).2.isAutocommit c = false) :
    ((w.begin c writes).2.databases k).committed = (w.databases k).committed := by
  revert h
  unfold begin
  dsimp only
  split
  · exact fun _ => rfl
  · exact fun _ => rfl
  · split
    · exact fun _ => rfl
    · split
      · exact fun h => committed_keep h k
      · exact fun h => committed_keep h k

theorem committed_change (w : World δ) (c : Nat) (isCounted : Bool) (apply : δ → Result (Change δ))
    (k : Nat) (h : (w.change c isCounted apply).2.isAutocommit c = false) :
    ((w.change c isCounted apply).2.databases k).committed = (w.databases k).committed := by
  have hcount (n : Nat) (w' : World δ) :
      (if isCounted then w'.setChanges c n else w').databases = w'.databases ∧
        (if isCounted then w'.setChanges c n else w').isAutocommit c = w'.isAutocommit c := by
    split
    · exact ⟨rfl, by rw [isAutocommit, stage_setChanges, isAutocommit]⟩
    · exact ⟨rfl, rfl⟩
  revert h
  unfold change
  dsimp only
  split
  · intro _
    rw [(hcount 0 w).1]
  · split
    · rw [(hcount _ _).2]
      intro h
      rw [(hcount _ _).1, committed_keep h]
    · rw [(hcount _ _).2]
      intro h
      rw [(hcount _ _).1, committed_keep h]

/-- A statement that leaves its session in a transaction has committed nothing. -/
theorem committed_run (w : World δ) (c : Nat) (effect : Effect δ) (k : Nat)
    (h : (w.run c effect).2.isAutocommit c = false) :
    ((w.run c effect).2.databases k).committed = (w.databases k).committed := by
  cases effect with
  | begin writes => exact committed_begin w c writes k h
  | commit =>
    revert h
    show (w.commit c).2.isAutocommit c = false → ((w.commit c).2.databases k).committed = _
    unfold commit
    dsimp only
    split
    · exact fun _ => rfl
    · split
      · exact fun _ => rfl
      · simp [isAutocommit]
    · exact fun _ => rfl
  | rollback =>
    show ((w.rollback c).2.databases k).committed = _
    unfold rollback
    split
    · rfl
    · exact committed_abandon w c k
  | give rows => rfl
  | read rows =>
    show ((w.read c).2.databases k).committed = _
    unfold read
    dsimp only
    split <;> rfl
  | change isCounted apply => exact committed_change w c isCounted apply k h

variable (lang : Language δ) (sql : String) (params : List Value)

/-- In a transaction a statement keeps what it does to itself. -/
theorem hidden_execute (w : World δ) (c : Nat)
    (h : ((execute lang c sql params).on w).2.isAutocommit c = false) :
    Hidden c w ((execute lang c sql params).on w).2 := by
  refine (spares_execute lang c sql params w).hidden fun k => ?_
  revert h
  rw [on_execute]
  cases lang.meaning (w.view c) sql params with
  | error x => exact fun _ => rfl
  | ok m =>
    have hrun := committed_run w c m.2 k
    dsimp only
    cases hx : w.run c m.2 with
    | mk r w' =>
      rw [hx] at hrun
      cases r <;> exact hrun

theorem hidden_fetch (limit : Option Nat) (w : World δ) (c : Nat)
    (h : ((fetch lang c sql params limit).on w).2.isAutocommit c = false) :
    Hidden c w ((fetch lang c sql params limit).on w).2 := by
  refine (spares_fetch lang c sql params limit w).hidden fun k => ?_
  revert h
  rw [on_fetch]
  cases lang.meaning (w.view c) sql params with
  | error x => exact fun _ => rfl
  | ok m =>
    have hrun := committed_run w c m.2 k
    dsimp only
    split
    · exact fun _ => rfl
    · cases hx : w.run c m.2 with
      | mk r w' =>
        rw [hx] at hrun
        cases r <;> exact hrun

/-- Whatever the draft was, the same is left of it. -/
theorem abandon_setStage_writing {x : δ} {isChanged : Bool}
    (h : w.stage c = some (.writing x isChanged)) (y : δ) (b : Bool) :
    (w.setStage c (some (.writing y b))).abandon c = w.abandon c := by
  unfold abandon
  rw [stage_setStage, h]
  dsimp only
  rw [setDatabase_setStage, setStage_setStage]
  rfl

instance : IsPreorder (World δ) (Spares c) where
  refl := .refl c
  trans _ _ _ := Spares.trans

end World

/-! ## Ends of sessions -/

/-- What a session does not commit only this session sees, and when it has ended nobody. -/
structure Isolated (v : Vendor (World δ)) (e : Engine (World δ)) : Prop where
  /-- What is idle is outside of a transaction. -/
  idle : ∀ n, ∀ o ∈ (e.pools n).idle, e.world.isAutocommit o.conn = true
  /-- So a session begins outside of a transaction, on a connection that nobody else has, and sees what
  is committed. -/
  begins : ∀ who, let x := (Engine.begin v who).on e
    x.1.isOk = true → ∃ c, x.2.held? who = some c ∧ ¬IsLent e c ∧
      x.2.world.isAutocommit c = true ∧ x.2.world.view c = (e.world.database c).committed
  /-- What a statement does in a transaction the others do not see. -/
  executes : ∀ who c sql params, e.held? who = some c →
    let e' := ((Engine.execute v who sql params).on e).2
    e'.world.isAutocommit c = false → World.Hidden c e.world e'.world
  fetches : ∀ who c sql params limit, e.held? who = some c →
    let e' := ((Engine.query v who sql params limit).on e).2
    e'.world.isAutocommit c = false → World.Hidden c e.world e'.world
  /-- However a handle gives its connection up, this ends the transaction and writes nothing.  A
  connection that is not rolled back before is never lent again. -/
  releases : ∀ who c how, e.held? who = some c → e.allows how = true → let e' := e.release v who how
    World.Hidden c e.world e'.world ∧ e'.world.isAutocommit c = true ∧
      (how ≠ .done → e.world.isAutocommit c = false →
        ∀ e'', Engine.Reaches v e' e'' → ∀ n, c ∉ (e''.pools n).conns)
  /-- Until then nothing that others are answered tells what the draft is, and then it is forgotten. -/
  secret : ∀ who c x b, e.held? who = some c → e.world.stage c = some (.writing x b) →
    ∀ ops : List Engine.Op, (∀ op ∈ ops, op.who? ≠ some who) → ∀ y b',
      let e' := e.restage c (some (.writing y b'))
      e'.answers v ops = e.answers v ops ∧ ∀ how, (e.run v ops).allows how = true →
        (e'.run v ops).release v who how = (e.run v ops).release v who how
  /-- A transaction of the engine leaves no session in a transaction that was outside of one. -/
  transacts : e.handles .engine = none → ∀ t c,
    ((Engine.transaction v t).on e).2.world.stage c = e.world.stage c

section Isolation

variable {lang : Language δ} {name : String} {config : PoolConfig} {e : Engine (World δ)}
  {who : Holder} {c : Nat}

theorem Sound.idle_isAutocommit (he : Sound (vendor lang name config) e) {n : Nat}
    {o : Pool.Opened Nat} (ho : o ∈ (e.pools n).idle) : e.world.isAutocommit o.conn = true := by
  have hstage := he.outside o.conn (he.not_isLent_of_taken (n := n) (w := e.world) (.inl ho))
  rw [World.isAutocommit, hstage]
  rfl

/-- A session begins outside of a transaction and sees what is committed. -/
theorem Sound.begins (he : Sound (vendor lang name config) e)
    (hok : ((Engine.begin (vendor lang name config) who).on e).1.isOk = true) :
    ∃ c, ((Engine.begin (vendor lang name config) who).on e).2.held? who = some c ∧ ¬IsLent e c ∧
      ((Engine.begin (vendor lang name config) who).on e).2.world.isAutocommit c = true ∧
      ((Engine.begin (vendor lang name config) who).on e).2.world.view c =
        (e.world.database c).committed := by
  obtain ⟨h, x, o, hh, -, -, htaken, ho, hsource, hon⟩ := he.orderly.begun hok
  have hlent := he.not_isLent_of_taken hsource
  have hstage := he.outside o.conn hlent
  refine ⟨o.conn, ?_, hlent, ?_⟩ <;> rw [hon]
  · refine Engine.held?_eq_some_iff.2 ⟨h, o, hh, ?_, rfl⟩
    dsimp only
    rw [put_self]
    exact ho
  · have hboth : e.world.isAutocommit o.conn = true ∧
        e.world.view o.conn = (e.world.database o.conn).committed := by
      rw [World.isAutocommit, World.view, hstage]
      exact ⟨rfl, rfl⟩
    rcases world_taken htaken with hw | hw <;> dsimp only <;> rw [hw] <;> exact hboth

/-- No pool keeps the connection of a handle that is dropped in a transaction. -/
theorem Sound.not_mem_conns_abandon (he : Sound (vendor lang name config) e)
    (hc : e.held? who = some c) (hactive : e.world.isAutocommit c = false) (n : Nat) :
    c ∉ ((e.letGo (vendor lang name config).abandon who).pools n).conns := by
  obtain ⟨h, o, hh, ho, rfl⟩ := Engine.held?_eq_some_iff.1 hc
  have hunfit : ((vendor lang name config).abandon o.conn (e.isFlagged who) e.world).1 = false :=
    hactive
  refine he.not_mem_conns_letGo hh ho ?_ n
  rw [hunfit]
  rfl

theorem Sound.releases (he : Sound (vendor lang name config) e) (hc : e.held? who = some c)
    {how : Engine.Release} (hallows : e.allows how = true) :
    let e' := e.release (vendor lang name config) who how
    World.Hidden c e.world e'.world ∧ e'.world.isAutocommit c = true ∧
      (how ≠ .done → e.world.isAutocommit c = false →
        ∀ e'', Engine.Reaches (vendor lang name config) e' e'' → ∀ n, c ∉ (e''.pools n).conns) := by
  intro e'
  obtain ⟨handles, he'⟩ := Engine.release_eq (vendor lang name config) who hallows
  have hworld : e'.world = e.world.abandon c := by
    show (e.release (vendor lang name config) who how).world = _
    rw [he']
    exact (Engine.world_letGo hc _).trans (tidy_snd (how.tidies _) ..)
  refine ⟨?_, ?_, fun hhow hactive e'' hreaches n hmem => ?_⟩
  · rw [hworld]
    exact World.hidden_abandon e.world c
  · rw [hworld]
    exact World.isAutocommit_abandon e.world c
  · have htidy : how.tidy (vendor lang name config) = (vendor lang name config).abandon := by
      cases how with
      | done => exact absurd rfl hhow
      | _ => rfl
    have hpools : e'.pools = (e.letGo (vendor lang name config).abandon who).pools := by
      show (e.release (vendor lang name config) who how).pools = _
      rw [he', htidy]
    have hlater : Later (vendor lang name config) e e' :=
      he.reaches (Engine.reaches_release _ who e how)
    -- The connection is in no pool any more, and it is not a new one.
    rcases (hlater.sound.reaches hreaches).conns n c hmem with hmem | hle
    · rw [hpools] at hmem
      exact he.not_mem_conns_abandon hc hactive n hmem
    · have hlt := Nat.lt_of_lt_of_le (he.lt_opened hc) hlater.world.opened
      omega

/-- Whatever the draft was, the handle leaves the same engine. -/
theorem release_restage (hc : e.held? who = some c) {x : δ} {b : Bool}
    (hstage : e.world.stage c = some (.writing x b)) (y : δ) (b' : Bool) {how : Engine.Release}
    (hallows : e.allows how = true) :
    (e.restage c (some (.writing y b'))).release (vendor lang name config) who how =
      e.release (vendor lang name config) who how := by
  have hletGo {tidy : Nat → Bool → World δ → Bool × World δ}
      (tidies : tidy = (vendor lang name config).giveBack ∨
        tidy = (vendor lang name config).abandon) :
      (e.restage c (some (.writing y b'))).letGo tidy who = e.letGo tidy who := by
    obtain ⟨h, -, hh, -, -⟩ := Engine.held?_eq_some_iff.1 hc
    have habandon := World.abandon_setStage_writing hstage y b'
    have htidy (flag : Bool) :
        tidy c flag (e.restage c (some (.writing y b'))).world = tidy c flag e.world := by
      rcases tidies with rfl | rfl
      · exact Prod.ext ((giveBack_fst c flag _).trans (giveBack_fst c flag _).symm) habandon
      · refine Prod.ext ?_ habandon
        show (e.world.setStage c _).isAutocommit c = e.world.isAutocommit c
        rw [World.isAutocommit, World.isAutocommit, World.stage_setStage, hstage]
        rfl
    rw [Engine.letGo_of_held hh hc, Engine.letGo_of_held (e := e.restage c _) hh hc, htidy]
    rfl
  have hdrop : (e.restage c (some (.writing y b'))).drop (vendor lang name config) who =
      e.drop (vendor lang name config) who := by
    unfold Engine.drop
    rw [hletGo (.inr rfl)]
  cases how with
  | done =>
    show ((Engine.done _ who).on _).2 = ((Engine.done _ who).on _).2
    rw [Engine.done_snd, Engine.done_snd, hletGo (.inl rfl)]
  | failing => exact hletGo (.inr rfl)
  | drop => exact hdrop
  | replace =>
    obtain ⟨n, hn⟩ := Option.isSome_iff_exists.1 hallows
    show ((Engine.connection _ who).on _).2 = ((Engine.connection _ who).on _).2
    rw [Engine.on_connection _ hn, Engine.on_connection (e := e.restage c _) _ hn, hdrop]

theorem Sound.secret (he : Sound (vendor lang name config) e) (hc : e.held? who = some c) {x : δ}
    {b : Bool} (hstage : e.world.stage c = some (.writing x b)) {ops : List Engine.Op}
    (hops : ∀ op ∈ ops, op.who? ≠ some who) (y : δ) (b' : Bool) :
    let e' := e.restage c (some (.writing y b'))
    e'.answers (vendor lang name config) ops = e.answers (vendor lang name config) ops ∧
      ∀ how, (e.run (vendor lang name config) ops).allows how = true →
        (e'.run (vendor lang name config) ops).release (vendor lang name config) who how =
          (e.run (vendor lang name config) ops).release (vendor lang name config) who how := by
  obtain ⟨hrun, hanswers, hheld⟩ := he.run_restage hc hops (some (.writing y b'))
  refine ⟨hanswers, fun how hallows => ?_⟩
  rw [hrun]
  exact release_restage hheld ((he.stage_run hc hops).trans hstage) y b' hallows

/-- A transaction of the engine leaves no session in a transaction that was outside of one. -/
theorem Sound.stage_transaction (he : Sound (vendor lang name config) e)
    (hfree : e.handles .engine = none) (t : Transaction) (c : Nat) :
    ((Engine.transaction (vendor lang name config) t).on e).2.world.stage c = e.world.stage c := by
  cases hn : e.current with
  | none =>
    rw [Engine.transaction, Action.on_bind, Engine.connection_of_not_isConnected _ .engine hn]
  | some n =>
    obtain ⟨w, hw, ⟨-, hworld⟩ | ⟨c', -, hstage, -, hworld⟩⟩ := he.on_transaction hfree hn t
    · rw [hworld]
      rcases hw with rfl | rfl <;> rfl
    · have hrelated := Connection.related_within (P := World.Spares c')
        (c := (vendor lang name config).bare c') (World.spares_execute lang c')
        fun sql params => World.spares_fetch lang c' sql params none
      have hwithin : Action.Within (World.Spares c') (((vendor lang name config).bare c').transact t) :=
        Connection.related_transact (Action.congruent_within _) hrelated t
      rw [hworld]
      by_cases hc : c = c'
      · subst hc
        rw [hstage]
        exact Option.isNone_iff_eq_none.1 (World.isAutocommit_abandon _ c)
      · rw [World.stage_abandon_of_ne _ hc, (hwithin w).stage_eq hc]
        rcases hw with rfl | rfl <;> rfl

theorem Sound.isolated (he : Sound (vendor lang name config) e) :
    Isolated (vendor lang name config) e where
  idle _ _ ho := he.idle_isAutocommit ho
  begins _ hok := he.begins hok
  executes who c sql params hc := by
    dsimp only
    rw [Engine.world_execute _ hc]
    exact World.hidden_execute lang sql params e.world c
  fetches who c sql params limit hc := by
    dsimp only
    rw [Engine.world_query _ hc]
    exact World.hidden_fetch lang sql params limit e.world c
  releases _ _ _ hc hallows := he.releases hc hallows
  secret _ _ _ _ hc hstage _ hops y b' := he.secret hc hstage hops y b'
  transacts hfree t c := he.stage_transaction hfree t c

end Isolation

/-- **Sessions are isolated.**  Whatever an engine is asked for, in every state that it comes to, also
in the middle of a request and where a rollback fails, what is idle is outside of a transaction, every
session begins so, and what a session does not commit no other session ever sees. -/
theorem run_isolated (lang : Language δ) (name : String) (config : PoolConfig) {w : World δ}
    (outside : ∀ c, w.stage c = none) (ops : List Engine.Op) {e : Engine (World δ)} :
    let v := vendor lang name config
    Engine.Reaches v ((Engine.new v w).run v ops) e → Isolated v e := by
  intro v hreaches
  have hsound : Sound v ((Engine.new v w).run v ops) :=
    sound_run (sound_new lang name config outside) ops
  exact (hsound.reaches hreaches).sound.isolated

/-- The next session does not find a row that was put into a table in a transaction, when the handle
was dropped before the end. -/
theorem run_isolated_drop :
    let w : World Tables := .new .shared []
    let v := vendor Tables.language "shop.db" ⟨0, 2, ⟨0⟩, none⟩
    let e := (Engine.new v w).run v [.connect, .connection "a", .begin "a",
      .execute "a" "CREATE TABLE u (id INTEGER PRIMARY KEY)" [], .execute "a" "BEGIN" [],
      .execute "a" "INSERT INTO u (id) VALUES (?)" [.int 1]]
    let e' := e.run v [.drop "a", .connection "b", .begin "b"]
    (∀ c, w.stage c = none) ∧ Isolated v e ∧ Isolated v e' ∧ e.held? (.handle "a") = some 0 ∧
      e.world.view 0 = [("u", ⟨"id", [1]⟩)] ∧ e.world.isAutocommit 0 = false ∧
      e'.held? (.handle "b") = some 1 ∧ e'.world.view 1 = [("u", ⟨"id", []⟩)] := by
  intro w v e e'
  have hruns : e.held? (.handle "a") = some 0 ∧ e.world.view 0 = [("u", ⟨"id", [1]⟩)] ∧
      e.world.isAutocommit 0 = false ∧ e'.held? (.handle "b") = some 1 ∧
      e'.world.view 1 = [("u", ⟨"id", []⟩)] := by
    decide +kernel
  exact ⟨fun _ => rfl, run_isolated Tables.language "shop.db" _ (fun _ => rfl) _ .refl,
    run_isolated Tables.language "shop.db" _ (fun _ => rfl) _ (Engine.reaches_run e _), hruns⟩

end Sqlite

end SqlKit
