import SqlKit.Proofs.Sqlite.Connections
import SqlKit.Proofs.Sqlite.Language

/-!
# Transactions are atomic

An engine runs a transaction on a session of its own.  Whatever fails (compiling it, taking a
connection, a statement, the commit), the databases have the contents they had, and when nothing fails
it is as if the statements of the body had run one after another.  The session ends in every case.

    all or nothing, and no session stays in a transaction              (run_transaction_atomic)
-/

namespace SqlKit.Sqlite

open Lookup

variable {δ : Type}

namespace World

variable {w₀ w : World δ} {c : Nat} {x : δ}

/-- Tidying up after a transaction that has ended changes nothing more. -/
theorem Ended.abandon (h : Ended w₀ c x w) : Ended w₀ c x (w.abandon c) := by
  have habandon : w.abandon c = w.setStage c none := by
    unfold World.abandon
    rw [h.stage]
  rw [habandon]
  exact ⟨h.spares.trans (spares_setStage ..), h.committed, stage_setStage ..⟩

theorem Ended.committed_of_ne (h : Ended w₀ c x w) {k : Nat} (hk : k ≠ w₀.key c) :
    (w.databases k).committed = (w₀.databases k).committed := by
  rw [h.spares.databases k hk]

/-- A transaction that was undone leaves every database as it was. -/
theorem Ended.undone (h : Ended w₀ c (w₀.database c).committed w) (k : Nat) :
    (w.databases k).committed = (w₀.databases k).committed := by
  by_cases hk : k = w₀.key c
  · subst hk
    have hcommitted := h.committed
    unfold database at hcommitted
    rwa [h.spares.key_eq] at hcommitted
  · exact h.committed_of_ne hk

/-- Outside of the transaction the sessions are as they were. -/
theorem Ended.stage_eq (h : Ended w₀ c x w) (h₀ : w₀.stage c = none) (c' : Nat) :
    w.stage c' = w₀.stage c' := by
  by_cases hc : c' = c
  · rw [hc, h.stage, h₀]
  · exact h.spares.stage_eq hc

/-- What a transaction on a connection has made of the databases and sessions. -/
structure Settled (lang : Language δ) (t : Transaction) (c : Nat) (w : World δ)
    (r : Result (List Outcome)) (w' : World δ) : Prop where
  undone : r.isOk = false ∨ t.ending = .rollback →
    ∀ k, (w'.databases k).committed = (w.databases k).committed
  done : ∀ os, r = .ok os → ∃ compiled x, t.statements = .ok compiled ∧
    Runs lang (t.body.zip compiled) (w.database c).committed os x ∧
    (t.ending = .commit → (w'.database c).committed = x ∧
      ∀ k, k ≠ w.key c → (w'.databases k).committed = (w.databases k).committed)
  stages : ∀ c', w'.stage c' = w.stage c'

/-- So it is when the connection is tidied up afterwards. -/
theorem settled_transact {lang : Language δ} (name : String) (config : PoolConfig)
    (hlang : lang.Transacts) {t : Transaction} (ht : ∀ s ∈ t.body, s.IsOnRows)
    (h : w.stage c = none) :
    let y := (((vendor lang name config).bare c).transact t).on w
    Settled lang t c w y.1 (y.2.abandon c) := by
  have hended := ended_transact name config hlang ht h
  dsimp only
  cases hy : (((vendor lang name config).bare c).transact t).on w with
  | mk r w' =>
    rw [hy] at hended
    cases r with
    | error x =>
      exact ⟨fun _ => hended.abandon.undone, (fun os hos => nomatch hos), hended.abandon.stage_eq h⟩
    | ok os =>
      obtain ⟨compiled, x, hstatements, hruns, hended⟩ := hended
      refine ⟨?_, fun os' hos => ?_, hended.abandon.stage_eq h⟩
      · rintro (hfails | hending)
        · cases hfails
        · rw [hending] at hended
          exact hended.abandon.undone
      · cases hos
        refine ⟨compiled, x, hstatements, hruns, fun hending => ?_⟩
        rw [hending] at hended
        exact ⟨hended.abandon.committed, fun k => hended.abandon.committed_of_ne⟩

end World

/-- What a transaction `t` of an engine has come to. -/
structure Atomic (lang : Language δ) (t : Transaction) (e : Engine (World δ))
    (r : Result (List Outcome)) (e' : Engine (World δ)) : Prop where
  /-- If it failed or was to be rolled back, every database is as it was. -/
  undone : r.isOk = false ∨ t.ending = .rollback →
    ∀ k, (e'.world.databases k).committed = (e.world.databases k).committed
  /-- If it did not fail, it gave what its statements give one after another, on a connection that was
  idle or is new.  If it was to be committed, that is what became of the database. -/
  done : ∀ os, r = .ok os → ∃ n c compiled x, e.current = some n ∧
    (c ∈ (e.pools n).idle.map (·.conn) ∨ c = e.world.opened) ∧ t.statements = .ok compiled ∧
    Runs lang (t.body.zip compiled) (e.world.database c).committed os x ∧
    List.Forall₂ (fun s o => o.isRows = s.last.returnsRows) t.body os ∧
    (t.ending = .commit → (e'.world.database c).committed = x ∧
      ∀ k, k ≠ e.world.key c → (e'.world.databases k).committed = (e.world.databases k).committed)
  /-- Its session is released. -/
  released : e'.handles .engine = none ∧ ∀ n, .engine ∉ (e'.pools n).parties.map (·.name)
  /-- No session is in a transaction that was not in it before. -/
  stages : ∀ c, e'.world.stage c = e.world.stage c
  /-- What no handle holds is outside of a transaction. -/
  outside : ∀ c, ¬IsLent e' c → e'.world.stage c = none

variable {lang : Language δ} {name : String} {config : PoolConfig} {e : Engine (World δ)}

/-- An engine that is connected runs a transaction on a connection that nobody holds, or has none for
it. -/
theorem Sound.on_transaction (he : Sound (vendor lang name config) e) (hfree : e.handles .engine = none)
    {n : Nat} (hn : e.current = some n) (t : Transaction) :
    ∃ w : World δ, (w = e.world ∨ w = { e.world with opened := e.world.opened + 1 }) ∧
      let x := (Engine.transaction (vendor lang name config) t).on e
      (x.1.isOk = false ∧ x.2.world = w ∨
        ∃ c, (c ∈ (e.pools n).idle.map (·.conn) ∨ c = e.world.opened) ∧ e.world.stage c = none ∧
          let y := (((vendor lang name config).bare c).transact t).on w
          x.1 = y.1 ∧ x.2.world = y.2.abandon c) := by
  obtain ⟨x, htaken, hcases⟩ := he.orderly.on_transaction hfree hn t
  refine ⟨x.2.2, world_taken htaken, ?_⟩
  rcases hcases with ⟨hfails, hworld, -⟩ | ⟨o, -, ho, flag, hresult, hworld, -⟩
  · exact .inl ⟨hfails, hworld⟩
  · refine .inr ⟨o.conn, ho.imp List.mem_map_of_mem fun hnew => (eq_of_login hnew).1,
      he.outside o.conn (he.not_isLent_of_taken ho), hresult, ?_⟩
    rw [hworld, tidy_snd (.inl rfl)]

theorem Sound.transaction_atomic (he : Sound (vendor lang name config) e)
    (hfree : e.handles .engine = none) (hlang : lang.Transacts) {t : Transaction}
    (ht : ∀ s ∈ t.body, s.IsOnRows) :
    Atomic lang t e ((Engine.transaction (vendor lang name config) t).on e).1
      ((Engine.transaction (vendor lang name config) t).on e).2 := by
  -- Whatever comes of it, the engine is left in order and without a handle of its own.
  have hsound := (he.reaches (Engine.moving_transaction t e)).sound
  have hhandle := Engine.handles_transaction (v := vendor lang name config) t hfree
  have hreleased := And.intro hhandle (hsound.orderly.not_mem_of_no_handle hhandle)
  cases hn : e.current with
  | none =>
    have hon : (Engine.transaction (vendor lang name config) t).on e = (.error .notConnected, e) := by
      rw [Engine.transaction, Action.on_bind, Engine.connection_of_not_isConnected _ .engine hn]
    rw [hon] at hreleased ⊢
    exact ⟨fun _ _ => rfl, (fun _ hr => by cases hr), hreleased, fun _ => rfl, he.outside⟩
  | some n =>
    obtain ⟨w, hw, ⟨hfails, hworld⟩ | ⟨c, hc, hstage, hresult, hworld⟩⟩ := he.on_transaction hfree hn t
    · refine ⟨fun _ k => ?_, fun os hos => ?_, hreleased, fun c => ?_, hsound.outside⟩
      · rw [hworld]
        rcases hw with rfl | rfl <;> rfl
      · rw [hos] at hfails
        cases hfails
      · rw [hworld]
        rcases hw with rfl | rfl <;> rfl
    · have hsettled : World.Settled lang t c e.world
          ((Engine.transaction (vendor lang name config) t).on e).1
          ((Engine.transaction (vendor lang name config) t).on e).2.world := by
        have h := World.settled_transact name config hlang ht (w := w) (c := c)
          (by rcases hw with rfl | rfl <;> exact hstage)
        rw [hresult, hworld]
        rcases hw with rfl | rfl <;> exact ⟨h.undone, h.done, h.stages⟩
      refine ⟨hsettled.undone, fun os hos => ?_, hreleased, hsettled.stages, hsound.outside⟩
      obtain ⟨compiled, x, hstatements, hruns, hcommit⟩ := hsettled.done os hos
      have houtcomes := hruns.forall₂
      rw [List.map_fst_zip (Nat.le_of_eq (Transaction.forall₂_statements hstatements).length_eq)]
        at houtcomes
      exact ⟨n, c, compiled, x, hn, hc, hstatements, hruns, houtcomes, hcommit⟩

/-- **Transactions of an engine are atomic.**  Whatever the databases hold and whatever an engine has
been asked for, a transaction of statements on rows is all or nothing, and ends its session. -/
theorem run_transaction_atomic (name : String) (config : PoolConfig) (hlang : lang.Transacts)
    {w : World δ} (hw : ∀ c, w.stage c = none) (ops : List Engine.Op) {t : Transaction}
    (ht : ∀ s ∈ t.body, s.IsOnRows) :
    let v := vendor lang name config
    let e := (Engine.new v w).run v ops
    Atomic lang t e ((Engine.transaction v t).on e).1 ((Engine.transaction v t).on e).2 :=
  (sound_run (sound_new lang name config hw) ops).transaction_atomic
    (Engine.handles_engine_run (by rfl) ops) hlang ht

/-- A row is put into a table. -/
theorem run_transaction_atomic_insert :
    let w : World Tables := .new .shared []
    let v := vendor Tables.language "shop.db" ⟨0, 2, ⟨0⟩, none⟩
    let e := (Engine.new v w).run v [.connect, .connection "a", .begin "a",
      .execute "a" "CREATE TABLE u (id INTEGER PRIMARY KEY)" [], .done "a"]
    let insert : SqlKit.Statement := {
      kind := .insert
      insertTable := some (.named "u")
      insertColumns := ["id"]
      insertRows := [[.int 1]] }
    let t : Transaction := ⟨.sqlite, [.ofStatement insert], .commit⟩
    let x := (Engine.transaction v t).on e
    Tables.language.Transacts ∧ (∀ c, w.stage c = none) ∧ (∀ s ∈ t.body, s.IsOnRows) ∧
      Atomic Tables.language t e x.1 x.2 ∧ x.1.isOk = true ∧
      (e.world.databases 0).committed = [("u", ⟨"id", []⟩)] ∧
      (x.2.world.databases 0).committed = [("u", ⟨"id", [1]⟩)] := by
  intro w v e insert t x
  have hrows : ∀ s ∈ t.body, s.IsOnRows := by
    simp [t, insert, Script.IsOnRows, Script.parts, Script.ofStatement, StatementKind.isOnRows]
  exact ⟨Tables.transacts_language, fun _ => rfl, hrows,
    run_transaction_atomic "shop.db" _ Tables.transacts_language (fun _ => rfl) _ hrows,
    by decide +kernel, by decide +kernel, by decide +kernel⟩

end SqlKit.Sqlite
