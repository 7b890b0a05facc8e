import SqlKit.Proofs.Engine.Life
import SqlKit.Proofs.Sqlite.Bystanders

/-!
# Counts of changed rows

What a statement gives as its count belongs to its connection: there the last insertion or deletion
has left it, whoever asked for it and in whichever session.  A statement that is none of these leaves
it alone and gives it once more.

    a count that is no insertion's or deletion's stays                 (World.sameCounts_run)
    nothing but statements changes a count                             (Sound.sameCounts_after)
    the count is that of the last insertion or deletion                (Sound.changes_run)
-/

namespace SqlKit

namespace Engine

/-- The request has statements run. -/
def Op.isStatement : Op → Bool
  | .execute .. | .fetchAll .. | .fetchMany .. | .transaction _ => true
  | _ => false

/-- The statement that a request has run on the session of a handle. -/
def Op.statement? (user : String) : Op → Option (String × List Value)
  | .execute user' sql params | .fetchAll user' sql params =>
    if user' = user then some (sql, params) else none
  | .fetchMany user' sql params limit =>
    if user' = user ∧ limit ≠ 0 then some (sql, params) else none
  | _ => none

end Engine

namespace Sqlite

open Lookup

variable {δ : Type}

namespace World

/-! ## What leaves the counts alone -/

/-- Every connection has the count that it had. -/
structure SameCounts (w w' : World δ) : Prop where
  changes : ∀ c, (w'.sessions c).changes = (w.sessions c).changes

section SameCounts

variable {w w' w'' : World δ}

theorem SameCounts.refl (w : World δ) : SameCounts w w := ⟨fun _ => rfl⟩

theorem SameCounts.trans (h : SameCounts w w') (h' : SameCounts w' w'') : SameCounts w w'' :=
  ⟨fun c => (h'.changes c).trans (h.changes c)⟩

theorem sameCounts_setDatabase (w : World δ) (c : Nat) (d : Database δ) :
    SameCounts w (w.setDatabase c d) := ⟨fun _ => rfl⟩

theorem sameCounts_setStage (w : World δ) (c : Nat) (s : Option (Stage δ)) :
    SameCounts w (w.setStage c s) := by
  refine ⟨fun c' => ?_⟩
  by_cases hc : c' = c
  · subst hc
    simp [setStage, setSession]
  · rw [sessions_setStage_of_ne hc]

theorem sameCounts_abandon (w : World δ) (c : Nat) : SameCounts w (w.abandon c) := by
  unfold abandon
  split
  · exact (sameCounts_setDatabase ..).trans (sameCounts_setStage ..)
  · exact sameCounts_setStage ..

theorem sameCounts_keep (w : World δ) (c : Nat) (x : δ) (isChanged : Bool) :
    SameCounts w (w.keep c x isChanged) := by
  unfold keep
  dsimp only
  split
  · exact sameCounts_setDatabase ..
  · exact (sameCounts_setDatabase ..).trans (sameCounts_setStage ..)

theorem sameCounts_begin (w : World δ) (c : Nat) (writes : Bool) :
    SameCounts w (w.begin c writes).2 := by
  unfold begin
  dsimp only
  split
  · exact sameCounts_setStage ..
  · exact .refl w
  · split
    · exact .refl w
    · split
      · exact (sameCounts_setStage ..).trans (sameCounts_keep ..)
      · exact sameCounts_keep ..

theorem sameCounts_commit (w : World δ) (c : Nat) : SameCounts w (w.commit c).2 := by
  unfold commit
  dsimp only
  split
  · exact .refl w
  · split
    · exact .refl w
    · exact (sameCounts_setDatabase ..).trans (sameCounts_setStage ..)
  · exact sameCounts_setStage ..

theorem sameCounts_rollback (w : World δ) (c : Nat) : SameCounts w (w.rollback c).2 := by
  unfold rollback
  split
  · exact .refl w
  · exact sameCounts_abandon w c

theorem sameCounts_read (w : World δ) (c : Nat) : SameCounts w (w.read c).2 := by
  unfold read
  dsimp only
  split
  · exact sameCounts_setStage ..
  · exact .refl w

/-- Only statements that change rows count. -/
theorem sameCounts_run (w : World δ) (c : Nat) {effect : Effect δ} (h : effect.isCounted = false) :
    SameCounts w (w.run c effect).2 := by
  cases effect with
  | begin writes => exact sameCounts_begin w c writes
  | commit => exact sameCounts_commit w c
  | rollback => exact sameCounts_rollback w c
  | give rows => exact .refl w
  | read rows => exact sameCounts_read w c
  | change isCounted apply =>
    obtain rfl : isCounted = false := h
    show SameCounts w (w.change c false apply).2
    unfold change
    dsimp only
    split
    · exact .refl w
    · split <;> exact sameCounts_keep ..

end SameCounts

/-! ## Views -/

theorem view_keep (w : World δ) (c : Nat) (x : δ) (isChanged : Bool) :
    (w.keep c x isChanged).view c = x := by
  unfold keep
  dsimp only
  cases hstage : w.stage c with
  | none =>
    have hnone : ∀ d, (w.setDatabase c d).stage c = none := fun _ => hstage
    rw [view, hnone]
    exact congrArg Database.committed (database_setDatabase ..)
  | some s => exact view_of_writing (stage_setStage ..)

theorem view_read (w : World δ) (c : Nat) : (w.read c).2.view c = w.view c := by
  unfold read
  dsimp only
  split
  · next hstage => rw [view_of_fresh hstage]; exact view_of_reading (stage_setStage ..)
  · rfl

/-- A change makes what the connection sees a new content, or fails and leaves it. -/
theorem change_cases (w : World δ) (c : Nat) (isCounted : Bool) (apply : δ → Result (Change δ)) :
    ∃ n, (isCounted = true → ((w.change c isCounted apply).2.sessions c).changes = n) ∧
      ((w.change c isCounted apply).2.view c = w.view c ∧ n = 0 ∨
        ∃ ch, apply (w.view c) = .ok ch ∧ (w.change c isCounted apply).2.view c = ch.content ∧
          n = ch.count) := by
  have hview (n : Nat) (w' : World δ) :
      (if isCounted then w'.setChanges c n else w').view c = w'.view c := by
    split
    · exact view_setChanges ..
    · rfl
  have hcount (n : Nat) (w' : World δ) (h : isCounted = true) :
      ((if isCounted then w'.setChanges c n else w').sessions c).changes = n := by
    rw [if_pos h, changes_setChanges]
  unfold change
  dsimp only
  cases hx : w.writable? c with
  | none => exact ⟨0, hcount 0 w, .inl ⟨hview 0 w, rfl⟩⟩
  | some x =>
    obtain rfl := eq_of_writable? hx
    dsimp only
    cases hch : apply (w.view c) >>= w.checked c with
    | error e => exact ⟨0, hcount 0 _, .inl ⟨(hview 0 _).trans (view_keep ..), rfl⟩⟩
    | ok ch =>
      obtain ⟨ch', happly, hchecked⟩ := exists_of_bind_eq_ok hch
      obtain rfl : ch' = ch := by
        unfold checked at hchecked
        split at hchecked
        · cases hchecked
        · exact Except.ok.inj hchecked
      exact ⟨ch'.count, hcount _ _, .inr ⟨ch', happly, (hview _ _).trans (view_keep ..), rfl⟩⟩

end World

/-! ## Statements -/

/-- Rows are counted as `diff` counts those by which two contents differ; a change that is not counted
changes no rows. -/
structure Language.Counts (lang : Language δ) (diff : δ → δ → Nat) : Prop where
  same : ∀ x, diff x x = 0
  change : ∀ sql x p, lang sql x = .ok p → ∀ args isCounted apply,
    p.effect args = .change isCounted apply → ∀ ch, apply x = .ok ch →
      diff x ch.content = if isCounted then ch.count else 0

namespace World

variable (lang : Language δ) (diff : δ → δ → Nat) (w : World δ) (c : Nat) (sql : String)
  (params : List Value)

/-- The statement is one that changes rows and counts them. -/
def counts : Bool :=
  match lang.meaning (w.view c) sql params with
  | .ok (_, effect) => effect.isCounted
  | .error _ => false

/-- How many rows the statement changes: those by which what its connection sees differs.  Beginning and
ending a transaction changes none. -/
def changed : Nat :=
  match lang.meaning (w.view c) sql params with
  | .ok (_, effect) =>
    if effect.isOnRows then diff (w.view c) ((w.run c effect).2.view c) else 0
  | .error _ => 0

variable {lang diff w c sql params} (hlang : lang.Counts diff)
include hlang

/-- What a change does to rows is what it counts, if it counts. -/
theorem diff_change {columns : List String} {isCounted : Bool} {apply : δ → Result (Change δ)}
    (hm : lang.meaning (w.view c) sql params = .ok (columns, .change isCounted apply)) :
    let w' := (w.change c isCounted apply).2
    if isCounted then (w'.sessions c).changes = diff (w.view c) (w'.view c)
    else diff (w.view c) (w'.view c) = 0 := by
  obtain ⟨p, args, hp, heffect⟩ := Language.exists_effect hm
  obtain ⟨n, hn, hcases⟩ := w.change_cases c isCounted apply
  have hdiff : diff (w.view c) ((w.change c isCounted apply).2.view c) =
      if isCounted then n else 0 := by
    rcases hcases with ⟨hview, rfl⟩ | ⟨ch, happly, hview, rfl⟩
    · rw [hview, hlang.same, ite_self]
    · rw [hview]
      exact hlang.change sql _ p hp args isCounted apply heffect ch happly
  cases isCounted with
  | true => exact (hn rfl).trans hdiff.symm
  | false => exact hdiff

/-- A statement that counts no rows changes none. -/
theorem changed_eq_zero (h : w.counts lang c sql params = false) :
    w.changed lang diff c sql params = 0 := by
  unfold counts at h
  unfold changed
  cases hm : lang.meaning (w.view c) sql params with
  | error x => rfl
  | ok m =>
    obtain ⟨columns, effect⟩ := m
    rw [hm] at h
    dsimp only at h ⊢
    split
    · cases effect with
      | give rows => exact hlang.same _
      | read rows =>
        show diff (w.view c) ((w.read c).2.view c) = 0
        rw [view_read, hlang.same]
      | change isCounted apply =>
        obtain rfl : isCounted = false := h
        exact diff_change hlang hm
      | _ => contradiction
    · rfl

/-- Running a statement leaves its count, or the count that was there. -/
theorem changes_run {columns : List String} {effect : Effect δ}
    (hm : lang.meaning (w.view c) sql params = .ok (columns, effect)) :
    ((w.run c effect).2.sessions c).changes =
      if w.counts lang c sql params then w.changed lang diff c sql params
      else (w.sessions c).changes := by
  have hcounts : w.counts lang c sql params = effect.isCounted := by rw [counts, hm]
  cases h : effect.isCounted with
  | false =>
    rw [hcounts, h]
    exact (w.sameCounts_run c h).changes c
  | true =>
    cases effect with
    | change isCounted apply =>
      rw [hcounts, if_pos h, changed, hm]
      obtain rfl : isCounted = true := h
      exact diff_change hlang hm
    | _ => cases h

theorem changes_execute :
    (((execute lang c sql params).on w).2.sessions c).changes =
      if w.counts lang c sql params then w.changed lang diff c sql params
      else (w.sessions c).changes := by
  rw [on_execute]
  cases hm : lang.meaning (w.view c) sql params with
  | error x =>
    have hcounts : w.counts lang c sql params = false := by rw [counts, hm]
    rw [hcounts]
    rfl
  | ok m =>
    obtain ⟨columns, effect⟩ := m
    rw [← changes_run hlang hm]
    dsimp only
    cases w.run c effect with
    | mk r w' => cases r <;> rfl

/-- A query that is run leaves its count, too. -/
theorem changes_fetch {limit : Option Nat} (hlimit : limit ≠ some 0) :
    (((fetch lang c sql params limit).on w).2.sessions c).changes =
      if w.counts lang c sql params then w.changed lang diff c sql params
      else (w.sessions c).changes := by
  rw [on_fetch]
  cases hm : lang.meaning (w.view c) sql params with
  | error x =>
    have hcounts : w.counts lang c sql params = false := by rw [counts, hm]
    rw [hcounts]
    rfl
  | ok m =>
    obtain ⟨columns, effect⟩ := m
    rw [← changes_run hlang hm]
    simp only [if_neg hlimit]
    cases w.run c effect with
    | mk r w' => cases r <;> rfl

omit hlang in
theorem sessions_fetch_zero :
    ((fetch lang c sql params (some 0)).on w).2.sessions = w.sessions := by
  rw [on_fetch]
  cases lang.meaning (w.view c) sql params with
  | error x => rfl
  | ok m => rfl

omit hlang in
/-- The count that a statement gives is the one that its connection then has. -/
theorem eq_changes_of_execute {n : Nat} (h : ((execute lang c sql params).on w).1 = .ok n) :
    n = (((execute lang c sql params).on w).2.sessions c).changes := by
  rw [on_execute] at h ⊢
  cases hm : lang.meaning (w.view c) sql params with
  | error x => rw [hm] at h; cases h
  | ok m =>
    obtain ⟨columns, effect⟩ := m
    rw [hm] at h
    dsimp only at h ⊢
    cases hrun : w.run c effect with
    | mk r w' =>
      rw [hrun] at h
      cases r with
      | error x => cases h
      | ok rows =>
        dsimp only at h ⊢
        split at h
        · exact (Except.ok.inj h).symm
        · cases h

end World

/-! ## Requests that are no statements -/

variable {lang : Language δ} {name : String} {config : PoolConfig} {e : Engine (World δ)}
  {who who' : Holder} {c : Nat}

/-- Giving a connection back or away counts nothing. -/
theorem sameCounts_letGo {tidy : Nat → Bool → World δ → Bool × World δ}
    (tidies : tidy = (vendor lang name config).giveBack ∨ tidy = (vendor lang name config).abandon)
    (e : Engine (World δ)) (who : Holder) : e.world.SameCounts (e.letGo tidy who).world := by
  cases hc : e.held? who with
  | none =>
    rw [Engine.letGo_of_not_held hc]
    exact .refl _
  | some c =>
    rw [Engine.world_letGo hc, tidy_snd tidies]
    exact World.sameCounts_abandon ..

theorem sameCounts_connection (e : Engine (World δ)) (who : Holder) :
    e.world.SameCounts ((Engine.connection (vendor lang name config) who).on e).2.world := by
  cases hn : e.current with
  | none =>
    rw [Engine.connection_of_not_isConnected _ _ hn]
    exact .refl _
  | some n =>
    rw [Engine.on_connection _ hn]
    exact sameCounts_letGo (.inr rfl) e who

theorem sameCounts_drop (e : Engine (World δ)) (who : Holder) :
    e.world.SameCounts (e.drop (vendor lang name config) who).world :=
  sameCounts_letGo (.inr rfl) e who

theorem sameCounts_done (e : Engine (World δ)) (who : Holder) :
    e.world.SameCounts ((Engine.done (vendor lang name config) who).on e).2.world := by
  rw [Engine.done_snd]
  exact sameCounts_letGo (.inl rfl) e who

theorem World.sameCounts_opened (w : World δ) (k : Nat) : w.SameCounts { w with opened := k } :=
  ⟨fun _ => rfl⟩

/-- A connection that is taken from the pool has the count that the last session has left. -/
theorem Sound.sameCounts_begin (he : Sound (vendor lang name config) e) (who : Holder) :
    e.world.SameCounts ((Engine.begin (vendor lang name config) who).on e).2.world := by
  rcases Engine.begin_cases (vendor lang name config) who e with ⟨-, x, hon⟩ | ⟨h, hh, hc⟩
  · rw [hon]
    exact .refl _
  · rw [Engine.on_begin_of_unheld _ hh hc]
    dsimp only
    rw [Engine.waited_eq]
    have htaken : Pool.Taken login.on who e.now (e.pools h.pool) e.world
        (Pool.take login.on who e.now (e.pools h.pool, e.world)) := he.orderly.taken hh hc
    show e.world.SameCounts (Pool.take login.on who e.now (e.pools h.pool, e.world)).2.2
    rcases world_taken htaken with hw | hw <;> rw [hw]
    · exact .refl _
    · exact World.sameCounts_opened ..

theorem sameCounts_connect (e : Engine (World δ)) :
    e.world.SameCounts ((Engine.connect (vendor lang name config)).on e).2.world := by
  have hstocked := Engine.stocked_connect (vendor lang name config) e
  rcases Engine.connect_cases (vendor lang name config) e with ⟨x, hon⟩ | ⟨-, r, p, w, hwarm, hon⟩
  · rw [hon]
    exact .refl _
  · rw [hwarm] at hstocked
    obtain ⟨k, hk⟩ := numbers_login.stocked hstocked
    obtain rfl : w = { e.world with opened := e.world.opened + k } := hk
    rw [hon]
    cases r with
    | error x => exact World.sameCounts_opened ..
    | ok _ => exact World.sameCounts_opened ..

/-- Counts outlast sessions: nothing changes them but statements. -/
theorem Sound.sameCounts_after (he : Sound (vendor lang name config) e) {op : Engine.Op}
    (hop : op.isStatement = false) :
    e.world.SameCounts (e.after (vendor lang name config) op).world := by
  cases op with
  | connect => exact sameCounts_connect e
  | disconnect =>
    show e.world.SameCounts (Engine.disconnect.on e).2.world
    cases hn : e.current with
    | none =>
      rw [Engine.disconnect_of_not_isConnected hn]
      exact .refl _
    | some n =>
      rw [Engine.on_disconnect hn]
      exact .refl _
  | connection user => exact sameCounts_connection e _
  | drop user => exact sameCounts_drop e _
  | begin user => exact he.sameCounts_begin _
  | done user => exact sameCounts_done e _
  | pass d => exact .refl _
  | execute | fetchAll | fetchMany | transaction => cases hop

/-! ## Requests of others -/

/-- A handle keeps its connection and the connection its count. -/
def Spared (v : Vendor (World δ)) (who : Holder) (c : Nat) (e e' : Engine (World δ)) : Prop :=
  Sound v e → e.held? who = some c →
    Sound v e' ∧ e'.held? who = some c ∧ (e'.world.sessions c).changes = (e.world.sessions c).changes

instance (v : Vendor (World δ)) (who : Holder) (c : Nat) :
    IsPreorder (Engine (World δ)) (Spared v who c) where
  refl _ he hc := ⟨he, hc, rfl⟩
  trans _ _ _ h h' he hc := by
    obtain ⟨he', hc', heq⟩ := h he hc
    obtain ⟨he'', hc'', heq'⟩ := h' he' hc'
    exact ⟨he'', hc'', heq'.trans heq⟩

theorem spared_of_unaware {α : Type} {a : Action (Engine (World δ)) α}
    (h : Unaware (vendor lang name config) who c α a)
    (hsame : Sound (vendor lang name config) e → e.held? who = some c →
      ((a.on e).2.world.sessions c).changes = (e.world.sessions c).changes) :
    Spared (vendor lang name config) who c e (a.on e).2 := by
  intro he hc
  obtain ⟨he', hc', -⟩ := h e he hc
  exact ⟨he', hc', hsame he hc⟩

theorem spared_execute (hwho : who' ≠ who) (sql : String) (params : List Value)
    (e : Engine (World δ)) : Spared (vendor lang name config) who c e
      ((Engine.execute (vendor lang name config) who' sql params).on e).2 := by
  refine spared_of_unaware (unaware_execute hwho sql params) fun he hc => ?_
  cases hc' : e.held? who' with
  | none => rw [Engine.execute_of_not_held _ _ _ _ hc']
  | some c' =>
    have hne : c ≠ c' := by
      rintro rfl
      exact hwho (he.eq_of_held hc' hc)
    rw [Engine.world_execute _ hc']
    exact congrArg Session.changes
      ((World.spares_execute lang c' sql params e.world).sessions c hne)

theorem spared_query (hwho : who' ≠ who) (sql : String) (params : List Value)
    (limit : Option Nat) (e : Engine (World δ)) : Spared (vendor lang name config) who c e
      ((Engine.query (vendor lang name config) who' sql params limit).on e).2 := by
  refine spared_of_unaware (unaware_query hwho sql params limit) fun he hc => ?_
  cases hc' : e.held? who' with
  | none => rw [Engine.on_query_of_not_held _ hc']
  | some c' =>
    have hne : c ≠ c' := by
      rintro rfl
      exact hwho (he.eq_of_held hc' hc)
    rw [Engine.world_query _ hc']
    exact congrArg Session.changes
      ((World.spares_fetch lang c' sql params limit e.world).sessions c hne)

theorem spared_transaction (hwho : .engine ≠ who) (t : Transaction) (e : Engine (World δ)) :
    Spared (vendor lang name config) who c e
      ((Engine.transaction (vendor lang name config) t).on e).2 :=
  Engine.within_transaction (P := Spared (vendor lang name config) who c)
    (fun e => spared_of_unaware (unaware_connection hwho) fun _ _ =>
      (sameCounts_connection e .engine).changes c)
    (fun _ => spared_of_unaware (unaware_begin hwho) fun he _ =>
      (he.sameCounts_begin .engine).changes c)
    (fun e => spared_of_unaware (unaware_done hwho) fun _ _ =>
      (sameCounts_done e .engine).changes c)
    (spared_execute hwho) (fun sql params => spared_query hwho sql params none)
    (fun e => spared_of_unaware (a := modify (Engine.drop (vendor lang name config) .engine))
      (unaware_drop hwho) fun _ _ => (sameCounts_drop e .engine).changes c) t e

/-- No request of others changes the count of a connection that a handle holds. -/
theorem Sound.changes_after_of_ne (he : Sound (vendor lang name config) e)
    (hc : e.held? who = some c) {op : Engine.Op} (hop : op.who? ≠ some who) :
    ((e.after (vendor lang name config) op).world.sessions c).changes =
      (e.world.sessions c).changes := by
  have hwho {who' : Holder} (h : op.who? = some who') : who' ≠ who := by
    rintro rfl
    exact hop h
  cases op with
  | execute user sql params => exact (spared_execute (hwho rfl) sql params e he hc).2.2
  | fetchAll user sql params => exact (spared_query (hwho rfl) sql params none e he hc).2.2
  | fetchMany user sql params limit =>
    exact (spared_query (hwho rfl) sql params (some limit) e he hc).2.2
  | transaction t => exact (spared_transaction (hwho rfl) t e he hc).2.2
  | _ => exact (he.sameCounts_after rfl).changes c

/-! ## Requests of a handle -/

variable (lang : Language δ) (diff : δ → δ → Nat) (user : String) (c : Nat)

/-- The count of a connection after a request, if it was `n` before: that of the statement, if the
request is the handle's and has an insertion or a deletion run. -/
def countAfter (w : World δ) (n : Nat) (op : Engine.Op) : Nat :=
  match op.statement? user with
  | some (sql, params) =>
    if w.counts lang c sql params then w.changed lang diff c sql params else n
  | none => n

/-- The count of a connection after requests: that of the last insertion or deletion. -/
def lastCount (v : Vendor (World δ)) : Engine (World δ) → Nat → List Engine.Op → Nat
  | _, n, [] => n
  | e, n, op :: ops =>
    lastCount v (e.after v op) (countAfter lang diff user c e.world n op) ops

variable {lang diff user c} (hlang : lang.Counts diff)
include hlang

/-- A request of a handle leaves the count of its statement, or the count that was there. -/
theorem Sound.changes_after (he : Sound (vendor lang name config) e)
    (hc : e.held? (.handle user) = some c) {op : Engine.Op} (hop : op.releases user = false) :
    ((e.after (vendor lang name config) op).world.sessions c).changes =
      countAfter lang diff user c e.world (e.world.sessions c).changes op := by
  by_cases hwho : op.who? = some (.handle user)
  · cases op with
    | execute user' sql params =>
      cases hwho
      rw [countAfter, Engine.Op.statement?, if_pos rfl]
      refine Eq.trans ?_ (World.changes_execute hlang)
      exact congrArg (fun w => (World.sessions w c).changes) (Engine.world_execute _ hc sql params)
    | fetchAll user' sql params =>
      cases hwho
      rw [countAfter, Engine.Op.statement?, if_pos rfl]
      refine Eq.trans ?_ (World.changes_fetch hlang (nofun : (none : Option Nat) ≠ some 0))
      exact congrArg (fun w => (World.sessions w c).changes) (Engine.world_query _ hc sql params none)
    | fetchMany user' sql params limit =>
      cases hwho
      have hworld := Engine.world_query (vendor lang name config) hc sql params (some limit)
      by_cases hlimit : limit = 0
      · subst hlimit
        rw [countAfter, Engine.Op.statement?, if_neg (by simp)]
        refine (congrArg (fun w => (World.sessions w c).changes) hworld).trans ?_
        exact congrArg (fun s => Session.changes (s c)) World.sessions_fetch_zero
      · rw [countAfter, Engine.Op.statement?, if_pos ⟨rfl, hlimit⟩]
        refine Eq.trans ?_ (World.changes_fetch hlang (by simpa using hlimit : some limit ≠ some 0))
        exact congrArg (fun w => (World.sessions w c).changes) hworld
    | begin user' =>
      cases hwho
      show (((Engine.begin (vendor lang name config) _).on e).2.world.sessions c).changes = _
      rw [Engine.on_begin_of_held _ hc]
      rfl
    | connection user' | drop user' | done user' =>
      cases hwho
      simp [Engine.Op.releases] at hop
    | connect | disconnect | transaction t | pass d => cases hwho
  · rw [he.changes_after_of_ne hc hwho]
    have hnone : op.statement? user = none := by
      unfold Engine.Op.statement?
      cases op <;> simp_all [Engine.Op.who?]
    rw [countAfter, hnone]

/-- The count of a connection is that of the last insertion or deletion, or the one that was there. -/
theorem Sound.changes_run (he : Sound (vendor lang name config) e)
    (hc : e.held? (.handle user) = some c) {ops : List Engine.Op}
    (hops : ∀ op ∈ ops, op.releases user = false) :
    ((e.run (vendor lang name config) ops).world.sessions c).changes =
        lastCount lang diff user c (vendor lang name config) e (e.world.sessions c).changes ops ∧
      (e.run (vendor lang name config) ops).held? (.handle user) = some c := by
  induction ops generalizing e with
  | nil => exact ⟨rfl, hc⟩
  | cons op ops ih =>
    obtain ⟨hop, hrest⟩ := List.forall_mem_cons.1 hops
    have hlater := he.reaches (Engine.reaches_after e op)
    have hih := ih hlater.sound (he.orderly.held?_after hc hop) hrest
    rwa [he.changes_after hlang hc hop] at hih

end Sqlite

end SqlKit
