import Mathlib.Data.List.Forall2
import SqlKit.Proofs.Engine.Working
import SqlKit.Proofs.Leading
import SqlKit.Proofs.Sqlite.Sessions
import SqlKit.Sqlite.Vendor

/-!
# Drafts

While a transaction runs, what its statements have made of the content is a draft that only its own
connection sees.  A commit makes the draft the content, a rollback forgets it; everything that can fail
on the way ends with a rollback.

    statements on rows go on with the draft, or fail and keep one      (Drafts.run)
    a body gives what its statements give one after another            (Drafts.performAll)
    a transaction is undone, or its draft is committed                 (ended_transact)
-/

namespace SqlKit

/-- Rows, not a number of rows. -/
def Outcome.isRows : Outcome → Bool
  | rows _ => true
  | affected _ => false

namespace Sqlite

variable {δ : Type}

/-! ## Statements by themselves -/

namespace Effect

/-- The statement neither begins nor ends a transaction. -/
def isOnRows : Effect δ → Bool
  | begin _ | commit | rollback => false
  | give _ | read _ | change .. => true

/-- The statement changes rows, and says how many. -/
def isCounted : Effect δ → Bool
  | change isCounted _ => isCounted
  | _ => false

/-- What the statement gives and makes of a content, by itself. -/
def on : Effect δ → δ → Result (Change δ)
  | begin _, x | commit, x | rollback, x => .ok { content := x }
  | give rows, x => .ok { content := x, rows }
  | read rows, x => .ok { content := x, rows := rows x }
  | change _ apply, x => apply x

end Effect

/-- What transactions rely on: the language knows the statements that begin and end them, and takes
nothing that starts like a statement on rows for one of these. -/
structure Language.Transacts (lang : Language δ) : Prop where
  begin : ∀ x, ∃ p, lang "BEGIN" x = .ok p ∧ ∀ args, p.effect args = .begin false
  commit : ∀ x, ∃ p, lang "COMMIT" x = .ok p ∧ ∀ args, p.effect args = .commit
  rollback : ∀ x, ∃ p, lang "ROLLBACK" x = .ok p ∧ ∀ args, p.effect args = .rollback
  rows : ∀ sql x p, IsRowText sql → lang sql x = .ok p → ∀ args, (p.effect args).isOnRows = true

/-- A statement by itself: what it gives, and what it makes of a content. -/
inductive Gives (lang : Language δ) (s : Script) (q : Compiled) (x : δ) : Outcome → δ → Prop where
  | rows {columns : List String} {effect : Effect δ} {ch : Change δ} {rows : List Row}
      (returns : s.last.returnsRows = true)
      (means : lang.meaning x q.sql q.params = .ok (columns, effect))
      (changes : effect.on x = .ok ch)
      (reads : (ch.rows.mapM fun row => Row.ofLists? columns (row.map Datum.toValue)) = .ok rows) :
      Gives lang s q x (.rows rows) ch.content
  | affected {columns : List String} {effect : Effect δ} {ch : Change δ} {n : Nat}
      (returns : s.last.returnsRows = false)
      (means : lang.meaning x q.sql q.params = .ok (columns, effect))
      (changes : effect.on x = .ok ch)
      (counts : effect.isCounted = true → n = ch.count) :
      Gives lang s q x (.affected n) ch.content

/-- Statements one after another, each by itself. -/
inductive Runs (lang : Language δ) : List (Script × Compiled) → δ → List Outcome → δ → Prop where
  | nil (x : δ) : Runs lang [] x [] x
  | cons {s : Script} {q : Compiled} {l : List (Script × Compiled)} {x y z : δ} {o : Outcome}
      {os : List Outcome} (first : Gives lang s q x o y) (rest : Runs lang l y os z) :
      Runs lang ((s, q) :: l) x (o :: os) z

theorem Gives.isRows_eq {lang : Language δ} {s : Script} {q : Compiled} {x y : δ} {o : Outcome}
    (h : Gives lang s q x o y) : o.isRows = s.last.returnsRows := by
  cases h with
  | rows returns => exact returns.symm
  | affected returns => exact returns.symm

/-- Statements give one outcome each: rows if that is what running them gives. -/
theorem Runs.forall₂ {lang : Language δ} {l : List (Script × Compiled)} {x y : δ} {os : List Outcome}
    (h : Runs lang l x os y) :
    List.Forall₂ (fun s o => o.isRows = s.last.returnsRows) (l.map (·.1)) os := by
  induction h with
  | nil x => exact .nil
  | cons first rest ih => exact .cons first.isRows_eq ih

/-- A statement that means something has an effect of its language. -/
theorem Language.exists_effect {lang : Language δ} {x : δ} {sql : String} {params : List Value}
    {columns : List String} {effect : Effect δ}
    (h : lang.meaning x sql params = .ok (columns, effect)) :
    ∃ p args, lang sql x = .ok p ∧ p.effect args = effect := by
  obtain ⟨p, hp, -, hbind⟩ := Language.exists_prepared h
  obtain ⟨args, hargs⟩ := Prepared.exists_args hbind
  exact ⟨p, args, hp, hargs⟩

theorem Language.Transacts.isOnRows {lang : Language δ} (h : lang.Transacts) {x : δ} {sql : String}
    (hsql : IsRowText sql) {params : List Value} {columns : List String} {effect : Effect δ}
    (hmeans : lang.meaning x sql params = .ok (columns, effect)) : effect.isOnRows = true := by
  obtain ⟨p, args, hp, rfl⟩ := Language.exists_effect hmeans
  exact h.rows sql x p hsql hp args

/-- A text without parameters that always has one effect means that effect. -/
theorem Language.meaning_of_effect {lang : Language δ} {x : δ} {sql : String} {effect : Effect δ}
    (h : ∃ p, lang sql x = .ok p ∧ ∀ args, p.effect args = effect) :
    ∃ columns, lang.meaning x sql [] = .ok (columns, effect) := by
  obtain ⟨p, hp, heffect⟩ := h
  refine ⟨p.columns, ?_⟩
  simp [meaning, hp, Prepared.bind, heffect, bind, Except.bind, pure, Except.pure]

namespace World

open Lookup

/-! ## Drafts -/

/-- In the middle of a transaction that a connection has begun: `x` is what it has made of the content
of its database, which is for the others what it was. -/
structure Drafts (w₀ : World δ) (c : Nat) (x : δ) (w : World δ) : Prop where
  spares : w₀.Spares c w
  committed : (w.database c).committed = (w₀.database c).committed
  active : w.isAutocommit c = false
  view : w.view c = x
  reading : ∀ n y, w.stage c = some (.reading n y) → y = (w.database c).committed

/-- A transaction has ended and `x` is the content of the database of its connection. -/
structure Ended (w₀ : World δ) (c : Nat) (x : δ) (w : World δ) : Prop where
  spares : w₀.Spares c w
  committed : (w.database c).committed = x
  stage : w.stage c = none

@[simp] theorem database_setStage (w : World δ) (c c' : Nat) (s : Option (Stage δ)) :
    (w.setStage c s).database c' = w.database c' := rfl

@[simp] theorem database_setDatabase (w : World δ) (c : Nat) (d : Database δ) :
    (w.setDatabase c d).database c = d := put_self ..

@[simp] theorem database_setChanges (w : World δ) (c c' n : Nat) :
    (w.setChanges c n).database c' = w.database c' := rfl

@[simp] theorem stage_setChanges (w : World δ) (c n : Nat) :
    (w.setChanges c n).stage c = w.stage c := by
  simp [setChanges, setSession, stage]

@[simp] theorem changes_setChanges (w : World δ) (c n : Nat) :
    ((w.setChanges c n).sessions c).changes = n := by
  simp [setChanges, setSession]

theorem view_of_fresh {w : World δ} {c : Nat} (h : w.stage c = some .fresh) :
    w.view c = (w.database c).committed := by
  rw [view, h]

theorem view_of_reading {w : World δ} {c n : Nat} {x : δ} (h : w.stage c = some (.reading n x)) :
    w.view c = x := by
  rw [view, h]

theorem view_of_writing {w : World δ} {c : Nat} {x : δ} {isChanged : Bool}
    (h : w.stage c = some (.writing x isChanged)) : w.view c = x := by
  rw [view, h]

@[simp] theorem view_setChanges (w : World δ) (c n : Nat) : (w.setChanges c n).view c = w.view c := by
  simp [view]

/-- A change starts from what its connection sees. -/
theorem eq_of_writable? {w : World δ} {c : Nat} {y : δ} (h : w.writable? c = some y) :
    y = w.view c := by
  unfold writable? at h
  unfold view
  cases hstage : w.stage c with
  | none =>
    simp only [hstage] at h ⊢
    exact (Option.some.inj (Option.ite_none_right_eq_some.1 h).2).symm
  | some s =>
    cases s with
    | writing z b =>
      simp only [hstage] at h ⊢
      exact (Option.some.inj h).symm
    | _ =>
      simp only [hstage] at h ⊢
      exact (Option.some.inj (Option.ite_none_right_eq_some.1 h).2).symm

variable {lang : Language δ} {w₀ w : World δ} {c : Nat} {x : δ}

/-- A transaction begins with the content as it is. -/
theorem drafts_begin (w : World δ) (c : Nat) :
    Drafts w c (w.database c).committed (w.setStage c (some .fresh)) where
  spares := spares_setStage ..
  committed := rfl
  active := by simp [isAutocommit]
  view := view_of_fresh (stage_setStage ..)
  reading n y hstage := by simp at hstage

theorem Drafts.setChanges (h : Drafts w₀ c x w) (n : Nat) : Drafts w₀ c x (w.setChanges c n) where
  spares := h.spares.trans (spares_setChanges ..)
  committed := h.committed
  active := by
    rw [isAutocommit, stage_setChanges]
    exact h.active
  view := (view_setChanges ..).trans h.view
  reading m y hstage := by
    rw [stage_setChanges] at hstage
    exact h.reading m y hstage

/-- Reading shows the draft. -/
theorem Drafts.read (h : Drafts w₀ c x w) : (w.read c).1 = x ∧ Drafts w₀ c x (w.read c).2 := by
  unfold World.read
  cases hstage : w.stage c with
  | none => exact ⟨h.view, h⟩
  | some s =>
    cases s with
    | fresh =>
      have hx : (w.database c).committed = x := (view_of_fresh hstage).symm.trans h.view
      refine ⟨hx, h.spares.trans (spares_setStage ..), h.committed, ?_, ?_, fun n y hreading => ?_⟩
      · simp [isAutocommit]
      · exact (view_of_reading (stage_setStage ..)).trans hx
      · rw [stage_setStage] at hreading
        cases hreading
        rfl
    | reading n y => exact ⟨h.view, h⟩
    | writing y b => exact ⟨h.view, h⟩

/-- What a change makes of the draft is the new draft. -/
theorem Drafts.keep (h : Drafts w₀ c x w) (y : δ) (isChanged : Bool) :
    Drafts w₀ c y (w.keep c y isChanged) := by
  have hspares := h.spares.trans (spares_keep w c y isChanged)
  revert hspares
  unfold World.keep
  cases hstage : w.stage c with
  | none =>
    have hactive := h.active
    rw [isAutocommit, hstage] at hactive
    cases hactive
  | some s =>
    intro hspares
    refine ⟨hspares, ?_, ?_, ?_, fun n z hreading => ?_⟩
    · simpa using h.committed
    · simp [isAutocommit]
    · exact view_of_writing (stage_setStage ..)
    · simp at hreading

theorem Drafts.change (h : Drafts w₀ c x w) (isCounted : Bool) (apply : δ → Result (Change δ)) :
    match w.change c isCounted apply with
    | (.error _, w') => Drafts w₀ c x w'
    | (.ok rows, w') => ∃ ch, apply x = .ok ch ∧ ch.rows = rows ∧ Drafts w₀ c ch.content w' ∧
        (isCounted = true → (w'.sessions c).changes = ch.count) := by
  have hcount {y : δ} {w' : World δ} (n : Nat) (h' : Drafts w₀ c y w') :
      Drafts w₀ c y (if isCounted then w'.setChanges c n else w') := by
    split
    · exact h'.setChanges n
    · exact h'
  -- Within a transaction no objection is raised yet.
  have hchecked (y : δ) : apply y >>= w.checked c = apply y := by
    cases apply y with
    | error e => rfl
    | ok ch =>
      show w.checked c ch = .ok ch
      rw [checked, h.active]
  unfold World.change
  dsimp only
  cases hy : w.writable? c with
  | none => exact hcount 0 h
  | some y =>
    obtain rfl : y = x := (eq_of_writable? hy).trans h.view
    dsimp only
    rw [hchecked]
    cases apply y with
    | error e => exact hcount 0 (h.keep y false)
    | ok ch =>
      refine ⟨ch, rfl, rfl, hcount ch.count (h.keep ch.content ch.isWritten), fun hcounted => ?_⟩
      rw [if_pos hcounted, changes_setChanges]

/-- A statement on rows does to the draft what it does by itself, or fails and leaves the draft. -/
theorem Drafts.run (h : Drafts w₀ c x w) {effect : Effect δ} (hrows : effect.isOnRows = true) :
    match w.run c effect with
    | (.error _, w') => Drafts w₀ c x w'
    | (.ok rows, w') => ∃ ch, effect.on x = .ok ch ∧ ch.rows = rows ∧ Drafts w₀ c ch.content w' ∧
        (effect.isCounted = true → (w'.sessions c).changes = ch.count) := by
  cases effect with
  | give rows => exact ⟨_, rfl, rfl, h, fun hcounted => nomatch hcounted⟩
  | read rows =>
    obtain ⟨hx, h'⟩ := h.read
    exact ⟨_, rfl, congrArg rows hx.symm, h', fun hcounted => nomatch hcounted⟩
  | change isCounted apply => exact h.change isCounted apply
  | begin writes => cases hrows
  | commit => cases hrows
  | rollback => cases hrows

/-! ## Statements of a body -/

theorem Drafts.execute (h : Drafts w₀ c x w) (hlang : lang.Transacts) {sql : String}
    (hsql : IsRowText sql) (params : List Value) :
    match (World.execute lang c sql params).on w with
    | (.error _, w') => ∃ y, Drafts w₀ c y w'
    | (.ok n, w') => ∃ columns effect ch, lang.meaning x sql params = .ok (columns, effect) ∧
        effect.on x = .ok ch ∧ Drafts w₀ c ch.content w' ∧
        (effect.isCounted = true → n = ch.count) := by
  rw [on_execute, h.view]
  cases hmeans : lang.meaning x sql params with
  | error e => exact ⟨x, h⟩
  | ok m =>
    obtain ⟨columns, effect⟩ := m
    have hrun := h.run (hlang.isOnRows hsql hmeans)
    dsimp only
    cases hx : w.run c effect with
    | mk r w' =>
      rw [hx] at hrun
      cases r with
      | error e => exact ⟨x, hrun⟩
      | ok rows =>
        obtain ⟨ch, hch, rfl, h', hcount⟩ := hrun
        dsimp only
        by_cases hempty : ch.rows.isEmpty = true
        · rw [if_pos hempty]
          exact ⟨columns, effect, ch, rfl, hch, h', hcount⟩
        · rw [if_neg hempty]
          exact ⟨_, h'⟩

theorem Drafts.fetch (h : Drafts w₀ c x w) (hlang : lang.Transacts) {sql : String}
    (hsql : IsRowText sql) (params : List Value) :
    match (World.fetch lang c sql params none).on w with
    | (.error _, w') => ∃ y, Drafts w₀ c y w'
    | (.ok rows, w') => ∃ columns effect ch, lang.meaning x sql params = .ok (columns, effect) ∧
        effect.on x = .ok ch ∧ Drafts w₀ c ch.content w' ∧
        (ch.rows.mapM fun row => Row.ofLists? columns (row.map Datum.toValue)) = .ok rows := by
  rw [on_fetch, h.view]
  cases hmeans : lang.meaning x sql params with
  | error e => exact ⟨x, h⟩
  | ok m =>
    obtain ⟨columns, effect⟩ := m
    have hrun := h.run (hlang.isOnRows hsql hmeans)
    dsimp only
    rw [if_neg (by simp)]
    cases hx : w.run c effect with
    | mk r w' =>
      rw [hx] at hrun
      cases r with
      | error e => exact ⟨x, hrun⟩
      | ok rows =>
        obtain ⟨ch, hch, rfl, h', -⟩ := hrun
        dsimp only [upTo]
        cases hrows : ch.rows.mapM fun row => Row.ofLists? columns (row.map Datum.toValue) with
        | error e => exact ⟨_, h'⟩
        | ok rows => exact ⟨columns, effect, ch, rfl, hch, h', hrows⟩

variable (name : String) (config : PoolConfig)

theorem Drafts.perform (h : Drafts w₀ c x w) (hlang : lang.Transacts) (s : Script) {q : Compiled}
    (hq : IsRowText q.sql) :
    match (((vendor lang name config).bare c).perform s q).on w with
    | (.error _, w') => ∃ y, Drafts w₀ c y w'
    | (.ok o, w') => ∃ y, Gives lang s q x o y ∧ Drafts w₀ c y w' := by
  unfold Connection.perform
  cases hreturns : s.last.returnsRows with
  | true =>
    have hfetch := h.fetch hlang hq q.params
    rw [if_pos rfl, ← bind_pure_comp, Action.on_bind]
    cases hx : (World.fetch lang c q.sql q.params none).on w with
    | mk r w' =>
      rw [hx] at hfetch
      rw [show (((vendor lang name config).bare c).fetch q).on w = (r, w') from hx]
      cases r with
      | error e => exact hfetch
      | ok rows =>
        obtain ⟨columns, effect, ch, hmeans, hch, h', hrows⟩ := hfetch
        exact ⟨ch.content, .rows hreturns hmeans hch hrows, h'⟩
  | false =>
    have hexecute := h.execute hlang hq q.params
    rw [if_neg (by simp), ← bind_pure_comp, Action.on_bind]
    cases hx : (World.execute lang c q.sql q.params).on w with
    | mk r w' =>
      rw [hx] at hexecute
      rw [show (((vendor lang name config).bare c).run q).on w = (r, w') from hx]
      cases r with
      | error e => exact hexecute
      | ok n =>
        obtain ⟨columns, effect, ch, hmeans, hch, h', hcount⟩ := hexecute
        exact ⟨ch.content, .affected hreturns hmeans hch hcount, h'⟩

/-- The statements of a body go on with the draft one after another; the first that fails leaves a
draft. -/
theorem Drafts.performAll (h : Drafts w₀ c x w) (hlang : lang.Transacts)
    {l : List (Script × Compiled)} (hl : ∀ p ∈ l, IsRowText p.2.sql) :
    match (((vendor lang name config).bare c).performAll l).on w with
    | (.error _, w') => ∃ y, Drafts w₀ c y w'
    | (.ok os, w') => ∃ y, Runs lang l x os y ∧ Drafts w₀ c y w' := by
  induction l generalizing x w with
  | nil => exact ⟨x, .nil x, h⟩
  | cons p l ih =>
    obtain ⟨s, q⟩ := p
    have hfirst := h.perform name config hlang s (hl (s, q) (by simp))
    rw [Connection.performAll, Action.on_bind]
    cases hx : (((vendor lang name config).bare c).perform s q).on w with
    | mk r w₁ =>
      rw [hx] at hfirst
      cases r with
      | error e => exact hfirst
      | ok o =>
        obtain ⟨y, hgives, h'⟩ := hfirst
        have hrest := ih h' fun p hp => hl p (by simp [hp])
        dsimp only
        rw [Action.on_bind]
        cases hy : (((vendor lang name config).bare c).performAll l).on w₁ with
        | mk r w₂ =>
          rw [hy] at hrest
          cases r with
          | error e => exact hrest
          | ok os =>
            obtain ⟨z, hruns, h''⟩ := hrest
            exact ⟨z, .cons hgives hruns, h''⟩

/-! ## Beginnings and ends -/

theorem on_begin (hlang : lang.Transacts) (h : w.stage c = none) :
    (World.execute lang c "BEGIN" []).on w =
      (.ok (w.sessions c).changes, w.setStage c (some .fresh)) := by
  obtain ⟨columns, hmeans⟩ := Language.meaning_of_effect (hlang.begin (w.view c))
  rw [on_execute, hmeans]
  simp [World.run, World.begin, isAutocommit, h, Except.map, setStage, setSession]

/-- A rollback forgets the draft. -/
theorem Drafts.rollback (h : Drafts w₀ c x w) (hlang : lang.Transacts) :
    ∃ n, (World.execute lang c "ROLLBACK" []).on w = (.ok n, w.abandon c) ∧
      Ended w₀ c (w₀.database c).committed (w.abandon c) := by
  obtain ⟨columns, hmeans⟩ := Language.meaning_of_effect (hlang.rollback (w.view c))
  refine ⟨((w.abandon c).sessions c).changes, ?_, h.spares.trans (spares_abandon w c), ?_, ?_⟩
  · rw [on_execute, hmeans]
    simp [World.run, World.rollback, h.active, Except.map]
  · rw [← h.committed]
    unfold abandon
    split <;> simp
  · exact Option.isNone_iff_eq_none.1 (isAutocommit_abandon w c)

theorem Drafts.ended_commit (h : Drafts w₀ c x w) :
    match w.commit c with
    | (.error _, w') => w' = w
    | (.ok _, w') => Ended w₀ c x w' := by
  have hspares := h.spares.trans (spares_commit w c)
  have hseen : w.view c = (w.database c).committed → Ended w₀ c x (w.setStage c none) := fun hx =>
    ⟨h.spares.trans (spares_setStage ..), hx.symm.trans h.view, stage_setStage ..⟩
  revert hspares
  unfold World.commit
  dsimp only
  cases hstage : w.stage c with
  | none => exact fun _ => rfl
  | some s =>
    intro hspares
    cases s with
    | fresh => exact hseen (view_of_fresh hstage)
    | reading n y => exact hseen ((view_of_reading hstage).trans (h.reading n y hstage))
    | writing y b =>
      obtain rfl : y = x := (view_of_writing hstage).symm.trans h.view
      dsimp only at hspares ⊢
      cases hobjection : w.objection y with
      | some e => rfl
      | none =>
        rw [hobjection] at hspares
        exact ⟨hspares, by simp, stage_setStage ..⟩

/-- A commit makes the draft the content, or fails and leaves the draft. -/
theorem Drafts.commit (h : Drafts w₀ c x w) (hlang : lang.Transacts) :
    match (World.execute lang c "COMMIT" []).on w with
    | (.error _, w') => Drafts w₀ c x w'
    | (.ok _, w') => Ended w₀ c x w' := by
  obtain ⟨columns, hmeans⟩ := Language.meaning_of_effect (hlang.commit (w.view c))
  have hended := h.ended_commit
  rw [on_execute, hmeans]
  cases hx : w.commit c with
  | mk r w' =>
    rw [hx] at hended
    cases r with
    | error e =>
      obtain rfl := hended
      simpa [World.run, hx, Except.map] using h
    | ok _ => simpa [World.run, hx, Except.map] using hended

/-- Rolling back whatever has happened. -/
theorem Drafts.rollBack (h : Drafts w₀ c x w) (hlang : lang.Transacts) :
    ((vendor lang name config).bare c).rollBack.on w = (.ok (), w.abandon c) ∧
      Ended w₀ c (w₀.database c).committed (w.abandon c) := by
  obtain ⟨n, hback, hended⟩ := h.rollback hlang
  refine ⟨?_, hended⟩
  unfold Connection.rollBack
  rw [Action.on_bind, Action.on_attempt]
  rw [show ((vendor lang name config).bare c).execute "ROLLBACK" [] =
    World.execute lang c "ROLLBACK" [] from rfl, hback]
  rfl

/-- The content that a transaction leaves: what it has made of it, if it is to be committed. -/
def kept (ending : Ending) (before draft : δ) : δ :=
  match ending with
  | .commit => draft
  | .rollback => before

/-- A transaction ends as it is to end, or fails and is rolled back. -/
theorem Drafts.finish (h : Drafts w₀ c x w) (hlang : lang.Transacts) (ending : Ending) :
    match (((vendor lang name config).bare c).finish ending).on w with
    | (.error _, w') => Ended w₀ c (w₀.database c).committed w'
    | (.ok _, w') => Ended w₀ c (kept ending (w₀.database c).committed x) w' := by
  cases ending with
  | rollback =>
    obtain ⟨n, hback, hended⟩ := h.rollback hlang
    have hon : (((vendor lang name config).bare c).execute "ROLLBACK" []).on w = _ := hback
    rw [Connection.finish, Action.on_bind, hon]
    exact hended
  | commit =>
    have hcommit := h.commit hlang
    rw [Connection.finish, Action.on_bind]
    cases hx : (((vendor lang name config).bare c).execute "COMMIT" []).on w with
    | mk r w' =>
      rw [show (World.execute lang c "COMMIT" []).on w = (r, w') from hx] at hcommit
      cases r with
      | error e =>
        obtain ⟨hback, hended⟩ := Drafts.rollBack name config hcommit hlang
        rw [Connection.orRollback_of_error _ hx hback]
        exact hended
      | ok n =>
        rw [Connection.orRollback_of_ok _ hx]
        exact hcommit

/-- **Transactions are atomic.**  A transaction on a connection outside of one fails and leaves the
content as it was, or it ends as it was to end: rolled back, the content is as it was; committed, the
content is what the statements of the body make of it one after another. -/
theorem ended_transact (hlang : lang.Transacts) {t : Transaction} (ht : ∀ s ∈ t.body, s.IsOnRows)
    (h : w.stage c = none) :
    match (((vendor lang name config).bare c).transact t).on w with
    | (.error _, w') => Ended w c (w.database c).committed w'
    | (.ok os, w') => ∃ compiled x, t.statements = .ok compiled ∧
        Runs lang (t.body.zip compiled) (w.database c).committed os x ∧
        Ended w c (kept t.ending (w.database c).committed x) w' := by
  have hheld : (((vendor lang name config).bare c).transact t).on w =
      (((vendor lang name config).bare c).transactHeld t).on w := by
    rw [Connection.transact_eq]
    rfl
  rw [hheld, Connection.transactHeld, Action.on_bind, Action.on_ofResult]
  cases hstatements : t.statements with
  | error e => exact ⟨.refl c w, rfl, h⟩
  | ok compiled =>
    have hbegin : (((vendor lang name config).bare c).execute "BEGIN" []).on w = _ := on_begin hlang h
    have hbody := (drafts_begin w c).performAll name config hlang
      (Transaction.isRowText_statements ht hstatements)
    dsimp only
    rw [Action.on_bind, hbegin]
    dsimp only
    rw [Action.on_bind]
    cases hperform : (((vendor lang name config).bare c).performAll (t.body.zip compiled)).on
        (w.setStage c (some .fresh)) with
    | mk r w' =>
      rw [hperform] at hbody
      cases r with
      | error e =>
        obtain ⟨y, hy⟩ := hbody
        obtain ⟨hback, hended⟩ := hy.rollBack name config hlang
        rw [Connection.orRollback_of_error _ hperform hback]
        exact hended
      | ok os =>
        obtain ⟨x, hruns, hx⟩ := hbody
        rw [Connection.orRollback_of_ok _ hperform]
        dsimp only
        have hend := hx.finish name config hlang t.ending
        rw [Action.on_bind]
        cases hfinish : (((vendor lang name config).bare c).finish t.ending).on w' with
        | mk r w'' =>
          rw [hfinish] at hend
          cases r with
          | error e => exact hend
          | ok _ => exact ⟨compiled, x, rfl, hruns, hend⟩

end World

end Sqlite

end SqlKit
