import SqlKit.Sqlite.Store

/-!
# Sessions on databases

A statement on one connection spares the sessions on all the others, and all databases but its own.

    what a statement comes to                                          (on_execute, on_fetch)
    it spares the other sessions and databases                         (spares_execute, spares_fetch)
-/

namespace SqlKit.Sqlite

open Lookup

variable {δ : Type}

/-- What a text with parameters means for a content: the columns of its rows, and what it does. -/
def Language.meaning (lang : Language δ) (x : δ) (sql : String) (params : List Value) :
    Result (List String × Effect δ) := do
  let p ← lang sql x
  return (p.columns, ← p.bind params)

/-- What succeeds has got a result to go on with. -/
theorem exists_of_bind_eq_ok {α β : Type} {r : Result α} {f : α → Result β} {y : β}
    (h : r >>= f = .ok y) : ∃ x, r = .ok x ∧ f x = .ok y := by
  cases r with
  | error e => cases h
  | ok x => exact ⟨x, rfl, h⟩

theorem toOption_eq_some_iff {α : Type} {r : Result α} {a : α} : r.toOption = some a ↔ r = .ok a := by
  cases r <;> simp [Except.toOption]

/-- A text has a meaning if it is a statement and takes the parameters. -/
theorem Language.exists_prepared {lang : Language δ} {x : δ} {sql : String} {params : List Value}
    {columns : List String} {effect : Effect δ}
    (h : lang.meaning x sql params = .ok (columns, effect)) :
    ∃ p, lang sql x = .ok p ∧ p.columns = columns ∧ p.bind params = .ok effect := by
  obtain ⟨p, hp, h⟩ := exists_of_bind_eq_ok h
  obtain ⟨effect', hbind, h⟩ := exists_of_bind_eq_ok h
  cases h
  exact ⟨p, hp, rfl, hbind⟩

/-- Parameters that are taken are data, filled up with null. -/
theorem Prepared.exists_args {p : Prepared δ} {params : List Value} {effect : Effect δ}
    (h : p.bind params = .ok effect) : ∃ args, p.effect args = effect := by
  unfold bind at h
  split at h
  · cases h
  · exact ⟨_, Except.ok.inj h⟩

namespace World

/-! ## What a statement leaves as it is -/

/-- Nothing has changed but the session on a connection and its database. -/
structure Spares (c : Nat) (w w' : World δ) : Prop where
  place : w'.place = w.place
  opened : w'.opened = w.opened
  objection : w'.objection = w.objection
  sessions : ∀ c', c' ≠ c → w'.sessions c' = w.sessions c'
  databases : ∀ k, k ≠ w.key c → w'.databases k = w.databases k

section Spares

variable {c : Nat} {w w' w'' : World δ}

theorem Spares.refl (c : Nat) (w : World δ) : Spares c w w :=
  ⟨rfl, rfl, rfl, fun _ _ => rfl, fun _ _ => rfl⟩

theorem Spares.key_eq (h : Spares c w w') : w'.key c = w.key c := by
  unfold key
  rw [h.place]

theorem Spares.trans (h : Spares c w w') (h' : Spares c w' w'') : Spares c w w'' where
  place := h'.place.trans h.place
  opened := h'.opened.trans h.opened
  objection := h'.objection.trans h.objection
  sessions c' hc := (h'.sessions c' hc).trans (h.sessions c' hc)
  databases k hk := (h'.databases k (h.key_eq ▸ hk)).trans (h.databases k hk)

theorem Spares.stage_eq (h : Spares c w w') {c' : Nat} (hc : c' ≠ c) : w'.stage c' = w.stage c' :=
  congrArg Session.stage (h.sessions c' hc)

theorem spares_setDatabase (w : World δ) (c : Nat) (d : Database δ) :
    Spares c w (w.setDatabase c d) :=
  ⟨rfl, rfl, rfl, fun _ _ => rfl, fun _ hk => put_of_ne _ _ hk⟩

theorem spares_setSession (w : World δ) (c : Nat) (s : Session δ) : Spares c w (w.setSession c s) :=
  ⟨rfl, rfl, rfl, fun _ hc => put_of_ne _ _ hc, fun _ _ => rfl⟩

theorem spares_setStage (w : World δ) (c : Nat) (s : Option (Stage δ)) :
    Spares c w (w.setStage c s) := spares_setSession ..

theorem spares_setChanges (w : World δ) (c : Nat) (n : Nat) : Spares c w (w.setChanges c n) :=
  spares_setSession ..

theorem spares_abandon (w : World δ) (c : Nat) : Spares c w (w.abandon c) := by
  unfold abandon
  split
  · exact (spares_setDatabase ..).trans (spares_setStage ..)
  · exact spares_setStage ..

/-- A database whose committed content stays may be changed otherwise. -/
theorem committed_setDatabase (w : World δ) (c : Nat) {d : Database δ}
    (hd : d.committed = (w.database c).committed) (k : Nat) :
    ((w.setDatabase c d).databases k).committed = (w.databases k).committed := by
  by_cases hk : k = w.key c
  · subst hk
    rw [show (w.setDatabase c d).databases (w.key c) = d from put_self ..]
    exact hd
  · rw [(spares_setDatabase w c d).databases k hk]

/-- Abandoning a transaction writes nothing. -/
theorem committed_abandon (w : World δ) (c k : Nat) :
    ((w.abandon c).databases k).committed = (w.databases k).committed := by
  unfold abandon
  split
  · exact committed_setDatabase w c (d := { w.database c with writer := none }) rfl k
  · rfl

theorem spares_commit (w : World δ) (c : Nat) : Spares c w (w.commit c).2 := by
  unfold commit
  dsimp only
  split
  · exact .refl c w
  · split
    · exact .refl c w
    · exact (spares_setDatabase ..).trans (spares_setStage ..)
  · exact spares_setStage ..

theorem spares_rollback (w : World δ) (c : Nat) : Spares c w (w.rollback c).2 := by
  unfold rollback
  split
  · exact .refl c w
  · exact spares_abandon w c

theorem spares_read (w : World δ) (c : Nat) : Spares c w (w.read c).2 := by
  unfold read
  dsimp only
  split
  · exact spares_setStage ..
  · exact .refl c w

theorem spares_keep (w : World δ) (c : Nat) (x : δ) (isChanged : Bool) :
    Spares c w (w.keep c x isChanged) := by
  unfold keep
  dsimp only
  split
  · exact spares_setDatabase ..
  · exact (spares_setDatabase ..).trans (spares_setStage ..)

theorem spares_begin (w : World δ) (c : Nat) (writes : Bool) : Spares c w (w.begin c writes).2 := by
  unfold begin
  dsimp only
  split
  · exact spares_setStage ..
  · exact .refl c w
  · split
    · exact .refl c w
    · split
      · exact (spares_setStage ..).trans (spares_keep ..)
      · exact spares_keep ..

theorem spares_change (w : World δ) (c : Nat) (isCounted : Bool) (apply : δ → Result (Change δ)) :
    Spares c w (w.change c isCounted apply).2 := by
  have hcount (n : Nat) (w : World δ) :
      Spares c w (if isCounted then w.setChanges c n else w) := by
    split
    · exact spares_setChanges ..
    · exact .refl c w
  unfold change
  dsimp only
  split
  · exact hcount 0 w
  · split
    · exact (spares_keep ..).trans (hcount 0 _)
    · exact (spares_keep ..).trans (hcount _ _)

theorem spares_run (w : World δ) (c : Nat) (effect : Effect δ) : Spares c w (w.run c effect).2 := by
  cases effect with
  | begin writes => exact spares_begin w c writes
  | commit => exact spares_commit w c
  | rollback => exact spares_rollback w c
  | give rows => exact .refl c w
  | read rows => exact spares_read w c
  | change isCounted apply => exact spares_change w c isCounted apply

end Spares

/-! ## Statements -/

theorem on_execute (lang : Language δ) (c : Nat) (sql : String) (params : List Value)
    (w : World δ) :
    (execute lang c sql params).on w =
      match lang.meaning (w.view c) sql params with
      | .error x => (.error x, w)
      | .ok (_, effect) =>
        match w.run c effect with
        | (.error x, w') => (.error x, w')
        | (.ok rows, w') =>
          (if rows.isEmpty then .ok (w'.sessions c).changes
            else .error (.database "Execute returned results - did you mean to call query?"), w') := by
  have hprepare : (prepare lang c sql params).on w =
      (lang.meaning (w.view c) sql params, w) := rfl
  unfold execute
  rw [Action.on_bind, hprepare]
  cases lang.meaning (w.view c) sql params with
  | error x => rfl
  | ok m =>
    obtain ⟨columns, effect⟩ := m
    dsimp only
    rw [Action.on_bind]
    have hrun : (Action.of fun w => w.run c effect).on w = w.run c effect := rfl
    rw [hrun]
    cases w.run c effect with
    | mk r w' =>
      cases r with
      | error x => rfl
      | ok rows => cases hrows : rows.isEmpty <;> simp only [hrows] <;> rfl

/-- The first rows, if there is a limit. -/
def upTo (limit : Option Nat) (rows : List (List Datum)) : List (List Datum) :=
  match limit with
  | some n => rows.take n
  | none => rows

theorem on_fetch (lang : Language δ) (c : Nat) (sql : String) (params : List Value)
    (limit : Option Nat) (w : World δ) :
    (fetch lang c sql params limit).on w =
      match lang.meaning (w.view c) sql params with
      | .error x => (.error x, w)
      | .ok (columns, effect) =>
        if limit = some 0 then (.ok [], w)
        else match w.run c effect with
          | (.error x, w') => (.error x, w')
          | (.ok rows, w') =>
            ((upTo limit rows).mapM fun row => Row.ofLists? columns (row.map Datum.toValue), w') := by
  have hprepare : (prepare lang c sql params).on w =
      (lang.meaning (w.view c) sql params, w) := rfl
  unfold fetch
  rw [Action.on_bind, hprepare]
  cases lang.meaning (w.view c) sql params with
  | error x => rfl
  | ok m =>
    obtain ⟨columns, effect⟩ := m
    dsimp only
    by_cases hlimit : limit = some 0
    · simp only [if_pos hlimit]
      rfl
    · simp only [if_neg hlimit]
      rw [Action.on_bind]
      have hrun : (Action.of fun w => w.run c effect).on w = w.run c effect := rfl
      rw [hrun]
      cases w.run c effect with
      | mk r w' =>
        cases r with
        | error x => rfl
        | ok rows => exact Action.on_mapM_ofResult _ _ _

theorem spares_execute (lang : Language δ) (c : Nat) (sql : String) (params : List Value)
    (w : World δ) : Spares c w ((execute lang c sql params).on w).2 := by
  rw [on_execute]
  cases lang.meaning (w.view c) sql params with
  | error x => exact .refl c w
  | ok m =>
    obtain ⟨columns, effect⟩ := m
    have h := spares_run w c effect
    cases hx : w.run c effect with
    | mk r w' =>
      rw [hx] at h
      cases r <;> simpa [hx] using h

theorem spares_fetch (lang : Language δ) (c : Nat) (sql : String) (params : List Value)
    (limit : Option Nat) (w : World δ) : Spares c w ((fetch lang c sql params limit).on w).2 := by
  rw [on_fetch]
  cases lang.meaning (w.view c) sql params with
  | error x => exact .refl c w
  | ok m =>
    obtain ⟨columns, effect⟩ := m
    have h := spares_run w c effect
    dsimp only
    split
    · exact .refl c w
    · cases hx : w.run c effect with
      | mk r w' =>
        rw [hx] at h
        cases r <;> exact h

end World

end SqlKit.Sqlite
