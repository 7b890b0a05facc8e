import Mathlib.Data.List.Basic
import SqlKit.Query.Builder
import SqlKit.Query.Transaction
import SqlKit.Proofs.Writing

/-!
# Two ways to compile a transaction

A transaction is compiled as one script, where a single compiler goes through all statements, or
statement by statement, each with a compiler of its own.  The texts and parameters are the same but
for the numbers of the placeholders, which run on in the script.  For this the statements that a
builder has put aside have to stand alone: what is put aside by one of them would be lost.

    b.IsFlat → (b.run calls).IsFlat                                    (Builder.isFlat_run)
    b.IsFlat → b.settled.parts = b.statements, each on its own         (Builder.parts_settled)
    build and statements of what builders were pushed                  (Transaction.build_run)
-/

namespace SqlKit

/-! ## Statements put aside -/

/-- The statements before the last stand alone. -/
def Script.IsFlat (s : Script) : Prop := ∀ c ∈ s.chain, c.chain = []

/-- Scripts without chains are their last statements. -/
theorem Script.map_last_of_isFlat {s : Script} (h : s.IsFlat) :
    (s.chain.map Script.last).map .ofStatement = s.chain := by
  rw [List.map_map]
  conv_rhs => rw [← List.map_id s.chain]
  refine List.map_congr_left fun c hc => ?_
  obtain ⟨chain, last⟩ := c
  obtain rfl : chain = [] := h _ hc
  rfl

namespace Builder

variable {b b' : Builder}

/-- The statements put aside, and the one under way with the sources it will be compiled with. -/
def statements (b : Builder) : List Statement := b.script.chain.map Script.last ++ [b.settled.last]

theorem parts_settled (h : b.script.IsFlat) : b.settled.parts = b.statements.map .ofStatement := by
  have hchain : b.settled.chain = b.script.chain := b.chain_settle
  rw [Script.parts, hchain, statements, List.map_append, Script.map_last_of_isFlat h]
  rfl

/-- From one builder to the next, at most one statement is put aside, and it stands alone. -/
def PutsAside (b b' : Builder) : Prop :=
  b'.script.chain = b.script.chain ∨
    ∃ s, b'.script.chain = b.script.chain ++ [Script.ofStatement s]

theorem PutsAside.isFlat (h : b.PutsAside b') (hb : b.script.IsFlat) : b'.script.IsFlat := by
  rcases h with h | ⟨s, h⟩
  · intro c hc
    exact hb c (h ▸ hc)
  · intro c hc
    rw [h, List.mem_append, List.mem_singleton] at hc
    rcases hc with hc | rfl
    · exact hb c hc
    · rfl

/-! Calls that keep to the statement under way. -/

@[simp] theorem chain_modify (b : Builder) (f : Statement → Statement) :
    (b.modify f).script.chain = b.script.chain := rfl

@[simp] theorem chain_step (b : Builder) (c : Clause) :
    (b.step c).script.chain = b.script.chain := rfl

@[simp] theorem chain_imply (b : Builder) (ts : List Table) :
    (b.imply ts).script.chain = b.script.chain := rfl

@[simp] theorem chain_dropImplied (b : Builder) : b.dropImplied.script.chain = b.script.chain := by
  unfold dropImplied
  split <;> rfl

attribute [simp] chain_settle

/-- A check that passes hands the builder on. -/
theorem eq_of_checked (h : b.checked = .ok b') : b' = b := by
  unfold checked at h
  cases hc : b.check with
  | error e =>
    rw [hc] at h
    contradiction
  | ok u =>
    rw [hc] at h
    exact (Except.ok.inj h).symm

theorem chain_addSources {ss : List Source} (h : b.addSources ss = .ok b') :
    b'.script.chain = b.script.chain := by
  obtain ⟨-, -, h⟩ := Result.ok_of_bind h
  split at h
  · contradiction
  · simp [eq_of_checked h]

theorem chain_on {p : Predicate} (h : b.on p = .ok b') : b'.script.chain = b.script.chain := by
  obtain ⟨-, -, h⟩ := Result.ok_of_bind h
  obtain ⟨c, -, h⟩ := Result.ok_of_bind h
  split at h
  · contradiction
  · split at h
    · contradiction
    · simp [eq_of_checked h]

theorem chain_restrict {clause : Clause} {p : Predicate} (h : b.restrict clause p = .ok b') :
    b'.script.chain = b.script.chain := by
  obtain ⟨-, -, h⟩ := Result.ok_of_bind h
  obtain ⟨c, -, h⟩ := Result.ok_of_bind h
  simp [eq_of_checked h]

theorem chain_values {rows : List (List Value)} (h : b.values rows = .ok b') :
    b'.script.chain = b.script.chain := by
  obtain ⟨-, -, h⟩ := Result.ok_of_bind h
  split at h
  · contradiction
  · split at h
    · contradiction
    · dsimp only at h
      split at h
      · contradiction
      · simp [eq_of_checked h]

theorem chain_insertFrom {q : Statement} (h : b.insertFrom q = .ok b') :
    b'.script.chain = b.script.chain := by
  obtain ⟨-, -, h⟩ := Result.ok_of_bind h
  split at h
  · contradiction
  · simp [eq_of_checked h]

theorem chain_onConflict {c : OnConflict} (h : b.onConflict c = .ok b') :
    b'.script.chain = b.script.chain := by
  obtain ⟨-, -, h⟩ := Result.ok_of_bind h
  split at h
  · contradiction
  · obtain rfl := Except.ok.inj h
    rfl

theorem chain_set {as : List Assignment} (h : b.set as = .ok b') :
    b'.script.chain = b.script.chain := by
  obtain ⟨-, -, h⟩ := Result.ok_of_bind h
  split at h
  · contradiction
  · split at h
    · contradiction
    · simp [eq_of_checked h]

/-! Calls that open a statement. -/

/-- A statement under way is put aside as it is settled. -/
theorem chain_openStatement (b : Builder) (c : Clause) (kind : StatementKind) :
    (b.openStatement c kind).script.chain =
      b.script.chain ++
        if b.statement.isDirty then [Script.ofStatement (b.step c).settled.last] else [] := by
  have hdirty : (b.step c).statement.isDirty = b.statement.isDirty := rfl
  simp only [openStatement, hdirty, chain_modify]
  by_cases h : b.statement.isDirty = true
  · simp [h, Script.archive, settled]
  · simp [h]

theorem putsAside_openStatement (b : Builder) (c : Clause) (kind : StatementKind) :
    b.PutsAside (b.openStatement c kind) := by
  unfold PutsAside
  rw [chain_openStatement]
  by_cases h : b.statement.isDirty = true
  · rw [if_pos h]
    exact Or.inr ⟨_, rfl⟩
  · rw [if_neg h]
    exact Or.inl (List.append_nil _)

/-- A call that succeeds leaves the statements that were put aside as they were. -/
theorem putsAside_apply {s : Step} (h : b.apply s = .ok b') : b.PutsAside b' := by
  cases s with
  | addSources ss => exact Or.inl (chain_addSources h)
  | on p => exact Or.inl (chain_on h)
  | «where» p => exact Or.inl (chain_restrict h)
  | and p => exact Or.inl (chain_restrict h)
  | values rows => exact Or.inl (chain_values h)
  | insertFrom q => exact Or.inl (chain_insertFrom h)
  | onConflict c => exact Or.inl (chain_onConflict h)
  | set as => exact Or.inl (chain_set h)
  | union => contradiction
  | upsert => contradiction
  | without => contradiction
  | select items =>
    obtain rfl := Except.ok.inj h
    exact b.putsAside_openStatement .select .select
  | selectDistinct items =>
    obtain rfl := Except.ok.inj h
    exact b.putsAside_openStatement .select .select
  | insertInto table columns =>
    obtain rfl := Except.ok.inj h
    exact b.putsAside_openStatement .insert .insert
  | update table =>
    obtain rfl := Except.ok.inj h
    exact b.putsAside_openStatement .update .update
  | deleteFrom source =>
    obtain rfl := Except.ok.inj h
    exact b.putsAside_openStatement .delete .delete
  | delete =>
    obtain rfl := Except.ok.inj h
    exact b.putsAside_openStatement .delete .delete
  | addSource source =>
    obtain rfl := Except.ok.inj h
    exact Or.inl (by simp [addSource])
  | _ =>
    obtain rfl := Except.ok.inj h
    exact Or.inl rfl

theorem isFlat_advance (hb : b.script.IsFlat) (s : Step) : (b.advance s).script.IsFlat := by
  unfold advance
  cases h : b.apply s with
  | error e => exact hb
  | ok b' => exact (putsAside_apply h).isFlat hb

/-- Whatever is called, the statements put aside stand alone. -/
theorem isFlat_run (hb : b.script.IsFlat) (steps : List Step) : (b.run steps).script.IsFlat := by
  induction steps generalizing b with
  | nil => exact hb
  | cons s steps ih => exact ih (isFlat_advance hb s)

theorem isFlat_new (d : Dialect) : (new d).script.IsFlat := by
  intro c hc
  contradiction

end Builder

/-! ## Statements on their own -/

namespace Statement

/-- A statement in a dialect, numbered on behind `k` parameters. -/
def numbered (d : Dialect) (k : Nat) (s : Statement) : Compiled :=
  ⟨weave (s.draft.texts d) (d.placeholders k s.draft.params.length), s.draft.params⟩

/-- The texts of statements in a row, the first of them behind `k` parameters. -/
def numberedFrom (d : Dialect) : Nat → List Statement → List String
  | _, [] => []
  | k, s :: ss => (s.numbered d k).sql :: numberedFrom d (k + s.draft.params.length) ss

theorem spelledFrom_eq_numberedFrom (d : Dialect) (k : Nat) (ss : List Statement) :
    Draft.spelledFrom d (Piece.placeholders d) (k + 1) (ss.map draft) = numberedFrom d k ss := by
  induction ss generalizing k with
  | nil => rfl
  | cons s ss ih =>
    have hk : k + 1 + s.draft.params.length = k + s.draft.params.length + 1 := by omega
    rw [List.map_cons, Draft.spelledFrom, Draft.spelled_placeholders, hk, ih, numberedFrom, numbered]

/-- Where placeholders have no numbers, it is all the same what was counted before. -/
theorem numberedFrom_of_not_isNumbered {d : Dialect} (h : d.isNumbered = false) (k : Nat)
    (ss : List Statement) : numberedFrom d k ss = ss.map fun s => (s.numbered d 0).sql := by
  have hplaceholders : ∀ k n, d.placeholders k n = d.placeholders 0 n := by
    intro k n
    exact List.map_congr_left fun i _ => Dialect.placeholder_eq_of_not_isNumbered h _ _
  induction ss generalizing k with
  | nil => rfl
  | cons s ss ih => rw [numberedFrom, List.map_cons, ih, numbered, numbered, hplaceholders k]

example :
    let delete : Statement :=
      { kind := .delete, sources := [.table (.named "t")],
        wheres := [.compare (.named "id") .eq (.value (.int 1))] }
    numberedFrom .postgres 0 [delete, delete] =
      ["DELETE FROM \"t\" WHERE \"id\" = $1", "DELETE FROM \"t\" WHERE \"id\" = $2"] := by
  decide +kernel

theorem compile_ofStatement (d : Dialect) (s : Statement) :
    (Script.ofStatement s).compile d =
      match s.draft.fault with
      | some m => .error m.error
      | none => .ok (s.numbered d 0) := by
  cases h : s.draft.fault with
  | some m => exact Script.compile_of_fault (s := Script.ofStatement s) h d
  | none =>
    rw [Script.compile_of_sound (s := Script.ofStatement s) h]
    show Except.ok (Compiled.mk (s.draft.spelled d (Piece.placeholders d) (0 + 1)) _) = _
    rw [Draft.spelled_placeholders]
    rfl

/-- Statements compiled one by one fail as the first of them that fails. -/
theorem mapM_compile (d : Dialect) (ss : List Statement) :
    (ss.map Script.ofStatement).mapM (·.compile d) =
      match ss.findSome? (·.draft.fault) with
      | some m => .error m.error
      | none => .ok (ss.map (numbered d 0)) := by
  induction ss with
  | nil => rfl
  | cons s ss ih =>
    rw [List.map_cons, List.mapM_cons, ih, compile_ofStatement, List.findSome?_cons]
    cases hs : s.draft.fault with
    | some m => rfl
    | none => cases hss : ss.findSome? (·.draft.fault) <;> rfl

end Statement

/-! ## Transactions -/

/-- The statement that ends a transaction. -/
def Ending.text : Ending → String
  | commit => "COMMIT;"
  | rollback => "ROLLBACK;"

theorem Ending.draft_statement (e : Ending) :
    ({ kind := e.kind } : Statement).draft = .text e.text := by
  cases e with
  | commit => exact Statement.draft_commit rfl
  | rollback => exact Statement.draft_rollback rfl

namespace Transaction

/-- Between its begin and its end, a transaction has the drafts of its statements. -/
theorem draft_script {t : Transaction} {ss : List Statement}
    (h : t.body = ss.map Script.ofStatement) :
    t.script.draft = .join "; " (.text "BEGIN" :: (ss.map Statement.draft ++ [.text t.ending.text])) := by
  have hbody : (t.body.map fun c => c.last.draft) = ss.map Statement.draft := by
    rw [h, List.map_map]
    rfl
  have hbegin : ({ kind := .begin } : Statement).draft = .text "BEGIN" := Statement.draft_begin rfl
  show Draft.join "; " (({ kind := .begin } : Statement).draft ::
    (t.body.map fun c => c.last.draft) ++ [({ kind := t.ending.kind } : Statement).draft]) = _
  rw [hbody, hbegin, Ending.draft_statement]
  rfl

theorem build_eq {t : Transaction} {ss : List Statement} (h : t.body = ss.map Script.ofStatement) :
    t.build =
      match ss.findSome? (·.draft.fault) with
      | some m => .error m.error
      | none => .ok
          ⟨"; ".intercalate
              ("BEGIN" :: (Statement.numberedFrom t.dialect 0 ss ++ [t.ending.text])),
            ss.flatMap fun s => s.draft.params⟩ := by
  have hfault : t.script.draft.fault = ss.findSome? (·.draft.fault) := by
    rw [draft_script h, Draft.fault_join, List.findSome?_cons, List.findSome?_append,
      List.findSome?_map]
    cases hss : ss.findSome? (·.draft.fault) <;> simp [Function.comp_def, hss]
  cases hss : ss.findSome? (·.draft.fault) with
  | some m => exact Script.compile_of_fault (hfault.trans hss) t.dialect
  | none =>
    have hsound : ∀ x ∈ Draft.text "BEGIN" :: (ss.map Statement.draft ++ [.text t.ending.text]),
        x.fault = none := by
      rw [draft_script h, Draft.fault_join] at hfault
      exact List.findSome?_eq_none_iff.mp (hfault.trans hss)
    have hparams : t.script.draft.params = ss.flatMap fun s => s.draft.params := by
      rw [draft_script h, Draft.params_join hsound]
      simp [List.flatMap_map]
    have htext : t.script.draft.spelled t.dialect (Piece.placeholders t.dialect) 1 =
        "; ".intercalate
          ("BEGIN" :: (Statement.numberedFrom t.dialect 0 ss ++ [t.ending.text])) := by
      rw [draft_script h, Draft.spelled_join hsound, Draft.spelledFrom, Draft.spelledFrom_append,
        Draft.spelled_text]
      congr 2
      have hstatements := Statement.spelledFrom_eq_numberedFrom t.dialect 0 ss
      have hend : ∀ k, Draft.spelledFrom t.dialect (Piece.placeholders t.dialect) k
          [.text t.ending.text] = [t.ending.text] := by
        intro k
        rw [Draft.spelledFrom, Draft.spelled_text, Draft.spelledFrom]
      rw [hend]
      exact congrArg (· ++ [t.ending.text]) hstatements
    have hcompile := Script.compile_of_sound (hfault.trans hss) t.dialect
    rw [htext, hparams] at hcompile
    exact hcompile

/-- What is pushed stands behind what was there. -/
theorem foldl_push (t : Transaction) (scripts : List Script) :
    scripts.foldl push t = { t with body := t.body ++ scripts.flatMap Script.parts } := by
  induction scripts generalizing t with
  | nil => simp
  | cons s scripts ih =>
    rw [List.foldl_cons, ih]
    simp [push]

/-- **A transaction compiled whole and in parts.**  When builders, each reached by any calls, are
pushed one after another, the transaction consists of the statements that each has put aside and
the one under way.  Both ways to compile it fail as its first statement that fails; or both
succeed, with the same parameters and with texts that differ only in the numbers from which the
placeholders of each statement run on. -/
theorem build_run (d : Dialect) (ending : Ending) (calls : List (Dialect × List Builder.Step)) :
    let builders := calls.map fun c => (Builder.new c.1).run c.2
    let statements := builders.flatMap Builder.statements
    let t := (builders.map Builder.settled).foldl push (new d ending)
    t.body = statements.map Script.ofStatement ∧
    ((∃ x, t.build = .error x ∧ t.statements = .error x) ∨
      ∃ compiled texts, t.statements = .ok compiled ∧
        compiled = statements.map (Statement.numbered d 0) ∧
        texts = Statement.numberedFrom d 0 statements ∧
        t.build = .ok
          ⟨"; ".intercalate ("BEGIN" :: (texts ++ [ending.text])), compiled.flatMap Compiled.params⟩ ∧
        (d.isNumbered = false → texts = compiled.map Compiled.sql)) := by
  intro builders statements t
  have ht : t = _ := foldl_push (new d ending) (builders.map Builder.settled)
  have hparts : ∀ b ∈ builders, b.settled.parts = b.statements.map Script.ofStatement := by
    intro b hb
    obtain ⟨c, -, rfl⟩ := List.mem_map.mp hb
    exact Builder.parts_settled (Builder.isFlat_run (Builder.isFlat_new c.1) c.2)
  have hbody : t.body = statements.map Script.ofStatement := by
    rw [ht, List.flatMap_map, List.map_flatMap]
    exact List.flatMap_congr hparts
  have hdialect : t.dialect = d := by rw [ht]; rfl
  have hending : t.ending = ending := by rw [ht]; rfl
  have hstatements : t.statements = (statements.map Script.ofStatement).mapM (·.compile d) := by
    rw [Transaction.statements, hbody, hdialect]
  rw [Statement.mapM_compile] at hstatements
  have hbuild := build_eq hbody
  rw [hdialect, hending] at hbuild
  refine ⟨hbody, ?_⟩
  cases hfault : statements.findSome? (·.draft.fault) with
  | some m =>
    rw [hfault] at hstatements hbuild
    exact Or.inl ⟨m.error, hbuild, hstatements⟩
  | none =>
    rw [hfault] at hstatements hbuild
    refine Or.inr ⟨_, _, hstatements, rfl, rfl, ?_, ?_⟩
    · rw [hbuild, List.flatMap_map]
      rfl
    · intro hd
      rw [Statement.numberedFrom_of_not_isNumbered hd, List.map_map]
      rfl

end Transaction

end SqlKit
