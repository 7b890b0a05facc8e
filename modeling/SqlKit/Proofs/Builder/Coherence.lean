import Mathlib.Data.List.Nodup
import SqlKit.Proofs.Builder.History

/-!
# What a builder's statements hold

Whatever calls are made, and whichever of them fail, a statement of the builder holds only clauses that
its kind has a use for, where the builder has clauses that belong to one kind.  A statement that is put
aside is one that something was asked of, and is never touched again.

    a call keeps the statement under way coherent                      (coherent_acts)
    all statements of a run are                                        (run_coherent)
-/

namespace SqlKit

/-- What a statement holds agrees with itself: windows have names of their own, a cross join has no
condition, and what belongs to one kind of statement is there in statements of that kind only. -/
structure Statement.Coherent (t : Statement) : Prop where
  kind : t.kind = .select ∨ t.kind = .insert ∨ t.kind = .update ∨ t.kind = .delete
  windows : (t.windows.map (·.name)).Nodup
  cross : ∀ j ∈ t.joins, j.kind = .cross → j.on = none
  insert : t.kind ≠ .insert →
    t.insertTable = none ∧ t.insertColumns = [] ∧ t.insertRows = [] ∧ t.insertQuery = none ∧
      t.onConflict = none
  update : t.kind ≠ .update → t.updateTable = none ∧ t.updates = []
  delete : t.kind ≠ .delete → t.deleteSource = none

namespace Statement

variable {t : Statement}

theorem coherent_empty : Statement.empty.Coherent :=
  ⟨.inl rfl, .nil, fun _ h => absurd h List.not_mem_nil, fun _ => ⟨rfl, rfl, rfl, rfl, rfl⟩,
    fun _ => ⟨rfl, rfl⟩, fun _ => rfl⟩

theorem nodup_defineWindow (h : (t.windows.map (·.name)).Nodup) (name : String) (spec : WindowSpec) :
    ((t.defineWindow name spec).windows.map (·.name)).Nodup := by
  rw [defineWindow, map_name_putWindow]
  split
  · exact h
  · next hname =>
    refine List.nodup_append.mpr ⟨h, List.nodup_singleton _, ?_⟩
    intro a ha b hb hab
    rw [List.mem_singleton] at hb
    exact hname (hb ▸ hab ▸ ha)

end Statement

namespace Builder

variable {b b' : Builder} {s : Step} {c : Clause} {t t' : Statement}

/-! ## Step by step -/

theorem coherent_edits (h : Edits t s c t') (ht : t.Coherent) : t'.Coherent := by
  cases h with
  | join kind source =>
    refine ⟨ht.kind, ht.windows, fun j hj hcross => ?_, ht.insert, ht.update, ht.delete⟩
    rcases List.mem_append.mp hj with hj | hj
    · exact ht.cross j hj hcross
    · rw [List.mem_singleton.mp hj]
  | on condition last kind =>
    refine ⟨ht.kind, ht.windows, fun j hj hcross => ?_, ht.insert, ht.update, ht.delete⟩
    rcases List.mem_append.mp hj with hj | hj
    · exact ht.cross j (List.dropLast_subset _ hj) hcross
    · rw [List.mem_singleton.mp hj] at hcross
      exact absurd hcross kind
  | window name spec =>
    exact ⟨ht.kind, Statement.nodup_defineWindow ht.windows name spec, ht.cross, ht.insert, ht.update,
      ht.delete⟩
  | values kind filled width =>
    exact ⟨ht.kind, ht.windows, ht.cross, fun h => absurd kind h, ht.update, ht.delete⟩
  | insertFrom kind =>
    exact ⟨ht.kind, ht.windows, ht.cross, fun h => absurd kind h, ht.update, ht.delete⟩
  | onConflict kind =>
    exact ⟨ht.kind, ht.windows, ht.cross, fun h => absurd kind h, ht.update, ht.delete⟩
  | set kind filled =>
    exact ⟨ht.kind, ht.windows, ht.cross, ht.insert, fun h => absurd kind h, ht.delete⟩
  | _ => exact ⟨ht.kind, ht.windows, ht.cross, ht.insert, ht.update, ht.delete⟩

/-- A statement that nothing was asked of is a SELECT so far, with nothing in it that belongs to
another kind. -/
theorem coherent_opens (h : Opens t s c t') (hclean : t.isDirty = false) (ht : t.Coherent) :
    t'.Coherent := by
  have hkind := (eq_of_isDirty_eq_false hclean).1
  have hinsert := ht.insert (by rw [hkind]; decide)
  have hupdate := ht.update (by rw [hkind]; decide)
  have hdelete := ht.delete (by rw [hkind]; decide)
  cases h with
  | insertInto table columns =>
    exact ⟨.inr (.inl rfl), ht.windows, ht.cross, fun h => absurd rfl h, fun _ => hupdate,
      fun _ => hdelete⟩
  | update table =>
    exact ⟨.inr (.inr (.inl rfl)), ht.windows, ht.cross, fun _ => hinsert, fun h => absurd rfl h,
      fun _ => hdelete⟩
  | deleteFrom source | delete =>
    exact ⟨.inr (.inr (.inr rfl)), ht.windows, ht.cross, fun _ => hinsert, fun _ => hupdate,
      fun h => absurd rfl h⟩

theorem coherent_settle (h : b.statement.Coherent) : b.settle.statement.Coherent := by
  rw [statement_settle]
  split
  · exact h
  · exact ⟨h.kind, h.windows, h.cross, h.insert, h.update, h.delete⟩

theorem coherent_acts (h : b.Acts s b') (hb : b.statement.Coherent) : b'.statement.Coherent := by
  cases h with
  | strict on => exact hb
  | as name => exact hb
  | edits edits => exact coherent_edits edits hb
  | names names =>
    have hdrop : (b.step .from).dropImplied.statement.Coherent := by
      unfold dropImplied
      split
      · exact ⟨hb.kind, hb.windows, hb.cross, hb.insert, hb.update, hb.delete⟩
      · exact hb
    exact ⟨hdrop.kind, hdrop.windows, hdrop.cross, hdrop.insert, hdrop.update, hdrop.delete⟩
  | restricts restricts =>
    exact coherent_settle ⟨hb.kind, hb.windows, hb.cross, hb.insert, hb.update, hb.delete⟩
  | selects selects clean =>
    have hkind := (eq_of_isDirty_eq_false clean).1
    rw [← hkind]
    exact ⟨hb.kind, hb.windows, hb.cross, hb.insert, hb.update, hb.delete⟩
  | opens opens clean => exact coherent_opens opens clean hb

/-- Settling leaves in a statement what was asked of it. -/
theorem isDirty_settle (h : b.statement.isDirty = true) : b.settle.statement.isDirty = true := by
  rw [statement_settle]
  split
  · exact h
  · next hfresh =>
    have hsources : b.freshSources.isEmpty = false := Bool.eq_false_iff.mpr fun e =>
      hfresh (List.isEmpty_iff.mp e)
    simp [Statement.isDirty, hsources]

/-! ## Along a run -/

/-- A call that fails puts nothing aside either. -/
theorem putsAside_advance (b : Builder) (s : Step) : b.PutsAside (b.advance s) := by
  unfold advance
  cases h : b.apply s with
  | error e => exact Or.inl rfl
  | ok b' => exact putsAside_apply h

/-- **What a run keeps.**  Whatever is called, the statements put aside stand alone and had something
asked of them; they, and the one under way, before and after it is settled, are coherent; and whatever
is called next leaves the statements put aside as they are and puts at most one more behind them. -/
theorem run_coherent (d : Dialect) (steps : List Step) :
    let b := (Builder.new d).run steps
    (∀ c ∈ b.script.chain, c.chain = [] ∧ c.last.isDirty = true ∧ c.last.Coherent) ∧
      b.statement.Coherent ∧ b.settled.last.Coherent ∧ ∀ s, b.PutsAside (b.advance s) := by
  intro b
  obtain ⟨hpast, hnow⟩ := follow_keeps (h := ⟨[], []⟩)
    (P := fun b _ => b.statement.Coherent)
    (R := fun _ t => t.isDirty = true ∧ t.Coherent)
    (fun _ _ h hdirty => ⟨⟨isDirty_settle hdirty, coherent_settle h⟩, Statement.coherent_empty⟩)
    (fun _ _ _ _ h hacts => coherent_acts hacts h)
    .nil (b := Builder.new d) Statement.coherent_empty steps
  have haside : ∀ t ∈ b.script.chain.map Script.last, t.isDirty = true ∧ t.Coherent :=
    ((List.forall₂_and_left _ _).mp (hpast.flip.imp fun _ _ h => ⟨h, trivial⟩)).1
  refine ⟨fun c hc => ?_, hnow, coherent_settle hnow, putsAside_advance b⟩
  exact ⟨isFlat_run (isFlat_new d) steps c hc, haside _ (List.mem_map_of_mem hc)⟩

end Builder

end SqlKit
