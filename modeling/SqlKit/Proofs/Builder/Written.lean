import SqlKit.Proofs.Builder.Demands

/-!
# What a statement writes of what is asked for

A statement keeps everything that is asked of it, but what its kind writes is another matter.  A SELECT
writes it all.  An INSERT writes its rows, or instead of them its query; an UPDATE its conditions; a
DELETE its first source and its conditions.  What is written stands in the text as it is, with its
values among the parameters; and the statement is compiled as if nothing else had been asked for.

    drafts one behind another hold what each of them holds             (Holds.append)
    what is held is shown by the text and the parameters               (shows_of_hold)
    what each kind of statement writes                                 (Keeps.holds)
    what is written in a run, and what is dropped                      (run_writes)
-/

namespace SqlKit

/-! ## What drafts hold -/

/-- Pieces hold drafts, one behind the other and each in a place of its own. -/
def Piece.Hold : List Piece → List Draft → Prop
  | _, [] => True
  | ps, x :: xs => ∃ before after, ps = before ++ x.pieces ++ after ∧ Hold after xs

namespace Piece

variable {ps qs : List Piece} {xs ys : List Draft}

theorem Hold.append_left (h : Hold ps xs) (qs : List Piece) : Hold (qs ++ ps) xs := by
  cases xs with
  | nil => trivial
  | cons x xs =>
    obtain ⟨before, after, rfl, hrest⟩ := h
    exact ⟨qs ++ before, after, by simp, hrest⟩

theorem Hold.append (h : Hold ps xs) (h' : Hold qs ys) : Hold (ps ++ qs) (xs ++ ys) := by
  induction xs generalizing ps with
  | nil => exact h'.append_left ps
  | cons x xs ih =>
    obtain ⟨before, after, rfl, hrest⟩ := h
    exact ⟨before, after ++ qs, by simp, ih hrest⟩

end Piece

namespace Draft

/-- A draft that is not malformed holds others. -/
def Holds (a : Draft) (xs : List Draft) : Prop := a.fault = none → Piece.Hold a.pieces xs

variable {a b : Draft} {xs ys : List Draft}

theorem holds_nil (a : Draft) : a.Holds [] := fun _ => trivial

theorem holds_self (a : Draft) : a.Holds [a] := fun _ => ⟨[], [], by simp, trivial⟩

theorem holds_fail (m : Malformed) (xs : List Draft) : (fail m).Holds xs := nofun

theorem Holds.append (h : a.Holds xs) (h' : b.Holds ys) : (a ++ b).Holds (xs ++ ys) := by
  intro hsound
  obtain ⟨ha, hb⟩ := fault_append hsound
  rw [pieces_append_of_sound ha]
  exact (h ha).append (h' hb)

theorem Holds.behind (h : b.Holds ys) (a : Draft) : (a ++ b).Holds ys := (holds_nil a).append h

theorem Holds.before (h : a.Holds xs) (b : Draft) : (a ++ b).Holds xs := by
  have happend := h.append (holds_nil b)
  rwa [List.append_nil] at happend

theorem Holds.paren (h : a.Holds xs) : (paren a).Holds xs := (h.before _).behind _

theorem holds_join (sep : String) (xs : List Draft) : (join sep xs).Holds xs := by
  induction xs with
  | nil => exact holds_nil _
  | cons x xs ih =>
    cases xs with
    | nil => exact holds_self x
    | cons y ys => exact (holds_self x).append (ih.behind (text sep))

theorem holds_clause (heading sep : String) (xs : List Draft) : (clause heading sep xs).Holds xs := by
  cases xs with
  | nil => exact holds_nil _
  | cons x xs => exact (holds_join sep (x :: xs)).behind (text heading)

end Draft

/-! ## What texts show -/

/-- The text shows drafts, one behind the other, each numbered on from what stands before it, and with
their values among the parameters. -/
def Compiled.Shows (d : Dialect) : Nat → Compiled → List Draft → Prop
  | _, _, [] => True
  | k, q, x :: xs => ∃ before after : Compiled,
      q.sql = before.sql ++
        x.spelled d (Piece.placeholders d) (k + before.params.length + 1) ++ after.sql ∧
      q.params = before.params ++ x.params ++ after.params ∧
      Shows d (k + before.params.length + x.params.length) after xs

namespace Piece

theorem join_spell_append (d : Dialect) (f : Spelling) (k : Nat) (ps qs : List Piece) :
    String.join (spell d f k (ps ++ qs)) = String.join (spell d f k ps) ++
      String.join (spell d f (k + (ps.filterMap value?).length) qs) := by
  rw [spell_append, String.join_append]

theorem shows_of_hold (d : Dialect) {ps : List Piece} {xs : List Draft} (h : Hold ps xs)
    (k : Nat) :
    Compiled.Shows d k
      ⟨String.join (spell d (placeholders d) (k + 1) ps), ps.filterMap value?⟩ xs := by
  induction xs generalizing k ps with
  | nil => trivial
  | cons x xs ih =>
    obtain ⟨before, after, rfl, hrest⟩ := h
    let front := before.filterMap value?
    refine ⟨⟨String.join (spell d (placeholders d) (k + 1) before), front⟩,
      ⟨String.join (spell d (placeholders d) (k + front.length + x.params.length + 1) after),
        after.filterMap value?⟩, ?_, ?_, ih hrest _⟩
    · have hplace : k + 1 + front.length = k + front.length + 1 := by omega
      have hafter : k + 1 + ((before ++ x.pieces).filterMap value?).length =
          k + front.length + x.params.length + 1 := by
        rw [List.filterMap_append, List.length_append]
        simp only [front, Draft.params]
        omega
      dsimp only
      rw [join_spell_append, join_spell_append, hplace, hafter]
      rfl
    · simp [front, Draft.params]

end Piece

/-- What the draft of a statement holds, its text shows, numbered on behind any number of parameters. -/
theorem Statement.shows_numbered {t : Statement} {xs : List Draft} (h : t.draft.Holds xs)
    (hsound : t.draft.fault = none) (d : Dialect) (k : Nat) : (t.numbered d k).Shows d k xs := by
  have htext : t.numbered d k = ⟨t.draft.spelled d (Piece.placeholders d) (k + 1), t.draft.params⟩ := by
    rw [Draft.spelled_placeholders]
    rfl
  rw [htext]
  exact Piece.shows_of_hold d (h hsound) k

/-! ## What the parts of a statement hold -/

variable {ds : List Demand} {t : Statement}

theorem holds_map {α : Type} {f : α → Demand} {g : α → Draft} (hf : ∀ a, (f a).draft = g a)
    (l : List α) : (l.map f).map Demand.draft = l.map g := by
  rw [List.map_map]
  exact List.map_congr_left fun a _ => hf a

/-- Conditions that grow together hold each of them. -/
theorem holds_conjoined (cs : List Condition) :
    match cs.foldl (fun on c => some (Builder.conjoin on c)) none with
    | none => cs = []
    | some c => c.draft.Holds (cs.map Condition.draft) := by
  induction cs using List.reverseRecOn with
  | nil => rfl
  | append_singleton cs c ih =>
    rw [List.foldl_concat]
    cases hold : cs.foldl (fun on c => some (Builder.conjoin on c)) none with
    | none =>
      rw [hold] at ih
      subst ih
      exact Draft.holds_self _
    | some o =>
      rw [hold] at ih
      show (Condition.connect o .and c).draft.Holds _
      rw [Condition.draft_connect, List.map_append]
      exact (ih.paren.before _).append (Draft.holds_self c.draft).paren

theorem Joining.holds (g : Joining) : g.join.draft.Holds (g.demands.map Demand.draft) := by
  have hconditions := holds_conjoined g.conditions
  rw [Joining.join, Join.draft, Joining.demands, List.map_cons, holds_map fun _ => rfl,
    ← List.singleton_append]
  refine Draft.Holds.append (Draft.holds_self _) ?_
  cases hon : g.conditions.foldl (fun on c => some (Builder.conjoin on c)) none with
  | none =>
    rw [hon] at hconditions
    rw [hconditions]
    exact Draft.holds_nil _
  | some c =>
    rw [hon] at hconditions
    exact Draft.Holds.behind hconditions _

theorem holds_joins {js : List Join} (h : AsDemanded js ds) :
    (Join.drafts js).Holds (ds.map Demand.draft) := by
  obtain ⟨gs, rfl, rfl⟩ := h
  induction gs with
  | nil => exact Draft.holds_nil _
  | cons g gs ih =>
    rw [List.flatMap_cons, List.map_append, List.map_cons, Join.drafts]
    exact (g.holds.behind _).append ih

theorem holds_count (keyword : String) {f : Nat → Demand}
    (hf : ∀ n, (f n).draft = .text (keyword ++ Digits.text n)) (o : Option Nat) :
    (countDraft keyword o).Holds ((o.toList.map f).map Demand.draft) := by
  cases o with
  | none => exact Draft.holds_nil _
  | some n =>
    show (countDraft keyword (some n)).Holds [(f n).draft]
    rw [hf]
    exact Draft.holds_self _

theorem holds_items {α : Type} {f : α → Demand} {drafts : List α → List Draft} (hnil : drafts [] = [])
    (hcons : ∀ a l, drafts (a :: l) = (f a).draft :: drafts l) (heading sep : String) (l : List α) :
    (Draft.clause heading sep (drafts l)).Holds ((l.map f).map Demand.draft) := by
  have hdrafts : drafts l = (l.map f).map Demand.draft := by
    induction l with
    | nil => exact hnil
    | cons a l ih => rw [hcons, ih, List.map_cons, List.map_cons]
  rw [← hdrafts]
  exact Draft.holds_clause heading sep _

theorem holds_sources (ss : List Source) (heading sep : String) :
    (Draft.clause heading sep (Source.drafts ss)).Holds ((ss.map .source).map Demand.draft) :=
  holds_items rfl (fun _ _ => rfl) heading sep ss

theorem holds_wheres (cs : List Condition) :
    (whereDraft (Condition.drafts cs)).Holds ((cs.map .condition).map Demand.draft) :=
  holds_items rfl (fun _ _ => rfl) " WHERE " " AND " cs

/-! ## What each kind writes -/

namespace Demand

/-- What a statement writes of what it was asked for, in the order of the text. -/
def written (kind : StatementKind) (ds : List Demand) : List Demand :=
  match kind with
  | .select =>
    [Slot.source, .join, .condition, .group, .window, .order, .limit, .offset].flatMap fun k =>
      inSlot k ds
  | .insert => if (inSlot .query ds).isEmpty then inSlot .row ds else inSlot .query ds
  | .update => inSlot .condition ds
  | .delete => (inSlot .source ds).take 1 ++ inSlot .condition ds
  | .begin | .commit | .rollback => []

/-- The kind of statement has a place for all that is asked for. -/
def Fits (kind : StatementKind) (ds : List Demand) : Prop :=
  match kind with
  | .select => True
  | .insert => (∀ d ∈ ds, d.slot = .row ∨ d.slot = .query) ∧ (inSlot .row ds = [] ∨ inSlot .query ds = [])
  | .update => ∀ d ∈ ds, d.slot = .condition
  | .delete => (∀ d ∈ ds, d.slot = .source ∨ d.slot = .condition) ∧ (inSlot .source ds).length ≤ 1
  | .begin | .commit | .rollback => ds = []

/-- Sorted by their slots, demands are the same as before. -/
theorem flatMap_inSlot_perm {ks : List Slot} (hks : ks.Nodup) (h : ∀ d ∈ ds, d.slot ∈ ks) :
    (ks.flatMap fun k => inSlot k ds).Perm ds := by
  induction ks generalizing ds with
  | nil =>
    have hnone : ds = [] := List.eq_nil_iff_forall_not_mem.mpr fun d hd => by simpa using h d hd
    rw [hnone]
    exact .nil
  | cons k ks ih =>
    obtain ⟨hk, hks⟩ := List.nodup_cons.mp hks
    let rest := ds.filter fun d => !decide (d.slot = k)
    have hrest : ∀ d ∈ rest, d.slot ∈ ks := by
      intro d hd
      simp only [rest, List.mem_filter, Bool.not_eq_true', decide_eq_false_iff_not] at hd
      exact (List.mem_cons.mp (h d hd.1)).resolve_left hd.2
    have hsame : (ks.flatMap fun l => inSlot l rest) = ks.flatMap fun l => inSlot l ds := by
      refine List.flatMap_congr fun l hl => ?_
      have hne : l ≠ k := fun e => hk (e ▸ hl)
      show (ds.filter _).filter _ = _
      rw [List.filter_filter]
      refine List.filter_congr fun d _ => ?_
      by_cases hd : d.slot = l <;> simp [hd, hne]
    rw [List.flatMap_cons, ← hsame]
    exact ((ih hks hrest).append_left _).trans (List.filter_append_perm _ ds)

theorem pair_perm {k l : Slot} (hne : k ≠ l) (h : ∀ d ∈ ds, d.slot = k ∨ d.slot = l) :
    (inSlot k ds ++ inSlot l ds).Perm ds := by
  have hperm : ([k, l].flatMap fun k => inSlot k ds).Perm ds :=
    flatMap_inSlot_perm (by simpa using hne) (by simpa using h)
  simpa using hperm

theorem mem_inSlot {k : Slot} {d : Demand} : d ∈ inSlot k ds ↔ d ∈ ds ∧ d.slot = k := by
  simp [inSlot]

theorem inSlot_perm {es : List Demand} (h : ds.Perm es) (k : Slot) :
    (inSlot k ds).Perm (inSlot k es) := h.filter _

/-- Everything is written if and only if there is a place for it. -/
theorem written_insert_perm_iff : (written .insert ds).Perm ds ↔ Fits .insert ds := by
  unfold written Fits
  dsimp only
  constructor
  · intro h
    split at h
    · next hnone =>
      refine ⟨fun d hd => .inl (mem_inSlot.mp (h.mem_iff.mpr hd)).2, .inr (List.isEmpty_iff.mp hnone)⟩
    · refine ⟨fun d hd => .inr (mem_inSlot.mp (h.mem_iff.mpr hd)).2, .inl ?_⟩
      have hrows := inSlot_perm h .row
      rw [inSlot_inSlot] at hrows
      exact hrows.symm.eq_nil
  · rintro ⟨hall, hone⟩
    have hperm := pair_perm (by decide) hall
    rcases hone with hnone | hnone
    · rw [hnone, List.nil_append] at hperm
      split
      · next hquery =>
        rw [List.isEmpty_iff.mp hquery] at hperm
        rw [hnone]
        exact hperm
      · exact hperm
    · rw [hnone, List.append_nil] at hperm
      rw [hnone]
      exact hperm

theorem written_update_perm_iff : (written .update ds).Perm ds ↔ Fits .update ds := by
  unfold written Fits
  dsimp only
  constructor
  · intro h d hd
    exact (mem_inSlot.mp (h.mem_iff.mpr hd)).2
  · intro h
    have hself : inSlot .condition ds = ds := List.filter_eq_self.mpr fun d hd => decide_eq_true (h d hd)
    rw [hself]

theorem written_delete_perm_iff : (written .delete ds).Perm ds ↔ Fits .delete ds := by
  unfold written Fits
  dsimp only
  constructor
  · intro h
    have hsources := inSlot_perm h .source
    rw [inSlot_append, inSlot_inSlot, if_neg (by decide), List.append_nil] at hsources
    constructor
    · intro d hd
      rcases List.mem_append.mp (h.mem_iff.mpr hd) with hmem | hmem
      · exact .inl (mem_inSlot.mp (List.mem_of_mem_take hmem)).2
      · exact .inr (mem_inSlot.mp hmem).2
    · rw [← hsources.length_eq]
      have hfirst := List.length_take_le 1 (inSlot .source ds)
      exact Nat.le_trans (List.length_filter_le _ _) hfirst
  · rintro ⟨hall, hone⟩
    rw [List.take_of_length_le hone]
    exact pair_perm (by decide) hall

end Demand

namespace Statement

open Demand

/-- A SELECT writes everything. -/
theorem Keeps.holds_select (h : t.Keeps ds) (hkind : t.kind = .select) :
    t.draft.Holds ((written .select ds).map Demand.draft) := by
  have hsources : (Draft.clause " FROM " ", " (Source.drafts t.sources)).Holds
      ((inSlot .source ds).map Demand.draft) := by
    rcases h.sources with hsources | ⟨-, hnone⟩
    · rw [← hsources]
      exact holds_sources t.sources " FROM " ", "
    · rw [hnone]
      exact Draft.holds_nil _
  rw [draft_select hkind]
  simp only [written, List.flatMap_cons, List.flatMap_nil, List.map_append, List.append_nil,
    ← List.append_assoc]
  rw [← h.others .condition (by decide) (by decide), ← h.others .group (by decide) (by decide),
    ← h.others .window (by decide) (by decide), ← h.others .order (by decide) (by decide),
    ← h.others .limit (by decide) (by decide), ← h.others .offset (by decide) (by decide)]
  refine Draft.Holds.before ?_ _
  refine Draft.Holds.append ?_ (holds_count " OFFSET " (fun _ => rfl) t.offset)
  refine Draft.Holds.append ?_ (holds_count " LIMIT " (fun _ => rfl) t.limit)
  refine Draft.Holds.append ?_ (holds_items rfl (fun _ _ => rfl) " ORDER BY " ", " t.orders)
  refine Draft.Holds.append ?_ (holds_items rfl (fun _ _ => rfl) " WINDOW " ", " t.windows)
  refine Draft.Holds.append ?_ (holds_items rfl (fun _ _ => rfl) " GROUP BY " ", " t.groups)
  refine Draft.Holds.append ?_ (holds_wheres t.wheres)
  refine Draft.Holds.append ?_ (holds_joins h.joins)
  exact hsources.behind _

/-- An INSERT writes its rows, or instead of them its query. -/
theorem Keeps.holds_insert (h : t.Keeps ds) (hkind : t.kind = .insert) :
    t.draft.Holds ((written .insert ds).map Demand.draft) := by
  have hinserted : (insertedDraft t.insertRows (draft? t.insertQuery)).Holds
      ((written .insert ds).map Demand.draft) := by
    unfold written
    dsimp only
    rw [← h.others .row (by decide) (by decide), ← h.others .query (by decide) (by decide)]
    cases hquery : t.insertQuery with
    | none =>
      simp only [held, hquery, Option.toList_none, List.map_nil, List.isEmpty_nil, if_true, draft?,
        insertedDraft]
      cases hrows : t.insertRows with
      | nil => exact Draft.holds_nil _
      | cons row rows =>
        have hclause : (Draft.clause " VALUES " ", " (rowDrafts (row :: rows))).Holds _ :=
          holds_items (f := Demand.row) rfl (fun _ _ => rfl) " VALUES " ", " (row :: rows)
        exact hclause
    | some q =>
      simp only [held, hquery, Option.toList_some, List.map_cons, List.map_nil, List.isEmpty_cons,
        draft?, insertedDraft]
      exact (Draft.holds_self q.draft).behind _
  rw [draft_insert hkind]
  unfold insertDraft
  cases t.insertTable with
  | none => exact Draft.holds_fail _ _
  | some table => exact ((hinserted.before _).before _).behind _

/-- An UPDATE writes its conditions. -/
theorem Keeps.holds_update (h : t.Keeps ds) (hkind : t.kind = .update) :
    t.draft.Holds ((written .update ds).map Demand.draft) := by
  have hwheres : (whereDraft (Condition.drafts t.wheres)).Holds
      ((written .update ds).map Demand.draft) := by
    rw [written, ← h.others .condition (by decide) (by decide)]
    exact holds_wheres t.wheres
  rw [draft_update hkind]
  unfold updateDraft
  cases t.updateTable with
  | none => exact Draft.holds_fail _ _
  | some table =>
    cases Assignment.drafts t.updates with
    | nil => exact Draft.holds_fail _ _
    | cons a as => exact (hwheres.before _).behind _

/-- Only a SELECT has sources that it was not given. -/
theorem Keeps.held_source (h : t.Keeps ds) (hkind : t.kind ≠ .select) :
    t.held .source = inSlot .source ds := by
  rcases h.sources with hsources | ⟨hselect, -⟩
  · exact hsources
  · exact absurd hselect hkind

/-- A DELETE writes its first source and its conditions. -/
theorem Keeps.holds_delete (h : t.Keeps ds) (hkind : t.kind = .delete) :
    t.draft.Holds ((written .delete ds).map Demand.draft) := by
  have hsources := h.held_source (by rw [hkind]; decide)
  have hwheres := (holds_wheres t.wheres).before (returningDraft t.returning)
  rw [draft_delete hkind, written, ← hsources, ← h.others .condition (by decide) (by decide)]
  unfold deleteDraft held
  dsimp only
  cases t.sources with
  | nil =>
    cases Source.draft? t.deleteSource with
    | none => exact Draft.holds_fail _ _
    | some s => exact hwheres.behind _
  | cons s ss =>
    have htarget := (Draft.holds_self s.draft).behind
      (withDraft (Cte.drafts t.ctes) ++ .text "DELETE FROM ")
    rw [Source.drafts, List.map_append]
    exact htarget.append hwheres

theorem Keeps.holds (h : t.Keeps ds) (hcoherent : t.Coherent) :
    t.draft.Holds ((written t.kind ds).map Demand.draft) := by
  rcases hcoherent.kind with hkind | hkind | hkind | hkind <;> rw [hkind]
  · exact h.holds_select hkind
  · exact h.holds_insert hkind
  · exact h.holds_update hkind
  · exact h.holds_delete hkind

/-! ## What is dropped -/

/-- The statement without what its kind does not write. -/
def trimmed (t : Statement) : Statement :=
  let bare := { t with
    joins := [], groups := [], windows := [], orders := [], limit := none, offset := none }
  match t.kind with
  | .insert => { bare with
      sources := [], wheres := [], insertRows := if t.insertQuery.isSome then [] else t.insertRows }
  | .update => { bare with sources := [] }
  | .delete => { bare with sources := t.sources.take 1 }
  | _ => t

/-- It is compiled just so. -/
theorem draft_trimmed (t : Statement) : t.trimmed.draft = t.draft := by
  unfold trimmed
  dsimp only
  split
  · next hkind =>
    rw [draft_insert (s := t) hkind]
    refine (draft_insert (by exact hkind)).trans ?_
    cases t.insertQuery <;> simp [insertedDraft, draft?]
  · next hkind =>
    rw [draft_update (s := t) hkind]
    exact draft_update (by exact hkind)
  · next hkind =>
    rw [draft_delete (s := t) hkind]
    refine (draft_delete (by exact hkind)).trans ?_
    cases t.sources with
    | nil => rfl
    | cons s ss => rfl
  · rfl

/-- Only an INSERT is asked for rows and queries. -/
theorem Keeps.nil_of_ne (h : t.Keeps ds) (hcoherent : t.Coherent) (hkind : t.kind ≠ .insert) :
    inSlot .row ds = [] ∧ inSlot .query ds = [] := by
  obtain ⟨-, -, hrows, hquery, -⟩ := hcoherent.insert hkind
  constructor
  · rw [← h.others .row (by decide) (by decide), held, hrows]
    rfl
  · rw [← h.others .query (by decide) (by decide), held, hquery]
    rfl

/-- A statement without joins keeps what it holds. -/
theorem keeps_of_held (hjoins : t.joins = []) (hheld : ∀ k, t.held k = inSlot k ds) : t.Keeps ds := by
  refine ⟨.inl (hheld .source), ?_, fun k _ _ => hheld k⟩
  rw [hjoins, ← hheld .join]
  exact ⟨[], rfl, rfl⟩

theorem Keeps.trimmed_select (h : t.Keeps ds) (hcoherent : t.Coherent) (hkind : t.kind = .select) :
    t.trimmed.Keeps (written .select ds) := by
  obtain ⟨hrow, hquery⟩ := h.nil_of_ne hcoherent (by rw [hkind]; decide)
  have hslots (k : Slot) : inSlot k (written .select ds) = inSlot k ds := by
    simp only [written, List.flatMap_cons, List.flatMap_nil, inSlot_append, inSlot_inSlot]
    cases k <;> simp [hrow, hquery]
  have htrimmed : t.trimmed = t := by
    unfold trimmed
    rw [hkind]
  rw [htrimmed]
  refine ⟨?_, ?_, fun k hsource hjoin => ?_⟩
  · rw [hslots]
    exact h.sources
  · rw [hslots]
    exact h.joins
  · rw [hslots]
    exact h.others k hsource hjoin

theorem Keeps.trimmed_insert (h : t.Keeps ds) (hkind : t.kind = .insert) :
    t.trimmed.Keeps (written .insert ds) := by
  have hrow := h.others .row (by decide) (by decide)
  have hquery := h.others .query (by decide) (by decide)
  unfold trimmed written
  rw [hkind]
  refine keeps_of_held rfl fun k => ?_
  dsimp only
  rw [← hrow, ← hquery]
  cases hq : t.insertQuery with
  | none =>
    have hslots : inSlot k (t.held .row) = if k = .row then t.held .row else [] := by
      rw [hrow, inSlot_inSlot]
      split
      · next hk => rw [hk]
      · rfl
    simp only [held, hq, Option.toList_none, List.map_nil, List.isEmpty_nil, if_true] at hslots ⊢
    rw [hslots]
    cases k <;> rfl
  | some q => cases k <;> simp [held, hq, inSlot, slot]

theorem Keeps.trimmed_update (h : t.Keeps ds) (hcoherent : t.Coherent) (hkind : t.kind = .update) :
    t.trimmed.Keeps (written .update ds) := by
  obtain ⟨hrow, hquery⟩ := h.nil_of_ne hcoherent (by rw [hkind]; decide)
  unfold trimmed
  rw [hkind]
  refine keeps_of_held rfl fun k => ?_
  rw [written, inSlot_inSlot]
  cases k with
  | condition => exact h.others .condition (by decide) (by decide)
  | row => exact (h.others .row (by decide) (by decide)).trans hrow
  | query => exact (h.others .query (by decide) (by decide)).trans hquery
  | _ => rfl

theorem Keeps.trimmed_delete (h : t.Keeps ds) (hcoherent : t.Coherent) (hkind : t.kind = .delete) :
    t.trimmed.Keeps (written .delete ds) := by
  obtain ⟨hrow, hquery⟩ := h.nil_of_ne hcoherent (by rw [hkind]; decide)
  have hsources := h.held_source (by rw [hkind]; decide)
  have hfirst : (inSlot .source ds).take 1 = (t.sources.take 1).map .source := by
    rw [← hsources]
    exact List.map_take.symm
  unfold trimmed
  rw [hkind]
  refine keeps_of_held rfl fun k => ?_
  rw [written, inSlot_append, inSlot_inSlot, hfirst]
  have hother : ∀ {k : Slot}, k ≠ .source → ∀ x, (Demand.source x).slot ≠ k := fun hk _ => hk.symm
  cases k with
  | source =>
    rw [inSlot_map (f := Demand.source) fun _ => rfl]
    exact (List.append_nil _).symm
  | condition =>
    rw [inSlot_map_of_ne (hother (by decide))]
    exact h.others .condition (by decide) (by decide)
  | row =>
    rw [inSlot_map_of_ne (hother (by decide))]
    exact (h.others .row (by decide) (by decide)).trans hrow
  | query =>
    rw [inSlot_map_of_ne (hother (by decide))]
    exact (h.others .query (by decide) (by decide)).trans hquery
  | _ =>
    rw [inSlot_map_of_ne (hother (by decide))]
    rfl

theorem Keeps.trimmed (h : t.Keeps ds) (hcoherent : t.Coherent) :
    t.trimmed.Keeps (written t.kind ds) := by
  rcases hcoherent.kind with hkind | hkind | hkind | hkind <;> rw [hkind]
  · exact h.trimmed_select hcoherent hkind
  · exact h.trimmed_insert hkind
  · exact h.trimmed_update hcoherent hkind
  · exact h.trimmed_delete hcoherent hkind

/-- A SELECT writes everything. -/
theorem Keeps.written_select_perm (h : t.Keeps ds) (hcoherent : t.Coherent)
    (hkind : t.kind = .select) : (written .select ds).Perm ds := by
  obtain ⟨hrow, hquery⟩ := h.nil_of_ne hcoherent (by rw [hkind]; decide)
  refine flatMap_inSlot_perm (by decide) fun d hd => ?_
  have hslot : d ∈ inSlot d.slot ds := mem_inSlot.mpr ⟨hd, rfl⟩
  cases hk : d.slot with
  | row =>
    rw [hk, hrow] at hslot
    cases hslot
  | query =>
    rw [hk, hquery] at hslot
    cases hslot
  | _ => decide

/-- Nothing is dropped if and only if the kind of statement has a place for all that is asked for. -/
theorem Keeps.written_perm_iff (h : t.Keeps ds) (hcoherent : t.Coherent) :
    (written t.kind ds).Perm ds ↔ Fits t.kind ds := by
  rcases hcoherent.kind with hkind | hkind | hkind | hkind <;> rw [hkind]
  · exact iff_of_true (h.written_select_perm hcoherent hkind) trivial
  · exact written_insert_perm_iff
  · exact written_update_perm_iff
  · exact written_delete_perm_iff

end Statement

/-! ## Runs -/

namespace Builder

open Demand

/-- What becomes of the calls that a statement is made of. -/
structure Writes (d : Dialect) (calls : List Step) (t : Statement) : Prop where
  /-- The statement keeps all that stands of what the calls ask for. -/
  kept : t.Keeps (demanded calls)
  /-- What its kind writes of it stands in the text and in the parameters. -/
  shown : ∀ k, (t.numbered d k).Shows d k ((written t.kind (demanded calls)).map Demand.draft)
  /-- The rest is dropped: the statement is compiled as one that is kept only what is written. -/
  dropped : t.trimmed.draft = t.draft ∧ t.trimmed.Keeps (written t.kind (demanded calls))
  /-- Nothing is dropped if and only if the kind has a place for all that the calls ask for. -/
  whole : (written t.kind (demanded calls)).Perm (demanded calls) ↔ Fits t.kind (demanded calls)
  /-- Rows and queries to insert are accepted for an INSERT only. -/
  insert : t.kind ≠ .insert → inSlot .row (demanded calls) = [] ∧ inSlot .query (demanded calls) = []

variable {b b' : Builder} {s : Step}

theorem dialect_settle (b : Builder) : b.settle.dialect = b.dialect := by
  rw [settle_eq]
  split <;> rfl

theorem dialect_acts (h : b.Acts s b') : b'.dialect = b.dialect := by
  cases h with
  | names names =>
    show (b.step .from).dropImplied.dialect = _
    unfold dropImplied
    split <;> rfl
  | restricts restricts => exact dialect_settle _
  | _ => rfl

theorem dialect_run (b : Builder) (steps : List Step) : (b.run steps).dialect = b.dialect := by
  induction steps generalizing b with
  | nil => rfl
  | cons s steps ih =>
    rw [run_cons, ih]
    cases hs : b.apply s with
    | error e => rw [advance_of_error hs]
    | ok b' =>
      rw [advance_of_ok hs, dialect_acts (acts_of_apply hs), ready]
      split
      · exact dialect_settle b
      · rfl

/-- A script that can be built has the texts and the parameters of its statements, and none of them is
malformed. -/
theorem build_eq (b : Builder) {c : Compiled} (h : b.build = .ok c) :
    c.sql = "; ".intercalate (Statement.numberedFrom b.dialect 0 b.statements) ∧
      c.params = b.statements.flatMap (fun t => t.draft.params) ∧
      ∀ t ∈ b.statements, t.draft.fault = none := by
  have hcompile : b.settled.compile b.dialect = .ok c := by
    unfold build at h
    cases hcheck : b.check with
    | error e =>
      rw [hcheck] at h
      cases h
    | ok u =>
      rw [hcheck] at h
      exact h
  have hdraft : b.settled.draft = .join "; " (b.statements.map Statement.draft) := by
    have hchain : b.settled.chain = b.script.chain := b.chain_settle
    rw [Script.draft, hchain, statements, List.map_append, List.map_map]
    rfl
  cases hfault : b.settled.draft.fault with
  | some m =>
    rw [Script.compile_of_fault hfault] at hcompile
    cases hcompile
  | none =>
    rw [Script.compile_of_sound hfault] at hcompile
    rw [hdraft] at hfault hcompile
    rw [Draft.fault_join, List.findSome?_eq_none_iff] at hfault
    obtain rfl := Except.ok.inj hcompile
    refine ⟨?_, ?_, fun t ht => hfault _ (List.mem_map_of_mem ht)⟩
    · dsimp only
      rw [Draft.spelled_join hfault, ← Statement.spelledFrom_eq_numberedFrom]
    · dsimp only
      rw [Draft.params_join hfault, List.flatMap_map]

/-- **What is written of what is asked for.**  Whatever is called, of a run that can be built: the text
consists of those of its statements, and so do the parameters; and each statement writes of what its
calls ask for what its kind writes, and drops the rest. -/
theorem run_writes (d : Dialect) (steps : List Step) {c : Compiled}
    (built : ((Builder.new d).run steps).build = .ok c) :
    let ts := ((Builder.new d).run steps).statements
    c.sql = "; ".intercalate (Statement.numberedFrom d 0 ts) ∧
      c.params = ts.flatMap (fun t => t.draft.params) ∧
      List.Forall₂ (Writes d) (callsOf d steps) ts := by
  intro ts
  obtain ⟨hsql, hparams, hsound⟩ := build_eq _ built
  rw [dialect_run] at hsql
  refine ⟨hsql, hparams, ?_⟩
  have hkept := (List.forall₂_and_left _ _).mpr ⟨hsound, (keeps_run d steps).flip⟩
  refine hkept.flip.imp fun calls t ⟨hfault, hkeeps, hcoherent⟩ => ?_
  refine ⟨hkeeps, fun k => ?_, ⟨t.draft_trimmed, hkeeps.trimmed hcoherent⟩,
    hkeeps.written_perm_iff hcoherent, hkeeps.nil_of_ne hcoherent⟩
  exact Statement.shows_numbered (hkeeps.holds hcoherent) hfault d k

theorem exists_of_toSql {b : Builder} {sql : String} (h : b.toSql = .ok sql) :
    ∃ c, b.build = .ok c ∧ c.sql = sql := by
  unfold toSql at h
  cases hb : b.build with
  | error e =>
    rw [hb] at h
    cases h
  | ok c =>
    rw [hb] at h
    exact ⟨c, rfl, Except.ok.inj h⟩

/-- A SELECT and a DELETE, of which nothing is dropped. -/
theorem run_writes_users :
    let steps : List Step := [.select [.raw "name"], .addSource (.table (.named "users")),
      .where (.condition (.compare ⟨"age", none⟩ .gt (.value (.int 18)))), .limit 10,
      .deleteFrom (.table (.named "logs")),
      .where (.condition (.compare ⟨"day", none⟩ .lt (.value (.int 7))))]
    let b := (Builder.new .postgres).run steps
    b.toSql = .ok ("SELECT name FROM \"users\" WHERE \"age\" > $1 LIMIT 10; " ++
      "DELETE FROM \"logs\" WHERE \"day\" < $2") ∧
      (∃ c, b.build = .ok c) ∧
      List.Forall₂ (Writes .postgres) (callsOf .postgres steps) b.statements := by
  intro steps b
  have hsql : b.toSql = .ok ("SELECT name FROM \"users\" WHERE \"age\" > $1 LIMIT 10; " ++
      "DELETE FROM \"logs\" WHERE \"day\" < $2") := by
    decide +kernel
  obtain ⟨c, hbuilt, -⟩ := exists_of_toSql hsql
  exact ⟨hsql, ⟨c, hbuilt⟩, (run_writes .postgres steps hbuilt).2.2⟩

/-- The limit of a DELETE is accepted and dropped: it deletes all rows that its condition is true of. -/
theorem run_drops_limit :
    let old : Condition := .compare ⟨"day", none⟩ .lt (.value (.int 7))
    let steps : List Step :=
      [.deleteFrom (.table (.named "logs")), .where (.condition old), .limit 1]
    let b := (Builder.new .mysql).run steps
    ((Builder.new .mysql).accepted steps).length = steps.length ∧ b.script.chain.length = 0 ∧
      demanded steps = [.condition old, .limit 1] ∧
      ∃ c, b.build = .ok c ∧ c.sql = "DELETE FROM \"logs\" WHERE \"day\" < %s" ∧
        ∀ k, ¬((Demand.limit 1).draft.spelled .mysql (Piece.placeholders .mysql) k).toList <:+:
          c.sql.toList := by
  intro old steps b
  have hsql : b.toSql = .ok "DELETE FROM \"logs\" WHERE \"day\" < %s" := by decide +kernel
  obtain ⟨c, hbuilt, hc⟩ := exists_of_toSql hsql
  refine ⟨by decide +kernel, by decide +kernel, rfl, c, hbuilt, hc, fun k => ?_⟩
  rw [hc, Demand.draft, Draft.spelled_text]
  decide +kernel

end Builder

end SqlKit
