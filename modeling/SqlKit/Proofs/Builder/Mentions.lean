import Mathlib.Data.List.Infix
import Mathlib.Data.List.Nodup
import SqlKit.Proofs.Builder.History

/-!
# The FROM that calls imply

The calls that a statement is made of mention tables, by their columns, and join tables.  What FROM
a SELECT gets that was not given one follows from these calls alone: each call that restricts the rows,
and the end, replaces it by the tables mentioned so far that are not joined so far, unless there are
none.

    what a builder knows of its statement is what the calls say        (follows_acts)
    the FROM of a settled SELECT is made of settledTables              (settles_run)
-/

namespace SqlKit

/-! ## Lists without their repetitions -/

section

variable {α β : Type} [BEq α] [LawfulBEq α]

theorem eraseDups_filter (p : α → Bool) (l : List α) :
    (l.filter p).eraseDups = l.eraseDups.filter p := by
  match l with
  | [] => rfl
  | a :: l =>
    -- `eraseDups` goes on with what is left of the tail without `a`, and so does the induction.
    have hrest := eraseDups_filter p (l.filter fun b => !b == a)
    rw [List.eraseDups_cons, List.filter_cons, List.filter_cons, ← hrest]
    by_cases ha : p a = true
    · rw [if_pos ha, if_pos ha, List.eraseDups_cons, List.filter_comm]
    · have hsame : (l.filter fun b => !b == a).filter p = l.filter p := by
        rw [List.filter_filter]
        refine List.filter_congr fun b _ => ?_
        by_cases hb : b = a
        · simp [hb, ha]
        · simp [hb]
      rw [if_neg ha, if_neg ha, hsame]
termination_by l.length
decreasing_by exact Nat.lt_succ_of_le (List.length_filter_le _ _)

theorem nodup_eraseDups (l : List α) : l.eraseDups.Nodup := by
  match l with
  | [] => exact .nil
  | a :: l =>
    rw [List.eraseDups_cons, List.nodup_cons]
    exact ⟨by simp [List.mem_eraseDups], nodup_eraseDups _⟩
termination_by l.length
decreasing_by exact Nat.lt_succ_of_le (List.length_filter_le _ _)

theorem eraseDups_of_nodup {l : List α} (h : l.Nodup) : l.eraseDups = l := by
  induction l with
  | nil => rfl
  | cons a l ih =>
    obtain ⟨ha, hl⟩ := List.nodup_cons.mp h
    have hself : (l.filter fun b => !b == a) = l := by
      refine List.filter_eq_self.mpr fun b hb => ?_
      have hne : b ≠ a := fun e => ha (e ▸ hb)
      simp [hne]
    rw [List.eraseDups_cons, hself, ih hl]

theorem eraseDups_eraseDups (l : List α) : l.eraseDups.eraseDups = l.eraseDups :=
  eraseDups_of_nodup (nodup_eraseDups l)

/-- Repetitions in the first of two lists make no difference. -/
theorem eraseDups_eraseDups_append (l m : List α) :
    (l.eraseDups ++ m).eraseDups = (l ++ m).eraseDups := by
  have hremove : m.removeAll l.eraseDups = m.removeAll l :=
    List.filter_congr fun a _ => by simp [List.mem_eraseDups]
  rw [List.eraseDups_append, List.eraseDups_append, eraseDups_eraseDups, hremove]

/-- Nor do those in the second. -/
theorem eraseDups_append_eraseDups (l m : List α) :
    (l ++ m.eraseDups).eraseDups = (l ++ m).eraseDups := by
  have hremove : (m.eraseDups.removeAll l).eraseDups = (m.removeAll l).eraseDups := by
    unfold List.removeAll
    rw [← eraseDups_filter, eraseDups_eraseDups]
  rw [List.eraseDups_append, List.eraseDups_append, hremove]

theorem eraseDups_append_flatMap (l : List α) (f : β → List α) (bs : List β) :
    (l ++ bs.flatMap fun b => (f b).eraseDups).eraseDups = (l ++ bs.flatMap f).eraseDups := by
  induction bs generalizing l with
  | nil => rfl
  | cons b bs ih =>
    calc (l ++ ((f b).eraseDups ++ bs.flatMap fun b => (f b).eraseDups)).eraseDups
        = ((l ++ (f b).eraseDups) ++ bs.flatMap f).eraseDups := by rw [← List.append_assoc, ih]
      _ = ((l ++ f b) ++ bs.flatMap f).eraseDups := by
        rw [← eraseDups_eraseDups_append, eraseDups_append_eraseDups, eraseDups_eraseDups_append]
      _ = (l ++ (f b ++ bs.flatMap f)).eraseDups := by rw [List.append_assoc]

end

namespace Builder

/-! ## What calls say -/

/-- The owners of the columns that a call brings into the statement's select list or its conditions. -/
def Step.mentions : Step → List Table
  | .select items | .selectDistinct items => items.flatMap Expr.owners
  | .where p | .and p =>
    match p.condition? with
    | .ok c => c.owners
    | .error _ => []
  | _ => []

/-- The tables that a call joins. -/
def Step.joins : Step → List Table
  | .join _ (.table t) => [t]
  | _ => []

/-- The call gives the statement a source. -/
def Step.isFrom : Step → Bool
  | .addSource _ | .addSources _ => true
  | _ => false

/-- The call restricts the rows. -/
def Step.isWhere : Step → Bool
  | .where _ | .and _ => true
  | _ => false

/-- The tables mentioned, each once, in the order of their first mention. -/
def mentioned (calls : List Step) : List Table := (calls.flatMap Step.mentions).eraseDups

/-- The tables joined. -/
def joined (calls : List Step) : List Table := calls.flatMap Step.joins

/-- The tables mentioned that go by the name of no table joined. -/
def unjoined (calls : List Step) : List Table :=
  (mentioned calls).filter fun t => !(joined calls).any fun j => j.reference = t.reference

/-- The calls up to each that restricts the rows, this one included. -/
def restrictions (calls : List Step) : List (List Step) :=
  calls.inits.filter fun front => front.getLast?.any Step.isWhere

/-- The last list that is not empty. -/
def lastFilled (tss : List (List Table)) : List Table := (tss.filter (!·.isEmpty)).getLastD []

/-- The tables that the calls have made FROM of so far. -/
def writtenTables (calls : List Step) : List Table := lastFilled ((restrictions calls).map unjoined)

/-- The tables that FROM is made of in the end. -/
def settledTables (calls : List Step) : List Table :=
  lastFilled ((restrictions calls ++ [calls]).map unjoined)

/-- Tables as sources: several of them get an alias each. -/
def sourcesOf (ts : List Table) : List Source :=
  if ts.length ≤ 1 then ts.map .table else ts.map fun t => .table t.aliased

/-! ## One call more -/

variable {b b' : Builder} {s : Step} {calls : List Step} {c : Clause} {t t' : Statement}

theorem impliedSources_eq (calls : List Step) :
    impliedSources (mentioned calls) (joined calls) = sourcesOf (unjoined calls) := rfl

theorem sourcesOf_eq_nil_iff {ts : List Table} : sourcesOf ts = [] ↔ ts = [] := by
  unfold sourcesOf
  split <;> exact List.map_eq_nil_iff

theorem mentioned_append (calls : List Step) (s : Step) :
    mentioned (calls ++ [s]) = (mentioned calls ++ s.mentions).eraseDups := by
  rw [mentioned, mentioned, eraseDups_eraseDups_append, List.flatMap_append, List.flatMap_singleton]

theorem joined_append (calls : List Step) (s : Step) :
    joined (calls ++ [s]) = joined calls ++ s.joins := by
  rw [joined, joined, List.flatMap_append, List.flatMap_singleton]

theorem restrictions_append (calls : List Step) (s : Step) :
    restrictions (calls ++ [s]) =
      restrictions calls ++ if s.isWhere then [calls ++ [s]] else [] := by
  have hlast : (calls ++ [s]).getLast?.any Step.isWhere = s.isWhere := by
    rw [List.getLast?_concat, Option.any_some]
  have hmore : (calls ++ [s]).inits = calls.inits ++ [calls ++ [s]] := List.inits_append calls [s]
  rw [restrictions, restrictions, hmore, List.filter_append, List.filter_cons, hlast, List.filter_nil]

theorem lastFilled_concat (tss : List (List Table)) (ts : List Table) :
    lastFilled (tss ++ [ts]) = if ts = [] then lastFilled tss else ts := by
  unfold lastFilled
  cases ts with
  | nil => simp
  | cons t ts => simp [List.filter_append]

theorem lastFilled_eq_nil_iff {tss : List (List Table)} :
    lastFilled tss = [] ↔ ∀ ts ∈ tss, ts = [] := by
  induction tss using List.reverseRecOn with
  | nil => exact ⟨fun _ _ h => absurd h List.not_mem_nil, fun _ => rfl⟩
  | append_singleton tss ts ih =>
    rw [lastFilled_concat, List.forall_mem_append, List.forall_mem_singleton]
    split
    · next hts => rw [ih, and_iff_left hts]
    · next hts => exact ⟨fun h => absurd h hts, fun h => h.2⟩

/-- It is one of the lists, unless they are all empty. -/
theorem lastFilled_mem {tss : List (List Table)} (h : lastFilled tss ≠ []) : lastFilled tss ∈ tss := by
  induction tss using List.reverseRecOn with
  | nil => exact absurd rfl h
  | append_singleton tss ts ih =>
    rw [lastFilled_concat] at h ⊢
    split
    · next hts =>
      rw [if_pos hts] at h
      exact List.mem_append_left _ (ih h)
    · exact List.mem_append_right _ (List.mem_singleton_self ts)

theorem writtenTables_append_of_isWhere (h : s.isWhere = true) (calls : List Step) :
    writtenTables (calls ++ [s]) =
      if unjoined (calls ++ [s]) = [] then writtenTables calls else unjoined (calls ++ [s]) := by
  rw [writtenTables, restrictions_append, if_pos h, List.map_append, List.map_singleton,
    lastFilled_concat, writtenTables]

theorem writtenTables_append_of_not_isWhere (h : s.isWhere = false) (calls : List Step) :
    writtenTables (calls ++ [s]) = writtenTables calls := by
  rw [writtenTables, restrictions_append, h, if_neg Bool.false_ne_true, List.append_nil, writtenTables]

theorem settledTables_eq (calls : List Step) :
    settledTables calls =
      if unjoined calls = [] then writtenTables calls else unjoined calls := by
  rw [settledTables, List.map_append, List.map_singleton, lastFilled_concat, writtenTables]

/-! ## What a builder knows -/

/-- The builder is as the calls say that made its statement. -/
structure Follows (b : Builder) (calls : List Step) : Prop where
  implied : b.implied = mentioned calls
  joined : joinedTables b.statement = joined calls
  referenced : ∀ u, u ∈ b.statement.referencedTables ↔ u ∈ mentioned calls
  sources : b.statement.kind = .select → (∀ s ∈ calls, s.isFrom = false) →
    b.statement.sources = sourcesOf (writtenTables calls) ∧
      b.fromImplied = !(writtenTables calls).isEmpty

/-- The statement is as the calls say that it is made of, and settled. -/
structure Settles (calls : List Step) (t : Statement) : Prop where
  joined : joinedTables t = joined calls
  referenced : ∀ u, u ∈ t.referencedTables ↔ u ∈ mentioned calls
  sources : t.kind = .select → (∀ s ∈ calls, s.isFrom = false) →
    t.sources = sourcesOf (settledTables calls)

theorem follows_new {b : Builder} (himplied : b.implied = []) (hstatement : b.statement = .empty)
    (hflag : b.fromImplied = false) : Follows b [] := by
  refine ⟨himplied, ?_, ?_, fun _ _ => ?_⟩
  · rw [hstatement]
    rfl
  · rw [hstatement]
    exact fun u => Iff.rfl
  · rw [hstatement]
    exact ⟨rfl, hflag⟩

/-- The tables that a settled FROM is made of, if it was made of `ts` before. -/
theorem sources_settle {ts : List Table} (himplied : b.implied = mentioned calls)
    (hjoined : joinedTables b.statement = joined calls) (hkind : b.statement.kind = .select)
    (hsources : b.statement.sources = sourcesOf ts) (hflag : b.fromImplied = !ts.isEmpty) :
    let us := if unjoined calls = [] then ts else unjoined calls
    b.settle.statement.sources = sourcesOf us ∧ b.settle.fromImplied = !us.isEmpty := by
  have hfree : b.statement.sources = [] ∨ b.fromImplied = true := by
    cases ts with
    | nil => exact .inl (hsources.trans (sourcesOf_eq_nil_iff.mpr rfl))
    | cons t ts => exact .inr hflag
  have hfresh : b.freshSources = sourcesOf (unjoined calls) := by
    rw [freshSources, if_pos ⟨hkind, hfree⟩, himplied, hjoined, impliedSources_eq]
  intro us
  rw [settle_eq, hfresh]
  by_cases hnone : unjoined calls = []
  · have hus : us = ts := if_pos hnone
    rw [if_pos (sourcesOf_eq_nil_iff.mpr hnone), hus]
    exact ⟨hsources, hflag⟩
  · have hus : us = unjoined calls := if_neg hnone
    rw [if_neg (mt sourcesOf_eq_nil_iff.mp hnone), hus]
    exact ⟨rfl, by simp [hnone]⟩

/-- Settling changes the sources only. -/
theorem joinedTables_settle (b : Builder) :
    joinedTables b.settle.statement = joinedTables b.statement := by
  rw [statement_settle]
  split <;> rfl

theorem referencedTables_settle (b : Builder) :
    b.settle.statement.referencedTables = b.statement.referencedTables := by
  rw [statement_settle]
  split <;> rfl

theorem kind_settle (b : Builder) : b.settle.statement.kind = b.statement.kind := by
  rw [statement_settle]
  split <;> rfl

theorem Follows.settles (h : Follows b calls) : Settles calls b.settled.last := by
  refine ⟨?_, ?_, fun hkind hfrom => ?_⟩
  · exact (joinedTables_settle b).trans h.joined
  · intro u
    have hrefer := referencedTables_settle b
    exact hrefer ▸ h.referenced u
  · have hselect : b.statement.kind = .select := (kind_settle b) ▸ hkind
    obtain ⟨hsources, hflag⟩ := h.sources hselect hfrom
    rw [settledTables_eq]
    exact (sources_settle h.implied h.joined hselect hsources hflag).1

/-! ## Call by call -/

theorem joinedTables_on {j : Join} (h : t.joins.getLast? = some j) (on : Option Condition) :
    joinedTables { t with joins := t.joins.dropLast ++ [{ j with on := on }] } = joinedTables t := by
  have hjoins : t.joins = t.joins.dropLast ++ [j] := (List.dropLast_append_getLast? j h).symm
  unfold joinedTables
  conv_rhs => rw [hjoins]
  rw [List.filterMap_append, List.filterMap_append]
  rfl

/-- What a call that keeps to its statement leaves of it, and what it says. -/
theorem Edits.leaves (h : Edits t s c t') :
    t'.kind = t.kind ∧ t'.sources = t.sources ∧ t'.referencedTables = t.referencedTables ∧
      joinedTables t' = joinedTables t ++ s.joins ∧ s.mentions = [] ∧ s.isWhere = false := by
  cases h with
  | join kind source =>
    refine ⟨rfl, rfl, rfl, ?_, rfl, rfl⟩
    unfold joinedTables
    rw [List.filterMap_append]
    cases source <;> rfl
  | on condition last kind =>
    refine ⟨rfl, rfl, rfl, ?_, rfl, rfl⟩
    rw [joinedTables_on last]
    exact (List.append_nil _).symm
  | _ => exact ⟨rfl, rfl, rfl, (List.append_nil _).symm, rfl, rfl⟩

theorem Opens.leaves (h : Opens t s c t') :
    t'.kind ≠ .select ∧ t'.referencedTables = t.referencedTables ∧ joinedTables t' = joinedTables t ∧
      s.mentions = [] ∧ s.joins = [] := by
  cases h <;> exact ⟨by simp, rfl, rfl, rfl, rfl⟩

theorem leaves_dropImplied (b : Builder) :
    b.dropImplied.implied = b.implied ∧
      joinedTables b.dropImplied.statement = joinedTables b.statement ∧
      b.dropImplied.statement.referencedTables = b.statement.referencedTables := by
  unfold dropImplied
  split <;> exact ⟨rfl, rfl, rfl⟩

theorem Names.says {sources : List Source} (h : Names s sources) :
    s.isFrom = true ∧ s.mentions = [] ∧ s.joins = [] := by
  cases h <;> exact ⟨rfl, rfl, rfl⟩

theorem Selects.says {items : List Expr} {distinct : Bool} (h : Selects s items distinct) :
    s.mentions = items.flatMap Expr.owners ∧ s.joins = [] ∧ s.isWhere = false := by
  cases h <;> exact ⟨rfl, rfl, rfl⟩

theorem Restricts.says {w : Condition} (h : Restricts s c w) :
    s.mentions = w.owners ∧ s.joins = [] ∧ s.isWhere = true := by
  cases h with
  | «where» condition => exact ⟨by simp [Step.mentions, condition], rfl, rfl⟩
  | and condition => exact ⟨by simp [Step.mentions, condition], rfl, rfl⟩

theorem mem_mentioned_append {u : Table} :
    u ∈ mentioned (calls ++ [s]) ↔ u ∈ mentioned calls ∨ u ∈ s.mentions := by
  rw [mentioned_append, List.mem_eraseDups, List.mem_append]

theorem mentioned_append_of_nil (h : s.mentions = []) (calls : List Step) :
    mentioned (calls ++ [s]) = mentioned calls := by
  rw [mentioned_append, h, List.append_nil]
  exact eraseDups_eraseDups _

theorem mem_referencedTables_select (t : Statement) (items : List Expr) (distinct : Bool) (u : Table) :
    u ∈ ({ t with
        kind := .select, distinct := t.distinct || distinct,
        selects := t.selects ++ items } : Statement).referencedTables ↔
      u ∈ t.referencedTables ∨ u ∈ items.flatMap Expr.owners := by
  simp only [Statement.mem_referencedTables, List.mem_append, List.mem_flatMap, or_and_right, exists_or]
  exact or_right_comm

theorem mem_referencedTables_where (t : Statement) (w : Condition) (u : Table) :
    u ∈ ({ t with wheres := t.wheres ++ [w] } : Statement).referencedTables ↔
      u ∈ t.referencedTables ∨ u ∈ w.owners := by
  simp only [Statement.mem_referencedTables, List.mem_append, List.mem_singleton, or_and_right,
    exists_or, exists_eq_left, or_assoc]

/-- One call more, which restricts no rows: it may mention tables and join some, but of a SELECT it
leaves the sources, unless it gives one. -/
theorem Follows.next (h : Follows b calls) (himplied : b'.implied = mentioned (calls ++ [s]))
    (hjoined : joinedTables b'.statement = joinedTables b.statement ++ s.joins)
    (hreferenced : ∀ u, u ∈ b'.statement.referencedTables ↔
      u ∈ b.statement.referencedTables ∨ u ∈ s.mentions)
    (hsources : b'.statement.kind = .select → s.isFrom = false →
      b.statement.kind = .select ∧ s.isWhere = false ∧
        b'.statement.sources = b.statement.sources ∧ b'.fromImplied = b.fromImplied) :
    Follows b' (calls ++ [s]) := by
  refine ⟨himplied, ?_, fun u => ?_, fun hkind hfrom => ?_⟩
  · rw [hjoined, h.joined, joined_append]
  · rw [hreferenced, h.referenced, mem_mentioned_append]
  · have hnot : s.isFrom = false := hfrom s (List.mem_append_right _ (List.mem_singleton_self s))
    obtain ⟨hselect, hwhere, hsame, hflag⟩ := hsources hkind hnot
    rw [hsame, hflag, writtenTables_append_of_not_isWhere hwhere]
    exact h.sources hselect fun s hs => hfrom s (List.mem_append_left _ hs)

/-- One call more, which mentions no table either. -/
theorem Follows.silent (h : Follows b calls) (hmentions : s.mentions = [])
    (himplied : b'.implied = b.implied)
    (hreferenced : b'.statement.referencedTables = b.statement.referencedTables)
    (hjoined : joinedTables b'.statement = joinedTables b.statement ++ s.joins)
    (hsources : b'.statement.kind = .select → s.isFrom = false →
      b.statement.kind = .select ∧ s.isWhere = false ∧
        b'.statement.sources = b.statement.sources ∧ b'.fromImplied = b.fromImplied) :
    Follows b' (calls ++ [s]) := by
  refine h.next ?_ hjoined (fun u => ?_) hsources
  · rw [himplied, h.implied, mentioned_append_of_nil hmentions]
  · rw [hmentions, hreferenced, or_iff_left List.not_mem_nil]

theorem follows_restricts {w : Condition} (h : Restricts s c w) (hb : Follows b calls) :
    Follows (((b.step c).imply w.tables).modify fun t =>
      { t with wheres := t.wheres ++ [w] }).settle (calls ++ [s]) := by
  obtain ⟨hmentions, hjoins, hwhere⟩ := h.says
  -- What is settled is generalized: only what the calls say of it matters from here on.
  generalize hb₁ :
    ((b.step c).imply w.tables).modify (fun t => { t with wheres := t.wheres ++ [w] }) = b₁
  have himplied : b₁.implied = mentioned (calls ++ [s]) := by
    subst hb₁
    show (b.implied ++ w.owners.eraseDups).eraseDups = _
    rw [hb.implied, eraseDups_append_eraseDups, mentioned_append, hmentions]
  have hjoined : joinedTables b₁.statement = joined (calls ++ [s]) := by
    subst hb₁
    rw [joined_append, hjoins, List.append_nil]
    exact hb.joined
  refine ⟨?_, ?_, fun u => ?_, fun hkind hfrom => ?_⟩
  · rw [implied_settle, himplied]
  · rw [joinedTables_settle, hjoined]
  · rw [referencedTables_settle, mem_mentioned_append, hmentions, ← hb.referenced]
    subst hb₁
    exact mem_referencedTables_where b.statement w u
  · have hselect : b₁.statement.kind = .select := (kind_settle b₁) ▸ hkind
    rw [writtenTables_append_of_isWhere hwhere]
    have hbefore : b₁.statement.sources = sourcesOf (writtenTables calls) ∧
        b₁.fromImplied = !(writtenTables calls).isEmpty := by
      subst hb₁
      exact hb.sources hselect fun s hs => hfrom s (List.mem_append_left _ hs)
    exact sources_settle himplied hjoined hselect hbefore.1 hbefore.2

/-- Whatever call is accepted, the builder goes on to be as the calls say. -/
theorem follows_acts (h : b.Acts s b') (hb : Follows b calls) : Follows b' (calls ++ [s]) := by
  cases h with
  | strict on | as name =>
    exact hb.silent rfl rfl rfl (List.append_nil _).symm fun hkind _ => ⟨hkind, rfl, rfl, rfl⟩
  | edits edits =>
    obtain ⟨hkind, hsources, hreferenced, hjoined, hmentions, hwhere⟩ := edits.leaves
    exact hb.silent hmentions rfl hreferenced hjoined fun hselect _ =>
      ⟨hkind.symm.trans hselect, hwhere, hsources, rfl⟩
  | names names =>
    obtain ⟨hfrom, hmentions, hjoins⟩ := names.says
    obtain ⟨himplied, hjoined, hreferenced⟩ := leaves_dropImplied (b.step .from)
    refine hb.silent hmentions himplied hreferenced ?_ fun _ hnot =>
      absurd hfrom (hnot ▸ Bool.false_ne_true)
    rw [hjoins, List.append_nil]
    exact hjoined
  | restricts restricts => exact follows_restricts restricts hb
  | selects selects clean =>
    obtain ⟨hmentions, hjoins, hwhere⟩ := selects.says
    have hkind := (eq_of_isDirty_eq_false clean).1
    refine hb.next ?_ ?_ (fun u => ?_) fun _ _ => ⟨hkind, hwhere, rfl, rfl⟩
    · show (b.implied ++ _).eraseDups = _
      unfold Expr.tables
      rw [hb.implied, eraseDups_append_flatMap, mentioned_append, hmentions]
    · rw [hjoins]
      exact (List.append_nil _).symm
    · rw [hmentions]
      exact mem_referencedTables_select b.statement _ _ u
  | opens opens clean =>
    obtain ⟨hkind, hreferenced, hjoined, hmentions, hjoins⟩ := opens.leaves
    refine hb.silent hmentions rfl hreferenced ?_ fun hselect _ => absurd hselect hkind
    rw [hjoins, List.append_nil]
    exact hjoined

/-- The statements of a run are as the calls say that they are made of, and the FROM of a SELECT that
was given no source is made of what was left of the tables mentioned. -/
theorem settles_run (d : Dialect) (steps : List Step) :
    List.Forall₂ Settles (callsOf d steps) ((Builder.new d).run steps).statements :=
  calls_induction (P := Follows)
    (fun _ => follows_new rfl rfl rfl)
    (fun _ _ h => h.settles)
    (fun _ _ _ => follows_new rfl rfl rfl)
    (fun _ _ _ _ hb h => follows_acts h hb)
    d steps

end Builder

end SqlKit
