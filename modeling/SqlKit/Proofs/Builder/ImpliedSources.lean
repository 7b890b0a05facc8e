import SqlKit.Proofs.Builder.Columns
import SqlKit.Proofs.Builder.Mentions

/-!
# What an implied FROM is good for

Whatever is called, and in whatever order, a SELECT that was given no source names each table that
owns one of its columns, in FROM or by a join, and FROM holds nothing else (`run_implied`).  Two things
about such a FROM hold for some calls only, and these are told apart exactly:

* It names nothing that is joined, as long as it is not left over from before the join, and no column's
  table goes by the name of a joined sub-query (`run_apart_iff`).  What a WHERE wrote down is left over
  if all tables mentioned are joined later (`run_repeats_joined`).
* A qualified column finds exactly one table in FROM, as long as no two different tables mentioned go by
  one name (`run_resolves_iff`, `run_ambiguous`).
-/

namespace SqlKit

namespace Statement

/-- The tables in FROM. -/
def fromTables (t : Statement) : List Table :=
  t.sources.filterMap fun s => match s with
    | .table u => some u
    | _ => none

/-- The names of the sub-queries that are joined. -/
def joinedAliases (t : Statement) : List String :=
  t.joins.filterMap fun j => match j.source with
    | .subquery _ name => name
    | _ => none

/-- FROM names nothing that is joined: no table that goes by the name of a joined one, and none of the
name of a joined sub-query. -/
def Apart (t : Statement) : Prop :=
  ∀ u ∈ t.fromTables,
    (∀ j ∈ Builder.joinedTables t, j.reference ≠ u.reference) ∧ u.name ∉ t.joinedAliases

/-- The tables in FROM that a column can be one of, by what it is qualified with. -/
def candidates (t : Statement) (c : Column) : List Table :=
  t.fromTables.filter fun u => c.table.any fun v => u.reference = v.reference

theorem length_candidates (t : Statement) (u : Table) (n : String) :
    (t.candidates (u.column n)).length = (t.fromTables.map Table.reference).count u.reference := by
  rw [List.count, List.countP_map, List.countP_eq_length_filter]
  rfl

/-- Names are different if no column finds two tables. -/
theorem nodup_references_iff (t : Statement) :
    (t.fromTables.map Table.reference).Nodup ↔
      ∀ c, t.candidates c ≠ [] → (t.candidates c).length = 1 := by
  rw [List.nodup_iff_count_le_one]
  constructor
  · rintro hcount ⟨n, _ | u⟩ hfinds
    · exact absurd (List.filter_eq_nil_iff.mpr fun _ _ => Bool.false_ne_true) hfinds
    · have hone := hcount u.reference
      rw [← length_candidates t u n] at hone
      have hsome : 0 < (t.candidates ⟨n, some u⟩).length := List.length_pos_iff.mpr hfinds
      exact Nat.le_antisymm hone hsome
  · intro hone n
    have hlength := length_candidates t (.named n) ""
    by_cases hfinds : t.candidates ((Table.named n).column "") = []
    · rw [hfinds] at hlength
      exact hlength.symm.le.trans (Nat.zero_le 1)
    · rw [hone _ hfinds] at hlength
      exact hlength.symm.le

end Statement

namespace Builder

variable {b b' : Builder} {calls front : List Step} {t : Statement} {ts : List Table} {u : Table}

/-! ## Settled tables -/

theorem nodup_mentioned (calls : List Step) : (mentioned calls).Nodup := nodup_eraseDups _

theorem mem_unjoined :
    u ∈ unjoined calls ↔ u ∈ mentioned calls ∧ ∀ j ∈ joined calls, j.reference ≠ u.reference := by
  simp [unjoined, List.mem_filter]

/-- What is mentioned first is listed first. -/
theorem mentioned_mono (h : front <+: calls) : mentioned front <+: mentioned calls := by
  obtain ⟨rest, rfl⟩ := h
  rw [mentioned, mentioned, List.flatMap_append, List.eraseDups_append]
  exact List.prefix_append _ _

theorem prefix_of_mem_restrictions (h : front ∈ restrictions calls) : front <+: calls :=
  (List.mem_inits _ _).mp (List.mem_filter.mp h).1

theorem unjoined_sublist (h : front <+: calls) : (unjoined front).Sublist (mentioned calls) :=
  List.filter_sublist.trans (mentioned_mono h).sublist

theorem writtenTables_sublist (calls : List Step) :
    (writtenTables calls).Sublist (mentioned calls) := by
  by_cases hnone : writtenTables calls = []
  · rw [hnone]
    exact List.nil_sublist _
  · obtain ⟨front, hfront, hwritten⟩ := List.mem_map.mp (lastFilled_mem hnone)
    rw [writtenTables, ← hwritten]
    exact unjoined_sublist (prefix_of_mem_restrictions hfront)

theorem settledTables_sublist (calls : List Step) :
    (settledTables calls).Sublist (mentioned calls) := by
  rw [settledTables_eq]
  split
  · exact writtenTables_sublist calls
  · exact unjoined_sublist List.prefix_rfl

theorem nodup_settledTables (calls : List Step) : (settledTables calls).Nodup :=
  (settledTables_sublist calls).nodup (nodup_mentioned calls)

/-! ## Tables as sources -/

/-- An alias of its own changes nothing about a table that does not depend on the alias. -/
theorem map_fromTables {α : Type} {f : Table → α} (hf : ∀ u, f u.aliased = f u)
    (h : t.sources = sourcesOf ts) : t.fromTables.map f = ts.map f := by
  have htable : ∀ us : List Table, (us.map Source.table).filterMap
      (fun s => match s with | .table u => some u | _ => none) = us := by
    intro us
    rw [List.filterMap_map]
    exact List.filterMap_some
  rw [Statement.fromTables, h, sourcesOf]
  split
  · rw [htable]
  · have hcomp : (ts.map fun u => Source.table u.aliased) = (ts.map Table.aliased).map Source.table :=
      List.map_map.symm
    rw [hcomp, htable, List.map_map]
    exact List.map_congr_left fun u _ => hf u

theorem forall_fromTables (h : t.sources = sourcesOf ts) {P : String × String → Prop} :
    (∀ u ∈ t.fromTables, P (u.reference, u.name)) ↔ ∀ u ∈ ts, P (u.reference, u.name) := by
  have hmap := map_fromTables (f := fun u => (u.reference, u.name)) (fun _ => rfl) h
  rw [← List.forall_mem_map (f := fun u : Table => (u.reference, u.name)), hmap, List.forall_mem_map]

/-! ## Settling twice -/

/-- What settling writes down it would write down again. -/
theorem settle_settle (b : Builder) : b.settle.settle = b.settle := by
  by_cases hfresh : b.freshSources = []
  · have hsettle : b.settle = b := by rw [settle_eq, if_pos hfresh]
    rw [hsettle, hsettle]
  · obtain ⟨hkind, -, himplied⟩ := freshSources_of_ne_nil hfresh
    have hsettle : b.settle =
        { b.modify fun t => { t with sources := b.freshSources } with fromImplied := true } := by
      rw [settle_eq, if_neg hfresh]
    have hagain : b.settle.freshSources = b.freshSources := by
      rw [freshSources, kind_settle, joinedTables_settle, implied_settle, himplied]
      exact if_pos ⟨hkind, .inr (by rw [hsettle])⟩
    rw [settle_eq b.settle, hagain, if_neg hfresh, hsettle]
    rfl

/-! ## SELECTs without a source of their own -/

/-- The statement is a SELECT, and the calls that it is made of gave it no source. -/
structure Unsourced (calls : List Step) (t : Statement) : Prop where
  kind : t.kind = .select
  ungiven : ∀ s ∈ calls, s.isFrom = false

/-- FROM is as the columns of the statement imply. -/
structure Implied (calls : List Step) (t : Statement) : Prop where
  /-- A table is referred to if it owns a column. -/
  refers : ∀ u, u ∈ t.referencedTables ↔ ∃ c, t.Uses c ∧ c.table = some u
  /-- The columns of each table that is referred to find a table of this name. -/
  found : ∀ u ∈ t.referencedTables, ∃ v ∈ t.fromTables ++ joinedTables t, v.reference = u.reference
  /-- FROM is made of such tables, each once and in the order of their first mention, with an alias
  each if they are several. -/
  made : ∃ us : List Table,
    us.Sublist (mentioned calls) ∧ us.Nodup ∧ (∀ u ∈ us, u ∈ t.referencedTables) ∧
      t.sources = if us.length ≤ 1 then us.map .table else us.map fun u => .table u.aliased
  /-- To settle the statement again changes nothing. -/
  again : ∀ b : Builder, b.statement = t → b.implied = mentioned calls → b.settle.statement = t

theorem Settles.sources_eq (h : Settles calls t) (hu : Unsourced calls t) :
    t.sources = sourcesOf (settledTables calls) := h.sources hu.kind hu.ungiven

theorem Settles.found (h : Settles calls t) (hu : Unsourced calls t) (hmem : u ∈ t.referencedTables) :
    ∃ v ∈ t.fromTables ++ joinedTables t, v.reference = u.reference := by
  have hmentioned : u ∈ mentioned calls := (h.referenced u).mp hmem
  by_cases hjoined : ∃ j ∈ Builder.joined calls, j.reference = u.reference
  · obtain ⟨j, hj, href⟩ := hjoined
    exact ⟨j, List.mem_append_right _ (h.joined ▸ hj), href⟩
  · have hleft : u ∈ unjoined calls :=
      mem_unjoined.mpr ⟨hmentioned, fun j hj href => hjoined ⟨j, hj, href⟩⟩
    have hsettled : settledTables calls = unjoined calls := by
      rw [settledTables_eq, if_neg (List.ne_nil_of_mem hleft)]
    have hnames : t.fromTables.map Table.reference = (unjoined calls).map Table.reference :=
      map_fromTables (fun _ => rfl) (hsettled ▸ h.sources_eq hu)
    obtain ⟨v, hv, href⟩ := List.mem_map.mp (hnames ▸ List.mem_map_of_mem hleft)
    exact ⟨v, List.mem_append_left _ hv, href⟩

theorem Settles.again (h : Settles calls t) (hu : Unsourced calls t) (hb : b.statement = t)
    (himplied : b.implied = mentioned calls) : b.settle.statement = t := by
  rw [statement_settle, hb]
  split
  · rfl
  · next hfresh =>
    have hwrites : b.freshSources = sourcesOf (unjoined calls) := by
      rw [(freshSources_of_ne_nil hfresh).2.2, himplied, hb, h.joined, impliedSources_eq]
    have hsome : unjoined calls ≠ [] := fun hnone =>
      hfresh (hwrites.trans (sourcesOf_eq_nil_iff.mpr hnone))
    have hsame : b.freshSources = t.sources := by
      rw [hwrites, h.sources_eq hu, settledTables_eq, if_neg hsome]
    rw [hsame]
    -- A statement is itself with its own sources, but only its constructor shows it.
    cases t
    rfl

theorem Settles.implied (h : Settles calls t) (hu : Unsourced calls t) : Implied calls t where
  refers _ := Statement.mem_referencedTables_iff
  found _ := h.found hu
  made := ⟨settledTables calls, settledTables_sublist calls, nodup_settledTables calls,
    fun u hmem => (h.referenced u).mpr ((settledTables_sublist calls).subset hmem), h.sources_eq hu⟩
  again _ := h.again hu

/-- **FROM is as the columns imply.**  Whatever is called, each SELECT of a run that was given no source
finds the tables of its columns, and settling it twice changes nothing. -/
theorem run_implied (d : Dialect) (steps : List Step) :
    let b := (Builder.new d).run steps
    List.Forall₂ (fun calls t => Unsourced calls t → Implied calls t) (callsOf d steps) b.statements ∧
      b.settle.settle = b.settle :=
  ⟨(settles_run d steps).imp fun _ _ h hu => h.implied hu, settle_settle _⟩

/-- Names of users and totals of orders, of two tables. -/
theorem run_implied_shop :
    let users := Table.named "users"
    let orders := Table.named "orders"
    let shop : List Step :=
      [.select [.column (users.column "name"), .column (orders.column "total")],
        .where (.condition (.compare (users.column "id") .eq (.column (orders.column "user_id"))))]
    let t := ((Builder.new .sqlite).run shop).settled.last
    Unsourced shop t ∧ Implied shop t ∧ t.fromTables = [users.aliased, orders.aliased] := by
  intro users orders shop t
  have hu : Unsourced shop t := ⟨by decide +kernel, by simp [shop, Step.isFrom]⟩
  have himplied : Implied shop t :=
    rel_of_single (run_implied .sqlite shop).1 (by decide +kernel) (by decide +kernel) hu
  exact ⟨hu, himplied, by decide +kernel⟩

/-! ## What is joined -/

/-- FROM is not left over: where all tables mentioned are joined in the end, none was written down
before. -/
def Steady (calls : List Step) : Prop :=
  unjoined calls = [] → ∀ front ∈ restrictions calls, unjoined front = []

theorem steady_iff : Steady calls ↔ (unjoined calls = [] → settledTables calls = []) := by
  refine imp_congr_right fun hnone => ?_
  rw [settledTables_eq, if_pos hnone, writtenTables, lastFilled_eq_nil_iff, List.forall_mem_map]

theorem settledTables_of_steady (h : Steady calls) : settledTables calls = unjoined calls := by
  by_cases hnone : unjoined calls = []
  · rw [steady_iff.mp h hnone, hnone]
  · rw [settledTables_eq, if_neg hnone]

/-- Where no table mentioned is left, each is joined. -/
theorem joined_of_mem_mentioned (hnone : unjoined calls = []) (hu : u ∈ mentioned calls) :
    ∃ j ∈ joined calls, j.reference = u.reference := by
  by_contra hapart
  have hleft : u ∈ unjoined calls := mem_unjoined.mpr ⟨hu, fun j hj href => hapart ⟨j, hj, href⟩⟩
  rw [hnone] at hleft
  exact List.not_mem_nil hleft

theorem Settles.sources_iff (h : Settles calls t) (hu : Unsourced calls t) :
    t.sources = impliedSources (mentioned calls) (joinedTables t) ↔ Steady calls := by
  rw [h.joined, impliedSources_eq, h.sources_eq hu]
  constructor
  · intro hsources
    refine steady_iff.mpr fun hnone => ?_
    rw [hnone] at hsources
    exact sourcesOf_eq_nil_iff.mp hsources
  · intro hsteady
    rw [settledTables_of_steady hsteady]

theorem Settles.apart_iff (h : Settles calls t) (hu : Unsourced calls t) :
    t.Apart ↔ Steady calls ∧ ∀ u ∈ unjoined calls, u.name ∉ t.joinedAliases := by
  have hapart : t.Apart ↔ ∀ u ∈ settledTables calls,
      (∀ j ∈ Builder.joined calls, j.reference ≠ u.reference) ∧ u.name ∉ t.joinedAliases := by
    rw [Statement.Apart, h.joined]
    exact forall_fromTables (h.sources_eq hu)
      (P := fun n => (∀ j ∈ Builder.joined calls, j.reference ≠ n.1) ∧ n.2 ∉ t.joinedAliases)
  rw [hapart]
  constructor
  · intro hall
    have hsteady : Steady calls := by
      refine steady_iff.mpr fun hnone => List.eq_nil_iff_forall_not_mem.mpr fun u hmem => ?_
      obtain ⟨j, hj, href⟩ := joined_of_mem_mentioned hnone ((settledTables_sublist calls).subset hmem)
      exact (hall u hmem).1 j hj href
    exact ⟨hsteady, fun u hmem => (hall u (settledTables_of_steady hsteady ▸ hmem)).2⟩
  · rintro ⟨hsteady, hnames⟩ u hmem
    rw [settledTables_of_steady hsteady] at hmem
    exact ⟨(mem_unjoined.mp hmem).2, hnames u hmem⟩

/-- **FROM and what is joined.**  Of each SELECT of a run that was given no source, FROM names nothing
that is joined if and only if it is not left over and no table in it goes by the name of a joined
sub-query; and it depends on the tables mentioned and those joined alone, whatever the order of the
calls, if and only if it is not left over. -/
theorem run_apart_iff (d : Dialect) (steps : List Step) :
    List.Forall₂
      (fun calls t => Unsourced calls t →
        (t.Apart ↔ Steady calls ∧ ∀ u ∈ unjoined calls, u.name ∉ t.joinedAliases) ∧
          (t.sources = impliedSources (mentioned calls) (joinedTables t) ↔ Steady calls))
      (callsOf d steps) ((Builder.new d).run steps).statements :=
  (settles_run d steps).imp fun _ _ h hu => ⟨h.apart_iff hu, h.sources_iff hu⟩

/-- Users and the orders that are joined to them, restricted after the join. -/
theorem run_apart_iff_orders :
    let users := Table.named "users"
    let orders := Table.named "orders"
    let shop : List Step :=
      [.select [.column (users.column "name")], .join .inner (.table orders),
        .where (.condition (.compare (users.column "id") .eq (.column (orders.column "user_id"))))]
    let t := ((Builder.new .sqlite).run shop).settled.last
    Unsourced shop t ∧ Steady shop ∧ t.Apart ∧ t.fromTables = [users] := by
  intro users orders shop t
  have hu : Unsourced shop t := ⟨by decide +kernel, by simp [shop, Step.isFrom]⟩
  have hsome : unjoined shop ≠ [] := by decide +kernel
  have hsteady : Steady shop := fun hnone => absurd hnone hsome
  have hnames : ∀ u ∈ unjoined shop, u.name ∉ t.joinedAliases := by decide +kernel
  obtain ⟨hapart, -⟩ :=
    rel_of_single (run_apart_iff .sqlite shop) (by decide +kernel) (by decide +kernel) hu
  exact ⟨hu, hsteady, hapart.mpr ⟨hsteady, hnames⟩, by decide +kernel⟩

/-- A table whose rows are restricted before it is joined stands in FROM and is joined; restricted
after, it is joined only. -/
theorem run_repeats_joined :
    let users := Table.named "users"
    let first : Step := .select [.column (users.column "id")]
    let restrict : Step :=
      .where (.condition (.compare (users.column "id") .eq (.value (.int 1))))
    let join : Step := .join .inner (.table users)
    let before := ((Builder.new .sqlite).run [first, restrict, join]).settled.last
    let after := ((Builder.new .sqlite).run [first, join, restrict]).settled.last
    (before.fromTables = [users] ∧ joinedTables before = [users] ∧ ¬before.Apart) ∧
      (after.fromTables = [] ∧ joinedTables after = [users]) ∧
      ((Builder.new .sqlite).run [first, restrict, join]).toSql =
        .ok ("SELECT \"users\".\"id\" FROM \"users\" INNER JOIN \"users\" " ++
          "WHERE \"users\".\"id\" = ?") := by
  intro users first restrict join before after
  have hfrom : before.fromTables = [users] := by decide +kernel
  have hjoined : joinedTables before = [users] := by decide +kernel
  refine ⟨⟨hfrom, hjoined, fun hapart => ?_⟩, ⟨by decide +kernel, by decide +kernel⟩, by decide +kernel⟩
  have hu : users ∈ before.fromTables := hfrom ▸ List.mem_singleton_self users
  exact (hapart users hu).1 users (hjoined ▸ List.mem_singleton_self users) rfl

/-- A column of a joined sub-query puts a table of the sub-query's name in FROM. -/
example :
    let totals : Source := .subquery { sources := [.table (.named "orders")] } (some "o")
    let t := ((Builder.new .sqlite).run [.select [.column ((Table.named "users").column "name"),
      .column ((Table.named "o").column "spent")], .join .inner totals]).settled.last
    t.fromTables.map Table.name = ["users", "o"] ∧ t.joinedAliases = ["o"] := by
  decide +kernel

/-! ## What columns find -/

/-- No two different tables that FROM is made of go by one name. -/
def Distinct (calls : List Step) : Prop :=
  ∀ u ∈ settledTables calls, ∀ v ∈ settledTables calls, u.reference = v.reference → u = v

theorem Settles.nodup_references_iff (h : Settles calls t) (hu : Unsourced calls t) :
    (t.fromTables.map Table.reference).Nodup ↔ Distinct calls := by
  rw [map_fromTables (fun _ => rfl) (h.sources_eq hu)]
  exact List.nodup_map_iff_inj_on (nodup_settledTables calls)

theorem Settles.resolves_iff (h : Settles calls t) (hu : Unsourced calls t) :
    (∀ c, t.candidates c ≠ [] → (t.candidates c).length = 1) ↔ Distinct calls := by
  rw [← Statement.nodup_references_iff, h.nodup_references_iff hu]

/-- **FROM and the columns it is for.**  Of each SELECT of a run that was given no source, the tables in
FROM go by different names if and only if no two different tables that it is made of go by one name; and
so does each qualified column that finds a table in FROM find exactly one. -/
theorem run_resolves_iff (d : Dialect) (steps : List Step) :
    List.Forall₂
      (fun calls t => Unsourced calls t →
        ((t.fromTables.map Table.reference).Nodup ↔ Distinct calls) ∧
          ((∀ c, t.candidates c ≠ [] → (t.candidates c).length = 1) ↔ Distinct calls))
      (callsOf d steps) ((Builder.new d).run steps).statements :=
  (settles_run d steps).imp fun _ _ h hu => ⟨h.nodup_references_iff hu, h.resolves_iff hu⟩

/-- Names of staff and of their superiors, from one table under two aliases. -/
theorem run_resolves_iff_staff :
    let worker : Table := ⟨"staff", none, some "w"⟩
    let boss : Table := ⟨"staff", none, some "b"⟩
    let calls : List Step :=
      [.select [.column (worker.column "name"), .column (boss.column "name")],
        .where (.condition (.compare (worker.column "boss") .eq (.column (boss.column "id"))))]
    let t := ((Builder.new .sqlite).run calls).settled.last
    Unsourced calls t ∧ Distinct calls ∧ (t.fromTables.map Table.reference).Nodup ∧
      (t.candidates (boss.column "id")).length = 1 := by
  intro worker boss calls t
  have hu : Unsourced calls t := ⟨by decide +kernel, by simp [calls, Step.isFrom]⟩
  have hdistinct : Distinct calls := by
    unfold Distinct
    decide +kernel
  obtain ⟨hnames, hcolumns⟩ :=
    rel_of_single (run_resolves_iff .sqlite calls) (by decide +kernel) (by decide +kernel) hu
  have hfinds : t.candidates (boss.column "id") ≠ [] := by decide +kernel
  exact ⟨hu, hdistinct, hnames.mpr hdistinct, hcolumns.mpr hdistinct _ hfinds⟩

/-- A table under its own name and without an alias stands in FROM twice, and its columns find both. -/
theorem run_ambiguous :
    let users := Table.named "users"
    let b := (Builder.new .sqlite).run
      [.select [.column (users.aliased.column "id"), .column (users.column "name")]]
    let t := b.settled.last
    t.fromTables = [users.aliased, users.aliased] ∧ ¬(t.fromTables.map Table.reference).Nodup ∧
      (t.candidates (users.column "name")).length = 2 ∧
      b.toSql =
        .ok ("SELECT \"users\".\"id\", \"users\".\"name\" " ++
          "FROM \"users\" AS \"users\", \"users\" AS \"users\"") := by
  decide +kernel

/-- Nor do the aliases that FROM adds keep two tables of one name apart. -/
example :
    let t := ((Builder.new .sqlite).run
      [.select [.column ((Table.ofPath "a.users").column "id"),
        .column ((Table.ofPath "b.users").column "id")]]).settled.last
    t.fromTables.map Table.text =
      ["\"a\".\"users\" AS \"users\"", "\"b\".\"users\" AS \"users\""] := by
  decide +kernel

end Builder

end SqlKit
