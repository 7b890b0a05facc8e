import SqlKit.Proofs.Builder.Written

/-!
# The rows of an insertion

The rows that one call gives to an INSERT are checked against the column list, or against each other
if there is none.  Rows of several calls are not compared: without a column list they are as wide as
each call has them.

    rows that pass the check of a call are a batch for the columns     (batch_of_width)
    the rows of a statement are the batches of its calls               (rows_run)
    t.Rectangular ↔ t has columns, or its batches are of one width     (Collects.rectangular_iff)
    what is built has such rows                                        (build_rectangular_iff)
-/

namespace SqlKit

/-- The rows of a statement are filled, of one length, and as long as the column list if there is
one. -/
structure Statement.Rectangular (t : Statement) : Prop where
  filled : ∀ row ∈ t.insertRows, row ≠ []
  uniform : ∀ row ∈ t.insertRows, ∀ other ∈ t.insertRows, row.length = other.length
  columns : t.insertColumns ≠ [] → ∀ row ∈ t.insertRows, row.length = t.insertColumns.length

/-- An insertion of rows writes them all, one behind the other. -/
theorem Statement.draft_rows {t : Statement} (hkind : t.kind = .insert) (hquery : t.insertQuery = none)
    (hrows : t.insertRows ≠ []) (hsound : t.draft.fault = none) :
    ∃ before after : Draft,
      t.draft = before ++ .clause " VALUES " ", " (rowDrafts t.insertRows) ++ after := by
  rw [draft_insert hkind] at hsound ⊢
  cases htable : t.insertTable with
  | none =>
    rw [htable] at hsound
    contradiction
  | some table =>
    have hinserted : insertedDraft t.insertRows (draft? t.insertQuery) =
        .clause " VALUES " ", " (rowDrafts t.insertRows) := by
      rw [hquery, draft?]
      cases h : t.insertRows with
      | nil => contradiction
      | cons row rows => rfl
    refine ⟨withDraft (Cte.drafts t.ctes) ++ insertTargetDraft table t.insertColumns,
      conflictDraft t.onConflict ++ returningDraft t.returning, ?_⟩
    rw [insertDraft, hinserted]
    simp only [Draft.append_assoc]

namespace Builder

variable {b b' : Builder} {s : Step} {c : Clause} {t t' : Statement} {calls : List Step}

/-! ## Batches -/

/-- The rows that a call gives. -/
def Step.rows? : Step → Option (List (List Value))
  | .values rows => some rows
  | _ => none

/-- The rows that calls give, each call for itself. -/
def batches (calls : List Step) : List (List (List Value)) := calls.filterMap Step.rows?

/-- The length of the first row. -/
def width (rows : List (List Value)) : Nat := (rows.headD []).length

/-- Rows that one call may give to a statement with these columns. -/
structure Batch (columns : List String) (rows : List (List Value)) : Prop where
  nonempty : rows ≠ []
  filled : ∀ row ∈ rows, row ≠ []
  even : ∀ row ∈ rows, row.length = width rows
  columns : columns ≠ [] → width rows = columns.length

/-- The check of a call, taken apart. -/
theorem batch_of_width {columns : List String} {rows : List (List Value)}
    (hfilled : rows.all List.isEmpty = false)
    (hwidth : ∀ row ∈ rows, row.length =
      if columns.length = 0 then (rows.headD []).length else columns.length) :
    Batch columns rows := by
  obtain ⟨row, hrow, hne⟩ : ∃ row ∈ rows, row ≠ [] := by simpa using hfilled
  obtain ⟨first, rest, rfl⟩ := List.exists_cons_of_ne_nil (List.ne_nil_of_mem hrow)
  have hfirst := hwidth first List.mem_cons_self
  have heven : ∀ r ∈ first :: rest, r.length = width (first :: rest) := by
    intro r hr
    rw [hwidth r hr, ← hfirst]
    rfl
  refine ⟨List.cons_ne_nil _ _, fun r hr => ?_, heven, fun hcolumns => ?_⟩
  · rw [← List.length_pos_iff, heven r hr, ← heven row hrow, List.length_pos_iff]
    exact hne
  · have hlength : columns.length ≠ 0 := mt List.length_eq_zero_iff.mp hcolumns
    rw [if_neg hlength] at hfirst
    exact hfirst

/-! ## Call by call -/

/-- A statement has the rows that its calls gave, and could be given them. -/
structure Collects (calls : List Step) (t : Statement) : Prop where
  rows : t.insertRows = (batches calls).flatten
  batch : ∀ rows ∈ batches calls, Batch t.insertColumns rows

theorem batches_concat (calls : List Step) (s : Step) :
    batches (calls ++ [s]) = batches calls ++ s.rows?.toList := by
  rw [batches, List.filterMap_append]
  cases h : s.rows? <;> simp [batches, h]

/-- A call that gives no rows, and leaves rows and columns as they are. -/
theorem Collects.silent (h : Collects calls t) (hs : s.rows? = none)
    (hrows : t'.insertRows = t.insertRows) (hcolumns : t'.insertColumns = t.insertColumns) :
    Collects (calls ++ [s]) t' := by
  have hbatches : batches (calls ++ [s]) = batches calls := by
    rw [batches_concat, hs]
    exact List.append_nil _
  refine ⟨?_, ?_⟩
  · rw [hrows, hbatches, h.rows]
  · rw [hcolumns, hbatches]
    exact h.batch

theorem Collects.values (h : Collects calls t) {rows : List (List Value)}
    (hbatch : Batch t.insertColumns rows) :
    Collects (calls ++ [.values rows]) { t with insertRows := t.insertRows ++ rows } := by
  have hbatches : batches (calls ++ [.values rows]) = batches calls ++ [rows] :=
    batches_concat calls _
  refine ⟨?_, ?_⟩
  · rw [hbatches, List.flatten_append, List.flatten_singleton, ← h.rows]
  · rw [hbatches]
    intro others hothers
    rcases List.mem_append.mp hothers with hothers | hothers
    · exact h.batch others hothers
    · obtain rfl := List.mem_singleton.mp hothers
      exact hbatch

theorem collects_edits (h : Edits t s c t') (ht : Collects calls t) : Collects (calls ++ [s]) t' := by
  cases h with
  | values kind filled width => exact ht.values (batch_of_width filled width)
  | _ => exact ht.silent rfl rfl rfl

/-- A statement that is opened has no rows yet, so that its columns come before them. -/
theorem collects_opens (h : Opens t s c t') (hnone : t.insertRows = []) (ht : Collects calls t) :
    Collects (calls ++ [s]) t' := by
  cases h with
  | insertInto table columns =>
    have hbatches : batches calls = [] := by
      refine List.eq_nil_iff_forall_not_mem.mpr fun rows hrows => (ht.batch rows hrows).nonempty ?_
      have hflat : (batches calls).flatten = [] := ht.rows.symm.trans hnone
      exact List.flatten_eq_nil_iff.mp hflat rows hrows
    refine ⟨?_, ?_⟩
    · rw [batches_concat, hbatches]
      exact hnone
    · rw [batches_concat, hbatches]
      intro rows hrows
      exact absurd hrows List.not_mem_nil
  | _ => exact ht.silent rfl rfl rfl

theorem collects_settle (h : Collects calls b.statement) : Collects calls b.settle.statement := by
  rw [statement_settle]
  split
  · exact h
  · exact ⟨h.rows, h.batch⟩

theorem rows?_of_names {sources : List Source} (h : Names s sources) : s.rows? = none := by
  cases h <;> rfl

theorem rows?_of_restricts {w : Condition} (h : Restricts s c w) : s.rows? = none := by
  cases h <;> rfl

theorem rows?_of_selects {items : List Expr} {distinct : Bool} (h : Selects s items distinct) :
    s.rows? = none := by
  cases h <;> rfl

theorem collects_acts (h : b.Acts s b') (hcoherent : b.statement.Coherent)
    (hb : Collects calls b.statement) : Collects (calls ++ [s]) b'.statement := by
  cases h with
  | strict on => exact hb.silent rfl rfl rfl
  | as name => exact hb.silent rfl rfl rfl
  | edits edits => exact collects_edits edits hb
  | names names =>
    have hsame : (b.step .from).dropImplied.statement.insertRows = b.statement.insertRows ∧
        (b.step .from).dropImplied.statement.insertColumns = b.statement.insertColumns := by
      unfold dropImplied
      split <;> exact ⟨rfl, rfl⟩
    exact hb.silent (rows?_of_names names) hsame.1 hsame.2
  | restricts restricts =>
    exact collects_settle (hb.silent (rows?_of_restricts restricts) rfl rfl)
  | selects selects clean => exact hb.silent (rows?_of_selects selects) rfl rfl
  | opens opens clean =>
    have hkind := (eq_of_isDirty_eq_false clean).1
    obtain ⟨-, -, hnone, -⟩ := hcoherent.insert (by rw [hkind]; decide)
    exact collects_opens opens hnone hb

theorem collects_nil (h : t = .empty) : Collects [] t := by
  subst h
  exact ⟨rfl, fun rows hrows => absurd hrows List.not_mem_nil⟩

/-! ## Along a run -/

/-- Each statement of a run has the rows that its calls gave. -/
theorem rows_run (d : Dialect) (steps : List Step) :
    List.Forall₂ Collects (callsOf d steps) ((Builder.new d).run steps).statements :=
  calls_induction (P := fun b calls => b.statement.Coherent ∧ Collects calls b.statement)
    (fun _ => ⟨Statement.coherent_empty, collects_nil rfl⟩)
    (fun _ _ h => collects_settle h.2)
    (fun _ _ _ => ⟨Statement.coherent_empty, collects_nil rfl⟩)
    (fun _ _ _ _ hb h => ⟨coherent_acts h hb.1, collects_acts h hb.1 hb.2⟩)
    d steps

theorem Collects.exists_batch (h : Collects calls t) {row : List Value} (hrow : row ∈ t.insertRows) :
    ∃ rows ∈ batches calls, row ∈ rows := by
  rw [h.rows] at hrow
  exact List.mem_flatten.mp hrow

theorem Collects.mem_of_mem (h : Collects calls t) {rows : List (List Value)}
    (hrows : rows ∈ batches calls) {row : List Value} (hrow : row ∈ rows) : row ∈ t.insertRows := by
  rw [h.rows]
  exact List.mem_flatten_of_mem hrows hrow

/-- Rows of one call are as the column list says, or as each other; those of several calls without a
column list are only if the calls agree. -/
theorem Collects.rectangular_iff (h : Collects calls t) :
    t.Rectangular ↔ (t.insertColumns = [] →
      ∀ rows ∈ batches calls, ∀ others ∈ batches calls, width rows = width others) := by
  have hfilled : ∀ row ∈ t.insertRows, row ≠ [] := by
    intro row hrow
    obtain ⟨rows, hrows, hmem⟩ := h.exists_batch hrow
    exact (h.batch rows hrows).filled row hmem
  have hcolumns : t.insertColumns ≠ [] → ∀ row ∈ t.insertRows,
      row.length = t.insertColumns.length := by
    intro hne row hrow
    obtain ⟨rows, hrows, hmem⟩ := h.exists_batch hrow
    rw [(h.batch rows hrows).even row hmem, (h.batch rows hrows).columns hne]
  constructor
  · intro ht _ rows hrows others hothers
    obtain ⟨row, hrow⟩ := List.exists_mem_of_ne_nil rows (h.batch rows hrows).nonempty
    obtain ⟨other, hother⟩ := List.exists_mem_of_ne_nil others (h.batch others hothers).nonempty
    rw [← (h.batch rows hrows).even row hrow, ← (h.batch others hothers).even other hother]
    exact ht.uniform row (h.mem_of_mem hrows hrow) other (h.mem_of_mem hothers hother)
  · intro hwidths
    refine ⟨hfilled, fun row hrow other hother => ?_, hcolumns⟩
    by_cases hnone : t.insertColumns = []
    · obtain ⟨rows, hrows, hmem⟩ := h.exists_batch hrow
      obtain ⟨others, hothers, hmem'⟩ := h.exists_batch hother
      rw [(h.batch rows hrows).even row hmem, (h.batch others hothers).even other hmem']
      exact hwidths hnone rows hrows others hothers
    · rw [hcolumns hnone row hrow, hcolumns hnone other hother]

/-- **Rows.**  Of a run that can be built, an INSERT without a query writes the rows that its accepted
calls gave, in order; none is empty, and all are as long as the column list if there is one.  They are
of one length if and only if there is a column list, or the calls gave rows of one length.  A statement
that stands inside another is the last one of a run of its own. -/
theorem build_rectangular_iff (d : Dialect) (steps : List Step) {c : Compiled}
    (built : ((Builder.new d).run steps).build = .ok c) :
    let ts := ((Builder.new d).run steps).statements
    c.sql = "; ".intercalate (Statement.numberedFrom d 0 ts) ∧
    List.Forall₂ (fun calls t =>
        (t.kind = .insert → t.insertQuery = none → t.insertRows ≠ [] →
          ∃ before after : Draft,
            t.draft = before ++ .clause " VALUES " ", " (rowDrafts t.insertRows) ++ after) ∧
        t.insertRows = (batches calls).flatten ∧
        (∀ row ∈ t.insertRows, row ≠ []) ∧
        (t.insertColumns ≠ [] → t.Rectangular) ∧
        (t.Rectangular ↔ (t.insertColumns = [] →
          ∀ rows ∈ batches calls, ∀ others ∈ batches calls, width rows = width others)))
      (callsOf d steps) ts := by
  intro ts
  obtain ⟨hsql, -, hsound⟩ := build_eq _ built
  rw [dialect_run] at hsql
  refine ⟨hsql, ?_⟩
  have hcollected := (List.forall₂_and_left _ _).mpr ⟨hsound, (rows_run d steps).flip⟩
  refine hcollected.flip.imp fun calls t ⟨hfault, h⟩ => ⟨fun hkind hquery hrows => ?_, h.rows, ?_, ?_, ?_⟩
  · exact t.draft_rows hkind hquery hrows hfault
  · intro row hrow
    obtain ⟨rows, hrows, hmem⟩ := h.exists_batch hrow
    exact (h.batch rows hrows).filled row hmem
  · exact fun hne => h.rectangular_iff.mpr fun hnone => absurd hnone hne
  · exact h.rectangular_iff

/-- Two calls that keep to the column list. -/
theorem build_rectangular_pairs :
    let steps : List Step := [.insertInto (.named "t") ["a", "b"], .values [[.int 1, .int 2]],
      .values [[.int 3, .null], [.int 5, .int 6]]]
    let b := (Builder.new .postgres).run steps
    b.toSql = .ok "INSERT INTO \"t\" (\"a\", \"b\") VALUES ($1, $2), ($3, $4), ($5, $6)" ∧
      (∃ c, b.build = .ok c) ∧ b.settled.last.Rectangular := by
  intro steps b
  have hsql : b.toSql =
      .ok "INSERT INTO \"t\" (\"a\", \"b\") VALUES ($1, $2), ($3, $4), ($5, $6)" := by
    decide +kernel
  obtain ⟨c, hbuilt, -⟩ := exists_of_toSql hsql
  obtain ⟨-, hstatements⟩ := build_rectangular_iff .postgres steps hbuilt
  have hlast := rel_of_single hstatements (by decide +kernel) (by decide +kernel)
  obtain ⟨-, -, -, hcolumns, -⟩ := hlast
  exact ⟨hsql, ⟨c, hbuilt⟩, hcolumns (by decide +kernel)⟩

/-- Without a column list, a second call may give rows of another length. -/
theorem run_rows_of_two_widths :
    let b := (Builder.new .sqlite).run
      [.insertInto (.named "t") [], .values [[.int 1, .int 2]], .values [[.int 3]]]
    b.toSql = .ok "INSERT INTO \"t\" VALUES (?, ?), (?)" ∧ (∃ c, b.build = .ok c) ∧
      ∃ t ∈ b.statements, t.kind = .insert ∧ t.insertQuery = none ∧ ¬t.Rectangular := by
  intro b
  have hsql : b.toSql = .ok "INSERT INTO \"t\" VALUES (?, ?), (?)" := by decide +kernel
  obtain ⟨c, hbuilt, -⟩ := exists_of_toSql hsql
  have hrows : b.settled.last.insertRows = [[.int 1, .int 2], [.int 3]] := rfl
  refine ⟨hsql, ⟨c, hbuilt⟩, b.settled.last, ?_, rfl, rfl, fun h => ?_⟩
  · rw [statements]
    exact List.mem_append_right _ (List.mem_singleton.mpr rfl)
  · have hlength := h.uniform [.int 1, .int 2] (by simp [hrows]) [.int 3] (by simp [hrows])
    contradiction

end Builder

end SqlKit
