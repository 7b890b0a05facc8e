import SqlKit.Proofs.Transactions

/-!
# What a call of the builder does

A call that is accepted does one of a few things to the statement under way, and there is a rule for
each.  A call that opens a statement does so on a builder that has put the one under way aside, if
there is one; after that it is a call like any other.  Facts about all calls are proved by going
through the rules, once.

    b.apply s = .ok b' → (b.ready s).Acts s b'                         (acts_of_apply)
    b.Acts s b' → b'.script.chain = b.script.chain                     (Acts.chain_eq)
-/

namespace SqlKit.Builder

variable {b b' : Builder} {s : Step}

/-! ## Opening a statement -/

/-- The call opens a statement. -/
def Step.opens : Step → Bool
  | .select _ | .selectDistinct _ | .insertInto _ _ | .update _ | .deleteFrom _ | .delete => true
  | _ => false

/-- Settles the statement under way and puts it aside. -/
def putAside (b : Builder) : Builder :=
  { b.settle with script := b.settle.script.archive, implied := [], fromImplied := false }

/-- The builder that a call works on: before a statement is opened, one under way is put aside. -/
def ready (b : Builder) (s : Step) : Builder :=
  if s.opens && b.statement.isDirty then b.putAside else b

/-- Nothing has been asked of the statement yet but what goes with any kind. -/
theorem eq_of_isDirty_eq_false {t : Statement} (h : t.isDirty = false) :
    t.kind = .select ∧ t.selects = [] ∧ t.sources = [] := by
  simpa [Statement.isDirty, and_assoc] using h

theorem chain_putAside (b : Builder) :
    b.putAside.script.chain = b.script.chain ++ [Script.ofStatement b.settled.last] := by
  have hchain : b.settle.script.chain = b.script.chain := b.chain_settle
  show b.settle.script.chain ++ _ = _
  rw [hchain]
  rfl

theorem ready_of_opens (h : s.opens = true) :
    b.ready s = if b.statement.isDirty then b.putAside else b := by
  rw [ready, h, Bool.true_and]

theorem isDirty_ready (b : Builder) (s : Step) (h : s.opens = true) :
    (b.ready s).statement.isDirty = false := by
  rw [ready_of_opens h]
  split
  · rfl
  · next hdirty => exact Bool.eq_false_iff.mpr hdirty

/-- The sources that settling writes down, if it writes any. -/
def freshSources (b : Builder) : List Source :=
  if b.statement.kind = .select ∧ (b.statement.sources = [] ∨ b.fromImplied = true) then
    impliedSources b.implied (joinedTables b.statement)
  else []

theorem freshSources_of_ne_nil (h : b.freshSources ≠ []) :
    b.statement.kind = .select ∧ (b.statement.sources = [] ∨ b.fromImplied = true) ∧
      b.freshSources = impliedSources b.implied (joinedTables b.statement) := by
  unfold freshSources at h ⊢
  split at h
  · next hfree => exact ⟨hfree.1, hfree.2, if_pos hfree⟩
  · exact absurd rfl h

theorem settle_eq (b : Builder) :
    b.settle =
      if b.freshSources = [] then b
      else { b.modify fun t => { t with sources := b.freshSources } with fromImplied := true } := by
  rw [settle]
  by_cases hkind : b.statement.kind = .select
  · rw [if_neg (not_not_intro hkind)]
    by_cases hfree : b.statement.sources = [] ∨ b.fromImplied = true
    · have hfresh : b.freshSources = impliedSources b.implied (joinedTables b.statement) :=
        if_pos ⟨hkind, hfree⟩
      have hgiven : ¬(!b.statement.sources.isEmpty && !b.fromImplied) = true := by
        rcases hfree with h | h <;> simp [h]
      rw [if_neg hgiven, hfresh]
      cases impliedSources b.implied (joinedTables b.statement) <;> rfl
    · have hfresh : b.freshSources = [] := if_neg fun h => hfree h.2
      have hgiven : (!b.statement.sources.isEmpty && !b.fromImplied) = true := by
        simpa [not_or] using hfree
      rw [if_pos hgiven, if_pos hfresh]
  · have hfresh : b.freshSources = [] := if_neg fun h => hkind h.1
    rw [if_pos hkind, if_pos hfresh]

theorem statement_settle (b : Builder) :
    b.settle.statement =
      if b.freshSources = [] then b.statement
      else { b.statement with sources := b.freshSources } := by
  rw [settle_eq]
  split <;> rfl

/-- To record a clause changes nothing that settling looks at. -/
theorem settle_step (b : Builder) (c : Clause) : (b.step c).settle = b.settle.step c := by
  have hfresh : (b.step c).freshSources = b.freshSources := rfl
  rw [settle_eq, settle_eq, hfresh]
  split <;> rfl

theorem openStatement_eq (b : Builder) (s : Step) (h : s.opens = true) (c : Clause)
    (kind : StatementKind) :
    b.openStatement c kind = ((b.ready s).step c).modify fun t => { t with kind := kind } := by
  rw [ready_of_opens h]
  by_cases hdirty : b.statement.isDirty = true
  · have hstep : (b.step c).statement.isDirty = true := hdirty
    rw [if_pos hdirty, openStatement]
    simp only [hstep, if_true, settle_step]
    rfl
  · have hstep : ¬(b.step c).statement.isDirty = true := hdirty
    rw [if_neg hdirty, openStatement]
    simp only [if_neg hstep]

/-! ## The rules -/

/-- What a call makes of the statement under way without a look at the rest of the builder, and the
clause it records. -/
inductive Edits (t : Statement) : Step → Clause → Statement → Prop
  | join (kind : JoinKind) (source : Source) :
      Edits t (.join kind source) kind.clause { t with joins := t.joins ++ [⟨kind, source, none⟩] }
  | on {p : Predicate} {c : Condition} {j : Join} (condition : p.condition? = .ok c)
      (last : t.joins.getLast? = some j) (kind : j.kind ≠ .cross) :
      Edits t (.on p) .on
        { t with joins := t.joins.dropLast ++ [{ j with on := some (conjoin j.on c) }] }
  | groupBy (items : List Expr) :
      Edits t (.groupBy items) .groupBy { t with groups := t.groups ++ items }
  | orderBy (items : List OrderItem) :
      Edits t (.orderBy items) .orderBy { t with orders := t.orders ++ items }
  | limit (n : Nat) : Edits t (.limit n) .limit { t with limit := some n }
  | offset (n : Nat) : Edits t (.offset n) .offset { t with offset := some n }
  | limitOffset (n m : Nat) :
      Edits t (.limitOffset n m) .limit { t with limit := some n, offset := some m }
  | returning (columns : List String) :
      Edits t (.returning columns) .returning
        { t with returning := if columns.isEmpty then ["*"] else columns }
  | addCte (name : String) (body : CteBody) :
      Edits t (.addCte name body) .with { t with ctes := t.ctes ++ [⟨name, body⟩] }
  | window (name : String) (spec : WindowSpec) :
      Edits t (.window name spec) .window (t.defineWindow name spec)
  | values {rows : List (List Value)} (kind : t.kind = .insert)
      (filled : rows.all List.isEmpty = false)
      (width : ∀ row ∈ rows, row.length =
        if t.insertColumns.length = 0 then (rows.headD []).length else t.insertColumns.length) :
      Edits t (.values rows) .values { t with insertRows := t.insertRows ++ rows }
  | insertFrom {q : Statement} (kind : t.kind = .insert) :
      Edits t (.insertFrom q) .values { t with insertQuery := some q }
  | onConflict {c : OnConflict} (kind : t.kind = .insert) :
      Edits t (.onConflict c) .onConflict { t with onConflict := some c }
  | set {as : List Assignment} (kind : t.kind = .update) (filled : as ≠ []) :
      Edits t (.set as) .set { t with updates := t.updates ++ as }

/-- What a call that opens a statement makes of one that is not under way yet. -/
inductive Opens (t : Statement) : Step → Clause → Statement → Prop
  | insertInto (table : Table) (columns : List String) :
      Opens t (.insertInto table columns) .insert
        { t with kind := .insert, insertTable := some table, insertColumns := columns }
  | update (table : Table) :
      Opens t (.update table) .update { t with kind := .update, updateTable := some table }
  | deleteFrom (source : Source) :
      Opens t (.deleteFrom source) .delete { t with kind := .delete, deleteSource := some source }
  | delete : Opens t .delete .delete { t with kind := .delete }

/-- The sources that a call names. -/
inductive Names : Step → List Source → Prop
  | addSource (source : Source) : Names (.addSource source) [source]
  | addSources {sources : List Source} (filled : sources ≠ []) : Names (.addSources sources) sources

/-- The select items that a call gives, and whether only distinct rows are wanted. -/
inductive Selects : Step → List Expr → Bool → Prop
  | select (items : List Expr) : Selects (.select items) items false
  | selectDistinct (items : List Expr) : Selects (.selectDistinct items) items true

/-- The condition on rows that a call gives, and the clause it is recorded under. -/
inductive Restricts : Step → Clause → Condition → Prop
  | where {p : Predicate} {c : Condition} (condition : p.condition? = .ok c) :
      Restricts (.where p) .where c
  | and {p : Predicate} {c : Condition} (condition : p.condition? = .ok c) :
      Restricts (.and p) .and c

/-- What an accepted call makes of a builder that is ready for it. -/
inductive Acts (b : Builder) : Step → Builder → Prop
  | strict (on : Bool) : Acts b (.strict on) (b.setStrict on)
  | as (name : String) : Acts b (.as name) (b.as name)
  | edits {s : Step} {c : Clause} {t : Statement} (edits : Edits b.statement s c t) :
      Acts b s ((b.step c).modify fun _ => t)
  | names {s : Step} {sources : List Source} (names : Names s sources) :
      Acts b s ((b.step .from).dropImplied.modify fun t => { t with sources := t.sources ++ sources })
  | restricts {s : Step} {clause : Clause} {c : Condition} (restricts : Restricts s clause c) :
      Acts b s (((b.step clause).imply c.tables).modify fun t =>
        { t with wheres := t.wheres ++ [c] }).settle
  | selects {s : Step} {items : List Expr} {distinct : Bool} (selects : Selects s items distinct)
      (clean : b.statement.isDirty = false) :
      Acts b s (((b.step .select).imply (items.flatMap Expr.tables)).modify fun t =>
        { t with kind := .select, distinct := t.distinct || distinct, selects := t.selects ++ items })
  | opens {s : Step} {c : Clause} {t : Statement} (opens : Opens b.statement s c t)
      (clean : b.statement.isDirty = false) :
      Acts b s ((b.step c).modify fun _ => t)

/-! ## Every accepted call follows one of them -/

theorem acts_on {p : Predicate} (h : b.on p = .ok b') : b.Acts (.on p) b' := by
  obtain ⟨-, -, h⟩ := Result.ok_of_bind h
  obtain ⟨c, hc, h⟩ := Result.ok_of_bind h
  split at h
  · contradiction
  · next j hj =>
    split at h
    · contradiction
    · next hkind =>
      rw [eq_of_checked h]
      exact .edits (.on hc hj hkind)

theorem acts_addSources {ss : List Source} (h : b.addSources ss = .ok b') :
    b.Acts (.addSources ss) b' := by
  obtain ⟨-, -, h⟩ := Result.ok_of_bind h
  split at h
  · contradiction
  · next hss =>
    rw [eq_of_checked h]
    exact .names (.addSources fun e => hss (e ▸ rfl))

theorem acts_restrict {clause : Clause} {p : Predicate}
    (hs : ∀ c, p.condition? = .ok c → Restricts s clause c) (h : b.restrict clause p = .ok b') :
    b.Acts s b' := by
  obtain ⟨-, -, h⟩ := Result.ok_of_bind h
  obtain ⟨c, hc, h⟩ := Result.ok_of_bind h
  rw [eq_of_checked h]
  exact .restricts (hs c hc)

theorem acts_values {rows : List (List Value)} (h : b.values rows = .ok b') :
    b.Acts (.values rows) b' := by
  obtain ⟨-, -, h⟩ := Result.ok_of_bind h
  split at h
  · contradiction
  · next hkind =>
    split at h
    · contradiction
    · next hfilled =>
      dsimp only at h
      split at h
      · contradiction
      · next hwidth =>
        have hkind' : b.statement.kind = .insert := Decidable.not_not.mp hkind
        rw [eq_of_checked h]
        refine .edits (.values hkind' (Bool.eq_false_iff.mpr hfilled) fun row hrow => ?_)
        have hnot := List.find?_eq_none.mp hwidth row hrow
        simpa using hnot

theorem acts_insertFrom {q : Statement} (h : b.insertFrom q = .ok b') :
    b.Acts (.insertFrom q) b' := by
  obtain ⟨-, -, h⟩ := Result.ok_of_bind h
  split at h
  · contradiction
  · next hkind =>
    rw [eq_of_checked h]
    exact .edits (.insertFrom (Decidable.not_not.mp hkind))

theorem acts_onConflict {c : OnConflict} (h : b.onConflict c = .ok b') :
    b.Acts (.onConflict c) b' := by
  obtain ⟨-, -, h⟩ := Result.ok_of_bind h
  split at h
  · contradiction
  · next hkind =>
    obtain rfl := Except.ok.inj h
    exact .edits (.onConflict (Decidable.not_not.mp hkind))

theorem acts_set {as : List Assignment} (h : b.set as = .ok b') : b.Acts (.set as) b' := by
  obtain ⟨-, -, h⟩ := Result.ok_of_bind h
  split at h
  · contradiction
  · next hkind =>
    split at h
    · contradiction
    · next has =>
      rw [eq_of_checked h]
      exact .edits (.set (Decidable.not_not.mp hkind) fun e => has (e ▸ rfl))

/-- An accepted call follows one of the rules, on the builder that is ready for it. -/
theorem acts_of_apply (h : b.apply s = .ok b') : (b.ready s).Acts s b' := by
  cases s with
  | addSources ss => exact acts_addSources h
  | on p => exact acts_on h
  | «where» p => exact acts_restrict (fun _ => .where) h
  | and p => exact acts_restrict (fun _ => .and) h
  | values rows => exact acts_values h
  | insertFrom q => exact acts_insertFrom h
  | onConflict c => exact acts_onConflict h
  | set as => exact acts_set h
  | union => contradiction
  | upsert => contradiction
  | without => contradiction
  | strict on =>
    obtain rfl := Except.ok.inj h
    exact .strict on
  | as name =>
    obtain rfl := Except.ok.inj h
    exact .as name
  | addSource source =>
    obtain rfl := Except.ok.inj h
    exact .names (.addSource source)
  | join kind source =>
    obtain rfl := Except.ok.inj h
    exact .edits (.join kind source)
  | groupBy items =>
    obtain rfl := Except.ok.inj h
    exact .edits (.groupBy items)
  | orderBy items =>
    obtain rfl := Except.ok.inj h
    exact .edits (.orderBy items)
  | limit n =>
    obtain rfl := Except.ok.inj h
    exact .edits (.limit n)
  | offset n =>
    obtain rfl := Except.ok.inj h
    exact .edits (.offset n)
  | limitOffset n m =>
    obtain rfl := Except.ok.inj h
    exact .edits (.limitOffset n m)
  | returning columns =>
    obtain rfl := Except.ok.inj h
    exact .edits (.returning columns)
  | addCte name body =>
    obtain rfl := Except.ok.inj h
    exact .edits (.addCte name body)
  | window name spec =>
    obtain rfl := Except.ok.inj h
    exact .edits (.window name spec)
  | select items =>
    obtain rfl := Except.ok.inj h
    rw [select, openStatement_eq b (.select items) rfl]
    convert Acts.selects (.select items) (isDirty_ready b (.select items) rfl) using 1
    simp [pushSelects, modify, imply]
  | selectDistinct items =>
    obtain rfl := Except.ok.inj h
    rw [selectDistinct, openStatement_eq b (.selectDistinct items) rfl]
    convert Acts.selects (.selectDistinct items) (isDirty_ready b (.selectDistinct items) rfl) using 1
    simp [pushSelects, modify, imply]
  | insertInto table columns =>
    obtain rfl := Except.ok.inj h
    rw [insertInto, openStatement_eq b (.insertInto table columns) rfl]
    exact .opens (.insertInto table columns) (isDirty_ready b (.insertInto table columns) rfl)
  | update table =>
    obtain rfl := Except.ok.inj h
    rw [update, openStatement_eq b (.update table) rfl]
    exact .opens (.update table) (isDirty_ready b (.update table) rfl)
  | deleteFrom source =>
    obtain rfl := Except.ok.inj h
    rw [deleteFrom, openStatement_eq b (.deleteFrom source) rfl]
    exact .opens (.deleteFrom source) (isDirty_ready b (.deleteFrom source) rfl)
  | delete =>
    obtain rfl := Except.ok.inj h
    rw [delete, openStatement_eq b .delete rfl]
    exact .opens .delete (isDirty_ready b .delete rfl)

theorem Acts.chain_eq (h : b.Acts s b') : b'.script.chain = b.script.chain := by
  cases h with
  | strict on => rfl
  | as name => rfl
  | edits edits => rfl
  | names names => rw [chain_modify, chain_dropImplied, chain_step]
  | restricts restricts => rw [chain_settle, chain_modify, chain_imply, chain_step]
  | selects selects clean => rfl
  | opens opens clean => rfl

end SqlKit.Builder
