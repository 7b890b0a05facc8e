import SqlKit.Proofs.Writing

/-!
# The first fault

A statement is malformed if it lacks what its kind needs: a target, or something to assign.  Writing
a script reaches statements one after another, each before those that stand inside it, and gives up
at the first that is malformed; what a kind does not write is not reached.

    s.lack? = some m ↔ s.Lacks m                                       (lack?_eq_some_iff)
    s.draft.fault = firstLack s.reached                                (Script.fault_draft)
    (c.compile s).1 fails ↔ some statement of s.reached is malformed   (compile_fails_iff_reached)
-/

namespace SqlKit

/-! ## Malformed statements -/

/-- What a statement of its kind needs and does not have. -/
inductive Statement.Lacks (s : Statement) : Malformed → Prop
  | insertTarget (hkind : s.kind = .insert) (htarget : s.insertTable = none) : Lacks s .insertTarget
  | updateTarget (hkind : s.kind = .update) (htarget : s.updateTable = none) : Lacks s .updateTarget
  | updateAssignments {t : Table} (hkind : s.kind = .update) (htarget : s.updateTable = some t)
      (hnone : s.updates = []) : Lacks s (.updateAssignments t.text)
  | deleteTarget (hkind : s.kind = .delete) (hsources : s.sources = [])
      (htarget : s.deleteSource = none) : Lacks s .deleteTarget

/-- What a statement lacks, if it lacks anything. -/
def Statement.lack? (s : Statement) : Option Malformed :=
  match s.kind with
  | .insert => if s.insertTable.isNone then some .insertTarget else none
  | .update =>
    match s.updateTable with
    | none => some .updateTarget
    | some t => if s.updates.isEmpty then some (.updateAssignments t.text) else none
  | .delete => if s.sources.isEmpty && s.deleteSource.isNone then some .deleteTarget else none
  | .select | .begin | .commit | .rollback => none

theorem Statement.lack?_eq_some_iff (s : Statement) (m : Malformed) :
    s.lack? = some m ↔ s.Lacks m := by
  constructor
  · intro h
    unfold lack? at h
    cases hkind : s.kind with
    | insert =>
      simp only [hkind, Option.isNone_iff_eq_none, Option.ite_none_right_eq_some] at h
      obtain ⟨htarget, hm⟩ := h
      exact Option.some.inj hm ▸ .insertTarget hkind htarget
    | update =>
      cases htarget : s.updateTable with
      | none =>
        simp only [hkind, htarget, Option.some.injEq] at h
        exact h ▸ .updateTarget hkind htarget
      | some t =>
        simp only [hkind, htarget, List.isEmpty_iff, Option.ite_none_right_eq_some] at h
        obtain ⟨hnone, hm⟩ := h
        exact Option.some.inj hm ▸ .updateAssignments hkind htarget hnone
    | delete =>
      simp only [hkind, Bool.and_eq_true, List.isEmpty_iff, Option.isNone_iff_eq_none,
        Option.ite_none_right_eq_some] at h
      obtain ⟨⟨hsources, htarget⟩, hm⟩ := h
      exact Option.some.inj hm ▸ .deleteTarget hkind hsources htarget
    | _ => simp [hkind] at h
  · intro h
    cases h with
    | insertTarget hkind htarget => simp [lack?, hkind, htarget]
    | updateTarget hkind htarget => simp [lack?, hkind, htarget]
    | updateAssignments hkind htarget hnone => simp [lack?, hkind, htarget, hnone]
    | deleteTarget hkind hsources htarget => simp [lack?, hkind, hsources, htarget]

theorem Statement.lack?_eq_none_iff (s : Statement) : s.lack? = none ↔ ∀ m, ¬s.Lacks m := by
  simp only [Option.eq_none_iff_forall_ne_some, ne_eq, s.lack?_eq_some_iff]

/-! ## The statements that are reached -/

mutual

/-- The statements inside an expression, in the order in which they are written. -/
def Expr.reached : Expr → List Statement
  | .call f => f.reached
  | .window w => w.reached
  | .condition c => c.reached
  | .subquery s => s.reached
  | .named e _ => e.reached
  | .column _ | .raw _ | .value _ => []

def Expr.reachedAll : List Expr → List Statement
  | [] => []
  | e :: es => e.reached ++ Expr.reachedAll es

def Operand.reached : Operand → List Statement
  | .expr e => e.reached
  | .value _ | .column _ => []

def Operand.reachedAll : List Operand → List Statement
  | [] => []
  | o :: os => o.reached ++ Operand.reachedAll os

def Call.reached : Call → List Statement
  | ⟨_, args, _⟩ => Operand.reachedAll args

def OrderItem.reached : OrderItem → List Statement
  | ⟨e, _⟩ => e.reached

def OrderItem.reachedAll : List OrderItem → List Statement
  | [] => []
  | o :: os => o.reached ++ OrderItem.reachedAll os

def WindowSpec.reached : WindowSpec → List Statement
  | ⟨partitionBy, orderBy, _⟩ => Expr.reachedAll partitionBy ++ OrderItem.reachedAll orderBy

def Over.reached : Over → List Statement
  | .named _ => []
  | .spec s => s.reached

def Over.reached? : Option Over → List Statement
  | none => []
  | some o => o.reached

def WindowCall.reached : WindowCall → List Statement
  | ⟨_, args, _, filter, window, _⟩ =>
    Expr.reachedAll args ++ Condition.reached? filter ++ Over.reached? window

def Condition.reached : Condition → List Statement
  | .compare _ _ right => right.reached
  | .connect a _ b => a.reached ++ b.reached
  | .inQuery _ _ q => q.reached
  | .negation c => c.reached
  | .null _ _ | .inList _ _ _ | .between _ _ _ | .raw _ => []

def Condition.reachedAll : List Condition → List Statement
  | [] => []
  | c :: cs => c.reached ++ Condition.reachedAll cs

def Condition.reached? : Option Condition → List Statement
  | none => []
  | some c => c.reached

def Source.reached : Source → List Statement
  | .subquery q _ => q.reached
  | .table _ | .raw _ => []

def Source.reachedAll : List Source → List Statement
  | [] => []
  | s :: ss => s.reached ++ Source.reachedAll ss

def Source.reached? : Option Source → List Statement
  | none => []
  | some s => s.reached

/-- The statements inside the first of some sources, or else inside the other one: a deletion writes
no more than one of them. -/
def Source.reachedFirst (other : List Statement) : List Source → List Statement
  | [] => other
  | s :: _ => s.reached

def Join.reached : Join → List Statement
  | ⟨_, source, on⟩ => source.reached ++ Condition.reached? on

def Join.reachedAll : List Join → List Statement
  | [] => []
  | j :: js => j.reached ++ Join.reachedAll js

def CteBody.reached : CteBody → List Statement
  | .query q => q.reached
  | .raw _ => []

def Cte.reached : Cte → List Statement
  | ⟨_, body⟩ => body.reached

def Cte.reachedAll : List Cte → List Statement
  | [] => []
  | c :: cs => c.reached ++ Cte.reachedAll cs

def Assignment.reached : Assignment → List Statement
  | .set _ value => value.reached
  | .raw _ => []

def Assignment.reachedAll : List Assignment → List Statement
  | [] => []
  | a :: as => a.reached ++ Assignment.reachedAll as

def WindowDef.reached : WindowDef → List Statement
  | ⟨_, spec⟩ => spec.reached

def WindowDef.reachedAll : List WindowDef → List Statement
  | [] => []
  | w :: ws => w.reached ++ WindowDef.reachedAll ws

/-- A statement, and those in the positions its kind writes. -/
def Statement.reached : Statement → List Statement
  | s@⟨kind, selects, _, sources, joins, wheres, groups, orders, _, _, _, ctes, _, _, _, insertQuery,
      _, updates, deleteSource, windows, _⟩ => s ::
    match kind with
    | .begin | .commit | .rollback => []
    | .select =>
      Cte.reachedAll ctes ++ Expr.reachedAll selects ++ Source.reachedAll sources ++
        Join.reachedAll joins ++ Condition.reachedAll wheres ++ Expr.reachedAll groups ++
        WindowDef.reachedAll windows ++ OrderItem.reachedAll orders
    | .insert => Cte.reachedAll ctes ++ Statement.reached? insertQuery
    | .update => Cte.reachedAll ctes ++ Assignment.reachedAll updates ++ Condition.reachedAll wheres
    | .delete =>
      Cte.reachedAll ctes ++ Source.reachedFirst (Source.reached? deleteSource) sources ++
        Condition.reachedAll wheres

def Statement.reached? : Option Statement → List Statement
  | none => []
  | some s => s.reached

end

/-- The statements of a script in order, each followed by those inside it.  Those before the last
stand alone: what was put in front of them is not written a second time. -/
def Script.reached (s : Script) : List Statement :=
  (s.chain.flatMap fun c => c.last.reached) ++ s.last.reached

/-! ## Faults of drafts -/

namespace Draft

/-- One draft behind another fails as the first does, or else as the second. -/
theorem fault_append_eq (x y : Draft) : (x ++ y).fault = x.fault.or y.fault := by
  cases hx : x.fault with
  | some m => rw [append_of_fault hx, hx, Option.some_or]
  | none => rw [append_of_sound hx, Option.none_or]

theorem fault_clause (heading sep : String) (xs : List Draft) :
    (clause heading sep xs).fault = xs.findSome? fault := by
  cases xs with
  | nil => rfl
  | cons x xs =>
    show (text heading ++ join sep (x :: xs)).fault = _
    rw [fault_append_eq, fault_text, Option.none_or, fault_join]

/-- A draft between two texts. -/
theorem fault_enclosed (before after : String) (x : Draft) :
    (text before ++ x ++ text after).fault = x.fault := by
  rw [fault_append_eq, fault_append_eq, fault_text, fault_text, Option.none_or, Option.or_none]

theorem fault_behind_text (s : String) (x : Draft) : (text s ++ x).fault = x.fault := by
  rw [fault_append_eq, fault_text, Option.none_or]

theorem fault_before_text (x : Draft) (s : String) : (x ++ text s).fault = x.fault := by
  rw [fault_append_eq, fault_text, Option.or_none]

/-- A sound draft in front does not count. -/
theorem fault_behind {x : Draft} (hx : x.fault = none) (y : Draft) : (x ++ y).fault = y.fault := by
  rw [fault_append_eq, hx, Option.none_or]

theorem fault_before {y : Draft} (hy : y.fault = none) (x : Draft) : (x ++ y).fault = x.fault := by
  rw [fault_append_eq, hy, Option.or_none]

end Draft

/-! Parts without sub-statements are sound. -/

theorem Value.fault_draft (v : Value) : v.draft.fault = none := by
  cases v <;> rfl

theorem Value.fault_argument (v : Value) : v.argument.fault = none := by
  cases v <;> rfl

theorem FunctionName.fault_draft (n : FunctionName) : n.draft.fault = none := by
  cases n <;> rfl

theorem fault_aliasDraft (a : Option String) : (aliasDraft a).fault = none := by
  cases a <;> rfl

theorem fault_sourceAliasDraft (a : Option String) : (sourceAliasDraft a).fault = none := by
  cases a <;> rfl

theorem fault_countDraft (keyword : String) (n : Option Nat) : (countDraft keyword n).fault = none := by
  cases n <;> rfl

theorem fault_memberDraft (c : Column) (negated : Bool) (values : List Value) :
    (memberDraft c negated values).fault = none := by
  cases values with
  | nil => rfl
  | cons v vs =>
    show (Draft.text _ ++ Draft.paren _).fault = none
    rw [Draft.fault_behind_text, Draft.fault_paren, fault_boundList]

theorem fault_returningDraft (columns : List String) : (returningDraft columns).fault = none := by
  rw [returningDraft, Draft.fault_clause, List.findSome?_eq_none_iff]
  intro x hx
  obtain ⟨c, -, rfl⟩ := List.mem_map.mp hx
  rfl

theorem findSome?_fault_frameDrafts (frame : Option String) :
    (frameDrafts frame).findSome? Draft.fault = none := by
  cases frame <;> rfl

theorem fault_rowDrafts (rows : List (List Value)) : (rowDrafts rows).findSome? Draft.fault = none := by
  rw [List.findSome?_eq_none_iff]
  intro x hx
  obtain ⟨row, -, rfl⟩ := List.mem_map.mp hx
  rw [Draft.fault_paren, fault_boundList]

theorem ConflictAction.fault_valueDraft (v : Value) : (valueDraft v).fault = none := by
  cases v with
  | string s =>
    rw [valueDraft]
    split <;> rfl
  | _ => rfl

theorem fault_conflictDraft (c : Option OnConflict) : (conflictDraft c).fault = none := by
  cases c with
  | none => rfl
  | some c =>
    obtain ⟨targets, action⟩ := c
    rw [conflictDraft, Draft.fault_behind_text, OnConflict.draft, Draft.fault_behind_text]
    cases action with
    | nothing => rfl
    | update assignments =>
      rw [ConflictAction.draft, Draft.fault_behind_text, Draft.fault_join,
        List.findSome?_eq_none_iff]
      intro x hx
      obtain ⟨a, -, rfl⟩ := List.mem_map.mp hx
      rw [Draft.fault_behind_text, ConflictAction.fault_valueDraft]

/-! Clauses fail as the first of their items that fails. -/

theorem fault_filterDraft (x : Option Draft) : (filterDraft x).fault = x.bind Draft.fault := by
  cases x with
  | none => rfl
  | some x => exact Draft.fault_enclosed _ _ x

theorem fault_onDraft (x : Option Draft) : (onDraft x).fault = x.bind Draft.fault := by
  cases x with
  | none => rfl
  | some x => exact Draft.fault_behind_text _ x

theorem findSome?_fault_windowPart (heading : String) (xs : List Draft) :
    (windowPart heading xs).findSome? Draft.fault = xs.findSome? Draft.fault := by
  cases xs with
  | nil => rfl
  | cons x xs =>
    have h := Draft.fault_clause heading ", " (x :: xs)
    simp only [windowPart, List.findSome?_cons (a := Draft.clause heading ", " (x :: xs)), h,
      List.findSome?_nil]
    cases (x :: xs).findSome? Draft.fault <;> rfl

theorem fault_windowDraft (partitionBy orderBy : List Draft) (frame : Option String) :
    (windowDraft partitionBy orderBy frame).fault =
      (partitionBy.findSome? Draft.fault).or (orderBy.findSome? Draft.fault) := by
  rw [windowDraft, Draft.fault_join, List.findSome?_append, List.findSome?_append,
    findSome?_fault_windowPart, findSome?_fault_windowPart, findSome?_fault_frameDrafts,
    Option.or_none]

theorem fault_withDraft (ctes : List Draft) :
    (withDraft ctes).fault = ctes.findSome? Draft.fault := by
  cases ctes with
  | nil => rfl
  | cons c cs =>
    rw [withDraft, Draft.fault_before_text, Draft.fault_clause]

theorem fault_selectListDraft (items : List Draft) :
    (selectListDraft items).fault = items.findSome? Draft.fault := by
  cases items with
  | nil => rfl
  | cons x xs => exact Draft.fault_join ", " (x :: xs)

theorem fault_insertedDraft (rows : List (List Value)) (query : Option Draft) :
    (insertedDraft rows query).fault = query.bind Draft.fault := by
  cases query with
  | some x => exact Draft.fault_behind_text _ x
  | none =>
    cases rows with
    | nil => rfl
    | cons r rs =>
      show (Draft.clause " VALUES " ", " (rowDrafts (r :: rs))).fault = none
      rw [Draft.fault_clause, fault_rowDrafts]

/-! Statements that need something fail without it, before anything else. -/

theorem fault_insertDraft (ctes : Draft) (target : Option Table) (columns : List String)
    (rest : Draft) :
    (insertDraft ctes target columns rest).fault =
      (if target.isNone then some .insertTarget else none).or (ctes.fault.or rest.fault) := by
  cases target with
  | none => rfl
  | some t =>
    show (ctes ++ Draft.text _ ++ rest).fault = _
    rw [Draft.fault_append_eq, Draft.fault_before_text]
    rfl

theorem fault_updateDraft (ctes : Draft) (target : Option Table) (assignments : List Draft)
    (rest : Draft) :
    (updateDraft ctes target assignments rest).fault =
      (match target with
        | none => some Malformed.updateTarget
        | some t => if assignments.isEmpty then some (.updateAssignments t.text) else none).or
      ((ctes.fault.or (assignments.findSome? Draft.fault)).or rest.fault) := by
  cases target with
  | none => rfl
  | some t =>
    cases assignments with
    | nil => rfl
    | cons x xs =>
      show (ctes ++ Draft.text _ ++ Draft.join ", " (x :: xs) ++ rest).fault = _
      rw [Draft.fault_append_eq, Draft.fault_append_eq, Draft.fault_before_text, Draft.fault_join]
      rfl

theorem fault_deleteDraft (ctes : Draft) (sources : List Draft) (other : Option Draft)
    (rest : Draft) :
    (deleteDraft ctes sources other rest).fault =
      (if sources.isEmpty && other.isNone then some .deleteTarget else none).or
      ((ctes.fault.or ((sources.head?.or other).bind Draft.fault)).or rest.fault) := by
  have delete : ∀ x : Draft, (ctes ++ Draft.text "DELETE FROM " ++ x ++ rest).fault =
      (ctes.fault.or x.fault).or rest.fault := by
    intro x
    rw [Draft.fault_append_eq, Draft.fault_append_eq, Draft.fault_before_text]
  cases sources with
  | cons x xs => exact delete x
  | nil =>
    cases other with
    | none => rfl
    | some x => exact delete x

theorem Assignment.isEmpty_drafts (as : List Assignment) :
    (Assignment.drafts as).isEmpty = as.isEmpty := by
  cases as <;> simp [Assignment.drafts]

theorem Source.isEmpty_drafts (ss : List Source) : (Source.drafts ss).isEmpty = ss.isEmpty := by
  cases ss <;> simp [Source.drafts]

theorem Source.isNone_draft? (s : Option Source) : (Source.draft? s).isNone = s.isNone := by
  cases s <;> simp [Source.draft?]

/-! ## Statements fail as the first malformed one they reach -/

/-- What the first malformed one of some statements lacks. -/
def firstLack (ss : List Statement) : Option Malformed := ss.findSome? Statement.lack?

theorem firstLack_cons (s : Statement) (ss : List Statement) :
    firstLack (s :: ss) = s.lack?.or (firstLack ss) := by
  rw [firstLack, List.findSome?_cons]
  cases s.lack? <;> rfl

theorem firstLack_append (ss ts : List Statement) :
    firstLack (ss ++ ts) = (firstLack ss).or (firstLack ts) :=
  List.findSome?_append

theorem findSome?_fault_cons (x : Draft) (xs : List Draft) :
    (x :: xs).findSome? Draft.fault = x.fault.or (xs.findSome? Draft.fault) := by
  rw [List.findSome?_cons]
  cases x.fault <;> rfl

mutual

theorem Expr.fault_draft : (e : Expr) → e.draft.fault = firstLack e.reached
  | .column c => by
    simp only [Expr.draft, Expr.reached]
    rfl
  | .raw sql => by
    simp only [Expr.draft, Expr.reached]
    rfl
  | .value v => by
    simp only [Expr.draft, Expr.reached]
    exact v.fault_draft
  | .call f => by
    simp only [Expr.draft, Expr.reached]
    exact Call.fault_draft f
  | .window w => by
    simp only [Expr.draft, Expr.reached]
    exact WindowCall.fault_draft w
  | .condition c => by
    simp only [Expr.draft, Expr.reached]
    exact Condition.fault_draft c
  | .subquery s => by
    simp only [Expr.draft, Expr.reached]
    rw [Draft.fault_paren, Statement.fault_draft s]
  | .named e a => by
    simp only [Expr.draft, Expr.reached]
    rw [Draft.fault_before_text, Expr.fault_draft e]

theorem Expr.fault_drafts : (es : List Expr) →
    (Expr.drafts es).findSome? Draft.fault = firstLack (Expr.reachedAll es)
  | [] => by
    simp only [Expr.drafts, Expr.reachedAll]
    rfl
  | e :: es => by
    simp only [Expr.drafts, Expr.reachedAll]
    rw [findSome?_fault_cons, firstLack_append, Expr.fault_draft e, Expr.fault_drafts es]

theorem Operand.fault_draft : (o : Operand) → o.draft.fault = firstLack o.reached
  | .value v => by
    simp only [Operand.draft, Operand.reached]
    exact v.fault_draft
  | .column c => by
    simp only [Operand.draft, Operand.reached]
    rfl
  | .expr e => by
    simp only [Operand.draft, Operand.reached]
    exact Expr.fault_draft e

theorem Operand.fault_argument : (o : Operand) → o.argument.fault = firstLack o.reached
  | .value v => by
    simp only [Operand.argument, Operand.reached]
    exact v.fault_argument
  | .column c => by
    simp only [Operand.argument, Operand.reached]
    rfl
  | .expr e => by
    simp only [Operand.argument, Operand.reached]
    exact Expr.fault_draft e

theorem Operand.fault_arguments : (os : List Operand) →
    (Operand.arguments os).findSome? Draft.fault = firstLack (Operand.reachedAll os)
  | [] => by
    simp only [Operand.arguments, Operand.reachedAll]
    rfl
  | o :: os => by
    simp only [Operand.arguments, Operand.reachedAll]
    rw [findSome?_fault_cons, firstLack_append, Operand.fault_argument o, Operand.fault_arguments os]

theorem Call.fault_draft : (f : Call) → f.draft.fault = firstLack f.reached
  | ⟨name, args, a⟩ => by
    simp only [Call.draft, Call.reached]
    rw [Draft.fault_before (fault_aliasDraft a), Draft.fault_behind name.fault_draft,
      Draft.fault_paren, Draft.fault_join, Operand.fault_arguments args]

theorem OrderItem.fault_draft : (o : OrderItem) → o.draft.fault = firstLack o.reached
  | ⟨e, d⟩ => by
    simp only [OrderItem.draft, OrderItem.reached]
    rw [Draft.fault_before_text, Expr.fault_draft e]

theorem OrderItem.fault_drafts : (os : List OrderItem) →
    (OrderItem.drafts os).findSome? Draft.fault = firstLack (OrderItem.reachedAll os)
  | [] => by
    simp only [OrderItem.drafts, OrderItem.reachedAll]
    rfl
  | o :: os => by
    simp only [OrderItem.drafts, OrderItem.reachedAll]
    rw [findSome?_fault_cons, firstLack_append, OrderItem.fault_draft o, OrderItem.fault_drafts os]

theorem WindowSpec.fault_draft : (s : WindowSpec) → s.draft.fault = firstLack s.reached
  | ⟨partitionBy, orderBy, frame⟩ => by
    simp only [WindowSpec.draft, WindowSpec.reached]
    rw [fault_windowDraft, firstLack_append, Expr.fault_drafts partitionBy,
      OrderItem.fault_drafts orderBy]

theorem Over.fault_draft : (o : Over) → o.draft.fault = firstLack o.reached
  | .named name => by
    simp only [Over.draft, Over.reached]
    rfl
  | .spec s => by
    simp only [Over.draft, Over.reached]
    rw [Draft.fault_behind_text, Draft.fault_paren, WindowSpec.fault_draft s]

theorem Over.fault_draft? : (o : Option Over) →
    ((Over.draft? o).getD .empty).fault = firstLack (Over.reached? o)
  | none => by
    simp only [Over.draft?, Over.reached?]
    rfl
  | some o => by
    simp only [Over.draft?, Over.reached?]
    exact Over.fault_draft o

theorem WindowCall.fault_draft : (w : WindowCall) → w.draft.fault = firstLack w.reached
  | ⟨name, args, distinct, filter, window, a⟩ => by
    simp only [WindowCall.draft, WindowCall.reached]
    rw [Draft.fault_before (fault_aliasDraft a), Draft.fault_append_eq, Draft.fault_append_eq,
      Draft.fault_behind_text, Draft.fault_paren, Draft.fault_behind_text, Draft.fault_join,
      fault_filterDraft, firstLack_append, firstLack_append, Expr.fault_drafts args,
      Condition.fault_draft? filter, Over.fault_draft? window]

theorem Condition.fault_draft : (c : Condition) → c.draft.fault = firstLack c.reached
  | .compare left op right => by
    simp only [Condition.draft, Condition.reached]
    rw [Draft.fault_behind_text, Operand.fault_draft right]
  | .null c negated => by
    simp only [Condition.draft, Condition.reached]
    rfl
  | .connect a op b => by
    simp only [Condition.draft, Condition.reached]
    rw [Draft.fault_append_eq, Draft.fault_before_text, Draft.fault_paren, Draft.fault_paren,
      firstLack_append, Condition.fault_draft a, Condition.fault_draft b]
  | .inList c negated values => by
    simp only [Condition.draft, Condition.reached]
    exact fault_memberDraft c negated values
  | .inQuery c negated q => by
    simp only [Condition.draft, Condition.reached]
    rw [Draft.fault_behind_text, Draft.fault_paren, Statement.fault_draft q]
  | .between c lower upper => by
    simp only [Condition.draft, Condition.reached]
    rfl
  | .negation c => by
    simp only [Condition.draft, Condition.reached]
    rw [Draft.fault_behind_text, Draft.fault_paren, Condition.fault_draft c]
  | .raw sql => by
    simp only [Condition.draft, Condition.reached]
    rfl

theorem Condition.fault_drafts : (cs : List Condition) →
    (Condition.drafts cs).findSome? Draft.fault = firstLack (Condition.reachedAll cs)
  | [] => by
    simp only [Condition.drafts, Condition.reachedAll]
    rfl
  | c :: cs => by
    simp only [Condition.drafts, Condition.reachedAll]
    rw [findSome?_fault_cons, firstLack_append, Condition.fault_draft c, Condition.fault_drafts cs]

theorem Condition.fault_draft? : (c : Option Condition) →
    (Condition.draft? c).bind Draft.fault = firstLack (Condition.reached? c)
  | none => by
    simp only [Condition.draft?, Condition.reached?]
    rfl
  | some c => by
    simp only [Condition.draft?, Condition.reached?]
    exact Condition.fault_draft c

theorem Source.fault_draft : (s : Source) → s.draft.fault = firstLack s.reached
  | .table t => by
    simp only [Source.draft, Source.reached]
    rfl
  | .subquery q a => by
    simp only [Source.draft, Source.reached]
    rw [Draft.fault_before (fault_sourceAliasDraft a), Draft.fault_paren, Statement.fault_draft q]
  | .raw sql => by
    simp only [Source.draft, Source.reached]
    rfl

theorem Source.fault_drafts : (ss : List Source) →
    (Source.drafts ss).findSome? Draft.fault = firstLack (Source.reachedAll ss)
  | [] => by
    simp only [Source.drafts, Source.reachedAll]
    rfl
  | s :: ss => by
    simp only [Source.drafts, Source.reachedAll]
    rw [findSome?_fault_cons, firstLack_append, Source.fault_draft s, Source.fault_drafts ss]

theorem Source.fault_draft? : (s : Option Source) →
    (Source.draft? s).bind Draft.fault = firstLack (Source.reached? s)
  | none => by
    simp only [Source.draft?, Source.reached?]
    rfl
  | some s => by
    simp only [Source.draft?, Source.reached?]
    exact Source.fault_draft s

theorem Source.fault_first {x : Option Draft} {other : List Statement}
    (h : x.bind Draft.fault = firstLack other) : (ss : List Source) →
    ((Source.drafts ss).head?.or x).bind Draft.fault = firstLack (Source.reachedFirst other ss)
  | [] => by
    simp only [Source.drafts, Source.reachedFirst]
    exact h
  | s :: ss => by
    simp only [Source.drafts, Source.reachedFirst]
    exact Source.fault_draft s

theorem Join.fault_draft : (j : Join) → j.draft.fault = firstLack j.reached
  | ⟨kind, source, on⟩ => by
    simp only [Join.draft, Join.reached]
    rw [Draft.fault_append_eq, Draft.fault_behind_text, fault_onDraft, firstLack_append,
      Source.fault_draft source, Condition.fault_draft? on]

theorem Join.fault_drafts : (js : List Join) →
    (Join.drafts js).fault = firstLack (Join.reachedAll js)
  | [] => by
    simp only [Join.drafts, Join.reachedAll]
    rfl
  | j :: js => by
    simp only [Join.drafts, Join.reachedAll]
    rw [Draft.fault_append_eq, Draft.fault_behind_text, firstLack_append, Join.fault_draft j,
      Join.fault_drafts js]

theorem CteBody.fault_draft : (b : CteBody) → b.draft.fault = firstLack b.reached
  | .query q => by
    simp only [CteBody.draft, CteBody.reached]
    exact Statement.fault_draft q
  | .raw sql => by
    simp only [CteBody.draft, CteBody.reached]
    rfl

theorem Cte.fault_draft : (c : Cte) → c.draft.fault = firstLack c.reached
  | ⟨name, body⟩ => by
    simp only [Cte.draft, Cte.reached]
    rw [Draft.fault_behind_text, Draft.fault_paren, CteBody.fault_draft body]

theorem Cte.fault_drafts : (cs : List Cte) →
    (Cte.drafts cs).findSome? Draft.fault = firstLack (Cte.reachedAll cs)
  | [] => by
    simp only [Cte.drafts, Cte.reachedAll]
    rfl
  | c :: cs => by
    simp only [Cte.drafts, Cte.reachedAll]
    rw [findSome?_fault_cons, firstLack_append, Cte.fault_draft c, Cte.fault_drafts cs]

theorem Assignment.fault_draft : (a : Assignment) → a.draft.fault = firstLack a.reached
  | .set column value => by
    simp only [Assignment.draft, Assignment.reached]
    rw [Draft.fault_behind_text, Operand.fault_draft value]
  | .raw sql => by
    simp only [Assignment.draft, Assignment.reached]
    rfl

theorem Assignment.fault_drafts : (as : List Assignment) →
    (Assignment.drafts as).findSome? Draft.fault = firstLack (Assignment.reachedAll as)
  | [] => by
    simp only [Assignment.drafts, Assignment.reachedAll]
    rfl
  | a :: as => by
    simp only [Assignment.drafts, Assignment.reachedAll]
    rw [findSome?_fault_cons, firstLack_append, Assignment.fault_draft a,
      Assignment.fault_drafts as]

theorem WindowDef.fault_draft : (w : WindowDef) → w.draft.fault = firstLack w.reached
  | ⟨name, spec⟩ => by
    simp only [WindowDef.draft, WindowDef.reached]
    rw [Draft.fault_behind_text, Draft.fault_paren, WindowSpec.fault_draft spec]

theorem WindowDef.fault_drafts : (ws : List WindowDef) →
    (WindowDef.drafts ws).findSome? Draft.fault = firstLack (WindowDef.reachedAll ws)
  | [] => by
    simp only [WindowDef.drafts, WindowDef.reachedAll]
    rfl
  | w :: ws => by
    simp only [WindowDef.drafts, WindowDef.reachedAll]
    rw [findSome?_fault_cons, firstLack_append, WindowDef.fault_draft w, WindowDef.fault_drafts ws]

theorem Statement.fault_draft : (s : Statement) → s.draft.fault = firstLack s.reached
  | ⟨kind, selects, distinct, sources, joins, wheres, groups, orders, limit, offset, returning, ctes,
      insertTable, insertColumns, insertRows, insertQuery, updateTable, updates, deleteSource,
      windows, onConflict⟩ => by
    have hwith : (withDraft (Cte.drafts ctes)).fault = firstLack (Cte.reachedAll ctes) := by
      rw [fault_withDraft, Cte.fault_drafts ctes]
    have hwhere : (whereDraft (Condition.drafts wheres)).fault =
        firstLack (Condition.reachedAll wheres) := by
      rw [whereDraft, Draft.fault_clause, Condition.fault_drafts wheres]
    have hreturning := fault_returningDraft returning
    cases kind with
    | begin =>
      simp only [Statement.draft, Statement.reached]
      rfl
    | commit =>
      simp only [Statement.draft, Statement.reached]
      rfl
    | rollback =>
      simp only [Statement.draft, Statement.reached]
      rfl
    | select =>
      simp only [Statement.draft, Statement.reached, firstLack_cons, Statement.lack?,
        Option.none_or]
      rw [Draft.fault_before hreturning, Draft.fault_before (fault_countDraft _ offset),
        Draft.fault_before (fault_countDraft _ limit)]
      simp only [Draft.fault_append_eq, Draft.fault_text, Option.or_none, Draft.fault_clause,
        fault_selectListDraft, hwith, hwhere, firstLack_append, Expr.fault_drafts selects,
        Source.fault_drafts sources, Join.fault_drafts joins, Expr.fault_drafts groups,
        WindowDef.fault_drafts windows, OrderItem.fault_drafts orders]
    | insert =>
      simp only [Statement.draft, Statement.reached, firstLack_cons, Statement.lack?]
      rw [fault_insertDraft, Draft.fault_before hreturning,
        Draft.fault_before (fault_conflictDraft onConflict), fault_insertedDraft, hwith,
        firstLack_append, Statement.fault_draft? insertQuery]
    | update =>
      simp only [Statement.draft, Statement.reached, firstLack_cons, Statement.lack?]
      rw [fault_updateDraft, Draft.fault_before hreturning, hwith, hwhere, firstLack_append,
        firstLack_append, Assignment.fault_drafts updates, Assignment.isEmpty_drafts]
    | delete =>
      have htarget := Source.fault_first (Source.fault_draft? deleteSource) sources
      simp only [Statement.draft, Statement.reached, firstLack_cons, Statement.lack?]
      rw [fault_deleteDraft, Draft.fault_before hreturning, hwith, hwhere, htarget,
        firstLack_append, firstLack_append, Source.isEmpty_drafts, Source.isNone_draft?]

theorem Statement.fault_draft? : (s : Option Statement) →
    (Statement.draft? s).bind Draft.fault = firstLack (Statement.reached? s)
  | none => by
    simp only [Statement.draft?, Statement.reached?]
    rfl
  | some s => by
    simp only [Statement.draft?, Statement.reached?]
    exact Statement.fault_draft s

end

/-- A script fails as the first malformed statement it reaches. -/
theorem Script.fault_draft (s : Script) : s.draft.fault = firstLack s.reached := by
  have hchain : (s.chain.map fun c => c.last.draft).findSome? Draft.fault =
      firstLack (s.chain.flatMap fun c => c.last.reached) := by
    induction s.chain with
    | nil => rfl
    | cons c cs ih =>
      rw [List.map_cons, List.flatMap_cons, findSome?_fault_cons, firstLack_append,
        Statement.fault_draft, ih]
  rw [Script.draft, Draft.fault_join, List.findSome?_append, hchain, findSome?_fault_cons,
    List.findSome?_nil, Option.or_none, Statement.fault_draft, Script.reached, firstLack_append]

/-! ## Compiling -/

/-- Of some statements `t` is the first malformed one, and lacks `m`. -/
def FirstMalformed (ss : List Statement) (t : Statement) (m : Malformed) : Prop :=
  ∃ before after, ss = before ++ t :: after ∧ (∀ u ∈ before, ∀ n, ¬u.Lacks n) ∧ t.Lacks m

theorem firstLack_eq_some_iff (ss : List Statement) (m : Malformed) :
    firstLack ss = some m ↔ ∃ t, FirstMalformed ss t m := by
  rw [firstLack, List.findSome?_eq_some_iff]
  constructor
  · rintro ⟨before, t, after, hss, ht, hbefore⟩
    exact ⟨t, before, after, hss, fun u hu => u.lack?_eq_none_iff.mp (hbefore u hu),
      (t.lack?_eq_some_iff m).mp ht⟩
  · rintro ⟨t, before, after, hss, hbefore, ht⟩
    exact ⟨before, t, after, hss, (t.lack?_eq_some_iff m).mpr ht,
      fun u hu => u.lack?_eq_none_iff.mpr (hbefore u hu)⟩

theorem exists_firstLack_iff (ss : List Statement) :
    (∃ m, firstLack ss = some m) ↔ ∃ t ∈ ss, ∃ m, t.Lacks m := by
  simp only [firstLack, ← Option.isSome_iff_exists, List.findSome?_isSome_iff]
  simp only [Option.isSome_iff_exists, Statement.lack?_eq_some_iff]

/-- Compiling fails with the fault of the first malformed statement, and only with that. -/
theorem Compiler.compile_eq_error_iff (c : Compiler) (s : Script) (e : Error) :
    (c.compile s).1 = .error e ↔ ∃ m, firstLack s.reached = some m ∧ e = .compile m.message := by
  rw [c.compile_fst s, s.fault_draft]
  cases firstLack s.reached with
  | none => simp
  | some m =>
    constructor
    · intro he
      exact ⟨m, rfl, (Except.error.inj he).symm⟩
    · rintro ⟨n, hn, rfl⟩
      rw [Option.some.inj hn]
      rfl

/-- **The first fault.**  In either mode and for every dialect, compiling a script fails if and only
if one of the statements it reaches is malformed; the error is that of the first such statement, in
the order in which the statements are written, each before those inside it. -/
theorem Compiler.compile_fails_iff_reached (c : Compiler) (s : Script) :
    ((∃ e, (c.compile s).1 = .error e) ↔ ∃ t ∈ s.reached, ∃ m, t.Lacks m) ∧
    ∀ e, (c.compile s).1 = .error e ↔
      ∃ t m, FirstMalformed s.reached t m ∧ e = .compile m.message := by
  constructor
  · rw [← exists_firstLack_iff]
    constructor
    · rintro ⟨e, he⟩
      obtain ⟨m, hm, -⟩ := (c.compile_eq_error_iff s e).mp he
      exact ⟨m, hm⟩
    · rintro ⟨m, hm⟩
      exact ⟨_, (c.compile_eq_error_iff s _).mpr ⟨m, hm, rfl⟩⟩
  · intro e
    rw [c.compile_eq_error_iff s e]
    constructor
    · rintro ⟨m, hm, he⟩
      obtain ⟨t, ht⟩ := (firstLack_eq_some_iff s.reached m).mp hm
      exact ⟨t, m, ht, he⟩
    · rintro ⟨t, m, ht, he⟩
      exact ⟨m, (firstLack_eq_some_iff s.reached m).mpr ⟨t, ht⟩, he⟩

/-- Of two malformed statements, one inside the other, the outer one is reported. -/
example : ((Compiler.binding .postgres).compile
    (.ofStatement { kind := .delete, ctes := [⟨"gone", .query { kind := .insert }⟩] })).1 =
      .error (.compile "DELETE requires a target table") := rfl

end SqlKit
