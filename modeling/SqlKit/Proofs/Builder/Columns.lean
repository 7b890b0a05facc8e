import SqlKit.Query.References

/-!
# Columns in expressions and conditions

Which columns stand in an expression or a condition, whatever they stand behind: names, calls and
their arguments, window calls with their filters, partitions and sort keys, connectives and negations.
A sub-query looks after its own columns.  The tables that a statement refers to are those that own a
column of a select item or a condition.

    t ∈ p.owners ↔ a column of t stands in p                           (Part.mem_owners)
    t ∈ s.referencedTables ↔ s uses a column of t            (Statement.mem_referencedTables_iff)
-/

namespace SqlKit

/-- A node of an expression or a condition. -/
inductive Part where
  | column (c : Column)
  | expr (e : Expr)
  | operand (o : Operand)
  | call (f : Call)
  | item (o : OrderItem)
  | spec (s : WindowSpec)
  | overWindow (o : Over)
  | window (w : WindowCall)
  | condition (c : Condition)

namespace Part

/-- The nodes right below a node. -/
def children : Part → List Part
  | column _ => []
  | expr (.column c) => [column c]
  | expr (.raw _) => []
  | expr (.value _) => []
  | expr (.call f) => [call f]
  | expr (.window w) => [window w]
  | expr (.condition c) => [condition c]
  | expr (.subquery _) => []
  | expr (.named e _) => [expr e]
  | operand (.value _) => []
  | operand (.column c) => [column c]
  | operand (.expr e) => [expr e]
  | call f => f.args.map operand
  | item o => [expr o.expr]
  | spec s => s.partitionBy.map expr ++ s.orderBy.map item
  | overWindow (.named _) => []
  | overWindow (.spec s) => [spec s]
  | window w => w.args.map expr ++ w.filter.toList.map condition ++ w.window.toList.map overWindow
  | condition (.compare left _ right) => [column left, operand right]
  | condition (.null c _) => [column c]
  | condition (.connect a _ b) => [condition a, condition b]
  | condition (.inList c _ _) => [column c]
  | condition (.inQuery c _ _) => [column c]
  | condition (.between c _ _) => [column c]
  | condition (.negation c) => [condition c]
  | condition (.raw _) => []

/-- The column stands in the part, outside of its sub-queries. -/
inductive Holds (c : Column) : Part → Prop
  | self : Holds c (column c)
  | child {p q : Part} (mem : q ∈ p.children) (holds : Holds c q) : Holds c p

/-- The tables that own a column of the part. -/
def owners : Part → List Table
  | column c => c.owners
  | expr e => e.owners
  | operand o => o.owners
  | call f => f.owners
  | item o => o.owners
  | spec s => s.owners
  | overWindow o => o.owners
  | window w => w.owners
  | condition c => c.owners

variable {p q : Part} {c : Column} {t : Table}

/-! Lists of owners go item by item. -/

theorem ownersAll_operands (os : List Operand) : Operand.ownersAll os = os.flatMap Operand.owners := by
  induction os with
  | nil => rfl
  | cons o os ih => rw [Operand.ownersAll, ih, List.flatMap_cons]

theorem ownersAll_items (os : List OrderItem) :
    OrderItem.ownersAll os = os.flatMap OrderItem.owners := by
  induction os with
  | nil => rfl
  | cons o os ih => rw [OrderItem.ownersAll, ih, List.flatMap_cons]

/-- A part that is not a column has the owners of the parts right below it. -/
theorem owners_eq_flatMap (h : ∀ c, p ≠ column c) : p.owners = p.children.flatMap owners := by
  cases p with
  | column c => exact absurd rfl (h c)
  | expr e => cases e <;> simp [children, owners, Expr.owners]
  | operand o => cases o <;> simp [children, owners, Operand.owners]
  | call f =>
    obtain ⟨name, args, «alias»⟩ := f
    simp only [children, owners, Call.owners, ownersAll_operands, List.flatMap_map]
  | item o =>
    obtain ⟨e, direction⟩ := o
    simp [children, owners, OrderItem.owners]
  | spec s =>
    obtain ⟨partitionBy, orderBy, frame⟩ := s
    simp only [children, owners, WindowSpec.owners, Expr.ownersAll_eq_flatMap, ownersAll_items,
      List.flatMap_append, List.flatMap_map]
  | overWindow o => cases o <;> simp [children, owners, Over.owners]
  | window w =>
    obtain ⟨name, args, distinct, filter, window, «alias»⟩ := w
    cases filter <;> cases window <;>
      simp [children, owners, WindowCall.owners, Expr.ownersAll_eq_flatMap, List.flatMap_map]
  | condition c => cases c <;> simp [children, owners, Condition.owners]

theorem sizeOf_lt_of_mem_children (h : q ∈ p.children) : sizeOf q < sizeOf p := by
  cases p with
  | column c => contradiction
  | expr e =>
    cases e <;> simp only [children, List.mem_singleton, List.not_mem_nil] at h
    all_goals
      subst h
      simp +arith
  | operand o => cases o <;> simp_all [children]
  | call f =>
    obtain ⟨name, args, «alias»⟩ := f
    obtain ⟨o, ho, rfl⟩ := List.mem_map.mp h
    have hsize : sizeOf o < sizeOf args := List.sizeOf_lt_of_mem ho
    simp
    omega
  | item o =>
    obtain ⟨e, direction⟩ := o
    rw [List.mem_singleton.mp h]
    simp +arith
  | spec s =>
    obtain ⟨partitionBy, orderBy, frame⟩ := s
    rcases List.mem_append.mp h with h | h
    · obtain ⟨e, he, rfl⟩ := List.mem_map.mp h
      have hsize : sizeOf e < sizeOf partitionBy := List.sizeOf_lt_of_mem he
      simp
      omega
    · obtain ⟨o, ho, rfl⟩ := List.mem_map.mp h
      have hsize : sizeOf o < sizeOf orderBy := List.sizeOf_lt_of_mem ho
      simp
      omega
  | overWindow o => cases o <;> simp_all [children]
  | window w =>
    obtain ⟨name, args, distinct, filter, window, «alias»⟩ := w
    rcases List.mem_append.mp h with h | h
    · rcases List.mem_append.mp h with h | h
      · obtain ⟨e, he, rfl⟩ := List.mem_map.mp h
        have hsize : sizeOf e < sizeOf args := List.sizeOf_lt_of_mem he
        simp
        omega
      · obtain ⟨c, hc, rfl⟩ := List.mem_map.mp h
        obtain rfl : filter = some c := Option.mem_toList.mp hc
        simp +arith
    · obtain ⟨o, ho, rfl⟩ := List.mem_map.mp h
      obtain rfl : window = some o := Option.mem_toList.mp ho
      simp +arith
  | condition c =>
    cases c <;> simp only [children, List.mem_cons, List.not_mem_nil, or_false] at h
    case compare | connect =>
      rcases h with rfl | rfl <;> simp +arith
    all_goals
      subst h
      simp +arith

theorem exists_holds_of_mem_owners (p : Part) (h : t ∈ p.owners) :
    ∃ c, p.Holds c ∧ c.table = some t := by
  by_cases hp : ∃ c, p = column c
  · obtain ⟨c, rfl⟩ := hp
    exact ⟨c, .self, Option.mem_toList.mp h⟩
  · rw [owners_eq_flatMap fun c hc => hp ⟨c, hc⟩] at h
    obtain ⟨q, hq, h⟩ := List.mem_flatMap.mp h
    have hsize := sizeOf_lt_of_mem_children hq
    obtain ⟨c, hc, ht⟩ := exists_holds_of_mem_owners q h
    exact ⟨c, .child hq hc, ht⟩
termination_by sizeOf p

theorem mem_owners_of_holds (h : p.Holds c) (ht : c.table = some t) : t ∈ p.owners := by
  induction h with
  | self => exact Option.mem_toList.mpr ht
  | @child p q mem holds ih =>
    have hp : ∀ d, p ≠ column d := by
      rintro d rfl
      contradiction
    rw [owners_eq_flatMap hp]
    exact List.mem_flatMap.mpr ⟨q, mem, ih⟩

theorem mem_owners : t ∈ p.owners ↔ ∃ c, p.Holds c ∧ c.table = some t :=
  ⟨exists_holds_of_mem_owners p, fun ⟨_, hc, ht⟩ => mem_owners_of_holds hc ht⟩

end Part

/-- The statement uses the column in a select item or a condition. -/
def Statement.Uses (s : Statement) (c : Column) : Prop :=
  (∃ e ∈ s.selects, (Part.expr e).Holds c) ∨ ∃ w ∈ s.wheres, (Part.condition w).Holds c

theorem Statement.mem_referencedTables_iff {s : Statement} {t : Table} :
    t ∈ s.referencedTables ↔ ∃ c, s.Uses c ∧ c.table = some t := by
  rw [mem_referencedTables]
  constructor
  · rintro (⟨e, he, ht⟩ | ⟨w, hw, ht⟩)
    · obtain ⟨c, hc, ht⟩ := (Part.expr e).exists_holds_of_mem_owners ht
      exact ⟨c, .inl ⟨e, he, hc⟩, ht⟩
    · obtain ⟨c, hc, ht⟩ := (Part.condition w).exists_holds_of_mem_owners ht
      exact ⟨c, .inr ⟨w, hw, hc⟩, ht⟩
  · rintro ⟨c, ⟨e, he, hc⟩ | ⟨w, hw, hc⟩, ht⟩
    · exact .inl ⟨e, he, Part.mem_owners_of_holds hc ht⟩
    · exact .inr ⟨w, hw, Part.mem_owners_of_holds hc ht⟩

end SqlKit
