import SqlKit.Query.Statement

/-!
# Tables that columns refer to

The tables that own a column somewhere in an expression or a condition, each once, in the order in
which they are first met.  Sub-queries look after their own columns and are passed over.

    t ∈ s.referencedTables ↔ t owns a column of a select item or a condition of s
                                                                       (mem_referencedTables)
-/

namespace SqlKit

/-! ## Owners of columns, with repetitions -/

/-- The table of a column, if it has one. -/
def Column.owners (c : Column) : List Table := c.table.toList

mutual

def Expr.owners : Expr → List Table
  | .column c => c.owners
  | .raw _ => []
  | .value _ => []
  | .call f => f.owners
  | .window w => w.owners
  | .condition c => c.owners
  | .subquery _ => []
  | .named e _ => e.owners

def Expr.ownersAll : List Expr → List Table
  | [] => []
  | e :: es => e.owners ++ Expr.ownersAll es

def Operand.owners : Operand → List Table
  | .value _ => []
  | .column c => c.owners
  | .expr e => e.owners

def Operand.ownersAll : List Operand → List Table
  | [] => []
  | o :: os => o.owners ++ Operand.ownersAll os

def Call.owners : Call → List Table
  | ⟨_, args, _⟩ => Operand.ownersAll args

def OrderItem.owners : OrderItem → List Table
  | ⟨e, _⟩ => e.owners

def OrderItem.ownersAll : List OrderItem → List Table
  | [] => []
  | o :: os => o.owners ++ OrderItem.ownersAll os

def WindowSpec.owners : WindowSpec → List Table
  | ⟨partitionBy, orderBy, _⟩ => Expr.ownersAll partitionBy ++ OrderItem.ownersAll orderBy

def Over.owners : Over → List Table
  | .named _ => []
  | .spec s => s.owners

def WindowCall.owners : WindowCall → List Table
  | ⟨_, args, _, filter, window, _⟩ =>
    Expr.ownersAll args ++
    (match filter with
      | none => []
      | some c => c.owners) ++
    (match window with
      | none => []
      | some o => o.owners)

def Condition.owners : Condition → List Table
  | .compare left _ right => left.owners ++ right.owners
  | .null c _ => c.owners
  | .connect a _ b => a.owners ++ b.owners
  | .inList c _ _ => c.owners
  | .inQuery c _ _ => c.owners
  | .between c _ _ => c.owners
  | .negation c => c.owners
  | .raw _ => []

end

/-! ## Tables, each once -/

/-- The tables of an expression. -/
def Expr.tables (e : Expr) : List Table := e.owners.eraseDups

/-- The tables of a condition. -/
def Condition.tables (c : Condition) : List Table := c.owners.eraseDups

/-- The tables of the select list, then those of the conditions. -/
def Statement.referencedTables (s : Statement) : List Table :=
  (s.selects.flatMap Expr.owners ++ s.wheres.flatMap Condition.owners).eraseDups

/-! ## Lemmas -/

theorem Expr.ownersAll_eq_flatMap (es : List Expr) : Expr.ownersAll es = es.flatMap Expr.owners := by
  induction es with
  | nil => rfl
  | cons e es ih => simp [Expr.ownersAll, ih]

theorem Statement.mem_referencedTables {s : Statement} {t : Table} :
    t ∈ s.referencedTables ↔
      (∃ e ∈ s.selects, t ∈ e.owners) ∨ ∃ c ∈ s.wheres, t ∈ c.owners := by
  simp [referencedTables, List.mem_eraseDups]

end SqlKit
