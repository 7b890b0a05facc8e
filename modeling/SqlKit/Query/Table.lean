import SqlKit.Dialect
import SqlKit.Text.Split

/-!
# Tables and columns

A table has a name and perhaps a schema and an alias; a column perhaps a table.  A column is
qualified by its table's reference, which is the alias or else the name.

    (t.column n).text = quoteIdent t.reference ++ "." ++ quoteIdent n  (text_column)
    (unaliased t).reference = t.name                                   (reference_of_alias_none)
-/

namespace SqlKit

/-- A table as a statement names it. -/
structure Table where
  name : String
  schema : Option String
  «alias» : Option String
deriving DecidableEq, Repr

/-- A column, perhaps of a table. -/
structure Column where
  name : String
  table : Option Table
deriving DecidableEq, Repr

namespace Table

def named (name : String) : Table := ⟨name, none, none⟩

/-- The table with a path: what stands in front of the first dot is the schema. -/
def ofPath (path : String) : Table :=
  match Text.splitOnce? '.' path.toList with
  | some (schema, name) => ⟨String.ofList name, some (String.ofList schema), none⟩
  | none => named path

/-- What columns of the table are qualified with. -/
def reference (t : Table) : String := t.alias.getD t.name

/-- The quoted name behind its schema, without the alias. -/
def qualifiedName (t : Table) : String :=
  match t.schema with
  | some s => quoteIdent s ++ "." ++ quoteIdent t.name
  | none => quoteIdent t.name

/-- The table where a statement introduces it. -/
def text (t : Table) : String :=
  match t.alias with
  | some a => t.qualifiedName ++ " AS " ++ quoteIdent a
  | none => t.qualifiedName

/-- A column of the table. -/
def column (t : Table) (name : String) : Column := ⟨name, some t⟩

/-- The table with its own name for an alias, unless it has an alias. -/
def aliased (t : Table) : Table := { t with «alias» := some t.reference }

end Table

namespace Column

def named (name : String) : Column := ⟨name, none⟩

/-- The quoted name, qualified if the column has a table. -/
def text (c : Column) : String :=
  match c.table with
  | some t => quoteIdent t.reference ++ "." ++ quoteIdent c.name
  | none => quoteIdent c.name

end Column

/-! ## Lemmas -/

theorem Table.text_column (t : Table) (n : String) :
    (t.column n).text = quoteIdent t.reference ++ "." ++ quoteIdent n := rfl

theorem Table.reference_of_alias_none {t : Table} (h : t.alias = none) : t.reference = t.name := by
  simp [reference, h]

theorem Table.reference_aliased (t : Table) : t.aliased.reference = t.reference := rfl

end SqlKit
