import SqlKit.Query.Compiler

/-!
# Writing scripts

How a compiler writes a script: part by part, each part binding its values as it is written, and the
texts of the parts put together afterwards.  One count of placeholders and one list of values go
through all parts of a script, sub-statements included.  A part that fails ends the writing; the values
bound before it stay with the compiler.

    Script.write s on a fresh compiler   its text, and the values bound in it
-/

namespace SqlKit

/-- What a compiler does to write something. -/
abbrev Writer (α : Type) := ExceptT Error (StateM Compiler) α

namespace Writer

/-- What is written by a compiler, and the compiler afterwards. -/
def on {α : Type} (w : Writer α) (c : Compiler) : Result α × Compiler := w.run.run c

/-! ## Values and names -/

def bound (v : Value) : Writer String := modifyGet fun c => c.bind v

def literal (v : Value) : Writer String := return v.literal (← get).dialect

def fault {α : Type} (m : Malformed) : Writer α := throw m.error

end Writer

/-- A value that stands on its own: null is spelled out, all else is bound. -/
def Value.write : Value → Writer String
  | .null => return "NULL"
  | v => .bound v

/-- A value that is a direct argument of a function: text is spelled out as a literal. -/
def Value.writeArgument : Value → Writer String
  | .string s => .literal (.string s)
  | v => v.write

def FunctionName.write : FunctionName → Writer String
  | named n => return n
  | jsonObject => return Piece.jsonObjectName (← get).dialect

namespace ConflictAction

def writeValue : Value → Writer String
  | .string s => if s.startsWith "EXCLUDED." then return s else .literal (.string s)
  | v => .literal v

def write : ConflictAction → Writer String
  | nothing => return " DO NOTHING"
  | update assignments => do
    let items ← assignments.mapM fun a => return quoteIdent a.1 ++ " = " ++ (← writeValue a.2)
    return " DO UPDATE SET " ++ ", ".intercalate items

end ConflictAction

def OnConflict.write (c : OnConflict) : Writer String := do
  let action ← c.action.write
  return "ON CONFLICT" ++ (if c.targets.isEmpty then "" else " (" ++ ", ".intercalate c.targets ++ ")") ++
    action

/-! ## Clauses from the texts of their items -/

def parenText (s : String) : String := "(" ++ s ++ ")"

/-- Items behind a heading, if there are any. -/
def clauseText (heading sep : String) : List String → String
  | [] => ""
  | items => heading ++ sep.intercalate items

/-- A name given behind `AS`. -/
def aliasText : Option String → String
  | none => ""
  | some a => " AS " ++ a

def filterText : Option String → String
  | none => ""
  | some c => " FILTER (WHERE " ++ c ++ ")"

def onText : Option String → String
  | none => ""
  | some c => " ON " ++ c

def withText : List String → String
  | [] => ""
  | ctes => "WITH " ++ ", ".intercalate ctes ++ "\n"

def selectListText : List String → String
  | [] => "*"
  | items => ", ".intercalate items

def whereText (conditions : List String) : String := clauseText " WHERE " " AND " conditions

def returningText (columns : List String) : String := clauseText " RETURNING " ", " columns

def countText (keyword : String) : Option Nat → String
  | none => ""
  | some n => keyword ++ Digits.text n

/-- A part of a window, if it has items. -/
def windowPartText (heading : String) : List String → List String
  | [] => []
  | items => [heading ++ ", ".intercalate items]

/-- Membership in a list of values; nothing is in the empty list. -/
def writeMember (c : Column) (negated : Bool) (values : List Value) : Writer String :=
  match values with
  | [] => return if negated then "1 = 1" else c.text ++ " IN (NULL)"
  | vs => do
    let items ← vs.mapM Writer.bound
    return c.text ++ (if negated then " NOT IN " else " IN ") ++ parenText (", ".intercalate items)

def writeRow (row : List Value) : Writer String := do
  let values ← row.mapM Writer.bound
  return parenText (", ".intercalate values)

/-- What is inserted: the rows of a query, the rows given, or one row of defaults. -/
def writeInserted (rows : List (List Value)) : Option (Writer String) → Writer String
  | some query => return " " ++ (← query)
  | none =>
    match rows with
    | [] => return " DEFAULT VALUES"
    | rows => return " VALUES " ++ ", ".intercalate (← rows.mapM writeRow)

def writeConflict : Option OnConflict → Writer String
  | none => return ""
  | some c => return " " ++ (← c.write)

/-! ## Parts with sub-statements -/

mutual

def Expr.write : Expr → Writer String
  | .column c => return c.text
  | .raw sql => return sql
  | .value v => v.write
  | .call f => f.write
  | .window w => w.write
  | .condition c => c.write
  | .subquery s => return parenText (← s.write)
  | .named e a => return (← e.write) ++ " AS " ++ a

def Expr.writeAll : List Expr → Writer (List String)
  | [] => return []
  | e :: es => return (← e.write) :: (← Expr.writeAll es)

def Operand.write : Operand → Writer String
  | .value v => v.write
  | .column c => return c.text
  | .expr e => e.write

/-- A direct argument of a function. -/
def Operand.writeArgument : Operand → Writer String
  | .value v => v.writeArgument
  | .column c => return c.text
  | .expr e => e.write

def Operand.writeArguments : List Operand → Writer (List String)
  | [] => return []
  | o :: os => return (← o.writeArgument) :: (← Operand.writeArguments os)

def Call.write : Call → Writer String
  | ⟨name, args, a⟩ => do
    let name ← name.write
    let args ← Operand.writeArguments args
    return name ++ parenText (", ".intercalate args) ++ aliasText a

def OrderItem.write : OrderItem → Writer String
  | ⟨e, d⟩ => return (← e.write) ++ " " ++ d.sql

def OrderItem.writeAll : List OrderItem → Writer (List String)
  | [] => return []
  | o :: os => return (← o.write) :: (← OrderItem.writeAll os)

def WindowSpec.write : WindowSpec → Writer String
  | ⟨partitionBy, orderBy, frame⟩ => do
    let partitions ← Expr.writeAll partitionBy
    let orders ← OrderItem.writeAll orderBy
    return " ".intercalate (windowPartText "PARTITION BY " partitions ++
      windowPartText "ORDER BY " orders ++ frame.toList)

def Over.write : Over → Writer String
  | .named name => return " OVER " ++ name
  | .spec s => return " OVER " ++ parenText (← s.write)

def Over.write? : Option Over → Writer String
  | none => return ""
  | some o => o.write

def WindowCall.write : WindowCall → Writer String
  | ⟨name, args, distinct, filter, window, a⟩ => do
    let args ← Expr.writeAll args
    let filter ← Condition.write? filter
    let window ← Over.write? window
    return name ++ parenText ((if distinct then "DISTINCT " else "") ++ ", ".intercalate args) ++
      filterText filter ++ window ++ aliasText a

def Condition.write : Condition → Writer String
  | .compare left op right => do
    let right ← right.write
    return left.text ++ " " ++ op.sql ++ " " ++ right
  | .null c negated => return c.text ++ if negated then " IS NOT NULL" else " IS NULL"
  | .connect a op b => do
    let left ← a.write
    let right ← b.write
    return parenText left ++ " " ++ op.sql ++ " " ++ parenText right
  | .inList c negated values => writeMember c negated values
  | .inQuery c negated q => do
    let query ← q.write
    return c.text ++ (if negated then " NOT IN " else " IN ") ++ parenText query
  | .between c lower upper => do
    let lower ← Writer.bound lower
    let upper ← Writer.bound upper
    return c.text ++ " BETWEEN " ++ lower ++ " AND " ++ upper
  | .negation c => return "NOT " ++ parenText (← c.write)
  | .raw sql => return sql

def Condition.writeAll : List Condition → Writer (List String)
  | [] => return []
  | c :: cs => return (← c.write) :: (← Condition.writeAll cs)

def Condition.write? : Option Condition → Writer (Option String)
  | none => return none
  | some c => return some (← c.write)

def Source.write : Source → Writer String
  | .table t => return t.text
  | .subquery q a => return parenText (← q.write) ++ aliasText (a.map quoteIdent)
  | .raw sql => return sql

def Source.writeAll : List Source → Writer (List String)
  | [] => return []
  | s :: ss => return (← s.write) :: (← Source.writeAll ss)

/-- The first source, if there is one. -/
def Source.writeFirst? : List Source → Option (Writer String)
  | [] => none
  | s :: _ => some s.write

def Source.write? : Option Source → Option (Writer String)
  | none => none
  | some s => some s.write

def Join.write : Join → Writer String
  | ⟨kind, source, on⟩ => do
    let source ← source.write
    let on ← Condition.write? on
    return kind.sql ++ " " ++ source ++ onText on

/-- The joins, each behind a blank. -/
def Join.writeAll : List Join → Writer String
  | [] => return ""
  | j :: js => return " " ++ (← j.write) ++ (← Join.writeAll js)

def CteBody.write : CteBody → Writer String
  | .query q => q.write
  | .raw sql => return sql

def Cte.write : Cte → Writer String
  | ⟨name, body⟩ => return name ++ " AS " ++ parenText (← body.write)

def Cte.writeAll : List Cte → Writer (List String)
  | [] => return []
  | c :: cs => return (← c.write) :: (← Cte.writeAll cs)

def Assignment.write : Assignment → Writer String
  | .set column value => return quoteIdent column ++ " = " ++ (← value.write)
  | .raw sql => return sql

def Assignment.writeAll : List Assignment → Writer (List String)
  | [] => return []
  | a :: as => return (← a.write) :: (← Assignment.writeAll as)

def WindowDef.write : WindowDef → Writer String
  | ⟨name, spec⟩ => return name ++ " AS " ++ parenText (← spec.write)

def WindowDef.writeAll : List WindowDef → Writer (List String)
  | [] => return []
  | w :: ws => return (← w.write) :: (← WindowDef.writeAll ws)

/-- A statement; a missing target is found before anything is written. -/
def Statement.write : Statement → Writer String
  | ⟨kind, selects, distinct, sources, joins, wheres, groups, orders, limit, offset, returning, ctes,
      insertTable, insertColumns, insertRows, insertQuery, updateTable, updates, deleteSource,
      windows, onConflict⟩ =>
    match kind with
    | .begin => return "BEGIN"
    | .commit => return "COMMIT;"
    | .rollback => return "ROLLBACK;"
    | .select => do
      let ctes ← Cte.writeAll ctes
      let items ← Expr.writeAll selects
      let sources ← Source.writeAll sources
      let joins ← Join.writeAll joins
      let conditions ← Condition.writeAll wheres
      let groups ← Expr.writeAll groups
      let windows ← WindowDef.writeAll windows
      let orders ← OrderItem.writeAll orders
      return withText ctes ++ (if distinct then "SELECT DISTINCT " else "SELECT ") ++
        selectListText items ++ clauseText " FROM " ", " sources ++ joins ++ whereText conditions ++
        clauseText " GROUP BY " ", " groups ++ clauseText " WINDOW " ", " windows ++
        clauseText " ORDER BY " ", " orders ++ countText " LIMIT " limit ++
        countText " OFFSET " offset ++ returningText returning
    | .insert =>
      match insertTable with
      | none => .fault .insertTarget
      | some t => do
        let ctes ← Cte.writeAll ctes
        let inserted ← writeInserted insertRows (Statement.write? insertQuery)
        let conflict ← writeConflict onConflict
        return withText ctes ++ "INSERT INTO " ++ t.qualifiedName ++
          (if insertColumns.isEmpty then ""
            else " (" ++ ", ".intercalate (insertColumns.map quoteIdent) ++ ")") ++
          inserted ++ conflict ++ returningText returning
    | .update =>
      match updateTable with
      | none => .fault .updateTarget
      | some t =>
        if updates.isEmpty then .fault (.updateAssignments t.text)
        else do
          let ctes ← Cte.writeAll ctes
          let assignments ← Assignment.writeAll updates
          let conditions ← Condition.writeAll wheres
          return withText ctes ++ "UPDATE " ++ t.text ++ " SET " ++ ", ".intercalate assignments ++
            whereText conditions ++ returningText returning
    | .delete =>
      match (Source.writeFirst? sources).or (Source.write? deleteSource) with
      | none => .fault .deleteTarget
      | some source => do
        let ctes ← Cte.writeAll ctes
        let target ← source
        let conditions ← Condition.writeAll wheres
        return withText ctes ++ "DELETE FROM " ++ target ++ whereText conditions ++
          returningText returning

def Statement.write? : Option Statement → Option (Writer String)
  | none => none
  | some s => some s.write

end

/-- The statements of a script, those before the last each without its own. -/
def Script.write (s : Script) : Writer String := do
  let before ← s.chain.mapM fun c => c.last.write
  let last ← s.last.write
  return "; ".intercalate (before ++ [last])

/-! ## Scripts -/

/-- Compiles a script from a fresh count. -/
def Compiler.compile (c : Compiler) (s : Script) : Result Compiled × Compiler :=
  match s.write.on { c with count := 0, params := [] } with
  | (.ok sql, c') => (.ok ⟨sql, c'.params⟩, { c' with params := [] })
  | (.error e, c') => (.error e, c')

namespace Script

/-- The script with placeholders, and the values to bind. -/
def compile (s : Script) (d : Dialect) : Result Compiled := ((Compiler.binding d).compile s).1

/-- The script with its values written out. -/
def print (s : Script) (d : Dialect) : Result String :=
  ((Compiler.inlining d).compile s).1.map Compiled.sql

end Script

end SqlKit
