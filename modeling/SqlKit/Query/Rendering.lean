import SqlKit.Query.Draft
import SqlKit.Query.Statement

/-!
# Drafts of statements

Every part of a statement has a draft, given by recursion over the syntax.  Plain values are bound;
null beside an operator or in a select list is spelled out; texts that are direct arguments of a
function, and values of a conflict clause, are literals.  The clauses of a statement stand in a fixed
order, and a statement that lacks its target ends the draft before anything of it is written.

    Expr.drafts es = es.map Expr.draft                                 (Expr.drafts_eq_map)
    (Condition.connect a op b).draft = (a) op (b)                      (draft_connect)
    (Script.ofStatement s).draft = s.draft                             (draft_ofStatement)

What a statement consists of is said kind by kind (`draft_select` and the like).
-/

namespace SqlKit

/-! ## Parts without sub-statements -/

/-- A value that stands on its own: null is spelled out, all else is bound. -/
def Value.draft : Value → Draft
  | .null => "NULL"
  | v => .bound v

/-- A value that is a direct argument of a function: text is spelled out as a literal. -/
def Value.argument : Value → Draft
  | .string s => .literal (.string s)
  | v => v.draft

/-- A list of values that are all bound. -/
def boundList (vs : List Value) : Draft := .join ", " (vs.map .bound)

namespace ConflictAction

/-- The right-hand side of an assignment on conflict. -/
def valueDraft : Value → Draft
  | .string s => if s.startsWith "EXCLUDED." then .text s else .literal (.string s)
  | v => .literal v

def draft : ConflictAction → Draft
  | nothing => " DO NOTHING"
  | update assignments =>
    .text " DO UPDATE SET " ++
      .join ", " (assignments.map fun a => .text (quoteIdent a.1 ++ " = ") ++ valueDraft a.2)

end ConflictAction

def OnConflict.draft (c : OnConflict) : Draft :=
  .text ("ON CONFLICT" ++
      if c.targets.isEmpty then "" else " (" ++ ", ".intercalate c.targets ++ ")") ++
    c.action.draft

/-- A name given behind `AS`. -/
def aliasDraft : Option String → Draft
  | none => .empty
  | some a => .text (" AS " ++ a)

/-- The name of a sub-query among the sources, which is quoted. -/
def sourceAliasDraft : Option String → Draft
  | none => .empty
  | some a => .text (" AS " ++ quoteIdent a)

def FunctionName.draft : FunctionName → Draft
  | named n => .text n
  | jsonObject => .jsonObject

/-- Membership in a list of values; nothing is in the empty list. -/
def memberDraft (c : Column) (negated : Bool) (values : List Value) : Draft :=
  match values with
  | [] => .text (if negated then "1 = 1" else c.text ++ " IN (NULL)")
  | vs => .text (c.text ++ if negated then " NOT IN " else " IN ") ++ .paren (boundList vs)

/-- The frame of a window. -/
def frameDrafts : Option String → List Draft
  | none => []
  | some f => [.text f]

/-- The columns a statement returns. -/
def returningDraft (columns : List String) : Draft :=
  .clause " RETURNING " ", " (columns.map .text)

/-- A number behind a keyword. -/
def countDraft (keyword : String) : Option Nat → Draft
  | none => .empty
  | some n => .text (keyword ++ Digits.text n)

/-- The rows of a `VALUES` list. -/
def rowDrafts (rows : List (List Value)) : List Draft := rows.map fun row => .paren (boundList row)

/-! ## Clauses from the drafts of their items -/

/-- The rows a window call counts. -/
def filterDraft : Option Draft → Draft
  | none => .empty
  | some c => .text " FILTER (WHERE " ++ c ++ .text ")"

/-- The condition of a join. -/
def onDraft : Option Draft → Draft
  | none => .empty
  | some c => .text " ON " ++ c

/-- A part of a window, if it has items. -/
def windowPart (heading : String) : List Draft → List Draft
  | [] => []
  | items => [.clause heading ", " items]

def windowDraft (partitionBy orderBy : List Draft) (frame : Option String) : Draft :=
  .join " " (windowPart "PARTITION BY " partitionBy ++ windowPart "ORDER BY " orderBy ++
    frameDrafts frame)

/-- The common table expressions, in front of the statement on lines of their own. -/
def withDraft (ctes : List Draft) : Draft :=
  .clause "WITH " ", " ctes ++
    (match ctes with
      | [] => .empty
      | _ :: _ => .text "\n")

/-- The select list; everything if nothing is asked for. -/
def selectListDraft : List Draft → Draft
  | [] => .text "*"
  | items => .join ", " items

/-- The conditions of a statement. -/
def whereDraft (conditions : List Draft) : Draft := .clause " WHERE " " AND " conditions

/-- The target of an insertion, with its columns if they are given. -/
def insertTargetDraft (t : Table) (columns : List String) : Draft :=
  .text ("INSERT INTO " ++ t.qualifiedName ++
    if columns.isEmpty then ""
    else " (" ++ ", ".intercalate (columns.map quoteIdent) ++ ")")

/-- What is inserted: the rows of a query, the rows given, or one row of defaults. -/
def insertedDraft (rows : List (List Value)) : Option Draft → Draft
  | some query => .text " " ++ query
  | none =>
    match rows with
    | [] => .text " DEFAULT VALUES"
    | rows => .clause " VALUES " ", " (rowDrafts rows)

/-- What becomes of a row that is there already. -/
def conflictDraft : Option OnConflict → Draft
  | none => .empty
  | some c => .text " " ++ c.draft

/-- An update of a table, if there is one, by a list of assignments. -/
def updateDraft (withClause : Draft) (target : Option Table) (assignments : List Draft)
    (rest : Draft) : Draft :=
  match target with
  | none => .fail .updateTarget
  | some t =>
    match assignments with
    | [] => .fail (.updateAssignments t.text)
    | as => withClause ++ .text ("UPDATE " ++ t.text ++ " SET ") ++ .join ", " as ++ rest

/-- A deletion from the first source, or from the one set aside for it. -/
def deleteDraft (withClause : Draft) (sources : List Draft) (deleteSource : Option Draft)
    (rest : Draft) : Draft :=
  match sources with
  | s :: _ => withClause ++ .text "DELETE FROM " ++ s ++ rest
  | [] =>
    match deleteSource with
    | some s => withClause ++ .text "DELETE FROM " ++ s ++ rest
    | none => .fail .deleteTarget

/-- An insertion into a table, if there is one. -/
def insertDraft (withClause : Draft) (target : Option Table) (columns : List String)
    (rest : Draft) : Draft :=
  match target with
  | none => .fail .insertTarget
  | some t => withClause ++ insertTargetDraft t columns ++ rest

/-! ## Parts with sub-statements -/

mutual

def Expr.draft : Expr → Draft
  | .column c => .text c.text
  | .raw sql => .text sql
  | .value v => v.draft
  | .call f => f.draft
  | .window w => w.draft
  | .condition c => c.draft
  | .subquery s => .paren s.draft
  | .named e a => e.draft ++ .text (" AS " ++ a)

def Expr.drafts : List Expr → List Draft
  | [] => []
  | e :: es => e.draft :: Expr.drafts es

def Operand.draft : Operand → Draft
  | .value v => v.draft
  | .column c => .text c.text
  | .expr e => e.draft

/-- A direct argument of a function. -/
def Operand.argument : Operand → Draft
  | .value v => v.argument
  | .column c => .text c.text
  | .expr e => e.draft

def Operand.arguments : List Operand → List Draft
  | [] => []
  | o :: os => o.argument :: Operand.arguments os

def Call.draft : Call → Draft
  | ⟨name, args, a⟩ =>
    name.draft ++ .paren (.join ", " (Operand.arguments args)) ++ aliasDraft a

def OrderItem.draft : OrderItem → Draft
  | ⟨e, d⟩ => e.draft ++ .text (" " ++ d.sql)

def OrderItem.drafts : List OrderItem → List Draft
  | [] => []
  | o :: os => o.draft :: OrderItem.drafts os

def WindowSpec.draft : WindowSpec → Draft
  | ⟨partitionBy, orderBy, frame⟩ =>
    windowDraft (Expr.drafts partitionBy) (OrderItem.drafts orderBy) frame

def Over.draft : Over → Draft
  | .named name => .text (" OVER " ++ name)
  | .spec s => .text " OVER " ++ .paren s.draft

def Over.draft? : Option Over → Option Draft
  | none => none
  | some o => some o.draft

def WindowCall.draft : WindowCall → Draft
  | ⟨name, args, distinct, filter, window, a⟩ =>
    .text name ++
    .paren (.text (if distinct then "DISTINCT " else "") ++ .join ", " (Expr.drafts args)) ++
    filterDraft (Condition.draft? filter) ++ (Over.draft? window).getD .empty ++ aliasDraft a

def Condition.draft : Condition → Draft
  | .compare left op right => .text (left.text ++ " " ++ op.sql ++ " ") ++ right.draft
  | .null c negated => .text (c.text ++ if negated then " IS NOT NULL" else " IS NULL")
  | .connect a op b => .paren a.draft ++ .text (" " ++ op.sql ++ " ") ++ .paren b.draft
  | .inList c negated values => memberDraft c negated values
  | .inQuery c negated q =>
    .text (c.text ++ if negated then " NOT IN " else " IN ") ++ .paren q.draft
  | .between c lower upper =>
    .text (c.text ++ " BETWEEN ") ++ .bound lower ++ .text " AND " ++ .bound upper
  | .negation c => .text "NOT " ++ .paren c.draft
  | .raw sql => .text sql

def Condition.drafts : List Condition → List Draft
  | [] => []
  | c :: cs => c.draft :: Condition.drafts cs

def Condition.draft? : Option Condition → Option Draft
  | none => none
  | some c => some c.draft

def Source.draft : Source → Draft
  | .table t => .text t.text
  | .subquery q a => .paren q.draft ++ sourceAliasDraft a
  | .raw sql => .text sql

def Source.drafts : List Source → List Draft
  | [] => []
  | s :: ss => s.draft :: Source.drafts ss

def Source.draft? : Option Source → Option Draft
  | none => none
  | some s => some s.draft

def Join.draft : Join → Draft
  | ⟨kind, source, on⟩ =>
    .text (kind.sql ++ " ") ++ source.draft ++ onDraft (Condition.draft? on)

/-- The joins, each behind a blank. -/
def Join.drafts : List Join → Draft
  | [] => .empty
  | j :: js => .text " " ++ j.draft ++ Join.drafts js

def CteBody.draft : CteBody → Draft
  | .query q => q.draft
  | .raw sql => .text sql

def Cte.draft : Cte → Draft
  | ⟨name, body⟩ => .text (name ++ " AS ") ++ .paren body.draft

def Cte.drafts : List Cte → List Draft
  | [] => []
  | c :: cs => c.draft :: Cte.drafts cs

def Assignment.draft : Assignment → Draft
  | .set column value => .text (quoteIdent column ++ " = ") ++ value.draft
  | .raw sql => .text sql

def Assignment.drafts : List Assignment → List Draft
  | [] => []
  | a :: as => a.draft :: Assignment.drafts as

def WindowDef.draft : WindowDef → Draft
  | ⟨name, spec⟩ => .text (name ++ " AS ") ++ .paren spec.draft

def WindowDef.drafts : List WindowDef → List Draft
  | [] => []
  | w :: ws => w.draft :: WindowDef.drafts ws

/-- A statement; which clauses are written depends on its kind. -/
def Statement.draft : Statement → Draft
  | ⟨kind, selects, distinct, sources, joins, wheres, groups, orders, limit, offset, returning, ctes,
      insertTable, insertColumns, insertRows, insertQuery, updateTable, updates, deleteSource,
      windows, onConflict⟩ =>
    let withClause := withDraft (Cte.drafts ctes)
    let whereClause := whereDraft (Condition.drafts wheres)
    match kind with
    | .begin => "BEGIN"
    | .commit => "COMMIT;"
    | .rollback => "ROLLBACK;"
    | .select =>
      withClause ++ .text (if distinct then "SELECT DISTINCT " else "SELECT ") ++
      selectListDraft (Expr.drafts selects) ++
      .clause " FROM " ", " (Source.drafts sources) ++
      Join.drafts joins ++
      whereClause ++
      .clause " GROUP BY " ", " (Expr.drafts groups) ++
      .clause " WINDOW " ", " (WindowDef.drafts windows) ++
      .clause " ORDER BY " ", " (OrderItem.drafts orders) ++
      countDraft " LIMIT " limit ++
      countDraft " OFFSET " offset ++
      returningDraft returning
    | .insert =>
      insertDraft withClause insertTable insertColumns
        (insertedDraft insertRows (Statement.draft? insertQuery) ++ conflictDraft onConflict ++
          returningDraft returning)
    | .update =>
      updateDraft withClause updateTable (Assignment.drafts updates)
        (whereClause ++ returningDraft returning)
    | .delete =>
      deleteDraft withClause (Source.drafts sources) (Source.draft? deleteSource)
        (whereClause ++ returningDraft returning)

def Statement.draft? : Option Statement → Option Draft
  | none => none
  | some s => some s.draft

end

/-- The statements of a script, those before the last each without its own. -/
def Script.draft (s : Script) : Draft :=
  .join "; " ((s.chain.map fun c => c.last.draft) ++ [s.last.draft])

/-! ## Lemmas -/

theorem Expr.drafts_eq_map (es : List Expr) : Expr.drafts es = es.map Expr.draft := by
  induction es with
  | nil => rfl
  | cons e es ih => simp [Expr.drafts, ih]

theorem Condition.drafts_eq_map (cs : List Condition) :
    Condition.drafts cs = cs.map Condition.draft := by
  induction cs with
  | nil => rfl
  | cons c cs ih => simp [Condition.drafts, ih]

theorem Source.drafts_eq_map (ss : List Source) : Source.drafts ss = ss.map Source.draft := by
  induction ss with
  | nil => rfl
  | cons s ss ih => simp [Source.drafts, ih]

theorem Condition.draft_connect (a b : Condition) (op : Connective) :
    (connect a op b).draft =
      .paren a.draft ++ .text (" " ++ op.sql ++ " ") ++ .paren b.draft := by
  simp only [Condition.draft]

/-! The statements, kind by kind. -/

namespace Statement

variable {s : Statement}

theorem draft_select (h : s.kind = .select) :
    s.draft =
      withDraft (Cte.drafts s.ctes) ++
      .text (if s.distinct then "SELECT DISTINCT " else "SELECT ") ++
      selectListDraft (Expr.drafts s.selects) ++
      .clause " FROM " ", " (Source.drafts s.sources) ++
      Join.drafts s.joins ++
      whereDraft (Condition.drafts s.wheres) ++
      .clause " GROUP BY " ", " (Expr.drafts s.groups) ++
      .clause " WINDOW " ", " (WindowDef.drafts s.windows) ++
      .clause " ORDER BY " ", " (OrderItem.drafts s.orders) ++
      countDraft " LIMIT " s.limit ++
      countDraft " OFFSET " s.offset ++
      returningDraft s.returning := by
  cases s
  subst h
  rw [draft]

theorem draft_insert (h : s.kind = .insert) :
    s.draft =
      insertDraft (withDraft (Cte.drafts s.ctes)) s.insertTable s.insertColumns
        (insertedDraft s.insertRows (draft? s.insertQuery) ++
          conflictDraft s.onConflict ++ returningDraft s.returning) := by
  cases s
  subst h
  rw [draft]

theorem draft_update (h : s.kind = .update) :
    s.draft =
      updateDraft (withDraft (Cte.drafts s.ctes)) s.updateTable (Assignment.drafts s.updates)
        (whereDraft (Condition.drafts s.wheres) ++ returningDraft s.returning) := by
  cases s
  subst h
  rw [draft]

theorem draft_delete (h : s.kind = .delete) :
    s.draft =
      deleteDraft (withDraft (Cte.drafts s.ctes)) (Source.drafts s.sources)
        (Source.draft? s.deleteSource)
        (whereDraft (Condition.drafts s.wheres) ++ returningDraft s.returning) := by
  cases s
  subst h
  rw [draft]

theorem draft_begin (h : s.kind = .begin) : s.draft = .text "BEGIN" := by
  cases s
  subst h
  rw [draft]

theorem draft_commit (h : s.kind = .commit) : s.draft = .text "COMMIT;" := by
  cases s
  subst h
  rw [draft]

theorem draft_rollback (h : s.kind = .rollback) : s.draft = .text "ROLLBACK;" := by
  cases s
  subst h
  rw [draft]

end Statement

theorem Script.draft_ofStatement (s : Statement) : (Script.ofStatement s).draft = s.draft := rfl

end SqlKit
