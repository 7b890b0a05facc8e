import SqlKit.Query.Statement

/-!
# Verbatim pieces

Names of tables and columns are quoted and values are bound, but some texts stand in a statement as
they were given: raw parts, names behind `AS`, names of functions, windows and common table
expressions, frames, returned columns, the columns of a conflict, and the values of a conflict clause
that start with `EXCLUDED.`.  `X.Verbatim P` says that `P` holds of all such texts of an `X`.
-/

namespace SqlKit

def FunctionName.Verbatim (P : String → Prop) : FunctionName → Prop
  | named name => P name
  | jsonObject => True

/-- A value of a conflict clause; most are literals. -/
def ConflictAction.VerbatimValue (P : String → Prop) : Value → Prop
  | .string s => s.startsWith "EXCLUDED." = true → P s
  | _ => True

def ConflictAction.Verbatim (P : String → Prop) : ConflictAction → Prop
  | nothing => True
  | update assignments => ∀ a ∈ assignments, VerbatimValue P a.2

def OnConflict.Verbatim (P : String → Prop) (c : OnConflict) : Prop :=
  (∀ t ∈ c.targets, P t) ∧ c.action.Verbatim P

mutual

def Expr.Verbatim (P : String → Prop) : Expr → Prop
  | .column _ => True
  | .raw sql => P sql
  | .value _ => True
  | .call f => f.Verbatim P
  | .window w => w.Verbatim P
  | .condition c => c.Verbatim P
  | .subquery s => s.Verbatim P
  | .named e a => e.Verbatim P ∧ P a

def Expr.Verbatims (P : String → Prop) : List Expr → Prop
  | [] => True
  | e :: es => e.Verbatim P ∧ Expr.Verbatims P es

def Operand.Verbatim (P : String → Prop) : Operand → Prop
  | .value _ => True
  | .column _ => True
  | .expr e => e.Verbatim P

def Operand.Verbatims (P : String → Prop) : List Operand → Prop
  | [] => True
  | o :: os => o.Verbatim P ∧ Operand.Verbatims P os

def Call.Verbatim (P : String → Prop) : Call → Prop
  | ⟨name, args, a⟩ => name.Verbatim P ∧ Operand.Verbatims P args ∧ ∀ t ∈ a, P t

def OrderItem.Verbatim (P : String → Prop) : OrderItem → Prop
  | ⟨e, _⟩ => e.Verbatim P

def OrderItem.Verbatims (P : String → Prop) : List OrderItem → Prop
  | [] => True
  | o :: os => o.Verbatim P ∧ OrderItem.Verbatims P os

def WindowSpec.Verbatim (P : String → Prop) : WindowSpec → Prop
  | ⟨partitionBy, orderBy, frame⟩ =>
    Expr.Verbatims P partitionBy ∧ OrderItem.Verbatims P orderBy ∧ ∀ t ∈ frame, P t

def Over.Verbatim (P : String → Prop) : Over → Prop
  | .named name => P name
  | .spec s => s.Verbatim P

def Over.Verbatim? (P : String → Prop) : Option Over → Prop
  | none => True
  | some o => o.Verbatim P

def WindowCall.Verbatim (P : String → Prop) : WindowCall → Prop
  | ⟨name, args, _, filter, window, a⟩ =>
    P name ∧ Expr.Verbatims P args ∧ Condition.Verbatim? P filter ∧ Over.Verbatim? P window ∧
      ∀ t ∈ a, P t

def Condition.Verbatim (P : String → Prop) : Condition → Prop
  | .compare _ _ right => right.Verbatim P
  | .null _ _ => True
  | .connect a _ b => a.Verbatim P ∧ b.Verbatim P
  | .inList _ _ _ => True
  | .inQuery _ _ q => q.Verbatim P
  | .between _ _ _ => True
  | .negation c => c.Verbatim P
  | .raw sql => P sql

def Condition.Verbatims (P : String → Prop) : List Condition → Prop
  | [] => True
  | c :: cs => c.Verbatim P ∧ Condition.Verbatims P cs

def Condition.Verbatim? (P : String → Prop) : Option Condition → Prop
  | none => True
  | some c => c.Verbatim P

def Source.Verbatim (P : String → Prop) : Source → Prop
  | .table _ => True
  | .subquery q _ => q.Verbatim P
  | .raw sql => P sql

def Source.Verbatims (P : String → Prop) : List Source → Prop
  | [] => True
  | s :: ss => s.Verbatim P ∧ Source.Verbatims P ss

def Source.Verbatim? (P : String → Prop) : Option Source → Prop
  | none => True
  | some s => s.Verbatim P

def Join.Verbatim (P : String → Prop) : Join → Prop
  | ⟨_, source, on⟩ => source.Verbatim P ∧ Condition.Verbatim? P on

def Join.Verbatims (P : String → Prop) : List Join → Prop
  | [] => True
  | j :: js => j.Verbatim P ∧ Join.Verbatims P js

def CteBody.Verbatim (P : String → Prop) : CteBody → Prop
  | .query q => q.Verbatim P
  | .raw sql => P sql

def Cte.Verbatim (P : String → Prop) : Cte → Prop
  | ⟨name, body⟩ => P name ∧ body.Verbatim P

def Cte.Verbatims (P : String → Prop) : List Cte → Prop
  | [] => True
  | c :: cs => c.Verbatim P ∧ Cte.Verbatims P cs

def Assignment.Verbatim (P : String → Prop) : Assignment → Prop
  | .set _ value => value.Verbatim P
  | .raw sql => P sql

def Assignment.Verbatims (P : String → Prop) : List Assignment → Prop
  | [] => True
  | a :: as => a.Verbatim P ∧ Assignment.Verbatims P as

def WindowDef.Verbatim (P : String → Prop) : WindowDef → Prop
  | ⟨name, spec⟩ => P name ∧ spec.Verbatim P

def WindowDef.Verbatims (P : String → Prop) : List WindowDef → Prop
  | [] => True
  | w :: ws => w.Verbatim P ∧ WindowDef.Verbatims P ws

def Statement.Verbatim (P : String → Prop) : Statement → Prop
  | ⟨_, selects, _, sources, joins, wheres, groups, orders, _, _, returning, ctes, _, _, _,
      insertQuery, _, updates, deleteSource, windows, onConflict⟩ =>
    Expr.Verbatims P selects ∧ Source.Verbatims P sources ∧ Join.Verbatims P joins ∧
    Condition.Verbatims P wheres ∧ Expr.Verbatims P groups ∧ OrderItem.Verbatims P orders ∧
    (∀ t ∈ returning, P t) ∧ Cte.Verbatims P ctes ∧ Statement.Verbatim? P insertQuery ∧
    Assignment.Verbatims P updates ∧ Source.Verbatim? P deleteSource ∧
    WindowDef.Verbatims P windows ∧ ∀ c ∈ onConflict, c.Verbatim P

def Statement.Verbatim? (P : String → Prop) : Option Statement → Prop
  | none => True
  | some s => s.Verbatim P

end

/-- The verbatim texts of the statements that a script writes. -/
def Script.Verbatim (P : String → Prop) (s : Script) : Prop :=
  (∀ c ∈ s.chain, c.last.Verbatim P) ∧ s.last.Verbatim P

end SqlKit
