import SqlKit.Proofs.Template
import SqlKit.Query.Writer

/-!
# What is written

A writer threads one compiler through the parts of a script.  What it writes, and the compiler it
leaves behind, are those of the draft of the part: the count has gone on by the number of values the
draft binds, the values are the ones the draft binds, in the order in which they stand in the text.
A writer that fails leaves what the draft binds before its fault.

    Writes a x → Writes b y → Writes (a.append b) (x ++ y)             (Writes.append)
    s.write.on c = c.write s.draft                                     (Script.writes)
    a script fails in both modes, or its two texts are one template    (compile_eq_weave)
-/

namespace SqlKit

/-! ## Compilers that write one draft after another -/

namespace Compiler

theorem take_nil (c : Compiler) : c.take [] = c := by
  unfold take
  by_cases h : c.inline = true
  · rw [if_pos h]
  · rw [if_neg h]
    simp

/-- A sound draft without values leaves the compiler as it was. -/
theorem write_of_unbound {x : Draft} (hfault : x.fault = none) (hparams : x.params = [])
    (c : Compiler) : c.write x = (.ok (c.spell x), c) := by
  rw [write, hfault, hparams, take_nil]

theorem take_take (c : Compiler) (vs ws : List Value) : (c.take vs).take ws = c.take (vs ++ ws) := by
  cases h : c.inline <;> simp [take, h, Nat.add_assoc]

theorem spell_literals (d e : Dialect) (ps : List Piece) (k n : Nat) :
    Piece.spell d (Piece.literals e) k ps = Piece.spell d (Piece.literals e) n ps := by
  induction ps generalizing k n with
  | nil => rfl
  | cons p ps ih =>
    cases p with
    | text s => simp only [Piece.spell, ih k n]
    | bound v =>
      simp only [Piece.spell]
      rw [ih (k + 1) (n + 1)]
      rfl
    | literal v => simp only [Piece.spell, ih k n]
    | jsonObject => simp only [Piece.spell, ih k n]

/-- The text of a draft behind values that were taken in before it. -/
theorem spell_take (c : Compiler) (vs : List Value) (y : Draft) :
    (c.take vs).spell y = y.spelled c.dialect c.spelling (c.count + 1 + vs.length) := by
  show y.spelled _ _ _ = y.spelled _ _ _
  cases hc : c.inline with
  | true =>
    have hs : c.spelling = Piece.literals c.dialect := by simp [spelling, hc]
    have ht : c.take vs = c := by simp [take, hc]
    rw [ht, hs, Draft.spelled, Draft.spelled, spell_literals]
  | false =>
    have hs : (c.take vs).spelling = c.spelling := by simp [take, spelling, hc]
    have hd : (c.take vs).dialect = c.dialect := by simp [take, hc]
    have hn : (c.take vs).count + 1 = c.count + 1 + vs.length := by
      simp only [take, hc, Bool.false_eq_true, if_false]
      omega
    rw [hs, hd, hn]

/-- The text of a draft behind another. -/
theorem spell_append {c : Compiler} {x : Draft} (hx : x.fault = none) (y : Draft) :
    c.spell (x ++ y) = c.spell x ++ (c.take x.params).spell y := by
  rw [spell_take]
  exact Draft.spelled_append hx

theorem bind_eq (c : Compiler) (v : Value) : c.bind v = (c.spell (.bound v), c.take [v]) := by
  have hspell : c.spell (.bound v) = c.spelling (c.count + 1) v := by
    rw [spell, Draft.bound, Piece.spell, Piece.spell]
    simp
  rw [hspell]
  cases h : c.inline <;> simp [bind, take, spelling, next, h, Piece.literals, Piece.placeholders]

end Compiler

/-! ## Writers -/

namespace Writer

/-- One text behind another. -/
def append (a b : Writer String) : Writer String := do
  let s ← a
  let t ← b
  return s ++ t

theorem on_pure {α : Type} (x : α) (c : Compiler) : on (pure x) c = (.ok x, c) := rfl

theorem on_bind {α β : Type} (w : Writer α) (k : α → Writer β) (c : Compiler) :
    on (w >>= k) c = match on w c with
      | (.ok x, c') => on (k x) c'
      | (.error e, c') => (.error e, c') := by
  simp only [on, ExceptT.run_bind, StateT.run_bind]
  generalize w.run.run c = p
  obtain ⟨r, c'⟩ := p
  cases r <;> rfl

end Writer

/-- The writer writes what the draft says. -/
def Writes (w : Writer String) (x : Draft) : Prop := ∀ c, w.on c = c.write x

namespace Writes

theorem text (s : String) : Writes (pure s) (.text s) := by
  intro c
  have hspell : c.spell (.text s) = s := by simp [Compiler.spell, Draft.text, Piece.spell]
  rw [Writer.on_pure, Compiler.write_of_unbound rfl rfl, hspell]

theorem empty : Writes (pure "") .empty := by
  intro c
  rw [Writer.on_pure, Compiler.write_of_unbound rfl rfl]
  rfl

theorem fault (m : Malformed) : Writes (.fault m) (.fail m) := by
  intro c
  rw [Compiler.write]
  show _ = (_, c.take [])
  rw [Compiler.take_nil]
  rfl

theorem bound (v : Value) : Writes (.bound v) (.bound v) := by
  intro c
  show (Except.ok (c.bind v).1, (c.bind v).2) = c.write (.bound v)
  rw [Compiler.bind_eq]
  rfl

theorem literal (v : Value) : Writes (.literal v) (.literal v) := by
  intro c
  have hspell : c.spell (.literal v) = v.literal c.dialect := by
    simp [Compiler.spell, Draft.literal, Piece.spell]
  rw [Compiler.write_of_unbound rfl rfl, hspell]
  rfl

theorem jsonObject : Writes FunctionName.jsonObject.write .jsonObject := by
  intro c
  have hspell : c.spell .jsonObject = Piece.jsonObjectName c.dialect := by
    simp [Compiler.spell, Draft.jsonObject, Piece.spell]
  rw [Compiler.write_of_unbound rfl rfl, hspell]
  rfl

/-- Writing one behind the other: the second goes on from where the first has left the compiler. -/
theorem append {a b : Writer String} {x y : Draft} (ha : Writes a x) (hb : Writes b y) :
    Writes (a.append b) (x ++ y) := by
  intro c
  rw [Writer.append, Writer.on_bind, ha c]
  cases hx : x.fault with
  | some m =>
    rw [Draft.append_of_fault hx]
    simp only [Compiler.write, hx]
  | none =>
    have hparams : (x ++ y).params = x.params ++ y.params := Draft.params_append_of_sound hx
    have hfault : (x ++ y).fault = y.fault := by rw [Draft.append_of_sound hx]
    have hfirst : c.write x = (.ok (c.spell x), c.take x.params) := by rw [Compiler.write, hx]
    rw [hfirst]
    simp only [Writer.on_bind, hb (c.take x.params), Writer.on_pure]
    simp only [Compiler.write, hfault, hparams, ← Compiler.take_take, Compiler.spell_append hx]
    cases y.fault <;> rfl

theorem paren {a : Writer String} {x : Draft} (ha : Writes a x) :
    Writes (do return parenText (← a)) (.paren x) := by
  have h := (text "(").append (ha.append (text ")"))
  simpa [Writer.append, parenText, Draft.paren, String.append_assoc] using h

end Writes

/-- The writer writes what the drafts say, each for itself. -/
inductive WritesAll : Writer (List String) → List Draft → Prop
  | nil : WritesAll (pure []) []
  | cons {a : Writer String} {as : Writer (List String)} {x : Draft} {xs : List Draft}
      (ha : Writes a x) (has : WritesAll as xs) :
      WritesAll (do return (← a) :: (← as)) (x :: xs)

namespace WritesAll

variable {w : Writer (List String)} {xs : List Draft}

theorem join (h : WritesAll w xs) (sep : String) :
    Writes (do return sep.intercalate (← w)) (.join sep xs) := by
  induction h with
  | nil => simpa [Draft.join] using Writes.empty
  | cons ha has ih =>
    cases has with
    | nil => simpa [Draft.join] using ha
    | cons hb hbs =>
      have h := ha.append ((Writes.text sep).append ih)
      simpa [Writer.append, Draft.join, String.intercalate_cons_cons, String.append_assoc] using h

theorem clause (h : WritesAll w xs) (heading sep : String) :
    Writes (do return clauseText heading sep (← w)) (.clause heading sep xs) := by
  cases h with
  | nil => simpa [Draft.clause, clauseText] using Writes.empty
  | cons ha has =>
    have h := (Writes.text heading).append ((cons ha has).join sep)
    simpa [Writer.append, Draft.clause, clauseText] using h

theorem selectList (h : WritesAll w xs) :
    Writes (do return selectListText (← w)) (selectListDraft xs) := by
  cases h with
  | nil => simpa [selectListDraft, selectListText] using Writes.text "*"
  | cons ha has => simpa [selectListDraft, selectListText] using (cons ha has).join ", "

theorem withClause (h : WritesAll w xs) : Writes (do return withText (← w)) (withDraft xs) := by
  cases h with
  | nil => simpa [withDraft, withText, Draft.clause, Draft.empty_append] using Writes.empty
  | cons ha has =>
    have h := ((Writes.text "WITH ").append ((cons ha has).join ", ")).append (Writes.text "\n")
    simpa [Writer.append, withDraft, withText, Draft.clause] using h

theorem append_one {b : Writer String} {y : Draft} (h : WritesAll w xs) (hb : Writes b y) :
    WritesAll (do let ss ← w; let t ← b; return ss ++ [t]) (xs ++ [y]) := by
  induction h with
  | nil => simpa using cons hb nil
  | cons ha _ ih => simpa using cons ha ih

theorem mapM {α : Type} {f : α → Writer String} {g : α → Draft} {l : List α}
    (h : ∀ a ∈ l, Writes (f a) (g a)) : WritesAll (l.mapM f) (l.map g) := by
  induction l with
  | nil => exact nil
  | cons a l ih =>
    rw [List.mapM_cons, List.map_cons]
    exact cons (h a (by simp)) (ih fun b hb => h b (by simp [hb]))

theorem texts (l : List String) : WritesAll (pure l) (l.map .text) := by
  induction l with
  | nil => exact nil
  | cons s l ih => simpa using cons (Writes.text s) ih

/-- Sound drafts are written one after another, each behind the values of those before it. -/
theorem on_take (h : WritesAll w xs) (hx : ∀ x ∈ xs, x.fault = none) (c : Compiler) (vs : List Value) :
    w.on (c.take vs) = (.ok (Draft.spelledFrom c.dialect c.spelling (c.count + 1 + vs.length) xs),
      c.take (vs ++ xs.flatMap Draft.params)) := by
  induction h generalizing vs with
  | nil =>
    rw [Writer.on_pure, List.flatMap_nil, List.append_nil]
    rfl
  | cons ha has ih =>
    rename_i a as x xs
    have hfirst : (c.take vs).write x = (.ok ((c.take vs).spell x), (c.take vs).take x.params) := by
      rw [Compiler.write, hx x (by simp)]
    rw [Writer.on_bind, ha, hfirst, Compiler.take_take, Compiler.spell_take]
    simp only
    rw [Writer.on_bind, ih (fun y hy => hx y (by simp [hy])), Draft.spelledFrom, List.flatMap_cons,
      List.length_append, ← Nat.add_assoc, List.append_assoc]
    rfl

end WritesAll

/-- The writer writes what the draft says, if there is one. -/
inductive WritesSome : Writer (Option String) → Option Draft → Prop
  | none : WritesSome (pure none) none
  | some {a : Writer String} {x : Draft} (ha : Writes a x) :
      WritesSome (do return some (← a)) (some x)

namespace WritesSome

variable {w : Writer (Option String)} {x : Option Draft}

theorem filter (h : WritesSome w x) : Writes (do return filterText (← w)) (filterDraft x) := by
  cases h with
  | none => simpa [filterText, filterDraft] using Writes.empty
  | some ha =>
    have h := ((Writes.text " FILTER (WHERE ").append ha).append (Writes.text ")")
    simpa [Writer.append, filterText, filterDraft] using h

theorem on (h : WritesSome w x) : Writes (do return onText (← w)) (onDraft x) := by
  cases h with
  | none => simpa [onText, onDraft] using Writes.empty
  | some ha =>
    have h := (Writes.text " ON ").append ha
    simpa [Writer.append, onText, onDraft] using h

end WritesSome

/-! ## Parts without sub-statements -/

theorem Value.writes (v : Value) : Writes v.write v.draft := by
  cases v with
  | null => exact .text "NULL"
  | _ => exact .bound _

theorem Value.writes_argument (v : Value) : Writes v.writeArgument v.argument := by
  cases v with
  | string s => exact .literal _
  | null => exact .text "NULL"
  | _ => exact .bound _

theorem FunctionName.writes (n : FunctionName) : Writes n.write n.draft := by
  cases n with
  | named n => exact .text n
  | jsonObject => exact .jsonObject

theorem ConflictAction.writes_value (v : Value) : Writes (writeValue v) (valueDraft v) := by
  cases v with
  | string s =>
    simp only [writeValue, valueDraft]
    by_cases h : s.startsWith "EXCLUDED." = true
    · rw [if_pos h, if_pos h]
      exact .text s
    · rw [if_neg h, if_neg h]
      exact .literal _
  | _ => exact .literal _

theorem ConflictAction.writes (a : ConflictAction) : Writes a.write a.draft := by
  cases a with
  | nothing => exact .text " DO NOTHING"
  | update assignments =>
    have hitems : WritesAll
        (assignments.mapM fun a => return quoteIdent a.1 ++ " = " ++ (← writeValue a.2))
        (assignments.map fun a => .text (quoteIdent a.1 ++ " = ") ++ valueDraft a.2) := by
      refine .mapM ?_
      intro a _
      have h := (Writes.text (quoteIdent a.1 ++ " = ")).append (writes_value a.2)
      simpa [Writer.append] using h
    have h := (Writes.text " DO UPDATE SET ").append (hitems.join ", ")
    simpa [Writer.append, write, draft] using h

theorem OnConflict.writes (c : OnConflict) : Writes c.write c.draft := by
  have h := (Writes.text ("ON CONFLICT" ++
    if c.targets.isEmpty then "" else " (" ++ ", ".intercalate c.targets ++ ")")).append c.action.writes
  simpa [Writer.append, write, draft] using h

theorem writes_boundList (vs : List Value) :
    Writes (do return ", ".intercalate (← vs.mapM Writer.bound)) (boundList vs) := by
  have hitems : WritesAll (vs.mapM Writer.bound) (vs.map .bound) :=
    .mapM fun v _ => .bound v
  exact hitems.join ", "

theorem writes_alias (a : Option String) : Writes (pure (aliasText a)) (aliasDraft a) := by
  cases a with
  | none => exact .empty
  | some a => exact .text _

theorem writes_count (keyword : String) (n : Option Nat) :
    Writes (pure (countText keyword n)) (countDraft keyword n) := by
  cases n with
  | none => exact .empty
  | some n => exact .text _

theorem writes_returning (columns : List String) :
    Writes (pure (returningText columns)) (returningDraft columns) := by
  simpa [returningText, returningDraft] using (WritesAll.texts columns).clause " RETURNING " ", "

theorem writes_member (c : Column) (negated : Bool) (values : List Value) :
    Writes (writeMember c negated values) (memberDraft c negated values) := by
  cases values with
  | nil => exact .text _
  | cons v vs =>
    have h := (Writes.text (c.text ++ if negated then " NOT IN " else " IN ")).append
      (writes_boundList (v :: vs)).paren
    simpa [Writer.append, writeMember, memberDraft] using h

theorem writes_rows (rows : List (List Value)) : WritesAll (rows.mapM writeRow) (rowDrafts rows) := by
  refine .mapM ?_
  intro row _
  simpa [writeRow] using (writes_boundList row).paren

theorem writes_inserted (rows : List (List Value)) {w : Option (Writer String)} {x : Option Draft}
    (h : Option.Rel Writes w x) : Writes (writeInserted rows w) (insertedDraft rows x) := by
  cases h with
  | some ha =>
    have h := (Writes.text " ").append ha
    simpa [Writer.append, writeInserted, insertedDraft] using h
  | none =>
    cases rows with
    | nil => exact .text _
    | cons r rs =>
      have h := (Writes.text " VALUES ").append ((writes_rows (r :: rs)).join ", ")
      simpa [Writer.append, writeInserted, insertedDraft, Draft.clause, rowDrafts] using h

theorem writes_conflict (c : Option OnConflict) : Writes (writeConflict c) (conflictDraft c) := by
  cases c with
  | none => exact .empty
  | some c =>
    have h := (Writes.text " ").append c.writes
    simpa [Writer.append, writeConflict, conflictDraft] using h

/-! ## Parts with sub-statements -/

/-- Items of a window, if there are any. -/
theorem WritesAll.windowPart {w : Writer (List String)} {xs : List Draft} (h : WritesAll w xs)
    (heading : String) :
    WritesAll (do return windowPartText heading (← w)) (SqlKit.windowPart heading xs) := by
  cases h with
  | nil => simpa [windowPartText, SqlKit.windowPart] using WritesAll.nil
  | cons ha has =>
    have h := ((cons ha has).clause heading ", ")
    have hone := WritesAll.cons h .nil
    simpa [windowPartText, clauseText, SqlKit.windowPart] using hone

theorem WritesAll.append {v w : Writer (List String)} {xs ys : List Draft} (hv : WritesAll v xs)
    (hw : WritesAll w ys) : WritesAll (do let ss ← v; let ts ← w; return ss ++ ts) (xs ++ ys) := by
  induction hv with
  | nil => simpa using hw
  | cons ha _ ih => simpa using cons ha ih

theorem writes_frame (frame : Option String) : WritesAll (pure frame.toList) (frameDrafts frame) := by
  cases frame with
  | none => exact .nil
  | some f => exact .texts [f]

/-- A deletion from the first of the sources, or else from the other one. -/
theorem writes_delete {ctes conditions : Writer (List String)} {c w r : Draft}
    {returning : List String} {first other : Option (Writer String)} {sources : List Draft}
    {source : Option Draft} (hwith : Writes (do return withText (← ctes)) c)
    (hwhere : Writes (do return clauseText " WHERE " " AND " (← conditions)) w)
    (hreturning : Writes (pure (returningText returning)) r)
    (hfirst : Option.Rel Writes first sources.head?) (hother : Option.Rel Writes other source) :
    Writes
      (match first.or other with
        | none => .fault .deleteTarget
        | some target => do
          let ctes ← ctes
          let target ← target
          let conditions ← conditions
          return withText ctes ++ "DELETE FROM " ++ target ++ whereText conditions ++
            returningText returning)
      (deleteDraft c sources source (w ++ r)) := by
  have delete : ∀ {a : Writer String} {x : Draft}, Writes a x →
      Writes (do
        let ctes ← ctes
        let target ← a
        let conditions ← conditions
        return withText ctes ++ "DELETE FROM " ++ target ++ whereText conditions ++
          returningText returning) (c ++ .text "DELETE FROM " ++ x ++ (w ++ r)) := by
    intro a x ha
    have h := ((hwith.append (Writes.text "DELETE FROM ")).append ha).append
      (hwhere.append hreturning)
    simpa [Writer.append, whereText, String.append_assoc] using h
  cases sources with
  | cons x xs =>
    cases hfirst with
    | some ha => exact delete ha
  | nil =>
    cases hfirst
    cases hother with
    | none => exact .fault _
    | some ha => exact delete ha

mutual

theorem Expr.writes : (e : Expr) → Writes e.write e.draft
  | .column c => by
    simp only [Expr.write, Expr.draft]
    exact .text _
  | .raw sql => by
    simp only [Expr.write, Expr.draft]
    exact .text _
  | .value v => by
    simp only [Expr.write, Expr.draft]
    exact v.writes
  | .call f => by
    simp only [Expr.write, Expr.draft]
    exact Call.writes f
  | .window w => by
    simp only [Expr.write, Expr.draft]
    exact WindowCall.writes w
  | .condition c => by
    simp only [Expr.write, Expr.draft]
    exact Condition.writes c
  | .subquery s => by
    simp only [Expr.write, Expr.draft]
    exact (Statement.writes s).paren
  | .named e a => by
    have h := (Expr.writes e).append (Writes.text (" AS " ++ a))
    simpa [Writer.append, Expr.write, Expr.draft, String.append_assoc] using h

theorem Expr.writesAll : (es : List Expr) → WritesAll (Expr.writeAll es) (Expr.drafts es)
  | [] => by
    simp only [Expr.writeAll, Expr.drafts]
    exact .nil
  | e :: es => by
    simp only [Expr.writeAll, Expr.drafts]
    exact .cons (Expr.writes e) (Expr.writesAll es)

theorem Operand.writes : (o : Operand) → Writes o.write o.draft
  | .value v => by
    simp only [Operand.write, Operand.draft]
    exact v.writes
  | .column c => by
    simp only [Operand.write, Operand.draft]
    exact .text _
  | .expr e => by
    simp only [Operand.write, Operand.draft]
    exact Expr.writes e

theorem Operand.writes_argument : (o : Operand) → Writes o.writeArgument o.argument
  | .value v => by
    simp only [Operand.writeArgument, Operand.argument]
    exact v.writes_argument
  | .column c => by
    simp only [Operand.writeArgument, Operand.argument]
    exact .text _
  | .expr e => by
    simp only [Operand.writeArgument, Operand.argument]
    exact Expr.writes e

theorem Operand.writesAll_arguments : (os : List Operand) →
    WritesAll (Operand.writeArguments os) (Operand.arguments os)
  | [] => by
    simp only [Operand.writeArguments, Operand.arguments]
    exact .nil
  | o :: os => by
    simp only [Operand.writeArguments, Operand.arguments]
    exact .cons (Operand.writes_argument o) (Operand.writesAll_arguments os)

theorem Call.writes : (f : Call) → Writes f.write f.draft
  | ⟨name, args, a⟩ => by
    have hargs := ((Operand.writesAll_arguments args).join ", ").paren
    have h := (name.writes.append hargs).append (writes_alias a)
    simpa [Writer.append, Call.write, Call.draft] using h

theorem OrderItem.writes : (o : OrderItem) → Writes o.write o.draft
  | ⟨e, d⟩ => by
    have h := (Expr.writes e).append (Writes.text (" " ++ d.sql))
    simpa [Writer.append, OrderItem.write, OrderItem.draft, String.append_assoc] using h

theorem OrderItem.writesAll : (os : List OrderItem) →
    WritesAll (OrderItem.writeAll os) (OrderItem.drafts os)
  | [] => by
    simp only [OrderItem.writeAll, OrderItem.drafts]
    exact .nil
  | o :: os => by
    simp only [OrderItem.writeAll, OrderItem.drafts]
    exact .cons (OrderItem.writes o) (OrderItem.writesAll os)

theorem WindowSpec.writes : (s : WindowSpec) → Writes s.write s.draft
  | ⟨partitionBy, orderBy, frame⟩ => by
    have hpartitions := (Expr.writesAll partitionBy).windowPart "PARTITION BY "
    have horders := (OrderItem.writesAll orderBy).windowPart "ORDER BY "
    have h := ((hpartitions.append horders).append (writes_frame frame)).join " "
    simpa [WindowSpec.write, WindowSpec.draft, windowDraft] using h

theorem Over.writes : (o : Over) → Writes o.write o.draft
  | .named name => by
    simp only [Over.write, Over.draft]
    exact .text _
  | .spec s => by
    have h := (Writes.text " OVER ").append (WindowSpec.writes s).paren
    simpa [Writer.append, Over.write, Over.draft] using h

theorem Over.writes? : (o : Option Over) → Writes (Over.write? o) ((Over.draft? o).getD .empty)
  | none => by
    simp only [Over.write?, Over.draft?]
    exact .empty
  | some o => by
    simp only [Over.write?, Over.draft?]
    exact Over.writes o

theorem WindowCall.writes : (w : WindowCall) → Writes w.write w.draft
  | ⟨name, args, distinct, filter, window, a⟩ => by
    have hargs := ((Writes.text (if distinct then "DISTINCT " else "")).append
      ((Expr.writesAll args).join ", ")).paren
    have h := ((((Writes.text name).append hargs).append (Condition.writes? filter).filter).append
      (Over.writes? window)).append (writes_alias a)
    simpa [Writer.append, WindowCall.write, WindowCall.draft] using h

theorem Condition.writes : (c : Condition) → Writes c.write c.draft
  | .compare left op right => by
    have h := (Writes.text (left.text ++ " " ++ op.sql ++ " ")).append (Operand.writes right)
    simpa [Writer.append, Condition.write, Condition.draft] using h
  | .null c negated => by
    simp only [Condition.write, Condition.draft]
    exact .text _
  | .connect a op b => by
    have h := ((Condition.writes a).paren.append (Writes.text (" " ++ op.sql ++ " "))).append
      (Condition.writes b).paren
    simpa [Writer.append, Condition.write, Condition.draft, String.append_assoc] using h
  | .inList c negated values => by
    simp only [Condition.write, Condition.draft]
    exact writes_member c negated values
  | .inQuery c negated q => by
    have h := (Writes.text (c.text ++ if negated then " NOT IN " else " IN ")).append
      (Statement.writes q).paren
    simpa [Writer.append, Condition.write, Condition.draft] using h
  | .between c lower upper => by
    have h := (((Writes.text (c.text ++ " BETWEEN ")).append (Writes.bound lower)).append
      (Writes.text " AND ")).append (Writes.bound upper)
    simpa [Writer.append, Condition.write, Condition.draft] using h
  | .negation c => by
    have h := (Writes.text "NOT ").append (Condition.writes c).paren
    simpa [Writer.append, Condition.write, Condition.draft] using h
  | .raw sql => by
    simp only [Condition.write, Condition.draft]
    exact .text _

theorem Condition.writesAll : (cs : List Condition) →
    WritesAll (Condition.writeAll cs) (Condition.drafts cs)
  | [] => by
    simp only [Condition.writeAll, Condition.drafts]
    exact .nil
  | c :: cs => by
    simp only [Condition.writeAll, Condition.drafts]
    exact .cons (Condition.writes c) (Condition.writesAll cs)

theorem Condition.writes? : (c : Option Condition) →
    WritesSome (Condition.write? c) (Condition.draft? c)
  | none => by
    simp only [Condition.write?, Condition.draft?]
    exact .none
  | some c => by
    simp only [Condition.write?, Condition.draft?]
    exact .some (Condition.writes c)

theorem Source.writes : (s : Source) → Writes s.write s.draft
  | .table t => by
    simp only [Source.write, Source.draft]
    exact .text _
  | .subquery q a => by
    have halias : Writes (pure (aliasText (a.map quoteIdent))) (sourceAliasDraft a) := by
      cases a with
      | none => exact .empty
      | some a => exact .text _
    have h := (Statement.writes q).paren.append halias
    simpa [Writer.append, Source.write, Source.draft] using h
  | .raw sql => by
    simp only [Source.write, Source.draft]
    exact .text _

theorem Source.writesAll : (ss : List Source) → WritesAll (Source.writeAll ss) (Source.drafts ss)
  | [] => by
    simp only [Source.writeAll, Source.drafts]
    exact .nil
  | s :: ss => by
    simp only [Source.writeAll, Source.drafts]
    exact .cons (Source.writes s) (Source.writesAll ss)

theorem Source.writes_first? : (ss : List Source) →
    Option.Rel Writes (Source.writeFirst? ss) (Source.drafts ss).head?
  | [] => by
    simp only [Source.writeFirst?, Source.drafts]
    exact .none
  | s :: ss => by
    simp only [Source.writeFirst?, Source.drafts]
    exact .some (Source.writes s)

theorem Source.writes? : (s : Option Source) →
    Option.Rel Writes (Source.write? s) (Source.draft? s)
  | none => by
    simp only [Source.write?, Source.draft?]
    exact .none
  | some s => by
    simp only [Source.write?, Source.draft?]
    exact .some (Source.writes s)

theorem Join.writes : (j : Join) → Writes j.write j.draft
  | ⟨kind, source, on⟩ => by
    have h := ((Writes.text (kind.sql ++ " ")).append (Source.writes source)).append
      (Condition.writes? on).on
    simpa [Writer.append, Join.write, Join.draft] using h

theorem Join.writesAll : (js : List Join) → Writes (Join.writeAll js) (Join.drafts js)
  | [] => by
    simp only [Join.writeAll, Join.drafts]
    exact .empty
  | j :: js => by
    have h := ((Writes.text " ").append (Join.writes j)).append (Join.writesAll js)
    simpa [Writer.append, Join.writeAll, Join.drafts] using h

theorem CteBody.writes : (b : CteBody) → Writes b.write b.draft
  | .query q => by
    simp only [CteBody.write, CteBody.draft]
    exact Statement.writes q
  | .raw sql => by
    simp only [CteBody.write, CteBody.draft]
    exact .text _

theorem Cte.writes : (c : Cte) → Writes c.write c.draft
  | ⟨name, body⟩ => by
    have h := (Writes.text (name ++ " AS ")).append (CteBody.writes body).paren
    simpa [Writer.append, Cte.write, Cte.draft] using h

theorem Cte.writesAll : (cs : List Cte) → WritesAll (Cte.writeAll cs) (Cte.drafts cs)
  | [] => by
    simp only [Cte.writeAll, Cte.drafts]
    exact .nil
  | c :: cs => by
    simp only [Cte.writeAll, Cte.drafts]
    exact .cons (Cte.writes c) (Cte.writesAll cs)

theorem Assignment.writes : (a : Assignment) → Writes a.write a.draft
  | .set column value => by
    have h := (Writes.text (quoteIdent column ++ " = ")).append (Operand.writes value)
    simpa [Writer.append, Assignment.write, Assignment.draft] using h
  | .raw sql => by
    simp only [Assignment.write, Assignment.draft]
    exact .text _

theorem Assignment.writesAll : (as : List Assignment) →
    WritesAll (Assignment.writeAll as) (Assignment.drafts as)
  | [] => by
    simp only [Assignment.writeAll, Assignment.drafts]
    exact .nil
  | a :: as => by
    simp only [Assignment.writeAll, Assignment.drafts]
    exact .cons (Assignment.writes a) (Assignment.writesAll as)

theorem WindowDef.writes : (w : WindowDef) → Writes w.write w.draft
  | ⟨name, spec⟩ => by
    have h := (Writes.text (name ++ " AS ")).append (WindowSpec.writes spec).paren
    simpa [Writer.append, WindowDef.write, WindowDef.draft] using h

theorem WindowDef.writesAll : (ws : List WindowDef) →
    WritesAll (WindowDef.writeAll ws) (WindowDef.drafts ws)
  | [] => by
    simp only [WindowDef.writeAll, WindowDef.drafts]
    exact .nil
  | w :: ws => by
    simp only [WindowDef.writeAll, WindowDef.drafts]
    exact .cons (WindowDef.writes w) (WindowDef.writesAll ws)

theorem Statement.writes : (s : Statement) → Writes s.write s.draft
  | ⟨kind, selects, distinct, sources, joins, wheres, groups, orders, limit, offset, returning, ctes,
      insertTable, insertColumns, insertRows, insertQuery, updateTable, updates, deleteSource,
      windows, onConflict⟩ => by
    have hwith := (Cte.writesAll ctes).withClause
    have hwhere := (Condition.writesAll wheres).clause " WHERE " " AND "
    have hreturning := writes_returning returning
    cases kind with
    | begin =>
      simp only [Statement.write, Statement.draft]
      exact .text _
    | commit =>
      simp only [Statement.write, Statement.draft]
      exact .text _
    | rollback =>
      simp only [Statement.write, Statement.draft]
      exact .text _
    | select =>
      have hitems := (Expr.writesAll selects).selectList
      have hsources := (Source.writesAll sources).clause " FROM " ", "
      have hjoins := Join.writesAll joins
      have hgroups := (Expr.writesAll groups).clause " GROUP BY " ", "
      have hwindows := (WindowDef.writesAll windows).clause " WINDOW " ", "
      have horders := (OrderItem.writesAll orders).clause " ORDER BY " ", "
      have hlimit := writes_count " LIMIT " limit
      have hoffset := writes_count " OFFSET " offset
      have hselect := Writes.text (if distinct then "SELECT DISTINCT " else "SELECT ")
      have h := ((((((((((hwith.append hselect).append hitems).append hsources).append hjoins).append
        hwhere).append hgroups).append hwindows).append horders).append hlimit).append
        hoffset).append hreturning
      simpa [Writer.append, Statement.write, Statement.draft, whereText, whereDraft] using h
    | insert =>
      cases insertTable with
      | none =>
        simp only [Statement.write, Statement.draft]
        exact .fault _
      | some t =>
        have hinserted := writes_inserted insertRows (Statement.writes? insertQuery)
        have htarget := Writes.text ("INSERT INTO " ++ t.qualifiedName ++
          if insertColumns.isEmpty then ""
          else " (" ++ ", ".intercalate (insertColumns.map quoteIdent) ++ ")")
        have h := (hwith.append htarget).append
          ((hinserted.append (writes_conflict onConflict)).append hreturning)
        simpa [Writer.append, Statement.write, Statement.draft, insertDraft, insertTargetDraft,
          String.append_assoc] using h
    | update =>
      cases updateTable with
      | none =>
        simp only [Statement.write, Statement.draft]
        exact .fault _
      | some t =>
        cases updates with
        | nil =>
          simp only [Statement.write, Statement.draft]
          exact .fault _
        | cons a as =>
          have hassignments := (Assignment.writesAll (a :: as)).join ", "
          have h := ((hwith.append (Writes.text ("UPDATE " ++ t.text ++ " SET "))).append
            hassignments).append (hwhere.append hreturning)
          simpa [Writer.append, Statement.write, Statement.draft, updateDraft, Assignment.drafts,
            whereText, whereDraft, String.append_assoc] using h
    | delete =>
      have hfirst := Source.writes_first? sources
      have hother := Source.writes? deleteSource
      simp only [Statement.write, Statement.draft]
      exact writes_delete hwith hwhere hreturning hfirst hother

theorem Statement.writes? : (s : Option Statement) →
    Option.Rel Writes (Statement.write? s) (Statement.draft? s)
  | none => by
    simp only [Statement.write?, Statement.draft?]
    exact .none
  | some s => by
    simp only [Statement.write?, Statement.draft?]
    exact .some (Statement.writes s)

end

/-- **What is written.**  Writing a script part by part gives the text of its draft, and leaves the
compiler with the values the draft binds, in order. -/
theorem Script.writes (s : Script) : Writes s.write s.draft := by
  have hbefore : WritesAll (s.chain.mapM fun c => c.last.write) (s.chain.map fun c => c.last.draft) :=
    .mapM fun c _ => Statement.writes c.last
  have h := (hbefore.append_one (Statement.writes s.last)).join "; "
  simpa [Script.write, Script.draft] using h

/-! ## The two modes of a compiler -/

/-- What compiling a script gives, from the draft alone. -/
theorem Compiler.compile_fst (c : Compiler) (s : Script) :
    (c.compile s).1 = match s.draft.fault with
      | some m => .error m.error
      | none => .ok ⟨weave (s.draft.texts c.dialect)
          (s.draft.params.mapIdx fun i v => c.spelling (i + 1) v),
          if c.inline then [] else s.draft.params⟩ := by
  have hwrite := Script.writes s { c with count := 0, params := [] }
  have h := spell_eq_weave { c with count := 0, params := [] } s.draft
  have hi : (fun i v => spelling { c with count := 0, params := [] } (0 + 1 + i) v) =
      fun i v => c.spelling (i + 1) v := by
    funext i v
    rw [Nat.zero_add, Nat.add_comm]
    rfl
  rw [compile, hwrite, write]
  cases hf : s.draft.fault with
  | some m => rfl
  | none =>
    simp only [h, hi, take]
    cases c.inline <;> simp

theorem Script.compile_of_fault {s : Script} {m : Malformed} (h : s.draft.fault = some m)
    (d : Dialect) : s.compile d = .error m.error := by
  rw [Script.compile, Compiler.compile, Script.writes s, Compiler.write, h]

theorem Script.compile_of_sound {s : Script} (h : s.draft.fault = none) (d : Dialect) :
    s.compile d = .ok ⟨s.draft.spelled d (Piece.placeholders d) 1, s.draft.params⟩ := by
  rw [Script.compile, Compiler.compile, Script.writes s, Compiler.write, h]
  rfl

theorem Compiler.spelling_binding (d : Dialect) :
    (binding d).spelling = fun k _ => d.placeholder k := rfl

theorem Compiler.spelling_inlining (d : Dialect) :
    (inlining d).spelling = fun _ v => v.literal d := rfl

/-- **Binding and inlining.**  A script that is malformed fails alike in both modes.  Any other is one
sequence of texts: with the placeholders 1 … n between them when values are bound, with the values
themselves, in the order in which they are bound, when they are written out. -/
theorem Script.compile_eq_weave (d : Dialect) (s : Script) :
    (∃ m, s.draft.fault = some m ∧ s.compile d = .error m.error ∧
      ((Compiler.inlining d).compile s).1 = .error m.error) ∨
    (s.draft.fault = none ∧ ∃ texts params, texts.length = params.length + 1 ∧
      s.compile d = .ok
        ⟨weave texts ((List.range params.length).map fun i => d.placeholder (i + 1)), params⟩ ∧
      ((Compiler.inlining d).compile s).1 = .ok ⟨weave texts (params.map (·.literal d)), []⟩) := by
  have hb := Compiler.compile_fst (Compiler.binding d) s
  have hi := Compiler.compile_fst (Compiler.inlining d) s
  cases hf : s.draft.fault with
  | some m =>
    rw [hf] at hb hi
    exact Or.inl ⟨m, rfl, hb, hi⟩
  | none =>
    rw [hf] at hb hi
    refine Or.inr ⟨rfl, s.draft.texts d, s.draft.params, Draft.length_texts d s.draft, ?_, ?_⟩
    · have hp : (s.draft.params.mapIdx fun i _ => d.placeholder (i + 1)) =
          (List.range s.draft.params.length).map fun i => d.placeholder (i + 1) :=
        List.ext_getElem (by simp) (by simp)
      rw [Script.compile, hb, Compiler.spelling_binding, ← hp]
      rfl
    · have hp : (s.draft.params.mapIdx fun _ v => v.literal d) =
          s.draft.params.map (·.literal d) :=
        List.ext_getElem (by simp) (by simp)
      rw [hi, Compiler.spelling_inlining, ← hp]
      rfl

end SqlKit
