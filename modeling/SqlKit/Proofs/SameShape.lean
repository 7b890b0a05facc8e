import Mathlib.Data.List.Forall2
import SqlKit.Proofs.Writing

/-!
# Statements of one shape

Two statements have the same shape when they differ at most in the values at the places that are
bound.  The relation is given for any relation `R` of values: what stands at the same bound place in
the two statements has to be related by `R`, and all else has to be equal.  Null beside an operator
or in a select list, and null or a text as a direct argument of a function, are no bound places, for
the text depends on them.

    s.SameShape R s' → s.draft.SameShape R s'.draft                    (Statement.sameShape_draft)
    s.SameShape R s' → same SQL, parameters related one by one         (compile_of_sameShape)
-/

namespace SqlKit

variable {R : Value → Value → Prop}

/-! ## Values -/

/-- Values that stand on their own: both null, or both bound. -/
def Value.SameStanding (R : Value → Value → Prop) (v w : Value) : Prop :=
  (v = .null ∧ w = .null) ∨ (v ≠ .null ∧ w ≠ .null ∧ R v w)

/-- A value that is spelled out when it is a direct argument of a function. -/
def Value.isSpelledArgument : Value → Bool
  | .null | .string _ => true
  | _ => false

/-- Values that are direct arguments of a function: the same one spelled out, or both bound. -/
def Value.SameArgument (R : Value → Value → Prop) (v w : Value) : Prop :=
  (v.isSpelledArgument = true ∧ v = w) ∨
    (v.isSpelledArgument = false ∧ w.isSpelledArgument = false ∧ R v w)

/-! ## The parts of a statement -/

mutual

def Expr.SameShape (R : Value → Value → Prop) : Expr → Expr → Prop
  | .column c, e => e = .column c
  | .raw sql, e => e = .raw sql
  | .value v, e => ∃ w, e = .value w ∧ v.SameStanding R w
  | .call f, e => ∃ g, e = .call g ∧ f.SameShape R g
  | .window w, e => ∃ u, e = .window u ∧ w.SameShape R u
  | .condition c, e => ∃ b, e = .condition b ∧ c.SameShape R b
  | .subquery s, e => ∃ t, e = .subquery t ∧ s.SameShape R t
  | .named e a, e' => ∃ i, e' = .named i a ∧ e.SameShape R i

def Expr.SameShapes (R : Value → Value → Prop) : List Expr → List Expr → Prop
  | [], l => l = []
  | e :: es, l => ∃ i is, l = i :: is ∧ e.SameShape R i ∧ Expr.SameShapes R es is

def Operand.SameShape (R : Value → Value → Prop) : Operand → Operand → Prop
  | .value v, o => ∃ w, o = .value w ∧ v.SameStanding R w
  | .column c, o => o = .column c
  | .expr e, o => ∃ i, o = .expr i ∧ e.SameShape R i

/-- Operands as direct arguments of a function. -/
def Operand.SameArgument (R : Value → Value → Prop) : Operand → Operand → Prop
  | .value v, o => ∃ w, o = .value w ∧ v.SameArgument R w
  | .column c, o => o = .column c
  | .expr e, o => ∃ i, o = .expr i ∧ e.SameShape R i

def Operand.SameArguments (R : Value → Value → Prop) : List Operand → List Operand → Prop
  | [], l => l = []
  | o :: os, l => ∃ p ps, l = p :: ps ∧ o.SameArgument R p ∧ Operand.SameArguments R os ps

def Call.SameShape (R : Value → Value → Prop) : Call → Call → Prop
  | ⟨name, args, a⟩, f => ∃ args', f = ⟨name, args', a⟩ ∧ Operand.SameArguments R args args'

def OrderItem.SameShape (R : Value → Value → Prop) : OrderItem → OrderItem → Prop
  | ⟨e, d⟩, o => ∃ i, o = ⟨i, d⟩ ∧ e.SameShape R i

def OrderItem.SameShapes (R : Value → Value → Prop) : List OrderItem → List OrderItem → Prop
  | [], l => l = []
  | o :: os, l => ∃ p ps, l = p :: ps ∧ o.SameShape R p ∧ OrderItem.SameShapes R os ps

def WindowSpec.SameShape (R : Value → Value → Prop) : WindowSpec → WindowSpec → Prop
  | ⟨partitionBy, orderBy, frame⟩, s => ∃ p o, s = ⟨p, o, frame⟩ ∧
    Expr.SameShapes R partitionBy p ∧ OrderItem.SameShapes R orderBy o

def Over.SameShape (R : Value → Value → Prop) : Over → Over → Prop
  | .named name, o => o = .named name
  | .spec s, o => ∃ t, o = .spec t ∧ s.SameShape R t

def Over.SameOption (R : Value → Value → Prop) : Option Over → Option Over → Prop
  | none, o => o = none
  | some a, o => ∃ b, o = some b ∧ a.SameShape R b

def WindowCall.SameShape (R : Value → Value → Prop) : WindowCall → WindowCall → Prop
  | ⟨name, args, distinct, filter, window, a⟩, w => ∃ args' filter' window',
    w = ⟨name, args', distinct, filter', window', a⟩ ∧ Expr.SameShapes R args args' ∧
    Condition.SameOption R filter filter' ∧ Over.SameOption R window window'

def Condition.SameShape (R : Value → Value → Prop) : Condition → Condition → Prop
  | .compare left op right, c => ∃ r, c = .compare left op r ∧ right.SameShape R r
  | .null f n, c => c = .null f n
  | .connect a op b, c => ∃ a' b', c = .connect a' op b' ∧ a.SameShape R a' ∧ b.SameShape R b'
  | .inList f n vs, c => ∃ ws, c = .inList f n ws ∧ List.Forall₂ R vs ws
  | .inQuery f n q, c => ∃ r, c = .inQuery f n r ∧ q.SameShape R r
  | .between f l u, c => ∃ l' u', c = .between f l' u' ∧ R l l' ∧ R u u'
  | .negation i, c => ∃ j, c = .negation j ∧ i.SameShape R j
  | .raw sql, c => c = .raw sql

def Condition.SameShapes (R : Value → Value → Prop) : List Condition → List Condition → Prop
  | [], l => l = []
  | c :: cs, l => ∃ b bs, l = b :: bs ∧ c.SameShape R b ∧ Condition.SameShapes R cs bs

def Condition.SameOption (R : Value → Value → Prop) : Option Condition → Option Condition → Prop
  | none, o => o = none
  | some a, o => ∃ b, o = some b ∧ a.SameShape R b

def Source.SameShape (R : Value → Value → Prop) : Source → Source → Prop
  | .table t, s => s = .table t
  | .subquery q a, s => ∃ r, s = .subquery r a ∧ q.SameShape R r
  | .raw sql, s => s = .raw sql

def Source.SameShapes (R : Value → Value → Prop) : List Source → List Source → Prop
  | [], l => l = []
  | s :: ss, l => ∃ t ts, l = t :: ts ∧ s.SameShape R t ∧ Source.SameShapes R ss ts

def Source.SameOption (R : Value → Value → Prop) : Option Source → Option Source → Prop
  | none, o => o = none
  | some a, o => ∃ b, o = some b ∧ a.SameShape R b

def Join.SameShape (R : Value → Value → Prop) : Join → Join → Prop
  | ⟨kind, source, on⟩, j => ∃ source' on', j = ⟨kind, source', on'⟩ ∧ source.SameShape R source' ∧
    Condition.SameOption R on on'

def Join.SameShapes (R : Value → Value → Prop) : List Join → List Join → Prop
  | [], l => l = []
  | j :: js, l => ∃ k ks, l = k :: ks ∧ j.SameShape R k ∧ Join.SameShapes R js ks

def CteBody.SameShape (R : Value → Value → Prop) : CteBody → CteBody → Prop
  | .query q, b => ∃ r, b = .query r ∧ q.SameShape R r
  | .raw sql, b => b = .raw sql

def Cte.SameShape (R : Value → Value → Prop) : Cte → Cte → Prop
  | ⟨name, body⟩, c => ∃ b, c = ⟨name, b⟩ ∧ body.SameShape R b

def Cte.SameShapes (R : Value → Value → Prop) : List Cte → List Cte → Prop
  | [], l => l = []
  | c :: cs, l => ∃ b bs, l = b :: bs ∧ c.SameShape R b ∧ Cte.SameShapes R cs bs

def Assignment.SameShape (R : Value → Value → Prop) : Assignment → Assignment → Prop
  | .set column value, a => ∃ w, a = .set column w ∧ value.SameShape R w
  | .raw sql, a => a = .raw sql

def Assignment.SameShapes (R : Value → Value → Prop) : List Assignment → List Assignment → Prop
  | [], l => l = []
  | a :: as, l => ∃ b bs, l = b :: bs ∧ a.SameShape R b ∧ Assignment.SameShapes R as bs

def WindowDef.SameShape (R : Value → Value → Prop) : WindowDef → WindowDef → Prop
  | ⟨name, spec⟩, w => ∃ s, w = ⟨name, s⟩ ∧ spec.SameShape R s

def WindowDef.SameShapes (R : Value → Value → Prop) : List WindowDef → List WindowDef → Prop
  | [], l => l = []
  | w :: ws, l => ∃ u us, l = u :: us ∧ w.SameShape R u ∧ WindowDef.SameShapes R ws us

/-- Conflict clauses are written out, so they have to be equal. -/
def Statement.SameShape (R : Value → Value → Prop) : Statement → Statement → Prop
  | ⟨kind, selects, distinct, sources, joins, wheres, groups, orders, limit, offset, returning, ctes,
      insertTable, insertColumns, insertRows, insertQuery, updateTable, updates, deleteSource,
      windows, onConflict⟩, s =>
    s.kind = kind ∧ Expr.SameShapes R selects s.selects ∧ s.distinct = distinct ∧
    Source.SameShapes R sources s.sources ∧ Join.SameShapes R joins s.joins ∧
    Condition.SameShapes R wheres s.wheres ∧ Expr.SameShapes R groups s.groups ∧
    OrderItem.SameShapes R orders s.orders ∧ s.limit = limit ∧ s.offset = offset ∧
    s.returning = returning ∧ Cte.SameShapes R ctes s.ctes ∧ s.insertTable = insertTable ∧
    s.insertColumns = insertColumns ∧ List.Forall₂ (List.Forall₂ R) insertRows s.insertRows ∧
    Statement.SameOption R insertQuery s.insertQuery ∧
    s.updateTable = updateTable ∧ Assignment.SameShapes R updates s.updates ∧
    Source.SameOption R deleteSource s.deleteSource ∧
    WindowDef.SameShapes R windows s.windows ∧ s.onConflict = onConflict

def Statement.SameOption (R : Value → Value → Prop) : Option Statement → Option Statement → Prop
  | none, o => o = none
  | some a, o => ∃ b, o = some b ∧ a.SameShape R b

end

/-- Scripts whose statements have the same shapes one by one. -/
def Script.SameShape (R : Value → Value → Prop) (s t : Script) : Prop :=
  List.Forall₂ (fun a b : Script => a.last.SameShape R b.last) s.chain t.chain ∧
    s.last.SameShape R t.last

/-! ## Drafts -/

inductive Piece.SameShape (R : Value → Value → Prop) : Piece → Piece → Prop
  | text (s : String) : SameShape R (.text s) (.text s)
  | bound {v w : Value} (h : R v w) : SameShape R (.bound v) (.bound w)
  | literal (v : Value) : SameShape R (.literal v) (.literal v)
  | jsonObject : SameShape R .jsonObject .jsonObject

/-- Drafts that say the same around their bound values, and end alike. -/
structure Draft.SameShape (R : Value → Value → Prop) (d e : Draft) : Prop where
  pieces : List.Forall₂ (Piece.SameShape R) d.pieces e.pieces
  fault : d.fault = e.fault

namespace Draft.SameShape

theorem empty : Draft.empty.SameShape R Draft.empty := ⟨.nil, rfl⟩

theorem text (s : String) : (Draft.text s).SameShape R (Draft.text s) :=
  ⟨.cons (.text s) .nil, rfl⟩

theorem bound {v w : Value} (h : R v w) : (Draft.bound v).SameShape R (Draft.bound w) :=
  ⟨.cons (.bound h) .nil, rfl⟩

theorem literal (v : Value) : (Draft.literal v).SameShape R (Draft.literal v) :=
  ⟨.cons (.literal v) .nil, rfl⟩

theorem jsonObject : Draft.jsonObject.SameShape R Draft.jsonObject := ⟨.cons .jsonObject .nil, rfl⟩

theorem fail (m : Malformed) : (Draft.fail m).SameShape R (Draft.fail m) := ⟨.nil, rfl⟩

theorem append {a b a' b' : Draft} (ha : a.SameShape R a') (hb : b.SameShape R b') :
    (a ++ b).SameShape R (a' ++ b') := by
  cases hf : a.fault with
  | some m =>
    have hf' : a'.fault = some m := ha.fault ▸ hf
    rw [append_of_fault hf, append_of_fault hf']
    exact ha
  | none =>
    have hf' : a'.fault = none := ha.fault ▸ hf
    rw [append_of_sound hf, append_of_sound hf']
    exact ⟨List.rel_append ha.pieces hb.pieces, hb.fault⟩

theorem join (sep : String) {ds es : List Draft} (h : List.Forall₂ (Draft.SameShape R) ds es) :
    (Draft.join sep ds).SameShape R (Draft.join sep es) := by
  induction h with
  | nil => exact empty
  | cons hd hs ih =>
    cases hs with
    | nil => exact hd
    | cons _ _ => exact hd.append ((text sep).append ih)

theorem clause (heading sep : String) {ds es : List Draft}
    (h : List.Forall₂ (Draft.SameShape R) ds es) :
    (Draft.clause heading sep ds).SameShape R (Draft.clause heading sep es) := by
  cases h with
  | nil => exact empty
  | cons hd hs => exact (text heading).append (join sep (.cons hd hs))

theorem paren {d e : Draft} (h : d.SameShape R e) : (Draft.paren d).SameShape R (Draft.paren e) :=
  (text "(").append (h.append (text ")"))

end Draft.SameShape

/-! ## Lemmas -/

theorem Value.sameShape_draft {v w : Value} (h : v.SameStanding R w) :
    v.draft.SameShape R w.draft := by
  rcases h with ⟨rfl, rfl⟩ | ⟨hv, hw, hr⟩
  · exact .text "NULL"
  · have bound : ∀ u : Value, u ≠ .null → u.draft = .bound u := by
      intro u hu
      cases u <;> first | rfl | exact absurd rfl hu
    rw [bound v hv, bound w hw]
    exact .bound hr

theorem Value.sameShape_argument {v w : Value} (h : v.SameArgument R w) :
    v.argument.SameShape R w.argument := by
  have bound : ∀ u : Value, u.isSpelledArgument = false → u.argument = .bound u := by
    intro u hu
    cases u <;> first | rfl | exact absurd hu (by simp [isSpelledArgument])
  rcases h with ⟨hv, rfl⟩ | ⟨hv, hw, hr⟩
  · cases v with
    | null => exact .text "NULL"
    | string s => exact .literal _
    | _ => exact absurd hv (by simp [isSpelledArgument])
  · rw [bound v hv, bound w hw]
    exact .bound hr

theorem boundList_sameShape {vs ws : List Value} (h : List.Forall₂ R vs ws) :
    (boundList vs).SameShape R (boundList ws) := by
  refine .join ", " ?_
  induction h with
  | nil => exact .nil
  | cons hv _ ih => exact .cons (.bound hv) ih

theorem rowDrafts_sameShape {rows rows' : List (List Value)}
    (h : List.Forall₂ (List.Forall₂ R) rows rows') :
    List.Forall₂ (Draft.SameShape R) (rowDrafts rows) (rowDrafts rows') := by
  induction h with
  | nil => exact .nil
  | cons hr _ ih => exact .cons (.paren (boundList_sameShape hr)) ih

theorem aliasDraft_sameShape (a : Option String) : (aliasDraft a).SameShape R (aliasDraft a) := by
  cases a with
  | none => exact .empty
  | some a => exact .text _

theorem countDraft_sameShape (keyword : String) (n : Option Nat) :
    (countDraft keyword n).SameShape R (countDraft keyword n) := by
  cases n with
  | none => exact .empty
  | some n => exact .text _

theorem texts_sameShape (ts : List String) :
    List.Forall₂ (Draft.SameShape R) (ts.map .text) (ts.map .text) := by
  induction ts with
  | nil => exact .nil
  | cons t ts ih => exact .cons (.text t) ih

/-- A conflict clause binds nothing. -/
theorem OnConflict.sameShape_draft (c : OnConflict) : c.draft.SameShape R c.draft := by
  refine .append (.text _) ?_
  cases c.action with
  | nothing => exact .text _
  | update assignments =>
    refine .append (.text _) (.join ", " ?_)
    induction assignments with
    | nil => exact .nil
    | cons a as ih =>
      refine .cons (.append (.text _) ?_) ih
      cases a.2 with
      | string s =>
        simp only [ConflictAction.valueDraft]
        split
        · exact .text s
        · exact .literal _
      | _ => exact .literal _

theorem sourceAliasDraft_sameShape (a : Option String) :
    (sourceAliasDraft a).SameShape R (sourceAliasDraft a) := by
  cases a with
  | none => exact .empty
  | some a => exact .text _

theorem FunctionName.sameShape_draft (n : FunctionName) : n.draft.SameShape R n.draft := by
  cases n with
  | named n => exact .text n
  | jsonObject => exact .jsonObject

theorem memberDraft_sameShape (c : Column) (negated : Bool) {vs ws : List Value}
    (h : List.Forall₂ R vs ws) :
    (memberDraft c negated vs).SameShape R (memberDraft c negated ws) := by
  cases h with
  | nil => exact .text _
  | cons hv hvs => exact .append (.text _) (.paren (boundList_sameShape (.cons hv hvs)))

theorem filterDraft_sameShape {c c' : Option Draft} (h : Option.Rel (Draft.SameShape R) c c') :
    (filterDraft c).SameShape R (filterDraft c') := by
  cases h with
  | none => exact .empty
  | some h => exact .append (.append (.text _) h) (.text _)

theorem onDraft_sameShape {c c' : Option Draft} (h : Option.Rel (Draft.SameShape R) c c') :
    (onDraft c).SameShape R (onDraft c') := by
  cases h with
  | none => exact .empty
  | some h => exact .append (.text _) h

theorem getD_sameShape {o o' : Option Draft} (h : Option.Rel (Draft.SameShape R) o o') :
    (o.getD .empty).SameShape R (o'.getD .empty) := by
  cases h with
  | none => exact .empty
  | some h => exact h

theorem windowPart_sameShape (heading : String) {items items' : List Draft}
    (h : List.Forall₂ (Draft.SameShape R) items items') :
    List.Forall₂ (Draft.SameShape R) (windowPart heading items) (windowPart heading items') := by
  cases h with
  | nil => exact .nil
  | cons hi his => exact .cons (.clause _ _ (.cons hi his)) .nil

theorem windowDraft_sameShape {ps ps' os os' : List Draft} (frame : Option String)
    (hps : List.Forall₂ (Draft.SameShape R) ps ps')
    (hos : List.Forall₂ (Draft.SameShape R) os os') :
    (windowDraft ps os frame).SameShape R (windowDraft ps' os' frame) := by
  have hframe : List.Forall₂ (Draft.SameShape R) (frameDrafts frame) (frameDrafts frame) := by
    cases frame with
    | none => exact .nil
    | some f => exact .cons (.text f) .nil
  exact .join " " (List.rel_append
    (List.rel_append (windowPart_sameShape _ hps) (windowPart_sameShape _ hos)) hframe)

theorem withDraft_sameShape {ctes ctes' : List Draft}
    (h : List.Forall₂ (Draft.SameShape R) ctes ctes') :
    (withDraft ctes).SameShape R (withDraft ctes') := by
  refine .append (.clause _ _ h) ?_
  cases h with
  | nil => exact .empty
  | cons _ _ => exact .text "\n"

theorem selectListDraft_sameShape {items items' : List Draft}
    (h : List.Forall₂ (Draft.SameShape R) items items') :
    (selectListDraft items).SameShape R (selectListDraft items') := by
  cases h with
  | nil => exact .text "*"
  | cons hi his => exact .join ", " (.cons hi his)

theorem insertedDraft_sameShape {rows rows' : List (List Value)} {query query' : Option Draft}
    (hrows : List.Forall₂ (List.Forall₂ R) rows rows')
    (hquery : Option.Rel (Draft.SameShape R) query query') :
    (insertedDraft rows query).SameShape R (insertedDraft rows' query') := by
  cases hquery with
  | some h => exact .append (.text " ") h
  | none =>
    cases hrows with
    | nil => exact .text _
    | cons hr hrs => exact .clause _ _ (rowDrafts_sameShape (.cons hr hrs))

theorem conflictDraft_sameShape (c : Option OnConflict) :
    (conflictDraft c).SameShape R (conflictDraft c) := by
  cases c with
  | none => exact .empty
  | some c => exact .append (.text " ") c.sameShape_draft

theorem insertDraft_sameShape {withClause withClause' rest rest' : Draft} (target : Option Table)
    (columns : List String) (hw : withClause.SameShape R withClause') (hr : rest.SameShape R rest') :
    (insertDraft withClause target columns rest).SameShape R
      (insertDraft withClause' target columns rest') := by
  cases target with
  | none => exact .fail _
  | some t => exact .append (.append hw (.text _)) hr

theorem updateDraft_sameShape {withClause withClause' rest rest' : Draft} {as as' : List Draft}
    (target : Option Table) (hw : withClause.SameShape R withClause')
    (has : List.Forall₂ (Draft.SameShape R) as as') (hr : rest.SameShape R rest') :
    (updateDraft withClause target as rest).SameShape R
      (updateDraft withClause' target as' rest') := by
  cases target with
  | none => exact .fail _
  | some t =>
    cases has with
    | nil => exact .fail _
    | cons ha has => exact .append (.append (.append hw (.text _)) (.join _ (.cons ha has))) hr

theorem deleteDraft_sameShape {withClause withClause' rest rest' : Draft} {ss ss' : List Draft}
    {d d' : Option Draft} (hw : withClause.SameShape R withClause')
    (hss : List.Forall₂ (Draft.SameShape R) ss ss') (hd : Option.Rel (Draft.SameShape R) d d')
    (hr : rest.SameShape R rest') :
    (deleteDraft withClause ss d rest).SameShape R (deleteDraft withClause' ss' d' rest') := by
  cases hss with
  | cons hs _ => exact .append (.append (.append hw (.text _)) hs) hr
  | nil =>
    cases hd with
    | none => exact .fail _
    | some hd => exact .append (.append (.append hw (.text _)) hd) hr

mutual

theorem Expr.sameShape_draft : (e : Expr) → {e' : Expr} → e.SameShape R e' →
    e.draft.SameShape R e'.draft
  | .column c, _, h => by
    simp only [Expr.SameShape] at h
    subst h
    simp only [Expr.draft]
    exact .text _
  | .raw sql, _, h => by
    simp only [Expr.SameShape] at h
    subst h
    simp only [Expr.draft]
    exact .text _
  | .value v, _, h => by
    simp only [Expr.SameShape] at h
    obtain ⟨w, rfl, hv⟩ := h
    simp only [Expr.draft]
    exact Value.sameShape_draft hv
  | .call f, _, h => by
    simp only [Expr.SameShape] at h
    obtain ⟨g, rfl, hf⟩ := h
    simp only [Expr.draft]
    exact Call.sameShape_draft f hf
  | .window w, _, h => by
    simp only [Expr.SameShape] at h
    obtain ⟨u, rfl, hw⟩ := h
    simp only [Expr.draft]
    exact WindowCall.sameShape_draft w hw
  | .condition c, _, h => by
    simp only [Expr.SameShape] at h
    obtain ⟨b, rfl, hc⟩ := h
    simp only [Expr.draft]
    exact Condition.sameShape_draft c hc
  | .subquery s, _, h => by
    simp only [Expr.SameShape] at h
    obtain ⟨t, rfl, hs⟩ := h
    simp only [Expr.draft]
    exact .paren (Statement.sameShape_draft s hs)
  | .named e a, _, h => by
    simp only [Expr.SameShape] at h
    obtain ⟨i, rfl, hi⟩ := h
    simp only [Expr.draft]
    exact .append (Expr.sameShape_draft e hi) (.text _)
termination_by structural x => x

theorem Expr.sameShapes_drafts : (es : List Expr) → {es' : List Expr} → Expr.SameShapes R es es' →
    List.Forall₂ (Draft.SameShape R) (Expr.drafts es) (Expr.drafts es')
  | [], _, h => by
    simp only [Expr.SameShapes] at h
    subst h
    exact .nil
  | e :: es, _, h => by
    simp only [Expr.SameShapes] at h
    obtain ⟨i, is, rfl, hi, his⟩ := h
    simp only [Expr.drafts]
    exact .cons (Expr.sameShape_draft e hi) (Expr.sameShapes_drafts es his)
termination_by structural x => x

theorem Operand.sameShape_draft : (o : Operand) → {o' : Operand} → o.SameShape R o' →
    o.draft.SameShape R o'.draft
  | .value v, _, h => by
    simp only [Operand.SameShape] at h
    obtain ⟨w, rfl, hv⟩ := h
    simp only [Operand.draft]
    exact Value.sameShape_draft hv
  | .column c, _, h => by
    simp only [Operand.SameShape] at h
    subst h
    simp only [Operand.draft]
    exact .text _
  | .expr e, _, h => by
    simp only [Operand.SameShape] at h
    obtain ⟨i, rfl, hi⟩ := h
    simp only [Operand.draft]
    exact Expr.sameShape_draft e hi
termination_by structural x => x

theorem Operand.sameArgument_argument : (o : Operand) → {o' : Operand} → o.SameArgument R o' →
    o.argument.SameShape R o'.argument
  | .value v, _, h => by
    simp only [Operand.SameArgument] at h
    obtain ⟨w, rfl, hv⟩ := h
    simp only [Operand.argument]
    exact Value.sameShape_argument hv
  | .column c, _, h => by
    simp only [Operand.SameArgument] at h
    subst h
    simp only [Operand.argument]
    exact .text _
  | .expr e, _, h => by
    simp only [Operand.SameArgument] at h
    obtain ⟨i, rfl, hi⟩ := h
    simp only [Operand.argument]
    exact Expr.sameShape_draft e hi
termination_by structural x => x

theorem Operand.sameArguments_arguments : (os : List Operand) → {os' : List Operand} →
    Operand.SameArguments R os os' →
    List.Forall₂ (Draft.SameShape R) (Operand.arguments os) (Operand.arguments os')
  | [], _, h => by
    simp only [Operand.SameArguments] at h
    subst h
    exact .nil
  | o :: os, _, h => by
    simp only [Operand.SameArguments] at h
    obtain ⟨p, ps, rfl, hp, hps⟩ := h
    simp only [Operand.arguments]
    exact .cons (Operand.sameArgument_argument o hp) (Operand.sameArguments_arguments os hps)
termination_by structural x => x

theorem Call.sameShape_draft : (f : Call) → {f' : Call} → f.SameShape R f' →
    f.draft.SameShape R f'.draft
  | ⟨name, args, a⟩, _, h => by
    simp only [Call.SameShape] at h
    obtain ⟨args', rfl, hargs⟩ := h
    simp only [Call.draft]
    have list := Draft.SameShape.join ", " (Operand.sameArguments_arguments args hargs)
    exact .append (.append name.sameShape_draft (.paren list)) (aliasDraft_sameShape a)
termination_by structural x => x

theorem OrderItem.sameShape_draft : (o : OrderItem) → {o' : OrderItem} → o.SameShape R o' →
    o.draft.SameShape R o'.draft
  | ⟨e, d⟩, _, h => by
    simp only [OrderItem.SameShape] at h
    obtain ⟨i, rfl, hi⟩ := h
    simp only [OrderItem.draft]
    exact .append (Expr.sameShape_draft e hi) (.text _)
termination_by structural x => x

theorem OrderItem.sameShapes_drafts : (os : List OrderItem) → {os' : List OrderItem} →
    OrderItem.SameShapes R os os' →
    List.Forall₂ (Draft.SameShape R) (OrderItem.drafts os) (OrderItem.drafts os')
  | [], _, h => by
    simp only [OrderItem.SameShapes] at h
    subst h
    exact .nil
  | o :: os, _, h => by
    simp only [OrderItem.SameShapes] at h
    obtain ⟨p, ps, rfl, hp, hps⟩ := h
    simp only [OrderItem.drafts]
    exact .cons (OrderItem.sameShape_draft o hp) (OrderItem.sameShapes_drafts os hps)
termination_by structural x => x

theorem WindowSpec.sameShape_draft : (s : WindowSpec) → {s' : WindowSpec} → s.SameShape R s' →
    s.draft.SameShape R s'.draft
  | ⟨partitionBy, orderBy, frame⟩, _, h => by
    simp only [WindowSpec.SameShape] at h
    obtain ⟨p, o, rfl, hp, ho⟩ := h
    simp only [WindowSpec.draft]
    exact windowDraft_sameShape frame (Expr.sameShapes_drafts partitionBy hp)
      (OrderItem.sameShapes_drafts orderBy ho)
termination_by structural x => x

theorem Over.sameShape_draft : (o : Over) → {o' : Over} → o.SameShape R o' →
    o.draft.SameShape R o'.draft
  | .named name, _, h => by
    simp only [Over.SameShape] at h
    subst h
    simp only [Over.draft]
    exact .text _
  | .spec s, _, h => by
    simp only [Over.SameShape] at h
    obtain ⟨t, rfl, hs⟩ := h
    simp only [Over.draft]
    exact .append (.text _) (.paren (WindowSpec.sameShape_draft s hs))
termination_by structural x => x

theorem Over.sameOption_draft : (o : Option Over) → {o' : Option Over} →
    Over.SameOption R o o' → Option.Rel (Draft.SameShape R) (Over.draft? o) (Over.draft? o')
  | none, _, h => by
    simp only [Over.SameOption] at h
    subst h
    exact .none
  | some a, _, h => by
    simp only [Over.SameOption] at h
    obtain ⟨b, rfl, hb⟩ := h
    exact .some (Over.sameShape_draft a hb)
termination_by structural x => x

theorem WindowCall.sameShape_draft : (w : WindowCall) → {w' : WindowCall} → w.SameShape R w' →
    w.draft.SameShape R w'.draft
  | ⟨name, args, distinct, filter, window, a⟩, _, h => by
    simp only [WindowCall.SameShape] at h
    obtain ⟨args', filter', window', rfl, hargs, hfilter, hwindow⟩ := h
    have list := Draft.SameShape.join ", " (Expr.sameShapes_drafts args hargs)
    have filterClause := filterDraft_sameShape (Condition.sameOption_draft filter hfilter)
    have overClause := getD_sameShape (Over.sameOption_draft window hwindow)
    simp only [WindowCall.draft]
    refine .append (.append (.append ?_ filterClause) overClause) (aliasDraft_sameShape a)
    exact .append (.text name) (.paren (.append (.text _) list))
termination_by structural x => x

theorem Condition.sameShape_draft : (c : Condition) → {c' : Condition} → c.SameShape R c' →
    c.draft.SameShape R c'.draft
  | .compare left op right, _, h => by
    simp only [Condition.SameShape] at h
    obtain ⟨r, rfl, hr⟩ := h
    simp only [Condition.draft]
    exact .append (.text _) (Operand.sameShape_draft right hr)
  | .null f n, _, h => by
    simp only [Condition.SameShape] at h
    subst h
    simp only [Condition.draft]
    exact .text _
  | .connect a op b, _, h => by
    simp only [Condition.SameShape] at h
    obtain ⟨a', b', rfl, ha, hb⟩ := h
    simp only [Condition.draft]
    exact .append (.append (.paren (Condition.sameShape_draft a ha)) (.text _))
      (.paren (Condition.sameShape_draft b hb))
  | .inList f n vs, _, h => by
    simp only [Condition.SameShape] at h
    obtain ⟨ws, rfl, hvs⟩ := h
    simp only [Condition.draft]
    exact memberDraft_sameShape f n hvs
  | .inQuery f n q, _, h => by
    simp only [Condition.SameShape] at h
    obtain ⟨r, rfl, hq⟩ := h
    simp only [Condition.draft]
    exact .append (.text _) (.paren (Statement.sameShape_draft q hq))
  | .between f l u, _, h => by
    simp only [Condition.SameShape] at h
    obtain ⟨l', u', rfl, hl, hu⟩ := h
    simp only [Condition.draft]
    exact .append (.append (.append (.text _) (.bound hl)) (.text _)) (.bound hu)
  | .negation i, _, h => by
    simp only [Condition.SameShape] at h
    obtain ⟨j, rfl, hi⟩ := h
    simp only [Condition.draft]
    exact .append (.text _) (.paren (Condition.sameShape_draft i hi))
  | .raw sql, _, h => by
    simp only [Condition.SameShape] at h
    subst h
    simp only [Condition.draft]
    exact .text _
termination_by structural x => x

theorem Condition.sameShapes_drafts : (cs : List Condition) → {cs' : List Condition} →
    Condition.SameShapes R cs cs' →
    List.Forall₂ (Draft.SameShape R) (Condition.drafts cs) (Condition.drafts cs')
  | [], _, h => by
    simp only [Condition.SameShapes] at h
    subst h
    exact .nil
  | c :: cs, _, h => by
    simp only [Condition.SameShapes] at h
    obtain ⟨b, bs, rfl, hb, hbs⟩ := h
    simp only [Condition.drafts]
    exact .cons (Condition.sameShape_draft c hb) (Condition.sameShapes_drafts cs hbs)
termination_by structural x => x

theorem Source.sameShape_draft : (s : Source) → {s' : Source} → s.SameShape R s' →
    s.draft.SameShape R s'.draft
  | .table t, _, h => by
    simp only [Source.SameShape] at h
    subst h
    simp only [Source.draft]
    exact .text _
  | .subquery q a, _, h => by
    simp only [Source.SameShape] at h
    obtain ⟨r, rfl, hq⟩ := h
    simp only [Source.draft]
    exact .append (.paren (Statement.sameShape_draft q hq)) (sourceAliasDraft_sameShape a)
  | .raw sql, _, h => by
    simp only [Source.SameShape] at h
    subst h
    simp only [Source.draft]
    exact .text _
termination_by structural x => x

theorem Source.sameShapes_drafts : (ss : List Source) → {ss' : List Source} →
    Source.SameShapes R ss ss' →
    List.Forall₂ (Draft.SameShape R) (Source.drafts ss) (Source.drafts ss')
  | [], _, h => by
    simp only [Source.SameShapes] at h
    subst h
    exact .nil
  | s :: ss, _, h => by
    simp only [Source.SameShapes] at h
    obtain ⟨t, ts, rfl, ht, hts⟩ := h
    simp only [Source.drafts]
    exact .cons (Source.sameShape_draft s ht) (Source.sameShapes_drafts ss hts)
termination_by structural x => x

theorem Condition.sameOption_draft : (o : Option Condition) → {o' : Option Condition} →
    Condition.SameOption R o o' → Option.Rel (Draft.SameShape R) (Condition.draft? o) (Condition.draft? o')
  | none, _, h => by
    simp only [Condition.SameOption] at h
    subst h
    exact .none
  | some a, _, h => by
    simp only [Condition.SameOption] at h
    obtain ⟨b, rfl, hb⟩ := h
    exact .some (Condition.sameShape_draft a hb)
termination_by structural x => x

theorem Source.sameOption_draft : (o : Option Source) → {o' : Option Source} →
    Source.SameOption R o o' → Option.Rel (Draft.SameShape R) (Source.draft? o) (Source.draft? o')
  | none, _, h => by
    simp only [Source.SameOption] at h
    subst h
    exact .none
  | some a, _, h => by
    simp only [Source.SameOption] at h
    obtain ⟨b, rfl, hb⟩ := h
    exact .some (Source.sameShape_draft a hb)
termination_by structural x => x

theorem Join.sameShape_draft : (j : Join) → {j' : Join} → j.SameShape R j' →
    j.draft.SameShape R j'.draft
  | ⟨kind, source, on⟩, _, h => by
    simp only [Join.SameShape] at h
    obtain ⟨source', on', rfl, hsource, hon⟩ := h
    simp only [Join.draft]
    have condition := onDraft_sameShape (Condition.sameOption_draft on hon)
    exact .append (.append (.text _) (Source.sameShape_draft source hsource)) condition
termination_by structural x => x

theorem Join.sameShapes_drafts : (js : List Join) → {js' : List Join} → Join.SameShapes R js js' →
    (Join.drafts js).SameShape R (Join.drafts js')
  | [], _, h => by
    simp only [Join.SameShapes] at h
    subst h
    exact .empty
  | j :: js, _, h => by
    simp only [Join.SameShapes] at h
    obtain ⟨k, ks, rfl, hk, hks⟩ := h
    simp only [Join.drafts]
    exact .append (.append (.text _) (Join.sameShape_draft j hk)) (Join.sameShapes_drafts js hks)
termination_by structural x => x

theorem CteBody.sameShape_draft : (b : CteBody) → {b' : CteBody} → b.SameShape R b' →
    b.draft.SameShape R b'.draft
  | .query q, _, h => by
    simp only [CteBody.SameShape] at h
    obtain ⟨r, rfl, hq⟩ := h
    simp only [CteBody.draft]
    exact Statement.sameShape_draft q hq
  | .raw sql, _, h => by
    simp only [CteBody.SameShape] at h
    subst h
    simp only [CteBody.draft]
    exact .text _
termination_by structural x => x

theorem Cte.sameShape_draft : (c : Cte) → {c' : Cte} → c.SameShape R c' →
    c.draft.SameShape R c'.draft
  | ⟨name, body⟩, _, h => by
    simp only [Cte.SameShape] at h
    obtain ⟨b, rfl, hb⟩ := h
    simp only [Cte.draft]
    exact .append (.text _) (.paren (CteBody.sameShape_draft body hb))
termination_by structural x => x

theorem Cte.sameShapes_drafts : (cs : List Cte) → {cs' : List Cte} → Cte.SameShapes R cs cs' →
    List.Forall₂ (Draft.SameShape R) (Cte.drafts cs) (Cte.drafts cs')
  | [], _, h => by
    simp only [Cte.SameShapes] at h
    subst h
    exact .nil
  | c :: cs, _, h => by
    simp only [Cte.SameShapes] at h
    obtain ⟨b, bs, rfl, hb, hbs⟩ := h
    simp only [Cte.drafts]
    exact .cons (Cte.sameShape_draft c hb) (Cte.sameShapes_drafts cs hbs)
termination_by structural x => x

theorem Assignment.sameShape_draft : (a : Assignment) → {a' : Assignment} → a.SameShape R a' →
    a.draft.SameShape R a'.draft
  | .set column value, _, h => by
    simp only [Assignment.SameShape] at h
    obtain ⟨w, rfl, hw⟩ := h
    simp only [Assignment.draft]
    exact .append (.text _) (Operand.sameShape_draft value hw)
  | .raw sql, _, h => by
    simp only [Assignment.SameShape] at h
    subst h
    simp only [Assignment.draft]
    exact .text _
termination_by structural x => x

theorem Assignment.sameShapes_drafts : (as : List Assignment) → {as' : List Assignment} →
    Assignment.SameShapes R as as' →
    List.Forall₂ (Draft.SameShape R) (Assignment.drafts as) (Assignment.drafts as')
  | [], _, h => by
    simp only [Assignment.SameShapes] at h
    subst h
    exact .nil
  | a :: as, _, h => by
    simp only [Assignment.SameShapes] at h
    obtain ⟨b, bs, rfl, hb, hbs⟩ := h
    simp only [Assignment.drafts]
    exact .cons (Assignment.sameShape_draft a hb) (Assignment.sameShapes_drafts as hbs)
termination_by structural x => x

theorem WindowDef.sameShape_draft : (w : WindowDef) → {w' : WindowDef} → w.SameShape R w' →
    w.draft.SameShape R w'.draft
  | ⟨name, spec⟩, _, h => by
    simp only [WindowDef.SameShape] at h
    obtain ⟨s, rfl, hs⟩ := h
    simp only [WindowDef.draft]
    exact .append (.text _) (.paren (WindowSpec.sameShape_draft spec hs))
termination_by structural x => x

theorem WindowDef.sameShapes_drafts : (ws : List WindowDef) → {ws' : List WindowDef} →
    WindowDef.SameShapes R ws ws' →
    List.Forall₂ (Draft.SameShape R) (WindowDef.drafts ws) (WindowDef.drafts ws')
  | [], _, h => by
    simp only [WindowDef.SameShapes] at h
    subst h
    exact .nil
  | w :: ws, _, h => by
    simp only [WindowDef.SameShapes] at h
    obtain ⟨u, us, rfl, hu, hus⟩ := h
    simp only [WindowDef.drafts]
    exact .cons (WindowDef.sameShape_draft w hu) (WindowDef.sameShapes_drafts ws hus)
termination_by structural x => x

theorem Statement.sameShape_draft : (s : Statement) → {s' : Statement} → s.SameShape R s' →
    s.draft.SameShape R s'.draft
  | ⟨kind, selects, distinct, sources, joins, wheres, groups, orders, limit, offset, returning, ctes,
      insertTable, insertColumns, insertRows, insertQuery, updateTable, updates, deleteSource,
      windows, onConflict⟩, s', h => by
    simp only [Statement.SameShape] at h
    obtain ⟨hkind, hselects, hdistinct, hsources, hjoins, hwheres, hgroups, horders, hlimit, hoffset,
      hreturning, hctes, htable, hcolumns, hrows, hquery, htarget, hupdates, hdelete, hwindows,
      hconflict⟩ := h
    have withClause := withDraft_sameShape (Cte.sameShapes_drafts ctes hctes)
    have sourceList := Source.sameShapes_drafts sources hsources
    have whereClause := Draft.SameShape.clause " WHERE " " AND "
      (Condition.sameShapes_drafts wheres hwheres)
    have returningClause : (returningDraft returning).SameShape R (returningDraft s'.returning) := by
      rw [hreturning]
      exact .clause _ _ (texts_sameShape returning)
    cases kind with
    | begin =>
      rw [Statement.draft_begin rfl, Statement.draft_begin hkind]
      exact .text _
    | commit =>
      rw [Statement.draft_commit rfl, Statement.draft_commit hkind]
      exact .text _
    | rollback =>
      rw [Statement.draft_rollback rfl, Statement.draft_rollback hkind]
      exact .text _
    | select =>
      have selectList := selectListDraft_sameShape (Expr.sameShapes_drafts selects hselects)
      have joinList := Join.sameShapes_drafts joins hjoins
      have groupList := Expr.sameShapes_drafts groups hgroups
      have windowList := WindowDef.sameShapes_drafts windows hwindows
      have orderList := OrderItem.sameShapes_drafts orders horders
      rw [Statement.draft_select rfl, Statement.draft_select hkind, hdistinct, hlimit, hoffset]
      refine .append (.append (.append ?_ (countDraft_sameShape _ limit))
        (countDraft_sameShape _ offset)) returningClause
      refine .append (.append (.append ?_ (.clause _ _ groupList)) (.clause _ _ windowList))
        (.clause _ _ orderList)
      refine .append (.append (.append ?_ (.clause _ _ sourceList)) joinList) whereClause
      exact .append (.append withClause (.text _)) selectList
    | insert =>
      rw [Statement.draft_insert rfl, Statement.draft_insert hkind, htable, hcolumns, hconflict]
      have inserted := insertedDraft_sameShape hrows (Statement.sameOption_draft insertQuery hquery)
      exact insertDraft_sameShape insertTable insertColumns withClause
        ((inserted.append (conflictDraft_sameShape onConflict)).append returningClause)
    | update =>
      rw [Statement.draft_update rfl, Statement.draft_update hkind, htarget]
      exact updateDraft_sameShape updateTable withClause
        (Assignment.sameShapes_drafts updates hupdates) (whereClause.append returningClause)
    | delete =>
      have target := Source.sameOption_draft deleteSource hdelete
      rw [Statement.draft_delete rfl, Statement.draft_delete hkind]
      exact deleteDraft_sameShape withClause sourceList target (whereClause.append returningClause)
termination_by structural x => x

theorem Statement.sameOption_draft : (o : Option Statement) → {o' : Option Statement} →
    Statement.SameOption R o o' → Option.Rel (Draft.SameShape R) (Statement.draft? o) (Statement.draft? o')
  | none, _, h => by
    simp only [Statement.SameOption] at h
    subst h
    exact .none
  | some a, _, h => by
    simp only [Statement.SameOption] at h
    obtain ⟨b, rfl, hb⟩ := h
    exact .some (Statement.sameShape_draft a hb)
termination_by structural x => x

end

theorem Script.sameShape_draft {s t : Script} (h : s.SameShape R t) :
    s.draft.SameShape R t.draft := by
  obtain ⟨hchain, hlast⟩ := h
  refine .join "; " (List.rel_append ?_ (.cons (Statement.sameShape_draft s.last hlast) .nil))
  rw [List.forall₂_map_left_iff, List.forall₂_map_right_iff]
  exact hchain.imp fun a _ hab => Statement.sameShape_draft a.last hab

/-! ## Compiling -/

/-- A placeholder tells nothing of the value it stands for. -/
theorem spell_placeholders_sameShape (d : Dialect) (k : Nat) {ps qs : List Piece}
    (h : List.Forall₂ (Piece.SameShape R) ps qs) :
    Piece.spell d (Piece.placeholders d) k ps = Piece.spell d (Piece.placeholders d) k qs := by
  induction h generalizing k with
  | nil => rfl
  | cons hp _ ih => cases hp <;> simp only [Piece.spell, Piece.placeholders, ih]

theorem params_sameShape {ps qs : List Piece} (h : List.Forall₂ (Piece.SameShape R) ps qs) :
    List.Forall₂ R (ps.filterMap Piece.value?) (qs.filterMap Piece.value?) := by
  induction h with
  | nil => exact .nil
  | cons hp _ ih =>
    cases hp with
    | bound hr => exact .cons hr ih
    | text s => exact ih
    | literal v => exact ih
    | jsonObject => exact ih

/-- **Bound values are not in the text.**  Scripts of one shape fail alike, or have the same SQL and
parameters that are related one by one as the shape says. -/
theorem Script.compile_of_sameShape {s t : Script} (h : s.SameShape R t) (d : Dialect) :
    (∃ e, s.compile d = .error e ∧ t.compile d = .error e) ∨
    ∃ sql ps qs, s.compile d = .ok ⟨sql, ps⟩ ∧ t.compile d = .ok ⟨sql, qs⟩ ∧
      List.Forall₂ R ps qs := by
  obtain ⟨hpieces, hfault⟩ := sameShape_draft h
  cases hs : s.draft.fault with
  | some m =>
    have ht : t.draft.fault = some m := hfault ▸ hs
    exact Or.inl ⟨m.error, compile_of_fault hs d, compile_of_fault ht d⟩
  | none =>
    have ht : t.draft.fault = none := hfault ▸ hs
    have hspelled : s.draft.spelled d (Piece.placeholders d) 1 =
        t.draft.spelled d (Piece.placeholders d) 1 := by
      rw [Draft.spelled, spell_placeholders_sameShape d 1 hpieces]
      rfl
    refine Or.inr ⟨_, _, _, compile_of_sound hs d, ?_, params_sameShape hpieces⟩
    rw [compile_of_sound ht d, hspelled]
    rfl

/-- A name that closes the quotation and a harmless one, compiled for one dialect. -/
theorem Script.compile_of_sameShape_injection :
    let login (name : String) : Script := .ofStatement
      { sources := [.table (.named "users")],
        wheres := [.compare (.named "name") .eq (.value (.string name)),
          .inList (.named "id") false [.int 1, .null]] }
    (login "ada").SameShape (fun v w => v.isNull = w.isNull) (login "' OR '1' = '1") ∧
    ((∃ e, (login "ada").compile .mysql = .error e ∧
        (login "' OR '1' = '1").compile .mysql = .error e) ∨
      ∃ sql ps qs, (login "ada").compile .mysql = .ok ⟨sql, ps⟩ ∧
        (login "' OR '1' = '1").compile .mysql = .ok ⟨sql, qs⟩ ∧
        List.Forall₂ (fun v w => v.isNull = w.isNull) ps qs) := by
  intro login
  have h : (login "ada").SameShape (fun v w => v.isNull = w.isNull) (login "' OR '1' = '1") := by
    simp [login, ofStatement, SameShape, Statement.SameShape, Expr.SameShapes, Source.SameShapes,
      Source.SameShape, Join.SameShapes, Condition.SameShapes, Condition.SameShape,
      Operand.SameShape, Value.SameStanding, Value.isNull, OrderItem.SameShapes, Cte.SameShapes,
      Statement.SameOption, Assignment.SameShapes, Source.SameOption, WindowDef.SameShapes]
  exact ⟨h, compile_of_sameShape h .mysql⟩

end SqlKit
