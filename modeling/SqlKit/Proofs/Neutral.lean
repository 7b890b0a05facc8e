import Mathlib.Data.List.Basic
import SqlKit.Proofs.Writing

/-!
# What every dialect writes alike

A dialect has its say in three places: what a placeholder looks like, whether the backslash is
doubled inside of a literal, and how the function that builds JSON objects is called.  `X.Neutral`
says that an `X` writes nothing of the last two kinds: no call of that function, and no literal with a
backslash.  Only what is written counts, so a statement is asked for the clauses of its kind.

    v.Neutral → v.literal d = v.literal e                              (Value.literal_eq_of_neutral)
    s.Neutral → s.draft.Neutral                                        (Script.neutral_draft)
    s.draft.Neutral → s.draft.texts d = s.draft.texts e                (Draft.texts_eq_of_neutral)
-/

namespace SqlKit

/-! ## Literals -/

/-- The value written out has no backslash; SQLite does not double them. -/
def Value.Neutral (v : Value) : Prop := '\\' ∉ (v.literal .sqlite).toList

instance (v : Value) : Decidable v.Neutral := inferInstanceAs (Decidable ('\\' ∉ _))

theorem Text.Quoted.mem_quote_of_mem {q : Char} {escapes : Bool} {c : Char} {s : List Char}
    (h : c ∈ s) : c ∈ quote q escapes s := by
  have hdouble : c ∈ double q escapes c := by
    unfold double
    split <;> simp
  have hbody : c ∈ body q escapes s := List.mem_flatMap.mpr ⟨c, h, hdouble⟩
  simp [quote, hbody]

/-- Without a backslash there is nothing to escape. -/
theorem Text.Quoted.quote_of_not_mem {q : Char} {s : List Char} (h : '\\' ∉ s) (escapes : Bool) :
    quote q escapes s = quote q false s := by
  have hbody : body q escapes s = body q false s := by
    refine List.flatMap_congr fun c hc => ?_
    have hne : c ≠ '\\' := by
      rintro rfl
      exact h hc
    simp [double, hne]
  rw [quote, hbody, quote]

theorem Dialect.quoteLiteral_eq_of_not_mem {s : String}
    (h : '\\' ∉ (Dialect.sqlite.quoteLiteral s).toList) (d : Dialect) :
    d.quoteLiteral s = Dialect.sqlite.quoteLiteral s := by
  rw [Dialect.quoteLiteral, String.toList_ofList] at h
  have hs : '\\' ∉ s.toList := fun hmem => h (Text.Quoted.mem_quote_of_mem hmem)
  rw [Dialect.quoteLiteral, Text.Quoted.quote_of_not_mem hs]
  rfl

/-- The items of a list with separators have no other characters than the list. -/
theorem mem_intercalate_of_mem {sep : String} {c : Char} {ts : List String} {t : String}
    (ht : t ∈ ts) (hc : c ∈ t.toList) : c ∈ (sep.intercalate ts).toList := by
  induction ts with
  | nil => contradiction
  | cons u us ih =>
    cases us with
    | nil =>
      obtain rfl := List.mem_singleton.mp ht
      simpa using hc
    | cons w ws =>
      rw [String.intercalate_cons_cons, String.toList_append, String.toList_append, List.mem_append,
        List.mem_append]
      rcases List.mem_cons.mp ht with rfl | ht
      · exact Or.inl (Or.inl hc)
      · exact Or.inr (ih ht)

/-- A value that is written as a quoted text. -/
theorem Value.literal_eq_of_quoted {v : Value} (s : String)
    (hv : ∀ d, v.literal d = d.quoteLiteral s) (h : v.Neutral) (d : Dialect) : v.literal d = v.literal .sqlite := by
  unfold Value.Neutral at h
  rw [hv] at h ⊢
  rw [hv]
  exact Dialect.quoteLiteral_eq_of_not_mem h d

mutual

theorem Value.literal_eq_sqlite (d : Dialect) : (v : Value) → v.Neutral →
    v.literal d = v.literal .sqlite
  | .null => by simp only [Value.literal, implies_true]
  | .bool b => by simp only [Value.literal, implies_true]
  | .int i => by simp only [Value.literal, implies_true]
  | .float x => by simp only [Value.literal, implies_true]
  | .bytes b => by simp only [Value.literal, implies_true]
  | .string s => fun h =>
    Value.literal_eq_of_quoted s (by simp only [Value.literal, implies_true]) h d
  | .date x => fun h =>
    Value.literal_eq_of_quoted x.text (by simp only [Value.literal, implies_true]) h d
  | .dateTime t => fun h =>
    Value.literal_eq_of_quoted t.text (by simp only [Value.literal, implies_true]) h d
  | .instant t => fun h =>
    Value.literal_eq_of_quoted t.utcText (by simp only [Value.literal, implies_true]) h d
  | .time t => fun h =>
    Value.literal_eq_of_quoted t.text (by simp only [Value.literal, implies_true]) h d
  | .uuid u => fun h =>
    Value.literal_eq_of_quoted u.text (by simp only [Value.literal, implies_true]) h d
  | .json j => fun h =>
    Value.literal_eq_of_quoted j.text (by simp only [Value.literal, implies_true]) h d
  | .list items => by
    intro h
    have hitems : ∀ v ∈ items, v.Neutral := by
      intro v hv hc
      refine h ?_
      rw [Value.literal_list, String.toList_append, String.toList_append, List.mem_append,
        List.mem_append]
      exact Or.inl (Or.inr (mem_intercalate_of_mem (List.mem_map_of_mem hv) hc))
    simp only [Value.literal]
    rw [Value.literals_eq_sqlite d items hitems]
termination_by structural x => x

theorem Value.literals_eq_sqlite (d : Dialect) : (vs : List Value) → (∀ v ∈ vs, v.Neutral) →
    Value.literals d vs = Value.literals .sqlite vs
  | [], _ => rfl
  | v :: vs, h => by
    simp only [Value.literals]
    rw [Value.literal_eq_sqlite d v (h v (by simp)),
      Value.literals_eq_sqlite d vs fun w hw => h w (by simp [hw])]
termination_by structural x => x

end

theorem Value.literal_eq_of_neutral {v : Value} (h : v.Neutral) (d e : Dialect) :
    v.literal d = v.literal e := by
  rw [Value.literal_eq_sqlite d v h, Value.literal_eq_sqlite e v h]

/-! ## Drafts -/

def Piece.Neutral : Piece → Prop
  | .text _ => True
  | .bound _ => True
  | .literal v => v.Neutral
  | .jsonObject => False

def Draft.Neutral (x : Draft) : Prop := ∀ p ∈ x.pieces, p.Neutral

theorem Template.ofPiece_eq_of_neutral {p : Piece} (h : p.Neutral) (d e : Dialect) :
    ofPiece d p = ofPiece e p := by
  cases p with
  | text s => rfl
  | bound v => rfl
  | literal v => rw [ofPiece, ofPiece, Value.literal_eq_of_neutral h d e]
  | jsonObject => contradiction

/-- A neutral draft says the same around its values in every dialect. -/
theorem Draft.texts_eq_of_neutral {x : Draft} (h : x.Neutral) (d e : Dialect) :
    x.texts d = x.texts e := by
  have htemplate : x.template d = x.template e :=
    List.flatMap_congr fun p hp => Template.ofPiece_eq_of_neutral (h p hp) d e
  rw [texts, texts, htemplate]

namespace Draft.Neutral

theorem empty : Draft.empty.Neutral := by
  intro p hp
  contradiction

theorem fail (m : Malformed) : (Draft.fail m).Neutral := by
  intro p hp
  contradiction

theorem text (s : String) : (Draft.text s).Neutral := by
  intro p hp
  obtain rfl := List.mem_singleton.mp hp
  trivial

theorem bound (v : Value) : (Draft.bound v).Neutral := by
  intro p hp
  obtain rfl := List.mem_singleton.mp hp
  trivial

theorem literal {v : Value} (h : v.Neutral) : (Draft.literal v).Neutral := by
  intro p hp
  obtain rfl := List.mem_singleton.mp hp
  exact h

theorem append {x y : Draft} (hx : x.Neutral) (hy : y.Neutral) : (x ++ y).Neutral := by
  cases hf : x.fault with
  | some m =>
    rw [append_of_fault hf]
    exact hx
  | none =>
    rw [append_of_sound hf]
    intro p hp
    rcases List.mem_append.mp hp with hp | hp
    · exact hx p hp
    · exact hy p hp

theorem join (sep : String) {xs : List Draft} (h : ∀ x ∈ xs, x.Neutral) :
    (Draft.join sep xs).Neutral := by
  induction xs with
  | nil => exact empty
  | cons x xs ih =>
    cases xs with
    | nil => exact h x (by simp)
    | cons y ys =>
      have hrest := ih fun z hz => h z (by simp [hz])
      exact (h x (by simp)).append ((text sep).append hrest)

theorem clause (heading sep : String) {xs : List Draft} (h : ∀ x ∈ xs, x.Neutral) :
    (Draft.clause heading sep xs).Neutral := by
  cases xs with
  | nil => exact empty
  | cons x xs => exact (text heading).append (join sep h)

theorem paren {x : Draft} (h : x.Neutral) : (Draft.paren x).Neutral :=
  (text "(").append (h.append (text ")"))

end Draft.Neutral

/-! ## What the parts of a statement write -/

def FunctionName.Neutral : FunctionName → Prop
  | named _ => True
  | jsonObject => False

/-- A value that is a direct argument of a function; texts are literals. -/
def Value.NeutralArgument : Value → Prop
  | .string s => (Value.string s).Neutral
  | _ => True

/-- A value of a conflict clause; all but references to the row that was not inserted are literals. -/
def ConflictAction.NeutralValue : Value → Prop
  | .string s => s.startsWith "EXCLUDED." = false → (Value.string s).Neutral
  | v => v.Neutral

def OnConflict.Neutral (c : OnConflict) : Prop :=
  match c.action with
  | .nothing => True
  | .update assignments => ∀ a ∈ assignments, ConflictAction.NeutralValue a.2

mutual

def Expr.Neutral : Expr → Prop
  | .column _ => True
  | .raw _ => True
  | .value _ => True
  | .call f => f.Neutral
  | .window w => w.Neutral
  | .condition c => c.Neutral
  | .subquery s => s.Neutral
  | .named e _ => e.Neutral

def Expr.Neutrals : List Expr → Prop
  | [] => True
  | e :: es => e.Neutral ∧ Expr.Neutrals es

def Operand.Neutral : Operand → Prop
  | .value _ => True
  | .column _ => True
  | .expr e => e.Neutral

/-- A direct argument of a function. -/
def Operand.NeutralArgument : Operand → Prop
  | .value v => v.NeutralArgument
  | .column _ => True
  | .expr e => e.Neutral

def Operand.NeutralArguments : List Operand → Prop
  | [] => True
  | o :: os => o.NeutralArgument ∧ Operand.NeutralArguments os

def Call.Neutral : Call → Prop
  | ⟨name, args, _⟩ => name.Neutral ∧ Operand.NeutralArguments args

def OrderItem.Neutral : OrderItem → Prop
  | ⟨e, _⟩ => e.Neutral

def OrderItem.Neutrals : List OrderItem → Prop
  | [] => True
  | o :: os => o.Neutral ∧ OrderItem.Neutrals os

def WindowSpec.Neutral : WindowSpec → Prop
  | ⟨partitionBy, orderBy, _⟩ => Expr.Neutrals partitionBy ∧ OrderItem.Neutrals orderBy

def Over.Neutral : Over → Prop
  | .named _ => True
  | .spec s => s.Neutral

def Over.Neutral? : Option Over → Prop
  | none => True
  | some o => o.Neutral

def WindowCall.Neutral : WindowCall → Prop
  | ⟨_, args, _, filter, window, _⟩ =>
    Expr.Neutrals args ∧ Condition.Neutral? filter ∧ Over.Neutral? window

def Condition.Neutral : Condition → Prop
  | .compare _ _ right => right.Neutral
  | .null _ _ => True
  | .connect a _ b => a.Neutral ∧ b.Neutral
  | .inList _ _ _ => True
  | .inQuery _ _ q => q.Neutral
  | .between _ _ _ => True
  | .negation c => c.Neutral
  | .raw _ => True

def Condition.Neutrals : List Condition → Prop
  | [] => True
  | c :: cs => c.Neutral ∧ Condition.Neutrals cs

def Condition.Neutral? : Option Condition → Prop
  | none => True
  | some c => c.Neutral

def Source.Neutral : Source → Prop
  | .table _ => True
  | .subquery q _ => q.Neutral
  | .raw _ => True

def Source.Neutrals : List Source → Prop
  | [] => True
  | s :: ss => s.Neutral ∧ Source.Neutrals ss

/-- The first source, which is the target of a deletion. -/
def Source.NeutralHead : List Source → Prop
  | [] => True
  | s :: _ => s.Neutral

def Source.Neutral? : Option Source → Prop
  | none => True
  | some s => s.Neutral

def Join.Neutral : Join → Prop
  | ⟨_, source, on⟩ => source.Neutral ∧ Condition.Neutral? on

def Join.Neutrals : List Join → Prop
  | [] => True
  | j :: js => j.Neutral ∧ Join.Neutrals js

def CteBody.Neutral : CteBody → Prop
  | .query q => q.Neutral
  | .raw _ => True

def Cte.Neutral : Cte → Prop
  | ⟨_, body⟩ => body.Neutral

def Cte.Neutrals : List Cte → Prop
  | [] => True
  | c :: cs => c.Neutral ∧ Cte.Neutrals cs

def Assignment.Neutral : Assignment → Prop
  | .set _ value => value.Neutral
  | .raw _ => True

def Assignment.Neutrals : List Assignment → Prop
  | [] => True
  | a :: as => a.Neutral ∧ Assignment.Neutrals as

def WindowDef.Neutral : WindowDef → Prop
  | ⟨_, spec⟩ => spec.Neutral

def WindowDef.Neutrals : List WindowDef → Prop
  | [] => True
  | w :: ws => w.Neutral ∧ WindowDef.Neutrals ws

/-- The clauses that a statement of its kind writes; a deletion has its target set aside only if it
has no sources. -/
def Statement.Neutral : Statement → Prop
  | ⟨kind, selects, _, sources, joins, wheres, groups, orders, _, _, _, ctes, _, _, _, insertQuery,
      _, updates, deleteSource, windows, onConflict⟩ =>
    match kind with
    | .begin => True
    | .commit => True
    | .rollback => True
    | .select =>
      Cte.Neutrals ctes ∧ Expr.Neutrals selects ∧ Source.Neutrals sources ∧ Join.Neutrals joins ∧
        Condition.Neutrals wheres ∧ Expr.Neutrals groups ∧ WindowDef.Neutrals windows ∧
        OrderItem.Neutrals orders
    | .insert =>
      Cte.Neutrals ctes ∧ Statement.Neutral? insertQuery ∧ ∀ c ∈ onConflict, c.Neutral
    | .update => Cte.Neutrals ctes ∧ Assignment.Neutrals updates ∧ Condition.Neutrals wheres
    | .delete =>
      Cte.Neutrals ctes ∧ Source.NeutralHead sources ∧
        (sources = [] → Source.Neutral? deleteSource) ∧ Condition.Neutrals wheres

def Statement.Neutral? : Option Statement → Prop
  | none => True
  | some s => s.Neutral

end

/-- The statements that a script writes. -/
def Script.Neutral (s : Script) : Prop := (∀ c ∈ s.chain, c.last.Neutral) ∧ s.last.Neutral

/-! ## Clauses -/

open Draft (Neutral)

theorem texts_neutral (ts : List String) : ∀ x ∈ ts.map Draft.text, x.Neutral := by
  intro x hx
  obtain ⟨t, -, rfl⟩ := List.mem_map.mp hx
  exact .text t

theorem Value.neutral_draft (v : Value) : v.draft.Neutral := by
  cases v with
  | null => exact .text "NULL"
  | _ => exact .bound _

theorem Value.neutral_argument {v : Value} (h : v.NeutralArgument) : v.argument.Neutral := by
  cases v with
  | string s => exact .literal h
  | _ => exact Value.neutral_draft _

theorem boundList_neutral (vs : List Value) : (boundList vs).Neutral := by
  refine .join ", " fun x hx => ?_
  obtain ⟨v, -, rfl⟩ := List.mem_map.mp hx
  exact .bound v

theorem rowDrafts_neutral (rows : List (List Value)) : ∀ x ∈ rowDrafts rows, x.Neutral := by
  intro x hx
  obtain ⟨row, -, rfl⟩ := List.mem_map.mp hx
  exact .paren (boundList_neutral row)

theorem aliasDraft_neutral (a : Option String) : (aliasDraft a).Neutral := by
  cases a with
  | none => exact .empty
  | some a => exact .text _

theorem sourceAliasDraft_neutral (a : Option String) : (sourceAliasDraft a).Neutral := by
  cases a with
  | none => exact .empty
  | some a => exact .text _

theorem countDraft_neutral (keyword : String) (n : Option Nat) : (countDraft keyword n).Neutral := by
  cases n with
  | none => exact .empty
  | some n => exact .text _

theorem returningDraft_neutral (columns : List String) : (returningDraft columns).Neutral :=
  .clause _ _ (texts_neutral columns)

theorem FunctionName.neutral_draft {n : FunctionName} (h : n.Neutral) : n.draft.Neutral := by
  cases n with
  | named n => exact .text n
  | jsonObject => contradiction

theorem memberDraft_neutral (c : Column) (negated : Bool) (values : List Value) :
    (memberDraft c negated values).Neutral := by
  cases values with
  | nil => exact .text _
  | cons v vs => exact .append (.text _) (.paren (boundList_neutral _))

theorem ConflictAction.neutral_valueDraft {v : Value} (h : NeutralValue v) :
    (valueDraft v).Neutral := by
  cases v with
  | string s =>
    simp only [valueDraft]
    by_cases hs : s.startsWith "EXCLUDED." = true
    · rw [if_pos hs]
      exact .text s
    · rw [if_neg hs]
      exact .literal (h (Bool.eq_false_iff.mpr hs))
  | _ => exact .literal h

theorem OnConflict.neutral_draft {c : OnConflict} (h : c.Neutral) : c.draft.Neutral := by
  refine .append (.text _) ?_
  unfold OnConflict.Neutral at h
  cases haction : c.action with
  | nothing => exact .text _
  | update assignments =>
    rw [haction] at h
    refine .append (.text _) (.join ", " fun x hx => ?_)
    obtain ⟨a, ha, rfl⟩ := List.mem_map.mp hx
    exact .append (.text _) (ConflictAction.neutral_valueDraft (h a ha))

theorem conflictDraft_neutral {c : Option OnConflict} (h : ∀ x ∈ c, x.Neutral) :
    (conflictDraft c).Neutral := by
  cases c with
  | none => exact .empty
  | some c => exact .append (.text _) (OnConflict.neutral_draft (h c rfl))

theorem filterDraft_neutral {o : Option Draft} (h : ∀ x ∈ o, x.Neutral) :
    (filterDraft o).Neutral := by
  cases o with
  | none => exact .empty
  | some x => exact .append (.append (.text _) (h x rfl)) (.text _)

theorem onDraft_neutral {o : Option Draft} (h : ∀ x ∈ o, x.Neutral) : (onDraft o).Neutral := by
  cases o with
  | none => exact .empty
  | some x => exact .append (.text _) (h x rfl)

theorem windowPart_neutral (heading : String) {xs : List Draft} (h : ∀ x ∈ xs, x.Neutral) :
    ∀ x ∈ windowPart heading xs, x.Neutral := by
  intro x hx
  cases xs with
  | nil => contradiction
  | cons y ys =>
    obtain rfl := List.mem_singleton.mp hx
    exact .clause _ _ h

theorem frameDrafts_neutral (frame : Option String) : ∀ x ∈ frameDrafts frame, x.Neutral := by
  intro x hx
  cases frame with
  | none => contradiction
  | some f =>
    obtain rfl := List.mem_singleton.mp hx
    exact .text f

theorem windowDraft_neutral {ps os : List Draft} (frame : Option String)
    (hps : ∀ x ∈ ps, x.Neutral) (hos : ∀ x ∈ os, x.Neutral) : (windowDraft ps os frame).Neutral := by
  refine .join " " fun x hx => ?_
  rcases List.mem_append.mp hx with hx | hx
  · rcases List.mem_append.mp hx with hx | hx
    · exact windowPart_neutral _ hps x hx
    · exact windowPart_neutral _ hos x hx
  · exact frameDrafts_neutral frame x hx

theorem withDraft_neutral {ctes : List Draft} (h : ∀ x ∈ ctes, x.Neutral) :
    (withDraft ctes).Neutral := by
  refine .append (.clause _ _ h) ?_
  cases ctes with
  | nil => exact .empty
  | cons c cs => exact .text _

theorem selectListDraft_neutral {xs : List Draft} (h : ∀ x ∈ xs, x.Neutral) :
    (selectListDraft xs).Neutral := by
  cases xs with
  | nil => exact .text _
  | cons x xs => exact .join ", " h

theorem insertedDraft_neutral (rows : List (List Value)) {query : Option Draft}
    (h : ∀ x ∈ query, x.Neutral) : (insertedDraft rows query).Neutral := by
  cases query with
  | some x => exact .append (.text _) (h x rfl)
  | none =>
    cases rows with
    | nil => exact .text _
    | cons row rows => exact .clause _ _ (rowDrafts_neutral _)

section

variable {withClause rest : Draft} (hw : withClause.Neutral) (hr : rest.Neutral)

include hw hr

theorem insertDraft_neutral (target : Option Table) (columns : List String) :
    (insertDraft withClause target columns rest).Neutral := by
  cases target with
  | none => exact .fail _
  | some t => exact .append (.append hw (.text _)) hr

theorem updateDraft_neutral (target : Option Table) {as : List Draft} (h : ∀ x ∈ as, x.Neutral) :
    (updateDraft withClause target as rest).Neutral := by
  cases target with
  | none => exact .fail _
  | some t =>
    cases as with
    | nil => exact .fail _
    | cons a as => exact .append (.append (.append hw (.text _)) (.join ", " h)) hr

/-- Of the sources only the first counts, and the target set aside only if there is none. -/
theorem deleteDraft_neutral {xs : List Draft} {target : Option Draft}
    (hxs : ∀ x ∈ xs.head?, x.Neutral) (htarget : xs = [] → ∀ x ∈ target, x.Neutral) :
    (deleteDraft withClause xs target rest).Neutral := by
  have delete : ∀ x : Draft, x.Neutral →
      (withClause ++ Draft.text "DELETE FROM " ++ x ++ rest).Neutral :=
    fun x hx => .append (.append (.append hw (.text _)) hx) hr
  cases xs with
  | cons x xs => exact delete x (hxs x rfl)
  | nil =>
    cases target with
    | none => exact .fail _
    | some x => exact delete x (htarget rfl x rfl)

end

/-! ## Statements -/

mutual

theorem Expr.neutral_draft : (e : Expr) → e.Neutral → e.draft.Neutral
  | .column c, _ => by
    simp only [Expr.draft]
    exact .text _
  | .raw sql, _ => by
    simp only [Expr.draft]
    exact .text sql
  | .value v, _ => by
    simp only [Expr.draft]
    exact v.neutral_draft
  | .call f, h => by
    simp only [Expr.Neutral] at h
    simp only [Expr.draft]
    exact Call.neutral_draft f h
  | .window w, h => by
    simp only [Expr.Neutral] at h
    simp only [Expr.draft]
    exact WindowCall.neutral_draft w h
  | .condition c, h => by
    simp only [Expr.Neutral] at h
    simp only [Expr.draft]
    exact Condition.neutral_draft c h
  | .subquery s, h => by
    simp only [Expr.Neutral] at h
    simp only [Expr.draft]
    exact .paren (Statement.neutral_draft s h)
  | .named e a, h => by
    simp only [Expr.Neutral] at h
    simp only [Expr.draft]
    exact .append (Expr.neutral_draft e h) (.text _)
termination_by structural x => x

theorem Expr.neutral_drafts : (es : List Expr) → Expr.Neutrals es → ∀ x ∈ Expr.drafts es, x.Neutral
  | [], _ => by simp [Expr.drafts]
  | e :: es, h => by
    simp only [Expr.Neutrals] at h
    simp only [Expr.drafts, List.forall_mem_cons]
    exact ⟨Expr.neutral_draft e h.1, Expr.neutral_drafts es h.2⟩
termination_by structural x => x

theorem Operand.neutral_draft : (o : Operand) → o.Neutral → o.draft.Neutral
  | .value v, _ => by
    simp only [Operand.draft]
    exact v.neutral_draft
  | .column c, _ => by
    simp only [Operand.draft]
    exact .text _
  | .expr e, h => by
    simp only [Operand.Neutral] at h
    simp only [Operand.draft]
    exact Expr.neutral_draft e h
termination_by structural x => x

theorem Operand.neutral_argument : (o : Operand) → o.NeutralArgument → o.argument.Neutral
  | .value v, h => by
    simp only [Operand.NeutralArgument] at h
    simp only [Operand.argument]
    exact Value.neutral_argument h
  | .column c, _ => by
    simp only [Operand.argument]
    exact .text _
  | .expr e, h => by
    simp only [Operand.NeutralArgument] at h
    simp only [Operand.argument]
    exact Expr.neutral_draft e h
termination_by structural x => x

theorem Operand.neutral_arguments : (os : List Operand) → Operand.NeutralArguments os →
    ∀ x ∈ Operand.arguments os, x.Neutral
  | [], _ => by simp [Operand.arguments]
  | o :: os, h => by
    simp only [Operand.NeutralArguments] at h
    simp only [Operand.arguments, List.forall_mem_cons]
    exact ⟨Operand.neutral_argument o h.1, Operand.neutral_arguments os h.2⟩
termination_by structural x => x

theorem Call.neutral_draft : (f : Call) → f.Neutral → f.draft.Neutral
  | ⟨name, args, a⟩, h => by
    simp only [Call.Neutral] at h
    simp only [Call.draft]
    have list := Draft.Neutral.join ", " (Operand.neutral_arguments args h.2)
    exact .append (.append (FunctionName.neutral_draft h.1) (.paren list)) (aliasDraft_neutral a)
termination_by structural x => x

theorem OrderItem.neutral_draft : (o : OrderItem) → o.Neutral → o.draft.Neutral
  | ⟨e, direction⟩, h => by
    simp only [OrderItem.Neutral] at h
    simp only [OrderItem.draft]
    exact .append (Expr.neutral_draft e h) (.text _)
termination_by structural x => x

theorem OrderItem.neutral_drafts : (os : List OrderItem) → OrderItem.Neutrals os →
    ∀ x ∈ OrderItem.drafts os, x.Neutral
  | [], _ => by simp [OrderItem.drafts]
  | o :: os, h => by
    simp only [OrderItem.Neutrals] at h
    simp only [OrderItem.drafts, List.forall_mem_cons]
    exact ⟨OrderItem.neutral_draft o h.1, OrderItem.neutral_drafts os h.2⟩
termination_by structural x => x

theorem WindowSpec.neutral_draft : (s : WindowSpec) → s.Neutral → s.draft.Neutral
  | ⟨partitionBy, orderBy, frame⟩, h => by
    simp only [WindowSpec.Neutral] at h
    simp only [WindowSpec.draft]
    exact windowDraft_neutral frame (Expr.neutral_drafts partitionBy h.1)
      (OrderItem.neutral_drafts orderBy h.2)
termination_by structural x => x

theorem Over.neutral_draft : (o : Over) → o.Neutral → o.draft.Neutral
  | .named name, _ => by
    simp only [Over.draft]
    exact .text _
  | .spec s, h => by
    simp only [Over.Neutral] at h
    simp only [Over.draft]
    exact .append (.text _) (.paren (WindowSpec.neutral_draft s h))
termination_by structural x => x

theorem Over.neutral_getD : (o : Option Over) → Over.Neutral? o →
    ((Over.draft? o).getD .empty).Neutral
  | none, _ => by
    simp only [Over.draft?]
    exact .empty
  | some o, h => by
    simp only [Over.Neutral?] at h
    simp only [Over.draft?]
    exact Over.neutral_draft o h
termination_by structural x => x

theorem WindowCall.neutral_draft : (w : WindowCall) → w.Neutral → w.draft.Neutral
  | ⟨name, args, distinct, filter, window, a⟩, h => by
    simp only [WindowCall.Neutral] at h
    obtain ⟨hargs, hfilter, hwindow⟩ := h
    simp only [WindowCall.draft]
    have list := Draft.Neutral.join ", " (Expr.neutral_drafts args hargs)
    have filterClause := filterDraft_neutral (Condition.neutral_draft? filter hfilter)
    refine .append (.append (.append (.append (.text name) ?_) filterClause) ?_)
      (aliasDraft_neutral a)
    · exact .paren (.append (.text _) list)
    · exact Over.neutral_getD window hwindow
termination_by structural x => x

theorem Condition.neutral_draft : (c : Condition) → c.Neutral → c.draft.Neutral
  | .compare left op right, h => by
    simp only [Condition.Neutral] at h
    simp only [Condition.draft]
    exact .append (.text _) (Operand.neutral_draft right h)
  | .null c negated, _ => by
    simp only [Condition.draft]
    exact .text _
  | .connect a op b, h => by
    simp only [Condition.Neutral] at h
    simp only [Condition.draft]
    exact .append (.append (.paren (Condition.neutral_draft a h.1)) (.text _))
      (.paren (Condition.neutral_draft b h.2))
  | .inList c negated values, _ => by
    simp only [Condition.draft]
    exact memberDraft_neutral c negated values
  | .inQuery c negated q, h => by
    simp only [Condition.Neutral] at h
    simp only [Condition.draft]
    exact .append (.text _) (.paren (Statement.neutral_draft q h))
  | .between c lower upper, _ => by
    simp only [Condition.draft]
    exact .append (.append (.append (.text _) (.bound lower)) (.text _)) (.bound upper)
  | .negation c, h => by
    simp only [Condition.Neutral] at h
    simp only [Condition.draft]
    exact .append (.text _) (.paren (Condition.neutral_draft c h))
  | .raw sql, _ => by
    simp only [Condition.draft]
    exact .text sql
termination_by structural x => x

theorem Condition.neutral_drafts : (cs : List Condition) → Condition.Neutrals cs →
    ∀ x ∈ Condition.drafts cs, x.Neutral
  | [], _ => by simp [Condition.drafts]
  | c :: cs, h => by
    simp only [Condition.Neutrals] at h
    simp only [Condition.drafts, List.forall_mem_cons]
    exact ⟨Condition.neutral_draft c h.1, Condition.neutral_drafts cs h.2⟩
termination_by structural x => x

theorem Condition.neutral_draft? : (o : Option Condition) → Condition.Neutral? o →
    ∀ x ∈ Condition.draft? o, x.Neutral
  | none, _ => by simp [Condition.draft?]
  | some c, h => by
    simp only [Condition.Neutral?] at h
    simp only [Condition.draft?, Option.mem_some_iff, forall_eq']
    exact Condition.neutral_draft c h
termination_by structural x => x

theorem Source.neutral_draft : (s : Source) → s.Neutral → s.draft.Neutral
  | .table t, _ => by
    simp only [Source.draft]
    exact .text _
  | .subquery q a, h => by
    simp only [Source.Neutral] at h
    simp only [Source.draft]
    exact .append (.paren (Statement.neutral_draft q h)) (sourceAliasDraft_neutral a)
  | .raw sql, _ => by
    simp only [Source.draft]
    exact .text sql
termination_by structural x => x

theorem Source.neutral_drafts : (ss : List Source) → Source.Neutrals ss →
    ∀ x ∈ Source.drafts ss, x.Neutral
  | [], _ => by simp [Source.drafts]
  | s :: ss, h => by
    simp only [Source.Neutrals] at h
    simp only [Source.drafts, List.forall_mem_cons]
    exact ⟨Source.neutral_draft s h.1, Source.neutral_drafts ss h.2⟩
termination_by structural x => x

theorem Source.neutral_head : (ss : List Source) → Source.NeutralHead ss →
    ∀ x ∈ (Source.drafts ss).head?, x.Neutral
  | [], _ => by simp [Source.drafts]
  | s :: _, h => by
    simp only [Source.NeutralHead] at h
    simp only [Source.drafts, List.head?_cons, Option.mem_some_iff, forall_eq']
    exact Source.neutral_draft s h
termination_by structural x => x

theorem Source.neutral_draft? : (o : Option Source) → Source.Neutral? o →
    ∀ x ∈ Source.draft? o, x.Neutral
  | none, _ => by simp [Source.draft?]
  | some s, h => by
    simp only [Source.Neutral?] at h
    simp only [Source.draft?, Option.mem_some_iff, forall_eq']
    exact Source.neutral_draft s h
termination_by structural x => x

theorem Join.neutral_draft : (j : Join) → j.Neutral → j.draft.Neutral
  | ⟨kind, source, on⟩, h => by
    simp only [Join.Neutral] at h
    simp only [Join.draft]
    have condition := onDraft_neutral (Condition.neutral_draft? on h.2)
    exact .append (.append (.text _) (Source.neutral_draft source h.1)) condition
termination_by structural x => x

theorem Join.neutral_drafts : (js : List Join) → Join.Neutrals js → (Join.drafts js).Neutral
  | [], _ => by
    simp only [Join.drafts]
    exact .empty
  | j :: js, h => by
    simp only [Join.Neutrals] at h
    simp only [Join.drafts]
    exact .append (.append (.text _) (Join.neutral_draft j h.1)) (Join.neutral_drafts js h.2)
termination_by structural x => x

theorem CteBody.neutral_draft : (b : CteBody) → b.Neutral → b.draft.Neutral
  | .query q, h => by
    simp only [CteBody.Neutral] at h
    simp only [CteBody.draft]
    exact Statement.neutral_draft q h
  | .raw sql, _ => by
    simp only [CteBody.draft]
    exact .text sql
termination_by structural x => x

theorem Cte.neutral_draft : (c : Cte) → c.Neutral → c.draft.Neutral
  | ⟨name, body⟩, h => by
    simp only [Cte.Neutral] at h
    simp only [Cte.draft]
    exact .append (.text _) (.paren (CteBody.neutral_draft body h))
termination_by structural x => x

theorem Cte.neutral_drafts : (cs : List Cte) → Cte.Neutrals cs → ∀ x ∈ Cte.drafts cs, x.Neutral
  | [], _ => by simp [Cte.drafts]
  | c :: cs, h => by
    simp only [Cte.Neutrals] at h
    simp only [Cte.drafts, List.forall_mem_cons]
    exact ⟨Cte.neutral_draft c h.1, Cte.neutral_drafts cs h.2⟩
termination_by structural x => x

theorem Assignment.neutral_draft : (a : Assignment) → a.Neutral → a.draft.Neutral
  | .set column value, h => by
    simp only [Assignment.Neutral] at h
    simp only [Assignment.draft]
    exact .append (.text _) (Operand.neutral_draft value h)
  | .raw sql, _ => by
    simp only [Assignment.draft]
    exact .text sql
termination_by structural x => x

theorem Assignment.neutral_drafts : (as : List Assignment) → Assignment.Neutrals as →
    ∀ x ∈ Assignment.drafts as, x.Neutral
  | [], _ => by simp [Assignment.drafts]
  | a :: as, h => by
    simp only [Assignment.Neutrals] at h
    simp only [Assignment.drafts, List.forall_mem_cons]
    exact ⟨Assignment.neutral_draft a h.1, Assignment.neutral_drafts as h.2⟩
termination_by structural x => x

theorem WindowDef.neutral_draft : (w : WindowDef) → w.Neutral → w.draft.Neutral
  | ⟨name, spec⟩, h => by
    simp only [WindowDef.Neutral] at h
    simp only [WindowDef.draft]
    exact .append (.text _) (.paren (WindowSpec.neutral_draft spec h))
termination_by structural x => x

theorem WindowDef.neutral_drafts : (ws : List WindowDef) → WindowDef.Neutrals ws →
    ∀ x ∈ WindowDef.drafts ws, x.Neutral
  | [], _ => by simp [WindowDef.drafts]
  | w :: ws, h => by
    simp only [WindowDef.Neutrals] at h
    simp only [WindowDef.drafts, List.forall_mem_cons]
    exact ⟨WindowDef.neutral_draft w h.1, WindowDef.neutral_drafts ws h.2⟩
termination_by structural x => x

theorem Statement.neutral_draft : (s : Statement) → s.Neutral → s.draft.Neutral
  | ⟨kind, selects, distinct, sources, joins, wheres, groups, orders, limit, offset, returning, ctes,
      insertTable, insertColumns, insertRows, insertQuery, updateTable, updates, deleteSource,
      windows, onConflict⟩, h => by
    have returningClause := returningDraft_neutral returning
    cases kind with
    | begin =>
      rw [Statement.draft_begin rfl]
      exact .text _
    | commit =>
      rw [Statement.draft_commit rfl]
      exact .text _
    | rollback =>
      rw [Statement.draft_rollback rfl]
      exact .text _
    | select =>
      simp only [Statement.Neutral] at h
      obtain ⟨hctes, hselects, hsources, hjoins, hwheres, hgroups, hwindows, horders⟩ := h
      rw [Statement.draft_select rfl]
      refine .append (.append (.append ?_ (countDraft_neutral _ _)) (countDraft_neutral _ _))
        returningClause
      refine .append (.append (.append ?_ (.clause _ _ (Expr.neutral_drafts groups hgroups)))
        (.clause _ _ (WindowDef.neutral_drafts windows hwindows)))
        (.clause _ _ (OrderItem.neutral_drafts orders horders))
      refine .append (.append (.append ?_ (.clause _ _ (Source.neutral_drafts sources hsources)))
        (Join.neutral_drafts joins hjoins)) (.clause _ _ (Condition.neutral_drafts wheres hwheres))
      exact .append (.append (withDraft_neutral (Cte.neutral_drafts ctes hctes)) (.text _))
        (selectListDraft_neutral (Expr.neutral_drafts selects hselects))
    | insert =>
      simp only [Statement.Neutral] at h
      obtain ⟨hctes, hquery, hconflict⟩ := h
      rw [Statement.draft_insert rfl]
      have inserted := insertedDraft_neutral insertRows (Statement.neutral_draft? insertQuery hquery)
      exact insertDraft_neutral (withDraft_neutral (Cte.neutral_drafts ctes hctes))
        (.append (.append inserted (conflictDraft_neutral hconflict)) returningClause) _ _
    | update =>
      simp only [Statement.Neutral] at h
      obtain ⟨hctes, hupdates, hwheres⟩ := h
      rw [Statement.draft_update rfl]
      exact updateDraft_neutral (withDraft_neutral (Cte.neutral_drafts ctes hctes))
        (.append (.clause _ _ (Condition.neutral_drafts wheres hwheres)) returningClause) _
        (Assignment.neutral_drafts updates hupdates)
    | delete =>
      simp only [Statement.Neutral] at h
      obtain ⟨hctes, hsources, htarget, hwheres⟩ := h
      rw [Statement.draft_delete rfl]
      refine deleteDraft_neutral (withDraft_neutral (Cte.neutral_drafts ctes hctes))
        (.append (.clause _ _ (Condition.neutral_drafts wheres hwheres)) returningClause)
        (Source.neutral_head sources hsources) ?_
      intro hempty
      have hnone : sources = [] := by
        rw [Source.drafts_eq_map] at hempty
        exact List.map_eq_nil_iff.mp hempty
      exact Source.neutral_draft? deleteSource (htarget hnone)
termination_by structural x => x

theorem Statement.neutral_draft? : (o : Option Statement) → Statement.Neutral? o →
    ∀ x ∈ Statement.draft? o, x.Neutral
  | none, _ => by simp [Statement.draft?]
  | some s, h => by
    simp only [Statement.Neutral?] at h
    simp only [Statement.draft?, Option.mem_some_iff, forall_eq']
    exact Statement.neutral_draft s h
termination_by structural x => x

end

theorem Script.neutral_draft {s : Script} (h : s.Neutral) : s.draft.Neutral := by
  obtain ⟨hchain, hlast⟩ := h
  refine .join "; " fun x hx => ?_
  rcases List.mem_append.mp hx with hx | hx
  · obtain ⟨c, hc, rfl⟩ := List.mem_map.mp hx
    exact Statement.neutral_draft c.last (hchain c hc)
  · obtain rfl := List.mem_singleton.mp hx
    exact Statement.neutral_draft s.last hlast

/-! ## Compiling for two dialects -/

/-- **A script is one statement for every dialect.**  Whether it can be compiled, and what is wrong
with it if not, does not depend on the dialect; nor do the parameters.  The texts of a neutral script
differ in nothing but their placeholders. -/
theorem Script.compile_dialects (s : Script) (d e : Dialect) :
    (∃ x, s.compile d = .error x ∧ s.compile e = .error x) ∨
    ∃ p q, s.compile d = .ok p ∧ s.compile e = .ok q ∧ p.params = q.params ∧
      (s.Neutral → ∃ texts : List String, texts.length = p.params.length + 1 ∧
        p.sql = weave texts (d.placeholders 0 p.params.length) ∧
        q.sql = weave texts (e.placeholders 0 q.params.length)) := by
  cases hf : s.draft.fault with
  | some m =>
    exact Or.inl ⟨m.error, compile_of_fault hf d, compile_of_fault hf e⟩
  | none =>
    refine Or.inr ⟨_, _, compile_of_sound hf d, compile_of_sound hf e, rfl, ?_⟩
    intro hneutral
    have htexts := Draft.texts_eq_of_neutral (neutral_draft hneutral) d e
    refine ⟨s.draft.texts d, Draft.length_texts d s.draft, ?_, ?_⟩
    · exact Draft.spelled_placeholders d 0 s.draft
    · rw [htexts]
      exact Draft.spelled_placeholders e 0 s.draft

/-- A select with a text among the arguments of a call, for two dialects. -/
theorem Script.compile_dialects_coalesce :
    let call : Call := .coalesce [.column (.named "name"), .value (.string "it's \"new\"")]
    let s : Script := .ofStatement
      { selects := [.call call],
        sources := [.table (.named "users")],
        wheres := [.compare (.named "id") .eq (.value (.int 7))] }
    s.Neutral ∧ ∃ texts : List String, s.compile .postgres = .ok ⟨weave texts ["$1"], [.int 7]⟩ ∧
      s.compile .mysql = .ok ⟨weave texts ["%s"], [.int 7]⟩ := by
  intro call s
  have hneutral : s.Neutral := by
    simp only [s, call, Script.Neutral, Script.ofStatement, Statement.Neutral, Cte.Neutrals,
      Expr.Neutrals, Expr.Neutral, Call.Neutral, Call.coalesce, Call.of, FunctionName.Neutral,
      Operand.NeutralArguments, Operand.NeutralArgument, Value.NeutralArgument, Source.Neutrals,
      Source.Neutral, Join.Neutrals, Condition.Neutrals, Condition.Neutral, Operand.Neutral,
      WindowDef.Neutrals, OrderItem.Neutrals]
    exact ⟨by simp, trivial, ⟨⟨trivial, trivial, by decide +kernel, trivial⟩, trivial⟩,
      ⟨trivial, trivial⟩, trivial, ⟨trivial, trivial⟩, trivial, trivial, trivial⟩
  have hsound : s.draft.fault = none := rfl
  have hvalues : s.draft.params = [.int 7] := rfl
  have hcompile := compile_of_sound hsound .postgres
  refine ⟨hneutral, ?_⟩
  rcases compile_dialects s .postgres .mysql with ⟨x, hx, -⟩ | ⟨p, q, hp, hq, hparams, htexts⟩
  · rw [hcompile] at hx
    cases hx
  · have hcompiled := Except.ok.inj (hcompile.symm.trans hp)
    have hpvalues : p.params = s.draft.params := by rw [← hcompiled]
    rw [hvalues] at hpvalues
    obtain ⟨p, ps⟩ := p
    obtain ⟨q, qs⟩ := q
    obtain rfl : ps = [.int 7] := hpvalues
    obtain rfl : [.int 7] = qs := hparams
    obtain ⟨texts, -, hsql, hsql'⟩ := htexts hneutral
    have hnumbered : Dialect.postgres.placeholders 0 1 = ["$1"] := by decide +kernel
    have hplain : Dialect.mysql.placeholders 0 1 = ["%s"] := rfl
    obtain rfl : p = weave texts ["$1"] := hnumbered ▸ hsql
    obtain rfl : q = weave texts ["%s"] := hplain ▸ hsql'
    exact ⟨texts, hp, hq⟩

end SqlKit
