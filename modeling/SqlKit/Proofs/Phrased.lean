import SqlKit.Proofs.Phrase

/-!
# Statements as phrases

Unless it is malformed, every part of a statement is a phrase in every dialect.  The proof follows the
syntax; what each construct adds of its own is separators, words and quoted tokens.

    x.Phrased d P e e' → y.Phrased d P e' e'' → (x ++ y).Phrased d P e e''     (append)
    s.Verbatim P → s.draft is a phrase                                 (Script.phrased_draft)
-/

namespace SqlKit

variable {d : Dialect} {P : String → Prop}

/-- A draft that is a phrase unless it is malformed. -/
def Draft.Phrased (d : Dialect) (P : String → Prop) (e e' : Edge) (x : Draft) : Prop :=
  x.fault = none → Phrase d P e e' (x.template d)

namespace Draft.Phrased

/-! ## Building -/

theorem empty (e : Edge) : Draft.empty.Phrased d P e e := fun _ => .nil e

theorem fail (m : Malformed) (e e' : Edge) : (Draft.fail m).Phrased d P e e' := by
  intro h
  contradiction

theorem ofPhrase {a b : Edge} {s : String} (h : Phrase d P a b (Template.ofText s)) :
    (Draft.text s).Phrased d P a b := by
  intro _
  simpa [template, Draft.text, Template.ofPieces, Template.ofPiece] using h

theorem text {a b : Edge} {s : String} (h : Phrase.plainEdge a s.toList = some b) :
    (Draft.text s).Phrased d P a b := ofPhrase (.text h)

theorem verbatim {s : String} (h : P s) : (Draft.text s).Phrased d P .clean .any :=
  ofPhrase (.verbatim s h)

theorem bound (v : Value) : (Draft.bound v).Phrased d P .clean .word := fun _ => .hole v

theorem literal (v : Value) : (Draft.literal v).Phrased d P .clean .word := by
  intro _
  simpa [template, Draft.literal, Template.ofPieces, Template.ofPiece] using v.phrase_literal

theorem jsonObject : Draft.jsonObject.Phrased d P .clean .word := by
  intro _
  have h : Phrase d P .clean .word (Template.ofText (Piece.jsonObjectName d)) := by
    cases d
    · exact .text (by decide)
    · exact .text (by decide)
    · exact .text (by decide)
  simpa [template, Draft.jsonObject, Template.ofPieces, Template.ofPiece] using h

theorem weaken {e₁ e₂ e₃ e₄ : Edge} {x : Draft} (h : x.Phrased d P e₂ e₃)
    (h₁ : e₁.rank ≤ e₂.rank) (h₂ : e₃.rank ≤ e₄.rank) : x.Phrased d P e₁ e₄ :=
  fun hf => (h hf).weaken h₁ h₂

/-- A phrase of which less is said at both ends. -/
theorem part {e e' : Edge} {x : Draft} (h : x.Phrased d P e e') : x.Phrased d P .clean .any :=
  fun hf => (h hf).part

/-- A phrase that may follow anything may follow a separator. -/
theorem behind {e e' : Edge} {x : Draft} (h : x.Phrased d P .any e') : x.Phrased d P e e' :=
  fun hf => (h hf).behind

/-- A phrase that may follow anything, of which less is said at the end. -/
theorem ends {e : Edge} {x : Draft} (h : x.Phrased d P .any e) : x.Phrased d P .any .any :=
  fun hf => (h hf).ends

theorem append {a m b : Edge} {x y : Draft} (hx : x.Phrased d P a m)
    (hy : y.Phrased d P m b) : (x ++ y).Phrased d P a b := by
  intro hf
  cases hfx : x.fault with
  | some m =>
    rw [append_of_fault hfx, hfx] at hf
    contradiction
  | none =>
    rw [append_of_sound hfx] at hf ⊢
    rw [template, Template.ofPieces_append]
    exact .seq (hx hfx) (hy hf)

theorem paren {x : Draft} (hx : x.Phrased d P .clean .any) :
    (Draft.paren x).Phrased d P .any .clean := by
  intro hf
  cases hfx : x.fault with
  | some m =>
    rw [Draft.paren, append_of_fault hfx, append_of_sound (by rfl)] at hf
    exact absurd (hfx.symm.trans hf) (by simp)
  | none =>
    have h := Phrase.paren (hx hfx)
    rw [Draft.paren, append_of_sound hfx, append_of_sound (by rfl)]
    simpa [template, Draft.text, Template.ofPieces, Template.ofPiece, Template.ofText] using h

theorem join {sep : String} (hsep : (Draft.text sep).Phrased d P .any .clean) {ds : List Draft}
    (h : ∀ x ∈ ds, x.Phrased d P .clean .any) : (Draft.join sep ds).Phrased d P .clean .any := by
  induction ds with
  | nil => exact (empty .clean).part
  | cons x xs ih =>
    cases xs with
    | nil => exact h x (by simp)
    | cons y ys =>
      have hrest := ih fun z hz => h z (by simp [hz])
      exact (h x (by simp)).append (hsep.append hrest)

theorem clause {heading sep : String} (hheading : (Draft.text heading).Phrased d P .any .clean)
    (hsep : (Draft.text sep).Phrased d P .any .clean) {ds : List Draft}
    (h : ∀ x ∈ ds, x.Phrased d P .clean .any) :
    (Draft.clause heading sep ds).Phrased d P .any .any := by
  cases ds with
  | nil => exact empty _
  | cons x xs => exact hheading.append (join hsep h)

end Draft.Phrased

/-! ## Names and values -/

open Draft (Phrased)

theorem comma_phrased : (Draft.text ", ").Phrased d P .any .clean := .text (by decide)

theorem Table.phrase_qualifiedName (t : Table) :
    Phrase d P .any .clean (Template.ofText t.qualifiedName) := by
  unfold qualifiedName
  cases t.schema with
  | none => exact .ident _
  | some s =>
    rw [Template.ofText_append, Template.ofText_append]
    exact .seq (.seq (.ident s) (.text (b := .clean) (by decide))) (.behind (.ident _))

theorem Table.phrase_text (t : Table) : Phrase d P .any .clean (Template.ofText t.text) := by
  unfold Table.text
  cases t.alias with
  | none => exact t.phrase_qualifiedName
  | some a =>
    rw [Template.ofText_append, Template.ofText_append]
    exact .seq (.seq t.phrase_qualifiedName (.text (b := .clean) (by decide))) (.behind (.ident a))

theorem Column.phrase_text (c : Column) : Phrase d P .any .clean (Template.ofText c.text) := by
  unfold Column.text
  cases c.table with
  | none => exact .ident _
  | some t =>
    rw [Template.ofText_append, Template.ofText_append]
    exact .seq (.seq (.ident _) (.text (b := .clean) (by decide))) (.behind (.ident _))

theorem Value.phrased_draft (v : Value) : v.draft.Phrased d P .clean .word := by
  cases v with
  | null => exact .text (by decide)
  | _ => exact .bound _

theorem Value.phrased_argument (v : Value) : v.argument.Phrased d P .clean .word := by
  cases v with
  | string s => exact .literal _
  | _ => exact Value.phrased_draft _

theorem boundList_phrased (vs : List Value) : (boundList vs).Phrased d P .clean .any := by
  refine .join comma_phrased ?_
  intro x hx
  obtain ⟨v, -, rfl⟩ := List.mem_map.mp hx
  exact (Phrased.bound v).part

/-- A text of words and a text of a phrase, one behind the other. -/
theorem phrased_text_append {a m b : Edge} {s t : String}
    (hs : Phrase d P a m (Template.ofText s)) (ht : Phrase d P m b (Template.ofText t)) :
    (Draft.text (s ++ t)).Phrased d P a b := by
  refine .ofPhrase ?_
  rw [Template.ofText_append]
  exact .seq hs ht

theorem ConflictAction.phrased_valueDraft {v : Value} (h : VerbatimValue P v) :
    (valueDraft v).Phrased d P .clean .any := by
  cases v with
  | string s =>
    simp only [valueDraft]
    by_cases hs : s.startsWith "EXCLUDED." = true
    · rw [if_pos hs]
      exact .verbatim (h hs)
    · rw [if_neg hs]
      exact (Phrased.literal _).part
  | _ => exact (Phrased.literal _).part

/-- The targets of a conflict clause, in parentheses of their own. -/
theorem phrase_targets {ss : List String} (h : ∀ s ∈ ss, Phrase d P .clean .any (Template.ofText s)) :
    Phrase d P .any .clean (Template.ofText (" (" ++ ", ".intercalate ss ++ ")")) := by
  have hlist := Phrase.paren (Phrase.intercalate (s := ", ") (.text (by decide)) h)
  have ht : Template.ofText (" (" ++ ", ".intercalate ss ++ ")") =
      Template.ofText " " ++
        (.char '(' :: (Template.ofText (", ".intercalate ss) ++ [.char ')'])) := by
    simp [Template.ofText]
  rw [ht]
  exact .seq (.text (b := .clean) (by decide)) (.weaken hlist (by decide) (by decide))

theorem OnConflict.phrased_draft {c : OnConflict} (h : c.Verbatim P) :
    c.draft.Phrased d P .clean .any := by
  obtain ⟨htargets, haction⟩ := h
  refine .append (m := .any) (phrased_text_append (m := .word) (.text (by decide)) ?_) ?_
  · by_cases hempty : c.targets.isEmpty = true
    · rw [if_pos hempty]
      exact .weaken (.nil .word) (Nat.le_refl _) (by decide)
    · rw [if_neg hempty]
      refine .weaken (phrase_targets ?_) (by decide) (by decide)
      intro t ht
      exact .verbatim t (htargets t ht)
  · cases haction' : c.action with
    | nothing => exact (Phrased.text (b := .word) (by decide)).ends
    | update assignments =>
      rw [haction'] at haction
      refine .append (m := .clean) (.text (by decide)) (.join comma_phrased ?_)
      intro x hx
      obtain ⟨a, ha, rfl⟩ := List.mem_map.mp hx
      have hname : (Draft.text (quoteIdent a.1 ++ " = ")).Phrased d P .clean .clean :=
        phrased_text_append (.behind (.ident _)) (.text (a := .clean) (by decide))
      exact hname.append (ConflictAction.phrased_valueDraft (haction a ha))

/-! ## Clauses -/

theorem aliasDraft_phrased {a : Option String} (h : ∀ t ∈ a, P t) :
    (aliasDraft a).Phrased d P .any .any := by
  cases a with
  | none => exact .empty _
  | some t => exact .ofPhrase (by
      rw [Template.ofText_append]
      exact .seq (.text (b := .clean) (by decide)) (.verbatim t (h t rfl)))

theorem sourceAliasDraft_phrased (a : Option String) :
    (sourceAliasDraft a).Phrased d P .any .any := by
  cases a with
  | none => exact .empty _
  | some t => exact (phrased_text_append (m := .clean) (.text (by decide)) (.behind (.ident t))).ends

theorem FunctionName.phrased_draft {n : FunctionName} (h : n.Verbatim P) :
    n.draft.Phrased d P .clean .any := by
  cases n with
  | named n => exact .verbatim h
  | jsonObject => exact Phrased.jsonObject.part

theorem memberDraft_phrased (c : Column) (negated : Bool) (vs : List Value) :
    (memberDraft c negated vs).Phrased d P .clean .any := by
  cases vs with
  | nil =>
    simp only [memberDraft]
    cases negated with
    | true => exact (Phrased.text (s := "1 = 1") (a := .clean) (b := .word) (by decide)).part
    | false =>
      have null : Phrase d P .clean .any (Template.ofText "NULL") :=
        .part (.text (a := .clean) (b := .word) (by decide))
      have h : Phrase d P .any .clean (Template.ofText " IN (NULL)") :=
        .seq (t := Template.ofText " IN ") (u := Template.ofText "(NULL)") (m := .clean)
          (.text (by decide))
          (.behind (.paren null))
      exact (phrased_text_append c.phrase_text (.behind h)).part
  | cons v vs =>
    have heading : (Draft.text (c.text ++ if negated then " NOT IN " else " IN ")).Phrased d P
        .clean .clean := by
      refine phrased_text_append (.behind c.phrase_text) ?_
      cases negated with
      | true => exact .text (by decide)
      | false => exact .text (by decide)
    exact (heading.append (.behind (.paren (boundList_phrased _)))).part

theorem returningDraft_phrased {columns : List String} (h : ∀ t ∈ columns, P t) :
    (returningDraft columns).Phrased d P .any .any := by
  refine .clause (.text (by decide)) comma_phrased ?_
  intro x hx
  obtain ⟨t, ht, rfl⟩ := List.mem_map.mp hx
  exact .verbatim (h t ht)

theorem countDraft_phrased {keyword : String} (hk : Phrase.plainEdge .any keyword.toList = some .clean)
    (n : Option Nat) : (countDraft keyword n).Phrased d P .any .any := by
  cases n with
  | none => exact .empty _
  | some n =>
    refine (phrased_text_append (m := .clean) (b := .word) (.text hk) ?_).ends
    exact Phrase.integer (n : Int)

theorem rowDrafts_phrased (rows : List (List Value)) :
    ∀ x ∈ rowDrafts rows, x.Phrased d P .clean .any := by
  intro x hx
  obtain ⟨row, -, rfl⟩ := List.mem_map.mp hx
  exact (Phrased.paren (boundList_phrased row)).part

theorem filterDraft_phrased {o : Option Draft} (h : ∀ x ∈ o, x.Phrased d P .clean .any) :
    (filterDraft o).Phrased d P .any .any := by
  cases o with
  | none => exact .empty _
  | some x =>
    -- the opening parenthesis stands in the middle of a text, the closing one alone
    have hx : (Draft.text " FILTER (WHERE " ++ x ++ Draft.text ")").Phrased d P .any .clean := by
      intro hf
      cases hfx : x.fault with
      | some m =>
        rw [Draft.append_assoc, Draft.append_of_fault hfx, Draft.append_of_sound (by rfl)] at hf
        exact absurd (hfx.symm.trans hf) (by simp)
      | none =>
        have inner : Phrase d P .clean .any (Template.ofText "WHERE " ++ x.template d) :=
          .seq (.text (b := .clean) (by decide)) (h x rfl hfx)
        have all : Phrase d P .any .clean (Template.ofText " FILTER " ++ _) :=
          .seq (.text (b := .clean) (by decide)) (.behind (.paren inner))
        have ht : (Draft.text " FILTER (WHERE " ++ x ++ Draft.text ")").template d =
            Template.ofText " FILTER " ++
              (.char '(' :: (Template.ofText "WHERE " ++ x.template d ++ [.char ')'])) := by
          rw [Draft.append_assoc, Draft.append_of_sound hfx, Draft.append_of_sound (by rfl)]
          simp [Draft.template, Draft.text, Template.ofPieces, Template.ofPiece, Template.ofText]
        rw [ht]
        exact all
    exact hx.ends

theorem onDraft_phrased {o : Option Draft} (h : ∀ x ∈ o, x.Phrased d P .clean .any) :
    (onDraft o).Phrased d P .any .any := by
  cases o with
  | none => exact .empty _
  | some x => exact .append (m := .clean) (.text (by decide)) (h x rfl)

theorem windowPart_phrased {heading : String}
    (hheading : Phrase.plainEdge .clean heading.toList = some .clean) {items : List Draft}
    (h : ∀ x ∈ items, x.Phrased d P .clean .any) :
    ∀ x ∈ windowPart heading items, x.Phrased d P .clean .any := by
  intro x hx
  cases items with
  | nil => contradiction
  | cons y ys =>
    obtain rfl := List.mem_singleton.mp hx
    exact .append (m := .clean) (.text hheading) (.join comma_phrased h)

theorem windowDraft_phrased {ps os : List Draft} {frame : Option String}
    (hps : ∀ x ∈ ps, x.Phrased d P .clean .any) (hos : ∀ x ∈ os, x.Phrased d P .clean .any)
    (hframe : ∀ t ∈ frame, P t) : (windowDraft ps os frame).Phrased d P .clean .any := by
  refine .join (.text (by decide)) ?_
  intro x hx
  rcases List.mem_append.mp hx with hx | hx
  · rcases List.mem_append.mp hx with hx | hx
    · exact windowPart_phrased (by decide) hps x hx
    · exact windowPart_phrased (by decide) hos x hx
  · cases frame with
    | none => contradiction
    | some t =>
      obtain rfl := List.mem_singleton.mp hx
      exact .verbatim (hframe t rfl)

theorem withDraft_phrased {ctes : List Draft} (h : ∀ x ∈ ctes, x.Phrased d P .clean .any) :
    (withDraft ctes).Phrased d P .clean .clean := by
  cases ctes with
  | nil => exact .append (.empty _) (.empty _)
  | cons c cs =>
    have heading : (Draft.text "WITH ").Phrased d P .clean .clean := .text (by decide)
    have list := heading.append (.join comma_phrased h)
    exact .append (m := .any) list (.text (by decide))

theorem selectListDraft_phrased {items : List Draft} (h : ∀ x ∈ items, x.Phrased d P .clean .any) :
    (selectListDraft items).Phrased d P .clean .any := by
  cases items with
  | nil => exact (Phrased.ofPhrase (s := "*") .star).part
  | cons x xs => exact .join comma_phrased h

theorem insertTargetDraft_phrased (t : Table) (columns : List String) :
    (insertTargetDraft t columns).Phrased d P .clean .any := by
  have head : Phrase d P .clean .clean (Template.ofText ("INSERT INTO " ++ t.qualifiedName)) := by
    rw [Template.ofText_append]
    exact .seq (.text (b := .clean) (by decide)) (.behind t.phrase_qualifiedName)
  refine (phrased_text_append head (b := .clean) ?_).part
  by_cases hempty : columns.isEmpty = true
  · rw [if_pos hempty]
    exact .nil _
  · rw [if_neg hempty]
    refine .behind (phrase_targets ?_)
    intro s hs
    obtain ⟨c, -, rfl⟩ := List.mem_map.mp hs
    exact (Phrase.ident c).part

theorem insertedDraft_phrased (rows : List (List Value)) {query : Option Draft}
    (h : ∀ x ∈ query, x.Phrased d P .clean .any) :
    (insertedDraft rows query).Phrased d P .any .any := by
  cases query with
  | some x => exact .append (m := .clean) (.text (by decide)) (h x rfl)
  | none =>
    cases rows with
    | nil => exact (Phrased.text (b := .word) (by decide)).ends
    | cons r rs => exact .clause (.text (by decide)) comma_phrased (rowDrafts_phrased _)

theorem conflictDraft_phrased {c : Option OnConflict} (h : ∀ x ∈ c, x.Verbatim P) :
    (conflictDraft c).Phrased d P .any .any := by
  cases c with
  | none => exact .empty _
  | some c => exact .append (m := .clean) (.text (by decide)) (OnConflict.phrased_draft (h c rfl))

theorem insertDraft_phrased {withClause rest : Draft} (target : Option Table) (columns : List String)
    (hw : withClause.Phrased d P .clean .clean) (hr : rest.Phrased d P .any .any) :
    (insertDraft withClause target columns rest).Phrased d P .clean .any := by
  cases target with
  | none => exact .fail _ _ _
  | some t => exact (hw.append (insertTargetDraft_phrased t columns)).append hr

theorem updateDraft_phrased {withClause rest : Draft} (target : Option Table) {as : List Draft}
    (hw : withClause.Phrased d P .clean .clean) (has : ∀ x ∈ as, x.Phrased d P .clean .any)
    (hr : rest.Phrased d P .any .any) :
    (updateDraft withClause target as rest).Phrased d P .clean .any := by
  cases target with
  | none => exact .fail _ _ _
  | some t =>
    cases as with
    | nil => exact .fail _ _ _
    | cons a as =>
      have head : (Draft.text ("UPDATE " ++ t.text ++ " SET ")).Phrased d P .clean .clean := by
        refine .ofPhrase ?_
        rw [Template.ofText_append, Template.ofText_append]
        exact .seq (.seq (.text (b := .clean) (by decide)) (.behind t.phrase_text))
          (.text (b := .clean) (by decide))
      exact ((hw.append head).append (.join comma_phrased has)).append hr

theorem deleteDraft_phrased {withClause rest : Draft} {ss : List Draft} {source : Option Draft}
    (hw : withClause.Phrased d P .clean .clean) (hss : ∀ x ∈ ss, x.Phrased d P .clean .any)
    (hsource : ∀ x ∈ source, x.Phrased d P .clean .any) (hr : rest.Phrased d P .any .any) :
    (deleteDraft withClause ss source rest).Phrased d P .clean .any := by
  have delete : ∀ x : Draft, x.Phrased d P .clean .any →
      (withClause ++ Draft.text "DELETE FROM " ++ x ++ rest).Phrased d P .clean .any :=
    fun x hx => ((hw.append (.text (b := .clean) (by decide))).append hx).append hr
  cases ss with
  | cons x xs => exact delete x (hss x (by simp))
  | nil =>
    cases source with
    | none => exact .fail _ _ _
    | some x => exact delete x (hsource x rfl)

/-! ## Statements -/

mutual

theorem Expr.phrased_draft : (e : Expr) → e.Verbatim P → e.draft.Phrased d P .clean .any
  | .column c, _ => by
    simp only [Expr.draft]
    exact (Phrased.ofPhrase c.phrase_text).part
  | .raw sql, h => by
    simp only [Expr.Verbatim] at h
    simp only [Expr.draft]
    exact .verbatim h
  | .value v, _ => by
    simp only [Expr.draft]
    exact v.phrased_draft.part
  | .call f, h => by
    simp only [Expr.Verbatim] at h
    simp only [Expr.draft]
    exact Call.phrased_draft f h
  | .window w, h => by
    simp only [Expr.Verbatim] at h
    simp only [Expr.draft]
    exact WindowCall.phrased_draft w h
  | .condition c, h => by
    simp only [Expr.Verbatim] at h
    simp only [Expr.draft]
    exact Condition.phrased_draft c h
  | .subquery s, h => by
    simp only [Expr.Verbatim] at h
    simp only [Expr.draft]
    exact (Phrased.paren (Statement.phrased_draft s h)).part
  | .named e a, h => by
    simp only [Expr.Verbatim] at h
    simp only [Expr.draft]
    have name : (Draft.text (" AS " ++ a)).Phrased d P .any .any :=
      phrased_text_append (m := .clean) (.text (by decide)) (.verbatim a h.2)
    exact (Expr.phrased_draft e h.1).append name

theorem Expr.phrased_drafts : (es : List Expr) → Expr.Verbatims P es →
    ∀ x ∈ Expr.drafts es, x.Phrased d P .clean .any
  | [], _ => by
    intro x hx
    simp [Expr.drafts] at hx
  | e :: es, h => by
    simp only [Expr.Verbatims] at h
    intro x hx
    simp only [Expr.drafts, List.mem_cons] at hx
    rcases hx with rfl | hx
    · exact Expr.phrased_draft e h.1
    · exact Expr.phrased_drafts es h.2 x hx

theorem Operand.phrased_draft : (o : Operand) → o.Verbatim P → o.draft.Phrased d P .clean .any
  | .value v, _ => by
    simp only [Operand.draft]
    exact v.phrased_draft.part
  | .column c, _ => by
    simp only [Operand.draft]
    exact (Phrased.ofPhrase c.phrase_text).part
  | .expr e, h => by
    simp only [Operand.Verbatim] at h
    simp only [Operand.draft]
    exact Expr.phrased_draft e h

theorem Operand.phrased_argument : (o : Operand) → o.Verbatim P →
    o.argument.Phrased d P .clean .any
  | .value v, _ => by
    simp only [Operand.argument]
    exact v.phrased_argument.part
  | .column c, _ => by
    simp only [Operand.argument]
    exact (Phrased.ofPhrase c.phrase_text).part
  | .expr e, h => by
    simp only [Operand.Verbatim] at h
    simp only [Operand.argument]
    exact Expr.phrased_draft e h

theorem Operand.phrased_arguments : (os : List Operand) → Operand.Verbatims P os →
    ∀ x ∈ Operand.arguments os, x.Phrased d P .clean .any
  | [], _ => by
    intro x hx
    simp [Operand.arguments] at hx
  | o :: os, h => by
    simp only [Operand.Verbatims] at h
    intro x hx
    simp only [Operand.arguments, List.mem_cons] at hx
    rcases hx with rfl | hx
    · exact Operand.phrased_argument o h.1
    · exact Operand.phrased_arguments os h.2 x hx

theorem Call.phrased_draft : (f : Call) → f.Verbatim P → f.draft.Phrased d P .clean .any
  | ⟨name, args, a⟩, h => by
    simp only [Call.Verbatim] at h
    obtain ⟨hname, hargs, ha⟩ := h
    simp only [Call.draft]
    have list := Phrased.join comma_phrased (Operand.phrased_arguments args hargs)
    exact ((FunctionName.phrased_draft hname).append (Phrased.paren list).ends).append
      (aliasDraft_phrased ha)

theorem OrderItem.phrased_draft : (o : OrderItem) → o.Verbatim P →
    o.draft.Phrased d P .clean .any
  | ⟨e, direction⟩, h => by
    simp only [OrderItem.Verbatim] at h
    simp only [OrderItem.draft]
    have hdirection : (Draft.text (" " ++ direction.sql)).Phrased d P .any .word := by
      cases direction
      · exact .text (by decide)
      · exact .text (by decide)
    exact (Expr.phrased_draft e h).append hdirection.ends

theorem OrderItem.phrased_drafts : (os : List OrderItem) → OrderItem.Verbatims P os →
    ∀ x ∈ OrderItem.drafts os, x.Phrased d P .clean .any
  | [], _ => by
    intro x hx
    simp [OrderItem.drafts] at hx
  | o :: os, h => by
    simp only [OrderItem.Verbatims] at h
    intro x hx
    simp only [OrderItem.drafts, List.mem_cons] at hx
    rcases hx with rfl | hx
    · exact OrderItem.phrased_draft o h.1
    · exact OrderItem.phrased_drafts os h.2 x hx

theorem WindowSpec.phrased_draft : (s : WindowSpec) → s.Verbatim P →
    s.draft.Phrased d P .clean .any
  | ⟨partitionBy, orderBy, frame⟩, h => by
    simp only [WindowSpec.Verbatim] at h
    obtain ⟨hpartition, horder, hframe⟩ := h
    simp only [WindowSpec.draft]
    exact windowDraft_phrased (Expr.phrased_drafts partitionBy hpartition)
      (OrderItem.phrased_drafts orderBy horder) hframe

theorem Over.phrased_draft : (o : Over) → o.Verbatim P → o.draft.Phrased d P .any .any
  | .named name, h => by
    simp only [Over.Verbatim] at h
    simp only [Over.draft]
    exact phrased_text_append (m := .clean) (.text (by decide)) (.verbatim name h)
  | .spec s, h => by
    simp only [Over.Verbatim] at h
    simp only [Over.draft]
    have heading : (Draft.text " OVER ").Phrased d P .any .clean := .text (by decide)
    exact (heading.append (.behind (.paren (WindowSpec.phrased_draft s h)))).ends

theorem Over.phrased_getD : (o : Option Over) → Over.Verbatim? P o →
    ((Over.draft? o).getD .empty).Phrased d P .any .any
  | none, _ => by
    simp only [Over.draft?]
    exact .empty _
  | some o, h => by
    simp only [Over.Verbatim?] at h
    simp only [Over.draft?]
    exact Over.phrased_draft o h

theorem WindowCall.phrased_draft : (w : WindowCall) → w.Verbatim P →
    w.draft.Phrased d P .clean .any
  | ⟨name, args, distinct, filter, window, a⟩, h => by
    simp only [WindowCall.Verbatim] at h
    obtain ⟨hname, hargs, hfilter, hwindow, ha⟩ := h
    simp only [WindowCall.draft]
    have hdistinct : (Draft.text (if distinct then "DISTINCT " else "")).Phrased d P .clean .clean := by
      cases distinct
      · exact .text (by decide)
      · exact .text (by decide)
    have list := hdistinct.append (.join comma_phrased (Expr.phrased_drafts args hargs))
    have call := (Phrased.verbatim hname).append (Phrased.paren list).ends
    have filterClause := filterDraft_phrased (Condition.phrased_draft? filter hfilter)
    exact ((call.append filterClause).append (Over.phrased_getD window hwindow)).append
      (aliasDraft_phrased ha)

theorem Condition.phrased_draft : (c : Condition) → c.Verbatim P →
    c.draft.Phrased d P .clean .any
  | .compare left op right, h => by
    simp only [Condition.Verbatim] at h
    simp only [Condition.draft]
    have hop : Phrase d P .clean .clean (Template.ofText (left.text ++ " " ++ op.sql ++ " ")) := by
      have sign : Phrase d P .clean .clean (Template.ofText (op.sql ++ " ")) := by
        cases op <;> exact .text (by decide)
      have column : Phrase d P .any .clean (Template.ofText (left.text ++ " ")) := by
        rw [Template.ofText_append]
        exact .seq left.phrase_text (.text (b := .clean) (by decide))
      have split : left.text ++ " " ++ op.sql ++ " " = left.text ++ " " ++ (op.sql ++ " ") :=
        String.append_assoc
      rw [split, Template.ofText_append]
      exact .seq (.behind column) sign
    exact (Phrased.ofPhrase hop).append (Operand.phrased_draft right h)
  | .null c negated, _ => by
    simp only [Condition.draft]
    refine (phrased_text_append (b := .word) c.phrase_text ?_).part
    cases negated
    · exact .text (by decide)
    · exact .text (by decide)
  | .connect a op b, h => by
    simp only [Condition.Verbatim] at h
    simp only [Condition.draft]
    have hop : (Draft.text (" " ++ op.sql ++ " ")).Phrased d P .clean .clean := by
      cases op
      · exact .text (by decide)
      · exact .text (by decide)
    have left := (Phrased.paren (Condition.phrased_draft a h.1)).append hop
    exact (left.append (.behind (.paren (Condition.phrased_draft b h.2)))).part
  | .inList c negated values, _ => by
    simp only [Condition.draft]
    exact memberDraft_phrased c negated values
  | .inQuery c negated q, h => by
    simp only [Condition.Verbatim] at h
    simp only [Condition.draft]
    have heading : (Draft.text (c.text ++ if negated then " NOT IN " else " IN ")).Phrased d P
        .clean .clean := by
      refine phrased_text_append (.behind c.phrase_text) ?_
      cases negated
      · exact .text (by decide)
      · exact .text (by decide)
    exact (heading.append (.behind (.paren (Statement.phrased_draft q h)))).part
  | .between c lower upper, _ => by
    simp only [Condition.draft]
    have heading : (Draft.text (c.text ++ " BETWEEN ")).Phrased d P .clean .clean :=
      phrased_text_append (.behind c.phrase_text) (.text (a := .clean) (by decide))
    have conjunction : (Draft.text " AND ").Phrased d P .word .clean := .text (by decide)
    exact (((heading.append (.bound lower)).append conjunction).append (.bound upper)).part
  | .negation c, h => by
    simp only [Condition.Verbatim] at h
    simp only [Condition.draft]
    have heading : (Draft.text "NOT ").Phrased d P .clean .clean := .text (by decide)
    exact (heading.append (.behind (.paren (Condition.phrased_draft c h)))).part
  | .raw sql, h => by
    simp only [Condition.Verbatim] at h
    simp only [Condition.draft]
    exact .verbatim h

theorem Condition.phrased_drafts : (cs : List Condition) → Condition.Verbatims P cs →
    ∀ x ∈ Condition.drafts cs, x.Phrased d P .clean .any
  | [], _ => by
    intro x hx
    simp [Condition.drafts] at hx
  | c :: cs, h => by
    simp only [Condition.Verbatims] at h
    intro x hx
    simp only [Condition.drafts, List.mem_cons] at hx
    rcases hx with rfl | hx
    · exact Condition.phrased_draft c h.1
    · exact Condition.phrased_drafts cs h.2 x hx

theorem Condition.phrased_draft? : (o : Option Condition) → Condition.Verbatim? P o →
    ∀ x ∈ Condition.draft? o, x.Phrased d P .clean .any
  | none, _ => by
    intro x hx
    simp [Condition.draft?] at hx
  | some c, h => by
    simp only [Condition.Verbatim?] at h
    intro x hx
    simp only [Condition.draft?, Option.mem_def, Option.some.injEq] at hx
    subst hx
    exact Condition.phrased_draft c h

theorem Source.phrased_draft : (s : Source) → s.Verbatim P → s.draft.Phrased d P .clean .any
  | .table t, _ => by
    simp only [Source.draft]
    exact (Phrased.ofPhrase t.phrase_text).part
  | .subquery q a, h => by
    simp only [Source.Verbatim] at h
    simp only [Source.draft]
    have query := (Phrased.paren (Statement.phrased_draft q h)).ends
    exact (query.append (sourceAliasDraft_phrased a)).part
  | .raw sql, h => by
    simp only [Source.Verbatim] at h
    simp only [Source.draft]
    exact .verbatim h

theorem Source.phrased_drafts : (ss : List Source) → Source.Verbatims P ss →
    ∀ x ∈ Source.drafts ss, x.Phrased d P .clean .any
  | [], _ => by
    intro x hx
    simp [Source.drafts] at hx
  | s :: ss, h => by
    simp only [Source.Verbatims] at h
    intro x hx
    simp only [Source.drafts, List.mem_cons] at hx
    rcases hx with rfl | hx
    · exact Source.phrased_draft s h.1
    · exact Source.phrased_drafts ss h.2 x hx

theorem Source.phrased_draft? : (o : Option Source) → Source.Verbatim? P o →
    ∀ x ∈ Source.draft? o, x.Phrased d P .clean .any
  | none, _ => by
    intro x hx
    simp [Source.draft?] at hx
  | some s, h => by
    simp only [Source.Verbatim?] at h
    intro x hx
    simp only [Source.draft?, Option.mem_def, Option.some.injEq] at hx
    subst hx
    exact Source.phrased_draft s h

theorem Join.phrased_draft : (j : Join) → j.Verbatim P → j.draft.Phrased d P .clean .any
  | ⟨kind, source, on⟩, h => by
    simp only [Join.Verbatim] at h
    simp only [Join.draft]
    have hkind : (Draft.text (kind.sql ++ " ")).Phrased d P .clean .clean := by
      cases kind <;> exact .text (by decide)
    exact (hkind.append (Source.phrased_draft source h.1)).append
      (onDraft_phrased (Condition.phrased_draft? on h.2))

theorem Join.phrased_drafts : (js : List Join) → Join.Verbatims P js →
    (Join.drafts js).Phrased d P .any .any
  | [], _ => by
    simp only [Join.drafts]
    exact .empty _
  | j :: js, h => by
    simp only [Join.Verbatims] at h
    simp only [Join.drafts]
    have blank : (Draft.text " ").Phrased d P .any .clean := .text (by decide)
    exact (blank.append (Join.phrased_draft j h.1)).append (Join.phrased_drafts js h.2)

theorem CteBody.phrased_draft : (b : CteBody) → b.Verbatim P → b.draft.Phrased d P .clean .any
  | .query q, h => by
    simp only [CteBody.Verbatim] at h
    simp only [CteBody.draft]
    exact Statement.phrased_draft q h
  | .raw sql, h => by
    simp only [CteBody.Verbatim] at h
    simp only [CteBody.draft]
    exact .verbatim h

theorem Cte.phrased_draft : (c : Cte) → c.Verbatim P → c.draft.Phrased d P .clean .any
  | ⟨name, body⟩, h => by
    simp only [Cte.Verbatim] at h
    simp only [Cte.draft]
    have heading : (Draft.text (name ++ " AS ")).Phrased d P .clean .clean :=
      phrased_text_append (.verbatim name h.1) (.text (by decide))
    exact (heading.append (.behind (.paren (CteBody.phrased_draft body h.2)))).part

theorem Cte.phrased_drafts : (cs : List Cte) → Cte.Verbatims P cs →
    ∀ x ∈ Cte.drafts cs, x.Phrased d P .clean .any
  | [], _ => by
    intro x hx
    simp [Cte.drafts] at hx
  | c :: cs, h => by
    simp only [Cte.Verbatims] at h
    intro x hx
    simp only [Cte.drafts, List.mem_cons] at hx
    rcases hx with rfl | hx
    · exact Cte.phrased_draft c h.1
    · exact Cte.phrased_drafts cs h.2 x hx

theorem Assignment.phrased_draft : (a : Assignment) → a.Verbatim P →
    a.draft.Phrased d P .clean .any
  | .set column value, h => by
    simp only [Assignment.Verbatim] at h
    simp only [Assignment.draft]
    have heading : (Draft.text (quoteIdent column ++ " = ")).Phrased d P .clean .clean :=
      phrased_text_append (.behind (.ident column)) (.text (a := .clean) (by decide))
    exact heading.append (Operand.phrased_draft value h)
  | .raw sql, h => by
    simp only [Assignment.Verbatim] at h
    simp only [Assignment.draft]
    exact .verbatim h

theorem Assignment.phrased_drafts : (as : List Assignment) → Assignment.Verbatims P as →
    ∀ x ∈ Assignment.drafts as, x.Phrased d P .clean .any
  | [], _ => by
    intro x hx
    simp [Assignment.drafts] at hx
  | a :: as, h => by
    simp only [Assignment.Verbatims] at h
    intro x hx
    simp only [Assignment.drafts, List.mem_cons] at hx
    rcases hx with rfl | hx
    · exact Assignment.phrased_draft a h.1
    · exact Assignment.phrased_drafts as h.2 x hx

theorem WindowDef.phrased_draft : (w : WindowDef) → w.Verbatim P →
    w.draft.Phrased d P .clean .any
  | ⟨name, spec⟩, h => by
    simp only [WindowDef.Verbatim] at h
    simp only [WindowDef.draft]
    have heading : (Draft.text (name ++ " AS ")).Phrased d P .clean .clean :=
      phrased_text_append (.verbatim name h.1) (.text (by decide))
    exact (heading.append (.behind (.paren (WindowSpec.phrased_draft spec h.2)))).part

theorem WindowDef.phrased_drafts : (ws : List WindowDef) → WindowDef.Verbatims P ws →
    ∀ x ∈ WindowDef.drafts ws, x.Phrased d P .clean .any
  | [], _ => by
    intro x hx
    simp [WindowDef.drafts] at hx
  | w :: ws, h => by
    simp only [WindowDef.Verbatims] at h
    intro x hx
    simp only [WindowDef.drafts, List.mem_cons] at hx
    rcases hx with rfl | hx
    · exact WindowDef.phrased_draft w h.1
    · exact WindowDef.phrased_drafts ws h.2 x hx

theorem Statement.phrased_draft : (s : Statement) → s.Verbatim P →
    s.draft.Phrased d P .clean .any
  | ⟨kind, selects, distinct, sources, joins, wheres, groups, orders, limit, offset, returning, ctes,
      insertTable, insertColumns, insertRows, insertQuery, updateTable, updates, deleteSource,
      windows, onConflict⟩, h => by
    simp only [Statement.Verbatim] at h
    obtain ⟨hselects, hsources, hjoins, hwheres, hgroups, horders, hreturning, hctes, hquery,
      hupdates, hdelete, hwindows, hconflict⟩ := h
    have withClause := withDraft_phrased (Cte.phrased_drafts ctes hctes)
    have sourceList := Source.phrased_drafts sources hsources
    have whereClause : (whereDraft (Condition.drafts wheres)).Phrased d P .any .any :=
      .clause (.text (by decide)) (.text (by decide)) (Condition.phrased_drafts wheres hwheres)
    have returningClause := returningDraft_phrased (d := d) hreturning
    cases kind with
    | begin =>
      rw [Statement.draft_begin rfl]
      exact (Phrased.text (a := .clean) (b := .word) (by decide)).part
    | commit =>
      rw [Statement.draft_commit rfl]
      exact (Phrased.text (a := .clean) (b := .clean) (by decide)).part
    | rollback =>
      rw [Statement.draft_rollback rfl]
      exact (Phrased.text (a := .clean) (b := .clean) (by decide)).part
    | select =>
      have head : (Draft.text (if distinct then "SELECT DISTINCT " else "SELECT ")).Phrased d P
          .clean .clean := by
        cases distinct
        · exact .text (by decide)
        · exact .text (by decide)
      have selectList := selectListDraft_phrased (Expr.phrased_drafts selects hselects)
      have groupList := Expr.phrased_drafts groups hgroups
      have windowList := WindowDef.phrased_drafts windows hwindows
      have orderList := OrderItem.phrased_drafts orders horders
      rw [Statement.draft_select rfl]
      refine .append (.append (.append ?_ (countDraft_phrased (by decide) limit))
        (countDraft_phrased (by decide) offset)) returningClause
      refine .append (.append (.append ?_ (.clause (.text (by decide)) comma_phrased groupList))
        (.clause (.text (by decide)) comma_phrased windowList))
        (.clause (.text (by decide)) comma_phrased orderList)
      refine .append (.append (.append ?_ (.clause (.text (by decide)) comma_phrased sourceList))
        (Join.phrased_drafts joins hjoins)) whereClause
      exact .append (.append withClause head) selectList
    | insert =>
      rw [Statement.draft_insert rfl]
      have inserted := insertedDraft_phrased insertRows
        (Statement.phrased_draft? insertQuery hquery)
      exact insertDraft_phrased insertTable insertColumns withClause
        ((inserted.append (conflictDraft_phrased hconflict)).append returningClause)
    | update =>
      rw [Statement.draft_update rfl]
      exact updateDraft_phrased updateTable withClause (Assignment.phrased_drafts updates hupdates)
        (whereClause.append returningClause)
    | delete =>
      rw [Statement.draft_delete rfl]
      exact deleteDraft_phrased withClause sourceList (Source.phrased_draft? deleteSource hdelete)
        (whereClause.append returningClause)

theorem Statement.phrased_draft? : (o : Option Statement) → Statement.Verbatim? P o →
    ∀ x ∈ Statement.draft? o, x.Phrased d P .clean .any
  | none, _ => by
    intro x hx
    simp [Statement.draft?] at hx
  | some s, h => by
    simp only [Statement.Verbatim?] at h
    intro x hx
    simp only [Statement.draft?, Option.mem_def, Option.some.injEq] at hx
    subst hx
    exact Statement.phrased_draft s h

end

/-- The statements of a script, one behind the other. -/
theorem Script.phrased_draft {s : Script} (h : s.Verbatim P) :
    s.draft.Phrased d P .clean .any := by
  obtain ⟨hchain, hlast⟩ := h
  refine .join (.text (by decide)) ?_
  intro x hx
  rcases List.mem_append.mp hx with hx | hx
  · obtain ⟨c, hc, rfl⟩ := List.mem_map.mp hx
    exact Statement.phrased_draft c.last (hchain c hc)
  · obtain rfl := List.mem_singleton.mp hx
    exact Statement.phrased_draft s.last hlast

end SqlKit
