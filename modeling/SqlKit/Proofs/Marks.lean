import SqlKit.Mysql.Placeholders
import SqlKit.Proofs.Phrased
import SqlKit.Proofs.Writing

/-!
# Question marks for placeholders

The protocol of MySQL wants question marks where the compiler wrote `%s`.  Characters are replaced
without knowing where the statement came from, so it has to be shown that whatever the compiler writes
ends every quotation it opens.  The only texts it cannot vouch for are the verbatim ones.

    markChars none (quote q e s ++ r) = quote q e s ++ markChars none r       (markChars_quote)
    withMarks of a compiled script has one question mark per parameter        (withMarks_compile)
-/

namespace SqlKit.Mysql

/-! ## Tokens -/

theorem markChars_cons {c : Char} (hq : isQuote c = false) (hp : c ≠ '%') (r : List Char) :
    markChars none (c :: r) = c :: markChars none r := by
  rw [markChars, if_neg (by simp [hq])]
  intro cs hc
  exact absurd hc hp

theorem markChars_open {q : Char} (hq : isQuote q = true) (r : List Char) :
    markChars none (q :: r) = q :: markChars (some q) r := by
  rw [markChars, if_pos hq]
  rintro cs rfl
  contradiction

/-- What stands between quotes stays as it is, and the last quote closes the token. -/
theorem markChars_body {q : Char} (hq : isQuote q = true) (escapes : Bool) (s r : List Char) :
    markChars (some q) (Text.Quoted.body q escapes s ++ q :: r) =
      Text.Quoted.body q escapes s ++ q :: markChars none r := by
  induction s with
  | nil => simp [Text.Quoted.body, markChars]
  | cons c s ih =>
    have hb : Text.Quoted.body q escapes (c :: s) =
        Text.Quoted.double q escapes c ++ Text.Quoted.body q escapes s := rfl
    rw [hb, List.append_assoc]
    by_cases hc : c = q
    · -- a doubled quote closes the token and opens it again
      subst hc
      have hd : Text.Quoted.double c escapes c = [c, c] := by simp [Text.Quoted.double]
      rw [hd, List.cons_append, List.cons_append, List.nil_append, markChars, if_pos rfl,
        markChars_open hq, ih]
      rfl
    · by_cases he : escapes = true ∧ c = '\\'
      · have hd : Text.Quoted.double q escapes c = [c, c] := by simp [Text.Quoted.double, he]
        rw [hd, List.cons_append, List.cons_append, List.nil_append, markChars, if_neg hc, markChars,
          if_neg hc, ih]
        rfl
      · have hd : Text.Quoted.double q escapes c = [c] := by simp [Text.Quoted.double, hc, he]
        rw [hd, List.cons_append, List.nil_append, markChars, if_neg hc, ih]
        rfl

theorem markChars_quote {q : Char} (hq : isQuote q = true) (escapes : Bool) (s r : List Char) :
    markChars none (Text.Quoted.quote q escapes s ++ r) =
      Text.Quoted.quote q escapes s ++ markChars none r := by
  have h := markChars_body hq escapes s r
  simp only [Text.Quoted.quote, List.cons_append, List.append_assoc, List.nil_append] at h ⊢
  rw [markChars_open hq, h]

/-! ## Verbatim texts -/

/-- A text without quotes and without a placeholder. -/
def IsUnmarked (s : String) : Prop :=
  (∀ c ∈ s.toList, isQuote c = false) ∧ ¬ ['%', 's'] <:+: s.toList

/-- A text without quotes and placeholders stays as it is, unless what follows makes a placeholder of
its last character. -/
theorem markChars_append_of_unmarked {cs : List Char} (hq : ∀ c ∈ cs, isQuote c = false)
    (hp : ¬ ['%', 's'] <:+: cs) {r : List Char} (hr : r.head? ≠ some 's') :
    markChars none (cs ++ r) = cs ++ markChars none r := by
  induction cs with
  | nil => rfl
  | cons c cs ih =>
    have ih' := ih (fun b hb => hq b (by simp [hb])) fun h => hp (h.trans (List.suffix_cons c cs).isInfix)
    have hc := hq c (by simp)
    by_cases hpc : c = '%'
    · subst hpc
      have hnext : (cs ++ r).head? ≠ some 's' := by
        cases cs with
        | nil => exact hr
        | cons b bs =>
          intro hb
          obtain rfl : b = 's' := by simpa using hb
          exact hp ⟨[], bs, rfl⟩
      rw [List.cons_append, List.cons_append, ← ih', markChars]
      · rw [hc, if_neg (by decide)]
      · intro ds _ hds
        exact hnext (by rw [hds]; rfl)
    · rw [List.cons_append, List.cons_append, markChars_cons hc hpc, ih']

/-! ## Phrases -/

/-- The text `r` may follow a text that ends as the edge says: behind a verbatim text, which may end
in a percent sign, no letter follows. -/
def Edge.Allows (e : Edge) (r : List Char) : Prop := e = .any → r.head? ≠ some 's'

theorem Edge.Allows.mono {a b : Edge} (h : a.rank ≤ b.rank) {r : List Char} (hr : Allows b r) :
    Allows a r := by
  intro ha
  subst ha
  cases b with
  | any => exact hr rfl
  | clean => exact absurd h (by decide)
  | word => exact absurd h (by decide)

theorem not_s_of_isSeparator {c : Char} (h : isSeparator c = true) :
    isQuote c = false ∧ c ≠ '%' ∧ c ≠ 's' := by
  simp only [isSeparator, List.mem_cons, List.not_mem_nil, or_false, decide_eq_true_eq] at h
  rcases h with rfl | rfl | rfl | rfl | rfl | rfl | rfl | rfl <;> decide

theorem not_quote_of_isLetter {c : Char} (h : isLetter c = true) : isQuote c = false ∧ c ≠ '%' := by
  refine ⟨?_, ?_⟩
  · cases hq : isQuote c with
    | false => rfl
    | true =>
      simp only [isQuote, Bool.or_eq_true, decide_eq_true_eq] at hq
      rcases hq with (rfl | rfl) | rfl <;> exact absurd h (by decide)
  · rintro rfl
    exact absurd h (by decide)

/-- Placeholders as they are compiled, and as they are sent. -/
abbrev compiled : Piece.Spelling := fun _ _ => "%s"

abbrev sent : Piece.Spelling := fun _ _ => "?"

/-- The holes of a phrase become question marks, and nothing else changes. -/
theorem markChars_phrase {a b : Edge} {t : Template} (h : Phrase .mysql IsUnmarked a b t) :
    ∀ k r, Edge.Allows b r → Edge.Allows a (t.fill compiled k ++ r) ∧
      markChars none (t.fill compiled k ++ r) = t.fill sent k ++ markChars none r := by
  induction h with
  | nil e =>
    intro k r hr
    exact ⟨hr, rfl⟩
  | seq _ _ iht ihu =>
    rename_i t u _ _
    intro k r hr
    obtain ⟨hmiddle, hu⟩ := ihu (k + t.values.length) r hr
    obtain ⟨hfirst, ht⟩ := iht k _ hmiddle
    rw [Template.fill_append, Template.fill_append, List.append_assoc, ht, hu, List.append_assoc]
    exact ⟨hfirst, rfl⟩
  | weaken _ h₁ h₂ ih =>
    intro k r hr
    obtain ⟨hfirst, ht⟩ := ih k r (hr.mono h₂)
    exact ⟨hfirst.mono h₁, ht⟩
  | separator c hc =>
    intro k r _
    obtain ⟨hq, hp, hs⟩ := not_s_of_isSeparator hc
    refine ⟨?_, markChars_cons hq hp r⟩
    intro _ e
    exact hs (Option.some.inj e)
  | letter c hc =>
    intro k r _
    obtain ⟨hq, hp⟩ := not_quote_of_isLetter hc
    exact ⟨fun e => by contradiction, markChars_cons hq hp r⟩
  | minus c hc =>
    intro k r _
    have hcq : isQuote c = false ∧ c ≠ '%' := by
      rcases hc with hc | hc
      · exact not_quote_of_isLetter hc
      · exact ⟨(not_s_of_isSeparator hc).1, (not_s_of_isSeparator hc).2.1⟩
    refine ⟨fun e => by contradiction, ?_⟩
    show markChars none ('-' :: c :: r) = '-' :: c :: markChars none r
    rw [markChars_cons (by decide) (by decide), markChars_cons hcq.1 hcq.2]
  | star =>
    intro k r _
    exact ⟨fun e => by contradiction, markChars_cons (by decide) (by decide) r⟩
  | verbatim s hs =>
    intro k r hr
    rw [Template.fill_ofText, Template.fill_ofText]
    refine ⟨fun e => by contradiction, ?_⟩
    exact markChars_append_of_unmarked hs.1 hs.2 (hr rfl)
  | ident s =>
    intro k r _
    rw [Template.fill_ofText, Template.fill_ofText, quoteIdent, String.toList_ofList]
    refine ⟨fun _ e => ?_, markChars_quote (by decide) _ _ r⟩
    simp [Text.Quoted.quote] at e
  | literal s =>
    intro k r _
    rw [Template.fill_ofText, Template.fill_ofText, Dialect.quoteLiteral, String.toList_ofList]
    refine ⟨fun _ e => ?_, markChars_quote (by decide) _ _ r⟩
    simp [Text.Quoted.quote] at e
  | hole v =>
    intro k r _
    refine ⟨fun e => by contradiction, ?_⟩
    have hf : Template.fill compiled k [.hole v] = ['%', 's'] := by simp [Template.fill, compiled]
    have hs : Template.fill sent k [.hole v] = ['?'] := by simp [Template.fill, sent]
    rw [hf, hs, List.cons_append, List.cons_append, List.nil_append, markChars]
    rfl
  | paren _ ih =>
    rename_i t _
    intro k r _
    have hclose : Edge.Allows .any (')' :: r) := by
      intro _ e
      simp at e
    obtain ⟨-, ht⟩ := ih k (')' :: r) hclose
    refine ⟨fun _ e => by simp [Template.fill] at e, ?_⟩
    have hf : ∀ f : Piece.Spelling, Template.fill f k (.char '(' :: (t ++ [.char ')'])) ++ r =
        '(' :: (Template.fill f k t ++ ')' :: r) := by
      intro f
      simp [Template.fill, Template.fill_append]
    have hs : Template.fill sent k (.char '(' :: (t ++ [.char ')'])) =
        '(' :: (Template.fill sent k t ++ [')']) := by
      simp [Template.fill, Template.fill_append]
    rw [hf, hs, markChars_cons (by decide) (by decide), ht, markChars_cons (by decide) (by decide)]
    simp

/-! ## Scripts -/

/-- **One question mark per parameter.**  If the verbatim texts of a script have no quotes and no
placeholders of their own, what is sent is what was compiled with a question mark for each
placeholder, whatever its names, literals and values contain. -/
theorem withMarks_compile {s : Script} (hs : s.Verbatim IsUnmarked) {q : Compiled}
    (hq : s.compile .mysql = .ok q) :
    (s.draft.texts .mysql).length = q.params.length + 1 ∧
      q.sql = weave (s.draft.texts .mysql) (List.replicate q.params.length "%s") ∧
      withMarks q.sql = weave (s.draft.texts .mysql) (List.replicate q.params.length "?") := by
  have hplaceholder : (s.draft.params.mapIdx fun i v =>
      (Compiler.binding .mysql).spelling (i + 1) v) = List.replicate s.draft.params.length "%s" :=
    List.ext_getElem (by simp) (by simp [Compiler.spelling_binding, Dialect.placeholder])
  have hc := Compiler.compile_fst (Compiler.binding .mysql) s
  rw [hplaceholder, ← Script.compile, hq] at hc
  cases hf : s.draft.fault with
  | some m =>
    rw [hf] at hc
    contradiction
  | none =>
    rw [hf] at hc
    have hq' : q = ⟨weave (s.draft.texts .mysql) (List.replicate s.draft.params.length "%s"),
        s.draft.params⟩ := Except.ok.inj hc
    have woven : ∀ x : String,
        String.ofList (Template.fill (fun _ _ => x) 1 (s.draft.template .mysql)) =
          weave (s.draft.texts .mysql) (List.replicate s.draft.params.length x) := by
      intro x
      have hvalues := Draft.values_template .mysql s.draft
      have hx : (s.draft.params.mapIdx fun _ _ => x) = List.replicate s.draft.params.length x :=
        List.ext_getElem (by simp) (by simp)
      rw [Template.ofList_fill, hvalues, hx]
      rfl
    obtain ⟨-, hmarks⟩ := markChars_phrase (Script.phrased_draft hs hf) 1 [] (fun _ => by simp)
    simp only [List.append_nil, markChars] at hmarks
    subst hq'
    refine ⟨Draft.length_texts .mysql s.draft, rfl, ?_⟩
    show withMarks (weave _ (List.replicate s.draft.params.length "%s")) =
      weave _ (List.replicate s.draft.params.length "?")
    rw [← woven "%s", ← woven "?", withMarks, String.toList_ofList, hmarks]

/-- Quotes, backslashes and placeholders inside the tokens, and one parameter behind them. -/
theorem withMarks_compile_quoted :
    let s : Script := .ofStatement
      { selects := [.call (.of "F" [.value (.string "it's \\ %s")])],
        sources := [.table (.named "a\"%s")],
        wheres := [.compare (.named "x%s'") .eq (.value (.int 1))] }
    let q : Compiled :=
      ⟨"SELECT F('it''s \\\\ %s') FROM \"a\"\"%s\" WHERE \"x%s'\" = %s", [.int 1]⟩
    s.Verbatim IsUnmarked ∧ s.compile .mysql = .ok q ∧
      (s.draft.texts .mysql).length = 2 ∧ q.sql = weave (s.draft.texts .mysql) ["%s"] ∧
      withMarks q.sql = weave (s.draft.texts .mysql) ["?"] := by
  intro s q
  have hs : s.Verbatim IsUnmarked := by
    have hF : IsUnmarked "F" := by
      refine ⟨?_, ?_⟩
      · intro c hc
        obtain rfl : c = 'F' := by simpa using hc
        rfl
      · intro h
        exact absurd h.length_le (by decide)
    simp [s, Script.ofStatement, Script.Verbatim, Statement.Verbatim, Expr.Verbatims, Expr.Verbatim,
      Call.of, Call.Verbatim, FunctionName.Verbatim, Operand.Verbatims, Operand.Verbatim,
      Source.Verbatims, Source.Verbatim, Join.Verbatims, Condition.Verbatims, Condition.Verbatim,
      OrderItem.Verbatims, Cte.Verbatims, Statement.Verbatim?, Assignment.Verbatims,
      Source.Verbatim?, WindowDef.Verbatims, hF]
  have hq : s.compile .mysql = .ok q := by rfl
  exact ⟨hs, hq, withMarks_compile hs hq⟩

end SqlKit.Mysql
