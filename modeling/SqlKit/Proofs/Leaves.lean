import Mathlib.Tactic.SplitIfs
import SqlKit.Proofs.Conditions

/-!
# The text of a predicate

The reader loses no character: the tokens of a text are the text, and so are its lumps.  It leaves out
blanks around a predicate and parentheses around a formula, so a text that reads as one predicate is
that predicate, provided that it has neither at its ends.

    lex? d cs = some ts → ts.flatMap chars = cs                        (Lexer.keeps_lex?)
    Nests ts ls → ls.flatMap chars = ts.flatMap chars                  (Chain.chars_nests)
    a text that reads as one leaf is that leaf                         (leaf_eq_text)
    c.IsLeaf → the text of c reads as one leaf, which is that text     (Condition.IsLeaf.reads)
-/

namespace SqlKit

/-! ## Characters of tokens -/

namespace Lexer

variable {d : Dialect}

/-- What has been read of a token that has not ended. -/
def State.chars : State → List Char
  | gap => []
  | word cs => cs
  | minus => ['-']
  | slash => ['/']
  | quoted q cs => q :: cs
  | escaped q cs => q :: (cs ++ ['\\'])

theorem State.chars_pending {s : State} (h : s.isOpen = false) :
    s.pending.flatMap Token.chars = s.chars := by
  cases s <;> first | contradiction | simp [pending, chars, Token.chars]

/-- One character is read: it ends tokens, and what is behind them is still to be ended; a token for a
blank is one. -/
structure Keeps (before after : List Char) (ts : List Token) : Prop where
  chars : ts.flatMap Token.chars ++ after = before
  blanks : ∀ c, Token.blank c ∈ ts → isBlank c = true

theorem keeps_start {c : Char} {ts : List Token} {s : State} (h : start d c = some (ts, s)) :
    Keeps [c] s.chars ts := by
  unfold start at h
  split_ifs at h with hword hquote hblank hopen hclose hminus hslash
  all_goals obtain ⟨rfl, rfl⟩ := Prod.mk.inj (Option.some.inj h)
  · exact ⟨rfl, by simp⟩
  · exact ⟨rfl, by simp⟩
  · exact ⟨rfl, by simpa using hblank⟩
  · exact ⟨by simp [hopen, Token.chars, State.chars], by simp⟩
  · exact ⟨by simp [hclose, Token.chars, State.chars], by simp⟩
  · exact ⟨by simp [hminus, State.chars], by simp⟩
  · exact ⟨by simp [hslash, State.chars], by simp⟩
  · exact ⟨rfl, by simp⟩

theorem State.blank_not_mem_pending (s : State) (c : Char) : Token.blank c ∉ s.pending := by
  cases s <;> simp [pending]

theorem keeps_next {s s' : State} (hs : s.isOpen = false) {c : Char} {ts : List Token}
    (h : next d s c = some (ts, s')) : Keeps (s.chars ++ [c]) s'.chars ts := by
  obtain ⟨⟨us, s''⟩, hstart, hp⟩ := Option.map_eq_some_iff.mp h
  obtain ⟨rfl, rfl⟩ := Prod.mk.inj hp
  obtain ⟨hchars, hblanks⟩ := keeps_start hstart
  refine ⟨?_, ?_⟩
  · rw [List.flatMap_append, State.chars_pending hs, List.append_assoc, hchars]
  · intro b hb
    rcases List.mem_append.mp hb with hb | hb
    · exact absurd hb (s.blank_not_mem_pending b)
    · exact hblanks b hb

theorem keeps_step {s s' : State} {c : Char} {ts : List Token} (h : step d s c = some (ts, s')) :
    Keeps (s.chars ++ [c]) s'.chars ts := by
  cases s with
  | gap => exact keeps_start h
  | word cs =>
    rw [step] at h
    split at h
    · obtain ⟨rfl, rfl⟩ := Prod.mk.inj (Option.some.inj h)
      exact ⟨rfl, by simp⟩
    · exact keeps_next rfl h
  | minus =>
    rw [step] at h
    split at h
    · contradiction
    · exact keeps_next rfl h
  | slash =>
    rw [step] at h
    split at h
    · contradiction
    · exact keeps_next rfl h
  | quoted q cs =>
    rw [step] at h
    split at h
    · next heq =>
      obtain ⟨rfl, rfl⟩ := Prod.mk.inj (Option.some.inj h)
      exact ⟨by simp [heq, Token.chars, State.chars], by simp⟩
    · split at h
      · next heq =>
        obtain ⟨rfl, rfl⟩ := Prod.mk.inj (Option.some.inj h)
        exact ⟨by simp [heq.2.2, State.chars], by simp⟩
      · obtain ⟨rfl, rfl⟩ := Prod.mk.inj (Option.some.inj h)
        exact ⟨rfl, by simp⟩
  | escaped q cs =>
    obtain ⟨rfl, rfl⟩ := Prod.mk.inj (Option.some.inj h)
    exact ⟨by simp [State.chars], by simp⟩

theorem keeps_run {s s' : State} {cs : List Char} {ts : List Token}
    (h : run d s cs = some (ts, s')) : Keeps (s.chars ++ cs) s'.chars ts := by
  induction cs generalizing s ts with
  | nil =>
    obtain ⟨rfl, rfl⟩ := Prod.mk.inj (Option.some.inj h)
    exact ⟨by simp, by simp⟩
  | cons c cs ih =>
    obtain ⟨⟨us, s₁⟩, hstep, h⟩ := Option.bind_eq_some_iff.mp h
    obtain ⟨⟨vs, s₂⟩, hrun, hp⟩ := Option.map_eq_some_iff.mp h
    obtain ⟨rfl, rfl⟩ := Prod.mk.inj hp
    obtain ⟨hchars, hblanks⟩ := keeps_step hstep
    obtain ⟨hchars', hblanks'⟩ := ih hrun
    refine ⟨?_, ?_⟩
    · rw [List.flatMap_append, List.append_assoc, hchars', ← List.append_assoc, hchars]
      simp
    · intro b hb
      rcases List.mem_append.mp hb with hb | hb
      · exact hblanks b hb
      · exact hblanks' b hb

/-- The tokens of a text are the text, and its blanks are blanks. -/
theorem keeps_lex? {cs : List Char} {ts : List Token} (h : lex? d cs = some ts) : Keeps cs [] ts := by
  obtain ⟨us, s, hrun, hopen, rfl⟩ := run_of_lex? h
  obtain ⟨hchars, hblanks⟩ := keeps_run hrun
  refine ⟨?_, ?_⟩
  · rw [List.append_nil, List.flatMap_append, State.chars_pending hopen, hchars]
    rfl
  · intro b hb
    rcases List.mem_append.mp hb with hb | hb
    · exact hblanks b hb
    · exact absurd hb (s.blank_not_mem_pending b)

end Lexer

/-! ## Characters of lumps -/

namespace Chain

/-- What has been read when some parentheses are still open. -/
def openChars : List (List Lump) → List Char
  | [] => []
  | [ls] => ls.flatMap Lump.chars
  | ls :: st => openChars st ++ '(' :: ls.flatMap Lump.chars

theorem openChars_cons_append (ls ms : List Lump) (st : List (List Lump)) :
    openChars ((ls ++ ms) :: st) = openChars (ls :: st) ++ ms.flatMap Lump.chars := by
  cases st with
  | nil => simp [openChars]
  | cons ns st => simp [openChars]

theorem openChars_nest {st st' : List (List Lump)} {ts : List Token} (hne : st ≠ [])
    (h : nest st ts = some st') : openChars st' = openChars st ++ ts.flatMap Token.chars := by
  induction ts generalizing st with
  | nil =>
    obtain rfl := Option.some.inj h
    simp
  | cons t ts ih =>
    cases st with
    | nil => exact absurd rfl hne
    | cons ls st =>
      by_cases hopen : t = .opening
      · subst hopen
        rw [nest] at h
        rw [ih (by simp) h]
        simp [openChars, Token.chars]
      · by_cases hclose : t = .closing
        · subst hclose
          cases st with
          | nil => contradiction
          | cons ms st =>
            rw [nest] at h
            rw [ih (by simp) h, openChars_cons_append]
            simp [openChars, group, Lump.chars, Token.chars]
        · rw [nest_plain ⟨hopen, hclose⟩] at h
          rw [ih (by simp) h, openChars_cons_append]
          simp [Lump.chars]

/-- A lump was there already, or it is one of the tokens, or it has been put together. -/
theorem mem_of_nest {st st' : List (List Lump)} {ts : List Token} (h : nest st ts = some st')
    {l : Lump} {ls : List Lump} (hls : ls ∈ st') (hl : l ∈ ls) :
    (∃ ms ∈ st, l ∈ ms) ∨ (∃ t ∈ ts, l = .token t) ∨ ∃ ms, l = group ms := by
  induction ts generalizing st with
  | nil =>
    obtain rfl := Option.some.inj h
    exact Or.inl ⟨ls, hls, hl⟩
  | cons u us ih =>
    by_cases hopen : u = .opening
    · subst hopen
      rw [nest] at h
      rcases ih h with ⟨ms, hms, hmem⟩ | ⟨t, ht, rfl⟩ | hgroup
      · rcases List.mem_cons.mp hms with rfl | hms
        · contradiction
        · exact Or.inl ⟨ms, hms, hmem⟩
      · exact Or.inr (Or.inl ⟨t, by simp [ht], rfl⟩)
      · exact Or.inr (Or.inr hgroup)
    · cases st with
      | nil => cases u <;> contradiction
      | cons ms st =>
        by_cases hclose : u = .closing
        · subst hclose
          cases st with
          | nil => contradiction
          | cons ns st =>
            rw [nest] at h
            rcases ih h with ⟨os, hos, hmem⟩ | ⟨t, ht, rfl⟩ | hgroup
            · rcases List.mem_cons.mp hos with rfl | hos
              · rcases List.mem_append.mp hmem with hmem | hmem
                · exact Or.inl ⟨ns, by simp, hmem⟩
                · exact Or.inr (Or.inr ⟨ms, List.mem_singleton.mp hmem⟩)
              · exact Or.inl ⟨os, by simp [hos], hmem⟩
            · exact Or.inr (Or.inl ⟨t, by simp [ht], rfl⟩)
            · exact Or.inr (Or.inr hgroup)
        · rw [nest_plain ⟨hopen, hclose⟩] at h
          rcases ih h with ⟨os, hos, hmem⟩ | ⟨t, ht, rfl⟩ | hgroup
          · rcases List.mem_cons.mp hos with rfl | hos
            · rcases List.mem_append.mp hmem with hmem | hmem
              · exact Or.inl ⟨ms, by simp, hmem⟩
              · exact Or.inr (Or.inl ⟨u, by simp, List.mem_singleton.mp hmem⟩)
            · exact Or.inl ⟨os, by simp [hos], hmem⟩
          · exact Or.inr (Or.inl ⟨t, by simp [ht], rfl⟩)
          · exact Or.inr (Or.inr hgroup)

theorem chars_nests {ts : List Token} {ls : List Lump} (h : Nests ts ls) :
    ls.flatMap Lump.chars = ts.flatMap Token.chars := by
  have hchars := openChars_nest (by simp) (h [] [])
  simpa [openChars] using hchars

theorem mem_of_nests {ts : List Token} {ls : List Lump} (h : Nests ts ls) {l : Lump} (hl : l ∈ ls) :
    (∃ t ∈ ts, l = .token t) ∨ ∃ ms, l = group ms := by
  rcases mem_of_nest (h [] []) (List.mem_singleton.mpr rfl) (by simpa using hl) with ⟨ms, hms, hmem⟩ | hl
  · obtain rfl := List.mem_singleton.mp hms
    contradiction
  · exact hl

end Chain

open Lexer Chain

variable {d : Dialect} {f : Piece.Spelling}

theorem Reads.chars {cs : List Char} {ls : List Lump} (h : Reads d cs ls) :
    ls.flatMap Lump.chars = cs := by
  obtain ⟨ts, hts, hls⟩ := h
  have hkeeps := (keeps_lex? hts).chars
  rw [List.append_nil] at hkeeps
  rw [chars_nests hls, hkeeps]

/-- A lump is a blank only where the text has one. -/
theorem Reads.blank {cs : List Char} {ls : List Lump} (h : Reads d cs ls) {l : Lump} (hl : l ∈ ls)
    (hblank : l.isBlank = true) : ∃ c, l.chars = [c] ∧ Lexer.isBlank c = true := by
  obtain ⟨ts, hts, hls⟩ := h
  rcases mem_of_nests hls hl with ⟨t, ht, rfl⟩ | ⟨ms, rfl⟩
  · cases t with
    | blank c => exact ⟨c, rfl, (keeps_lex? hts).blanks c ht⟩
    | _ => contradiction
  · contradiction

/-- A lump that is read as a formula starts with a parenthesis. -/
theorem Reads.head_group {cs gs : List Char} {ls : List Lump} (h : Reads d cs ls)
    {r : Option Reading} (hl : Lump.group gs r ∈ ls) : gs.head? = some '(' := by
  obtain ⟨ts, -, hls⟩ := h
  rcases mem_of_nests hls hl with ⟨t, -, ht⟩ | ⟨ms, hms⟩
  · contradiction
  · obtain ⟨rfl, -⟩ := Lump.group.inj hms
    rfl

/-! ## Predicates without anything around them -/

/-- The text does not end in a blank. -/
def EndsFirm (cs : List Char) : Prop := ∃ c, cs.getLast? = some c ∧ Lexer.isBlank c = false

/-- The text starts and ends with what belongs to it. -/
structure Trimmed (cs : List Char) : Prop where
  first : ∃ c, cs.head? = some c ∧ Lexer.isBlank c = false ∧ c ≠ '('
  last : EndsFirm cs

theorem parts?_of_no_links {s : Scope} {ls x : List Lump} (h : Lump.parts? s ls = some (x, [])) :
    x = ls := by
  induction ls generalizing s x with
  | nil =>
    rw [Lump.parts?] at h
    split at h
    · exact (Prod.mk.inj (Option.some.inj h)).1.symm
    · contradiction
  | cons l ls ih =>
    rw [Lump.parts?] at h
    cases hc : s.connective? l with
    | some op =>
      rw [hc] at h
      obtain ⟨p, -, hp⟩ := Option.map_eq_some_iff.mp h
      simp at hp
    | none =>
      rw [hc] at h
      obtain ⟨⟨y, ys⟩, hy, hp⟩ := Option.map_eq_some_iff.mp h
      obtain ⟨rfl, rfl⟩ := Prod.mk.inj hp
      rw [ih hy]

/-- Nothing is trimmed from lumps that do not end in a blank. -/
theorem trimEnd_of_last {ls : List Lump} {l : Lump} (h : ls.getLast? = some l)
    (hl : l.isBlank = false) : Lump.trimEnd ls = ls := by
  obtain ⟨ms, rfl⟩ := List.getLast?_eq_some_iff.mp h
  simp [Lump.trimEnd, hl]

theorem Reads.trimEnd {cs : List Char} {ls : List Lump} (h : Reads d cs ls) (hcs : Trimmed cs) :
    Lump.trimEnd ls = ls := by
  obtain ⟨c, hlast, hc⟩ := hcs.last
  cases hls : ls.getLast? with
  | none =>
    have hnil := List.getLast?_eq_none_iff.mp hls
    rw [← h.chars, hnil] at hlast
    contradiction
  | some l =>
    refine trimEnd_of_last hls (Bool.eq_false_iff.mpr ?_)
    intro hblank
    obtain ⟨ms, rfl⟩ := List.getLast?_eq_some_iff.mp hls
    obtain ⟨b, hb, hisBlank⟩ := h.blank (l := l) (by simp) hblank
    rw [← h.chars, List.flatMap_append, List.flatMap_singleton, hb, List.getLast?_concat] at hlast
    rw [Option.some.inj hlast, hc] at hisBlank
    contradiction

/-- A text with nothing around it that reads as one predicate is that predicate. -/
theorem leaf_eq_text {cs : List Char} {ls : List Lump} {t : String} (h : Reads d cs ls)
    (hcs : Trimmed cs) (hleaf : ofLumps? ls = some ⟨.leaf t, []⟩) : t = String.ofList cs := by
  obtain ⟨⟨x, xs⟩, hparts, hleaf⟩ := Option.bind_eq_some_iff.mp hleaf
  obtain ⟨r, hr, hleaf⟩ := Option.bind_eq_some_iff.mp hleaf
  obtain ⟨rs, hrs, hchain⟩ := Option.map_eq_some_iff.mp hleaf
  obtain ⟨rfl, rfl⟩ := Chain.mk.inj hchain
  have hlinks : xs = [] := by
    cases xs with
    | nil => rfl
    | cons y ys =>
      obtain ⟨q, -, hq⟩ := Option.bind_eq_some_iff.mp hrs
      obtain ⟨qs, -, hqs⟩ := Option.map_eq_some_iff.mp hq
      contradiction
  subst hlinks
  obtain rfl := parts?_of_no_links hparts
  obtain ⟨c, hfirst, hblank, hparen⟩ := hcs.first
  cases x with
  | nil => contradiction
  | cons l ls =>
    have hl : l.isBlank = false := by
      refine Bool.eq_false_iff.mpr ?_
      intro hisBlank
      obtain ⟨b, hb, hb'⟩ := h.blank (l := l) (by simp) hisBlank
      rw [← h.chars, List.flatMap_cons, hb] at hfirst
      rw [Option.some.inj hfirst, hblank] at hb'
      contradiction
    rw [Lump.operand?, if_neg (by simp [hl])] at hr
    split at hr
    · obtain ⟨q, -, hq⟩ := Option.map_eq_some_iff.mp hr
      contradiction
    · split at hr
      · contradiction
      · rw [Lump.primary?, h.trimEnd hcs] at hr
        split at hr
        · next gs r' heq =>
          -- a formula in parentheses would start with one
          have hmem : Lump.group gs (some r') ∈ l :: ls := by simp [heq]
          have hgs := h.head_group hmem
          have hchars := h.chars
          rw [heq, List.flatMap_singleton, Lump.chars] at hchars
          rw [hchars, hfirst] at hgs
          exact absurd (Option.some.inj hgs) hparen
        · split at hr
          · contradiction
          · rw [h.chars] at hr
            exact (Reading.leaf.inj (Option.some.inj hr)).symm

/-! ## How texts end -/

theorem EndsFirm.append (as : List Char) {bs : List Char} (h : EndsFirm bs) : EndsFirm (as ++ bs) := by
  obtain ⟨c, hlast, hc⟩ := h
  refine ⟨c, ?_, hc⟩
  rw [List.getLast?_append, hlast]
  rfl

theorem endsFirm_concat (cs : List Char) {c : Char} (h : Lexer.isBlank c = false) :
    EndsFirm (cs ++ [c]) := .append cs ⟨c, rfl, h⟩

theorem endsFirm_of_forall {cs : List Char} (hne : cs ≠ [])
    (h : ∀ c ∈ cs, Lexer.isBlank c = false) : EndsFirm cs :=
  ⟨_, List.getLast?_eq_some_getLast hne, h _ (List.getLast_mem hne)⟩

theorem isBlank_of_isLetter {c : Char} (h : isLetter c = true) : Lexer.isBlank c = false := by
  refine Bool.eq_false_iff.mpr ?_
  intro hblank
  simp only [Lexer.isBlank, List.mem_cons, List.not_mem_nil, or_false, decide_eq_true_eq] at hblank
  rcases hblank with rfl | rfl | rfl | rfl <;> exact absurd h (by decide)

theorem endsFirm_text (n : Nat) : EndsFirm (Digits.text n).toList := by
  rw [Digits.text, String.toList_ofList]
  exact endsFirm_of_forall (Digits.digits_ne_nil n)
    fun c hc => isBlank_of_isLetter (isLetter_of_isDigit (isDigit_digits c hc))

theorem endsFirm_quoteLiteral (d : Dialect) (s : String) : EndsFirm (d.quoteLiteral s).toList := by
  rw [Dialect.quoteLiteral, String.toList_ofList]
  exact endsFirm_concat _ (by decide)

theorem Column.endsFirm_text (c : Column) : EndsFirm c.text.toList := by
  have ident : ∀ s : String, EndsFirm (quoteIdent s).toList := by
    intro s
    rw [quoteIdent, String.toList_ofList]
    exact endsFirm_concat _ (by decide)
  unfold Column.text
  cases c.table with
  | none => exact ident c.name
  | some t =>
    rw [String.toList_append]
    exact (ident c.name).append _

theorem Column.head_text (c : Column) : c.text.toList.head? = some '"' := by
  have ident : ∀ s : String, (quoteIdent s).toList.head? = some '"' := by
    intro s
    rw [quoteIdent, String.toList_ofList]
    rfl
  unfold Column.text
  cases c.table with
  | none => exact ident c.name
  | some t =>
    rw [String.toList_append, String.toList_append, List.head?_append, List.head?_append, ident]
    rfl

theorem endsFirm_placeholder (d : Dialect) (k : Nat) : EndsFirm (d.placeholder k).toList := by
  cases d with
  | postgres =>
    rw [Dialect.placeholder, String.toList_append]
    exact (endsFirm_text k).append _
  | mysql =>
    rw [Dialect.placeholder]
    exact ⟨'s', rfl, by decide⟩
  | sqlite =>
    rw [Dialect.placeholder]
    exact ⟨'?', rfl, by decide⟩

theorem endsFirm_float (x : Binary64) : EndsFirm (Layout.plain.text x).toList := by
  unfold Layout.text
  cases x.magnitude with
  | nan =>
    show EndsFirm "NaN".toList
    exact ⟨'N', rfl, by decide⟩
  | infinite =>
    rw [String.toList_ofList]
    exact .append _ ⟨'f', rfl, by decide⟩
  | finite m q =>
    rw [String.toList_ofList]
    refine .append _ (endsFirm_of_forall (unsigned_ne_nil m q) ?_)
    intro c hc
    rcases isDigit_or_point_unsigned m q c hc with hdigit | rfl
    · exact isBlank_of_isLetter (isLetter_of_isDigit hdigit)
    · decide

theorem Value.endsFirm_literal (d : Dialect) (v : Value) : EndsFirm (v.literal d).toList := by
  cases v with
  | null =>
    simp only [Value.literal]
    exact ⟨'L', rfl, by decide⟩
  | bool b =>
    simp only [Value.literal]
    cases b
    · exact ⟨'E', rfl, by decide⟩
    · exact ⟨'E', rfl, by decide⟩
  | int i =>
    simp only [Value.literal]
    cases i.toInt with
    | ofNat n => exact endsFirm_text n
    | negSucc n =>
      rw [Digits.intText, String.toList_append]
      exact (endsFirm_text (n + 1)).append _
  | float x =>
    simp only [Value.literal]
    exact endsFirm_float x
  | bytes b =>
    simp only [Value.literal]
    rw [String.toList_append]
    exact .append _ ⟨'\'', rfl, by decide⟩
  | list items =>
    simp only [Value.literal]
    rw [String.toList_append]
    exact .append _ ⟨')', rfl, by decide⟩
  | _ =>
    simp only [Value.literal]
    exact endsFirm_quoteLiteral d _

theorem Compiler.endsFirm_spelling (c : Compiler) (k : Nat) (v : Value) :
    EndsFirm (c.spelling k v).toList := by
  unfold Compiler.spelling
  by_cases h : c.inline = true
  · rw [if_pos h]
    exact v.endsFirm_literal c.dialect
  · rw [if_neg h]
    exact endsFirm_placeholder c.dialect k

/-! ## Leaves -/

namespace Condition

/-- Comparisons with a value or a column, tests for null, memberships in a list and ranges. -/
def IsLeaf : Condition → Prop
  | compare _ _ (.value _) => True
  | compare _ _ (.column _) => True
  | null _ _ => True
  | inList _ _ _ => True
  | between _ _ _ => True
  | _ => False

variable {c : Condition}

theorem IsLeaf.fault (h : c.IsLeaf) : c.draft.fault = none := by
  cases c with
  | compare left op right =>
    simp only [draft]
    rw [Draft.append_of_sound (by rfl)]
    cases right with
    | value v =>
      rw [Operand.draft]
      cases v <;> rfl
    | column c =>
      rw [Operand.draft]
      rfl
    | expr e => contradiction
  | null c negated =>
    simp only [draft]
    rfl
  | inList c negated vs =>
    simp only [draft]
    cases vs with
    | nil => rfl
    | cons v vs =>
      simp only [memberDraft]
      rw [Draft.append_of_sound (by rfl)]
      exact (Draft.fault_paren _).trans (fault_boundList _)
  | between c lower upper =>
    simp only [draft]
    rfl
  | _ => contradiction

theorem IsLeaf.readsLeaf (hf : Fills d f) (h : c.IsLeaf) (k : Nat) : c.ReadsLeaf d f k := by
  cases c with
  | compare left op right =>
    cases right with
    | value v => exact readsLeaf_value hf left op v k
    | column c => exact readsLeaf_column left op c k
    | expr e => contradiction
  | null c negated => exact readsLeaf_null c negated k
  | inList c negated vs => exact readsLeaf_inList hf c negated vs k
  | between c lower upper => exact readsLeaf_between hf c lower upper k
  | _ => contradiction

theorem trimmed_of_column (column : Column) {cs : List Char} (h : EndsFirm cs) :
    Trimmed (column.text.toList ++ cs) := by
  refine ⟨⟨'"', ?_, by decide, by decide⟩, h.append _⟩
  rw [List.head?_append, column.head_text]
  rfl

/-- The text of a leaf starts with a column and ends with a value, a column, a word or a parenthesis;
but nothing is in the empty list, which is said without the column. -/
theorem IsLeaf.trimmed (hf : ∀ k v, EndsFirm (f k v).toList) (h : c.IsLeaf) (k : Nat) :
    Trimmed (c.draft.spelled d f k).toList := by
  cases c with
  | compare left op right =>
    rw [toList_spelled_compare]
    refine trimmed_of_column left (.append _ ?_)
    cases right with
    | value v =>
      rw [Operand.draft]
      cases v with
      | null =>
        simp only [Value.draft]
        rw [Draft.spelled_text]
        exact ⟨'L', rfl, by decide⟩
      | _ =>
        simp only [Value.draft]
        rw [Draft.spelled_bound]
        exact hf k _
    | column c =>
      rw [Operand.draft, Draft.spelled_text]
      exact c.endsFirm_text
    | expr e => contradiction
  | null c negated =>
    rw [toList_spelled_null]
    refine trimmed_of_column c ?_
    cases negated
    · exact ⟨'L', rfl, by decide⟩
    · exact ⟨'L', rfl, by decide⟩
  | inList c negated vs =>
    cases vs with
    | nil =>
      simp only [draft, memberDraft]
      rw [Draft.spelled_text]
      cases negated with
      | true =>
        rw [if_pos rfl]
        exact ⟨⟨'1', rfl, by decide, by decide⟩, ⟨'1', rfl, by decide⟩⟩
      | false =>
        rw [if_neg (by decide), String.toList_append]
        exact trimmed_of_column c ⟨')', rfl, by decide⟩
    | cons v vs =>
      rw [toList_spelled_inList]
      refine trimmed_of_column c (.append _ ?_)
      exact endsFirm_concat ('(' :: _) (by decide)
  | between c lower upper =>
    rw [toList_spelled_between]
    exact trimmed_of_column c (.append _ (.append _ (.append _ (hf _ upper))))
  | _ => contradiction

/-- The text of a leaf is read as that text. -/
theorem IsLeaf.reads (hf : Fills d f) (hends : ∀ k v, EndsFirm (f k v).toList) (h : c.IsLeaf)
    (k : Nat) : ∃ ls, Reads d (c.draft.spelled d f k).toList ls ∧
      ofLumps? ls = some ⟨.leaf (c.draft.spelled d f k), []⟩ := by
  obtain ⟨ls, t, hls, hchain⟩ := h.readsLeaf hf k
  obtain rfl := leaf_eq_text hls (h.trimmed hends k) hchain
  rw [String.ofList_toList] at hchain
  exact ⟨ls, hls, hchain⟩

end Condition

end SqlKit
