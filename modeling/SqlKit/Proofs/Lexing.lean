import SqlKit.Proofs.Phrased
import SqlKit.Proofs.Reading

/-!
# The tokens of a statement

How the reader gets on with what the compiler writes.  Texts can be taken apart where a character
breaks, and where a token is closed; quoted tokens are read to their end whatever they contain; and
every phrase is read into tokens with a property of the tokens of its parts.  In particular it leaves
the stack of open parentheses as it was, provided the verbatim texts do.

    lex? d a = ts → Closes d (c :: b) us → Closes d (a ++ c :: b) (ts ++ us)   if c breaks
                                                                       (closes_append_of_breaks)
    a quotation is a list of quoted tokens                             (closes_quote)
    what the tokens of all parts have, those of the phrase have        (Phrase.tokenizes)
    a phrase leaves the open parentheses alone                         (Phrase.balances)
-/

namespace SqlKit

namespace Lexer

variable {d : Dialect}

/-! ## Taking texts apart -/

theorem run_append (s : State) (a b : List Char) :
    run d s (a ++ b) = (run d s a).bind fun p => (run d p.2 b).map fun q => (p.1 ++ q.1, q.2) := by
  induction a generalizing s with
  | nil => simp [run]
  | cons c a ih =>
    simp only [List.cons_append, run]
    cases step d s c with
    | none => rfl
    | some p =>
      simp only [Option.bind_some, ih]
      cases run d p.2 a with
      | none => rfl
      | some q =>
        simp only [Option.bind_some, Option.map_some]
        cases run d q.2 b with
        | none => rfl
        | some r => simp [List.append_assoc]

theorem run_append_of_run {s s' s'' : State} {a b : List Char} {ts us : List Token}
    (ha : run d s a = some (ts, s')) (hb : run d s' b = some (us, s'')) :
    run d s (a ++ b) = some (ts ++ us, s'') := by
  rw [run_append, ha, Option.bind_some, hb, Option.map_some]

/-- Characters that end a word and start no comment. -/
def breaks (c : Char) : Bool := !isWordChar c && c != '-' && c != '*'

theorem step_of_breaks {s : State} (hs : s.isOpen = false) {c : Char} (hc : breaks c = true) :
    step d s c = next d s c := by
  simp only [breaks, Bool.and_eq_true, Bool.not_eq_true', bne_iff_ne, ne_eq] at hc
  obtain ⟨⟨hw, hm⟩, hstar⟩ := hc
  cases s with
  | gap =>
    simp only [step, next, State.pending, List.nil_append]
    cases start d c <;> rfl
  | word cs => rw [step, if_neg (by simp [hw])]
  | minus => rw [step, if_neg hm]
  | slash => rw [step, if_neg hstar]
  | quoted q cs => contradiction
  | escaped q cs => contradiction

/-- Behind a break the text is read as if it stood alone. -/
theorem run_of_breaks {s : State} (hs : s.isOpen = false) {c : Char} (hc : breaks c = true)
    {cs : List Char} {ts : List Token} {s' : State} (h : run d .gap (c :: cs) = some (ts, s')) :
    run d s (c :: cs) = some (s.pending ++ ts, s') := by
  simp only [run, step] at h
  simp only [run, step_of_breaks hs hc, next]
  cases hstart : start d c with
  | none =>
    rw [hstart] at h
    contradiction
  | some p =>
    rw [hstart, Option.bind_some] at h
    rw [Option.map_some, Option.bind_some]
    cases hrun : run d p.2 cs with
    | none =>
      rw [hrun] at h
      contradiction
    | some q =>
      rw [hrun, Option.map_some] at h
      obtain ⟨rfl, rfl⟩ := Prod.mk.inj (Option.some.inj h)
      rw [Option.map_some, List.append_assoc]

theorem run_of_lex? {cs : List Char} {ts : List Token} (h : lex? d cs = some ts) :
    ∃ us s, run d .gap cs = some (us, s) ∧ s.isOpen = false ∧ us ++ s.pending = ts := by
  unfold lex? at h
  cases hrun : run d .gap cs with
  | none =>
    rw [hrun] at h
    contradiction
  | some p =>
    obtain ⟨us, s⟩ := p
    rw [hrun, Option.bind_some] at h
    cases hs : s.isOpen with
    | true =>
      rw [if_pos hs] at h
      contradiction
    | false =>
      rw [if_neg (by simp [hs])] at h
      exact ⟨us, s, rfl, hs, Option.some.inj h⟩

theorem lex?_of_run {cs : List Char} {ts : List Token} {s : State}
    (h : run d .gap cs = some (ts, s)) (hs : s.isOpen = false) :
    lex? d cs = some (ts ++ s.pending) := by
  rw [lex?, h, Option.bind_some, if_neg (by simp [hs])]

/-- A text that ends with a token that is closed. -/
def Closes (d : Dialect) (cs : List Char) (ts : List Token) : Prop := run d .gap cs = some (ts, .gap)

theorem Closes.append {a b : List Char} {ts us : List Token} (ha : Closes d a ts)
    (hb : Closes d b us) : Closes d (a ++ b) (ts ++ us) := run_append_of_run ha hb

theorem Closes.lex?_append {a b : List Char} {ts us : List Token} (ha : Closes d a ts)
    (hb : lex? d b = some us) : lex? d (a ++ b) = some (ts ++ us) := by
  obtain ⟨tb, s, hrb, hsb, rfl⟩ := run_of_lex? hb
  rw [lex?_of_run (run_append_of_run ha hrb) hsb, List.append_assoc]

theorem Closes.lex? {cs : List Char} {ts : List Token} (h : Closes d cs ts) :
    lex? d cs = some ts := by
  rw [lex?_of_run h rfl]
  simp [State.pending]

/-- A text that is closed by one that starts with a break. -/
theorem closes_append_of_breaks {a b : List Char} {c : Char} {ts us : List Token}
    (ha : Lexer.lex? d a = some ts) (hb : Closes d (c :: b) us) (hc : breaks c = true) :
    Closes d (a ++ c :: b) (ts ++ us) := by
  obtain ⟨ta, s, hra, hsa, rfl⟩ := run_of_lex? ha
  have h := run_append_of_run hra (run_of_breaks hsa hc hb)
  rw [Closes, h, List.append_assoc]

/-! ## Quoted tokens -/

/-- Texts between single or double quotes. -/
def IsQuoted : Token → Prop
  | .quoted q _ => q ≠ '\x60'
  | _ => False

theorem start_of_isQuote {q : Char} (hq : Mysql.isQuote q = true) :
    start d q = some ([], .quoted q []) := by
  have hw : isWordChar q = false := by
    simp only [Mysql.isQuote, Bool.or_eq_true, decide_eq_true_eq] at hq
    rcases hq with (rfl | rfl) | rfl <;> decide
  rw [start, if_neg (by simp [hw]), if_pos hq]

/-- The characters between two quotes and the last quote. -/
theorem run_body {q : Char} (hq : Mysql.isQuote q = true) (hbacktick : q ≠ '\x60') {escapes : Bool}
    (he : escapes = (d.backslashEscapes && q == '\'')) (s cs : List Char) :
    ∃ ts, run d (.quoted q cs) (Text.Quoted.body q escapes s ++ [q]) = some (ts, .gap) ∧
      ts ≠ [] ∧ ∀ t ∈ ts, IsQuoted t := by
  have hclose : ∀ cs, step d (.quoted q cs) q = some ([.quoted q cs], .gap) := by
    intro cs
    rw [step, if_pos rfl]
  have hopen : step d .gap q = some ([], .quoted q []) := start_of_isQuote hq
  induction s generalizing cs with
  | nil =>
    refine ⟨[.quoted q cs], ?_, by simp, by simpa [IsQuoted] using hbacktick⟩
    simp [Text.Quoted.body, run, hclose]
  | cons c s ih =>
    have hb : Text.Quoted.body q escapes (c :: s) =
        Text.Quoted.double q escapes c ++ Text.Quoted.body q escapes s := rfl
    rw [hb, List.append_assoc]
    by_cases hc : c = q
    · -- a doubled quote closes one token and opens the next
      subst hc
      obtain ⟨ts, hts, -, hall⟩ := ih []
      refine ⟨.quoted c cs :: ts, ?_, by simp, by simpa [IsQuoted] using ⟨hbacktick, hall⟩⟩
      have hd : Text.Quoted.double c escapes c = [c, c] := by simp [Text.Quoted.double]
      rw [hd]
      simp only [List.cons_append, List.nil_append, run, hclose, Option.bind_some, hopen, hts,
        Option.map_some]
    · by_cases hesc : escapes = true ∧ c = '\\'
      · obtain ⟨hescapes, rfl⟩ := hesc
        rw [hescapes, eq_comm, Bool.and_eq_true, beq_iff_eq] at he
        obtain ⟨hd, rfl⟩ := he
        obtain ⟨ts, hts, hne, hall⟩ := ih (cs ++ ['\\', '\\'])
        refine ⟨ts, ?_, hne, hall⟩
        have hdouble : Text.Quoted.double '\'' escapes '\\' = ['\\', '\\'] := by
          simp [Text.Quoted.double, hescapes]
        rw [hdouble]
        have hfirst : step d (.quoted '\'' cs) '\\' = some ([], .escaped '\'' cs) := by
          rw [step, if_neg hc, if_pos ⟨hd, rfl, rfl⟩]
        have hsecond : step d (.escaped '\'' cs) '\\' =
            some ([], .quoted '\'' (cs ++ ['\\', '\\'])) := rfl
        simp only [List.cons_append, List.nil_append, run, hfirst, hsecond, Option.bind_some, hts,
          Option.map_some]
      · obtain ⟨ts, hts, hne, hall⟩ := ih (cs ++ [c])
        refine ⟨ts, ?_, hne, hall⟩
        have hdouble : Text.Quoted.double q escapes c = [c] := by simp [Text.Quoted.double, hc, hesc]
        have hstep : step d (.quoted q cs) c = some ([], .quoted q (cs ++ [c])) := by
          rw [step, if_neg hc, if_neg]
          rintro ⟨hd, hq', hb'⟩
          exact hesc ⟨by simp [he, hd, hq'], hb'⟩
        rw [hdouble]
        simp only [List.cons_append, List.nil_append, run, hstep, Option.bind_some, hts,
          Option.map_some]

/-- A quoted token is read to its end. -/
theorem closes_quote {q : Char} (hq : Mysql.isQuote q = true) (hb : q ≠ '\x60') {escapes : Bool}
    (he : escapes = (d.backslashEscapes && q == '\'')) (s : List Char) :
    ∃ ts, Closes d (Text.Quoted.quote q escapes s) ts ∧ ts ≠ [] ∧ ∀ t ∈ ts, IsQuoted t := by
  obtain ⟨ts, hts, hne, hall⟩ := run_body hq hb he s []
  refine ⟨ts, ?_, hne, hall⟩
  have hopen : step d .gap q = some ([], .quoted q []) := start_of_isQuote hq
  rw [Closes, Text.Quoted.quote]
  simp only [List.cons_append, run, hopen, Option.bind_some, hts, Option.map_some, List.nil_append]

theorem closes_ident (s : String) :
    ∃ ts, Closes d (quoteIdent s).toList ts ∧ ts ≠ [] ∧ ∀ t ∈ ts, IsQuoted t := by
  rw [quoteIdent, String.toList_ofList]
  exact closes_quote (by decide) (by decide) (by simp) s.toList

theorem closes_literal (s : String) :
    ∃ ts, Closes d (d.quoteLiteral s).toList ts ∧ ts ≠ [] ∧ ∀ t ∈ ts, IsQuoted t := by
  rw [Dialect.quoteLiteral, String.toList_ofList]
  exact closes_quote (by decide) (by decide) (by simp) s.toList

end Lexer

/-! ## Parentheses -/

namespace Chain

/-- A token that is no parenthesis. -/
def IsPlain (t : Token) : Prop := t ≠ .opening ∧ t ≠ .closing

instance (t : Token) : Decidable (IsPlain t) :=
  inferInstanceAs (Decidable (t ≠ .opening ∧ t ≠ .closing))

theorem nest_plain {t : Token} (ht : IsPlain t) (ls : List Lump) (st : List (List Lump))
    (ts : List Token) : nest (ls :: st) (t :: ts) = nest ((ls ++ [.token t]) :: st) ts := by
  cases t with
  | opening => exact absurd rfl ht.1
  | closing => exact absurd rfl ht.2
  | blank c => rw [nest]; all_goals simp
  | word cs => rw [nest]; all_goals simp
  | quoted q cs => rw [nest]; all_goals simp
  | sign c => rw [nest]; all_goals simp

theorem nest_append (st : List (List Lump)) (ts us : List Token) :
    nest st (ts ++ us) = (nest st ts).bind fun st' => nest st' us := by
  induction ts generalizing st with
  | nil => rfl
  | cons t ts ih =>
    rw [List.cons_append]
    by_cases hopen : t = .opening
    · subst hopen
      simp only [nest, ih]
    · by_cases hclose : t = .closing
      · subst hclose
        cases st with
        | nil => rfl
        | cons ls st =>
          cases st with
          | nil => rfl
          | cons ms st => simp only [nest, ih]
      · cases st with
        | nil => cases t <;> first | rfl | contradiction
        | cons ls st => rw [nest_plain ⟨hopen, hclose⟩, nest_plain ⟨hopen, hclose⟩, ih]

/-- The tokens add lumps to what stands there already and leave the open parentheses alone. -/
def Nests (ts : List Token) (ls : List Lump) : Prop :=
  ∀ ms st, nest (ms :: st) ts = some ((ms ++ ls) :: st)

theorem nests_nil : Nests [] [] := by
  intro ms st
  rw [nest, List.append_nil]

theorem Nests.append {ts us : List Token} {ls ms : List Lump} (ht : Nests ts ls) (hu : Nests us ms) :
    Nests (ts ++ us) (ls ++ ms) := by
  intro ns st
  rw [nest_append, ht, Option.bind_some, hu, List.append_assoc]

theorem nests_plain {t : List Token} (h : ∀ u ∈ t, IsPlain u) : Nests t (t.map .token) := by
  induction t with
  | nil => exact nests_nil
  | cons u us ih =>
    intro ms st
    rw [nest_plain (h u (by simp)), ih fun v hv => h v (by simp [hv])]
    simp

theorem Nests.group {ts : List Token} {ls : List Lump} (h : Nests ts ls) :
    Nests (.opening :: (ts ++ [.closing])) [Chain.group ls] := by
  intro ms st
  have hopen : nest (ms :: st) (.opening :: (ts ++ [.closing])) =
      nest ([] :: ms :: st) (ts ++ [.closing]) := by rw [nest]
  rw [hopen, nest_append, h, Option.bind_some, List.nil_append, nest, nest]

theorem nest?_of_nests {ts : List Token} {ls : List Lump} (h : Nests ts ls) :
    nest? ts = some ls := by
  rw [nest?, h [] []]
  rfl

/-- What is at the bottom of the stack, and below it, makes no difference. -/
theorem nest_below (ts : List Token) (st : List (List Lump)) (ls : List Lump)
    {st' : List (List Lump)} (h : nest (st ++ [ls]) ts = some st') :
    ∃ above ms, st' = above ++ [ls ++ ms] ∧
      ∀ ns below, nest (st ++ (ns ++ ls) :: below) ts = some (above ++ (ns ++ ls ++ ms) :: below) := by
  induction ts generalizing st ls with
  | nil =>
    refine ⟨st, [], ?_, ?_⟩
    · rw [List.append_nil]
      exact (Option.some.inj h).symm
    · intro ns below
      rw [nest, List.append_nil]
  | cons t ts ih =>
    by_cases hopen : t = .opening
    · subst hopen
      rw [nest] at h
      obtain ⟨above, ms, hst, hall⟩ := ih ([] :: st) ls h
      refine ⟨above, ms, hst, ?_⟩
      intro ns below
      rw [nest]
      exact hall ns below
    · by_cases hclose : t = .closing
      · subst hclose
        cases st with
        | nil => contradiction
        | cons l st =>
          cases st with
          | nil =>
            simp only [List.cons_append, List.nil_append, nest] at h
            obtain ⟨above, ms, hst, hall⟩ := ih [] (ls ++ [Chain.group l]) h
            refine ⟨above, Chain.group l :: ms, by simpa using hst, ?_⟩
            intro ns below
            have := hall ns below
            simp only [List.cons_append, List.nil_append, nest]
            simpa using this
          | cons m st =>
            simp only [List.cons_append, nest] at h
            obtain ⟨above, ms, hst, hall⟩ := ih ((m ++ [Chain.group l]) :: st) ls h
            refine ⟨above, ms, hst, ?_⟩
            intro ns below
            simp only [List.cons_append, nest]
            exact hall ns below
      · have hplain : IsPlain t := ⟨hopen, hclose⟩
        cases st with
        | nil =>
          rw [List.nil_append, nest_plain hplain] at h
          obtain ⟨above, ms, hst, hall⟩ := ih [] (ls ++ [Lump.token t]) h
          refine ⟨above, .token t :: ms, by simpa using hst, ?_⟩
          intro ns below
          have := hall ns below
          rw [List.nil_append, nest_plain hplain]
          simpa using this
        | cons l st =>
          rw [List.cons_append, nest_plain hplain] at h
          obtain ⟨above, ms, hst, hall⟩ := ih ((l ++ [Lump.token t]) :: st) ls h
          refine ⟨above, ms, hst, ?_⟩
          intro ns below
          rw [List.cons_append, nest_plain hplain]
          exact hall ns below

/-- Tokens that nest on their own nest anywhere. -/
theorem nests_of_nest? {ts : List Token} {ls : List Lump} (h : nest? ts = some ls) :
    Nests ts ls := by
  unfold nest? at h
  cases hn : nest [[]] ts with
  | none =>
    rw [hn] at h
    contradiction
  | some st =>
    rw [hn] at h
    obtain ⟨above, ms, hst, hall⟩ := nest_below ts [] [] hn
    cases above with
    | nil =>
      subst hst
      obtain rfl : ms = ls := by simpa using h
      intro ns st
      simpa using hall ns st
    | cons a above =>
      subst hst
      cases above <;> simp at h

end Chain

/-! ## Phrases -/

open Lexer Chain

variable {d : Dialect}

/-- A text whose quotations and parentheses are complete. -/
def Closed (d : Dialect) (s : String) : Prop := ∃ ls, lumps? d s = some ls

/-- How much a state of the lexer leaves open. -/
def Lexer.State.rank : Lexer.State → Nat
  | gap => 0
  | word _ => 1
  | minus => 2
  | slash => 2
  | quoted _ _ => 3
  | escaped _ _ => 3

theorem Lexer.State.isOpen_of_rank {s : State} (h : s.rank ≤ 2) : s.isOpen = false := by
  cases s <;> simp_all [rank, isOpen]

theorem Lexer.State.rank_of_isOpen {s : State} (h : s.isOpen = false) : s.rank ≤ 2 := by
  cases s <;> simp_all [rank, isOpen]

theorem Lexer.State.eq_gap_of_rank {s : State} (h : s.rank ≤ 0) : s = .gap := by
  cases s <;> simp_all [rank]

theorem Lexer.State.plain_pending (s : State) : ∀ t ∈ s.pending, IsPlain t := by
  cases s <;> simp [pending, IsPlain]

theorem isWordChar_of_isLetter {c : Char} (h : isLetter c = true) : isWordChar c = true := by
  simp only [isLetter, Bool.or_eq_true] at h
  simp only [isWordChar, Bool.or_eq_true]
  exact Or.inl (Or.inl h)

theorem start_of_isLetter {c : Char} (h : isLetter c = true) : start d c = some ([], .word [c]) := by
  rw [start, if_pos (isWordChar_of_isLetter h)]

theorem breaks_of_isQuote {q : Char} (h : Mysql.isQuote q = true) : breaks q = true := by
  simp only [Mysql.isQuote, Bool.or_eq_true, decide_eq_true_eq] at h
  rcases h with (rfl | rfl) | rfl <;> decide

/-! ## Tokens of phrases -/

/-- The token is not the beginning of a name in square brackets and no name in backticks. -/
def Token.isCommon : Token → Bool
  | .sign c => c ≠ '['
  | .quoted q _ => q ≠ '\x60'
  | _ => true

/-- Tokens that the compiler writes itself: no parentheses, and no names in brackets or backticks. -/
def IsOwn (t : Token) : Prop := IsPlain t ∧ t.isCommon = true

theorem Lexer.State.own_pending (s : State) : ∀ t ∈ s.pending, IsOwn t := by
  cases s <;> simp [pending, IsOwn, IsPlain, Token.isCommon]

/-- A property of lists of tokens that those of the compiler have, and that is kept where lists are put
behind one another or in parentheses. -/
structure Tolerant (R : List Token → Prop) : Prop where
  own {ts : List Token} : (∀ t ∈ ts, IsOwn t) → R ts
  append {ts us : List Token} : R ts → R us → R (ts ++ us)
  paren {ts : List Token} : R ts → R (.opening :: (ts ++ [.closing]))

theorem Tolerant.nil {R : List Token → Prop} (hR : Tolerant R) : R [] := hR.own (by simp)

/-- Wherever the first edge allows the text to stand, it is read up to a place as the second edge says,
into tokens with a property. -/
def Tokenizes (d : Dialect) (R : List Token → Prop) (a b : Edge) (cs : List Char) : Prop :=
  ∀ s : State, s.rank ≤ a.rank → ∃ us s', run d s cs = some (us, s') ∧ s'.rank ≤ b.rank ∧ R us

section Tokenizes

variable {R : List Token → Prop}

theorem Tokenizes.weaken {a₁ a₂ b₁ b₂ : Edge} {cs : List Char} (h : Tokenizes d R a₂ b₁ cs)
    (ha : a₁.rank ≤ a₂.rank) (hb : b₁.rank ≤ b₂.rank) : Tokenizes d R a₁ b₂ cs := by
  intro s hs
  obtain ⟨us, s', hrun, hs', hus⟩ := h s (Nat.le_trans hs ha)
  exact ⟨us, s', hrun, Nat.le_trans hs' hb, hus⟩

variable (hR : Tolerant R)
include hR

theorem Tokenizes.append {a m b : Edge} {cs ds : List Char} (hc : Tokenizes d R a m cs)
    (hd : Tokenizes d R m b ds) : Tokenizes d R a b (cs ++ ds) := by
  intro s hs
  obtain ⟨us, s', hrun, hs', hus⟩ := hc s hs
  obtain ⟨vs, s'', hrun', hs'', hvs⟩ := hd s' hs'
  exact ⟨us ++ vs, s'', run_append_of_run hrun hrun', hs'', hR.append hus hvs⟩

/-- A text that starts with a break and is closed. -/
theorem tokenizes_of_breaks {c : Char} {cs : List Char} (hc : breaks c = true) {ts : List Token}
    (h : Closes d (c :: cs) ts) (hts : R ts) : Tokenizes d R .any .clean (c :: cs) := by
  intro s hs
  refine ⟨s.pending ++ ts, .gap, run_of_breaks (State.isOpen_of_rank hs) hc h, Nat.le_refl _, ?_⟩
  exact hR.append (hR.own s.own_pending) hts

theorem tokenizes_separator {c : Char} (h : isSeparator c = true) :
    Tokenizes d R .any .clean [c] := by
  have hstart : breaks c = true ∧ ∃ t, IsOwn t ∧ start d c = some ([t], .gap) := by
    simp only [isSeparator, List.mem_cons, List.not_mem_nil, or_false, decide_eq_true_eq] at h
    rcases h with rfl | rfl | rfl | rfl | rfl | rfl | rfl | rfl
    · exact ⟨rfl, .blank ' ', by simp [IsOwn, IsPlain, Token.isCommon], rfl⟩
    · exact ⟨rfl, .blank '\n', by simp [IsOwn, IsPlain, Token.isCommon], rfl⟩
    · exact ⟨rfl, .sign ',', by simp [IsOwn, IsPlain, Token.isCommon], rfl⟩
    · exact ⟨rfl, .sign ';', by simp [IsOwn, IsPlain, Token.isCommon], rfl⟩
    · exact ⟨rfl, .sign '.', by simp [IsOwn, IsPlain, Token.isCommon], rfl⟩
    · exact ⟨rfl, .sign '=', by simp [IsOwn, IsPlain, Token.isCommon], rfl⟩
    · exact ⟨rfl, .sign '<', by simp [IsOwn, IsPlain, Token.isCommon], rfl⟩
    · exact ⟨rfl, .sign '>', by simp [IsOwn, IsPlain, Token.isCommon], rfl⟩
  obtain ⟨hbreaks, t, ht, hstart⟩ := hstart
  have hcloses : Closes d [c] [t] := by simp [Closes, run, step, hstart]
  exact tokenizes_of_breaks hR hbreaks hcloses (hR.own (by simpa using ht))

theorem tokenizes_letter {c : Char} (h : isLetter c = true) : Tokenizes d R .word .word [c] := by
  intro s hs
  cases s with
  | gap =>
    exact ⟨[], .word [c], by simp [run, step, start_of_isLetter h], Nat.le_refl _, hR.nil⟩
  | word cs =>
    refine ⟨[], .word (cs ++ [c]), ?_, Nat.le_refl _, hR.nil⟩
    simp [run, step, isWordChar_of_isLetter h]
  | minus => exact absurd hs (by decide)
  | slash => exact absurd hs (by decide)
  | quoted q cs => exact absurd hs (by simp [State.rank, Edge.rank])
  | escaped q cs => exact absurd hs (by simp [State.rank, Edge.rank])

/-- A minus sign and what follows it, which is no second one. -/
theorem tokenizes_minus {c : Char} (h : isLetter c = true ∨ isSeparator c = true) :
    Tokenizes d R .clean .word ['-', c] := by
  have hne : c ≠ '-' := by
    rintro rfl
    rcases h with h | h <;> exact absurd h (by decide)
  have hfirst : step d .gap '-' = some ([], .minus) := rfl
  intro s hs
  obtain rfl := State.eq_gap_of_rank hs
  rcases h with h | h
  · have hsecond : step d .minus c = some ([.sign '-'], .word [c]) := by
      rw [step, if_neg hne, next, start_of_isLetter h]
      rfl
    refine ⟨[.sign '-'], .word [c], ?_, Nat.le_refl _,
      hR.own (by simp [IsOwn, IsPlain, Token.isCommon])⟩
    simp only [run, hfirst, hsecond, Option.bind_some, Option.map_some, List.nil_append,
      List.append_nil]
  · obtain ⟨us, s', hrun, hs', hus⟩ := tokenizes_separator (d := d) hR h .minus (Nat.le_refl _)
    refine ⟨us, s', ?_, Nat.le_trans hs' (by decide), hus⟩
    have hcs : run d .gap ('-' :: [c]) = (run d .minus [c]).map fun q => ([] ++ q.1, q.2) := by
      rw [run, hfirst, Option.bind_some]
    rw [hcs, hrun, Option.map_some, List.nil_append]

theorem tokenizes_quote {q : Char} (hq : Mysql.isQuote q = true) (hb : q ≠ '\x60') {escapes : Bool}
    (he : escapes = (d.backslashEscapes && q == '\'')) (s : List Char) :
    Tokenizes d R .any .clean (Text.Quoted.quote q escapes s) := by
  obtain ⟨ts, hts, -, hall⟩ := closes_quote hq hb he s
  refine tokenizes_of_breaks hR (breaks_of_isQuote hq) hts (hR.own fun t ht => ?_)
  have hquoted := hall t ht
  cases t <;> first | contradiction | simp_all [IsOwn, IsPlain, Token.isCommon, IsQuoted]

theorem tokenizes_paren {b : Edge} {cs : List Char} (h : Tokenizes d R .clean b cs)
    (hb : b.rank ≤ 2) : Tokenizes d R .any .clean ('(' :: (cs ++ [')'])) := by
  obtain ⟨us, s, hrun, hs, hus⟩ := h .gap (Nat.zero_le _)
  have hclose : run d s [')'] = some (s.pending ++ [.closing], .gap) :=
    run_of_breaks (State.isOpen_of_rank (Nat.le_trans hs hb)) rfl (by rfl)
  have hall : Closes d ('(' :: (cs ++ [')'])) (.opening :: ((us ++ s.pending) ++ [.closing])) := by
    have hopen : run d .gap ['('] = some ([.opening], .gap) := rfl
    have := run_append_of_run hopen (run_append_of_run hrun hclose)
    simpa [Closes] using this
  exact tokenizes_of_breaks hR rfl hall (hR.paren (hR.append hus (hR.own s.own_pending)))

/-- What holds of the tokens of verbatim texts and of holes holds of those of a phrase. -/
theorem Phrase.tokenizes {P : String → Prop} (hP : ∀ s, P s → Tokenizes d R .clean .any s.toList)
    {f : Piece.Spelling} (hf : ∀ k v, Tokenizes d R .clean .word (f k v).toList)
    {a b : Edge} {t : Template} (h : Phrase d P a b t) :
    ∀ k, Tokenizes d R a b (t.fill f k) := by
  induction h with
  | nil e =>
    intro k s hs
    exact ⟨[], s, rfl, hs, hR.nil⟩
  | seq _ _ iht ihu =>
    intro k
    rw [Template.fill_append]
    exact (iht k).append hR (ihu _)
  | weaken _ h₁ h₂ ih =>
    intro k
    exact (ih k).weaken h₁ h₂
  | separator c hc =>
    intro k
    exact tokenizes_separator hR hc
  | letter c hc =>
    intro k
    exact tokenizes_letter hR hc
  | minus c hc =>
    intro k
    exact tokenizes_minus hR hc
  | star =>
    intro k s hs
    obtain rfl := State.eq_gap_of_rank hs
    exact ⟨[.sign '*'], .gap, rfl, Nat.le_refl _, hR.own (by simp [IsOwn, IsPlain, Token.isCommon])⟩
  | verbatim s hs =>
    intro k
    rw [Template.fill_ofText]
    exact hP s hs
  | ident s =>
    intro k
    rw [Template.fill_ofText, quoteIdent, String.toList_ofList]
    exact tokenizes_quote hR (by decide) (by decide) (by simp) s.toList
  | literal s =>
    intro k
    rw [Template.fill_ofText, Dialect.quoteLiteral, String.toList_ofList]
    exact tokenizes_quote hR (by decide) (by decide) (by simp) s.toList
  | hole v =>
    intro k
    have hv : Template.fill f k [.hole v] = (f k v).toList := by simp [Template.fill]
    rw [hv]
    exact hf k v
  | paren _ ih =>
    rename_i t _
    intro k
    have ht : Template.fill f k (.char '(' :: (t ++ [.char ')'])) =
        '(' :: (Template.fill f k t ++ [')']) := by
      simp [Template.fill, Template.fill_append]
    rw [ht]
    exact tokenizes_paren hR (ih k) (Nat.le_refl _)

end Tokenizes

/-! ## Open parentheses -/

/-- The text is read as the edges say, and leaves the open parentheses alone. -/
def Balances (d : Dialect) (a b : Edge) (cs : List Char) : Prop :=
  Tokenizes d (fun us => ∃ ls, Nests us ls) a b cs

theorem tolerant_nests : Tolerant fun us => ∃ ls, Nests us ls where
  own h := ⟨_, nests_plain fun t ht => (h t ht).1⟩
  append := fun ⟨_, hls⟩ ⟨_, hms⟩ => ⟨_, hls.append hms⟩
  paren := fun ⟨_, hls⟩ => ⟨_, hls.group⟩

theorem balances_verbatim {s : String} (h : Closed d s) : Balances d .clean .any s.toList := by
  obtain ⟨ls, h⟩ := h
  rw [lumps?, Option.bind_eq_some_iff] at h
  obtain ⟨ts, hlex, hnest⟩ := h
  obtain ⟨us, s', hrun, hopen, rfl⟩ := run_of_lex? hlex
  intro s hs
  obtain rfl := State.eq_gap_of_rank hs
  refine ⟨us, s', hrun, State.rank_of_isOpen hopen, ?_⟩
  -- the token that is pending at the end is no parenthesis
  have hnests := nests_of_nest? hnest
  have hus := hnests [] []
  rw [nest_append] at hus
  cases hn : nest [[]] us with
  | none =>
    rw [hn] at hus
    contradiction
  | some st =>
    rw [hn, Option.bind_some] at hus
    obtain ⟨above, ms, rfl, hall⟩ := nest_below us [] [] hn
    cases above with
    | nil =>
      refine ⟨ms, ?_⟩
      intro ns st
      simpa using hall ns st
    | cons a above =>
      rw [List.cons_append, nests_plain s'.plain_pending] at hus
      simp at hus

/-- Whatever fills its holes as a word or a closed token would, a phrase leaves the open parentheses
alone. -/
theorem Phrase.balances {f : Piece.Spelling} (hf : ∀ k v, Balances d .clean .word (f k v).toList)
    {a b : Edge} {t : Template} (h : Phrase d (Closed d) a b t) :
    ∀ k, Balances d a b (t.fill f k) :=
  h.tokenizes tolerant_nests (fun _ => balances_verbatim) hf

end SqlKit
