import SqlKit.Proofs.Lexing
import SqlKit.Proofs.Quoting
import SqlKit.Proofs.Sqlite.Language

/-!
# The first statement of a text

Of a text with several statements the first is read.  Where a text is whole, its quotations closed and
nothing in it that SQLite might read as something longer, a semicolon behind it ends its last
statement, and what follows makes no difference.

    what is put together from whole texts is whole             (Draft.Phrased.isWhole_spelled)
    behind a whole text, what follows a semicolon adds no tokens       (Token.ofText_append)
    the language of tables reads first statements                      (Tables.readsFirst_language)
-/

namespace SqlKit

open Lexer

/-! ## Whole texts -/

/-- The text ends outside of quotes, and has no comments and no names in brackets or backticks. -/
def isWhole (s : String) : Bool := (lex? .sqlite s.toList).any (·.all Token.isCommon)

namespace Lexer

/-- From one state a text leads to another, with common tokens. -/
def Passes (s : State) (cs : List Char) (s' : State) : Prop :=
  ∃ ts, run .sqlite s cs = some (ts, s') ∧ ∀ t ∈ ts, t.isCommon = true

theorem passes_of_isWhole {s : String} (h : isWhole s = true) :
    ∃ s', Passes .gap s.toList s' ∧ s'.isOpen = false := by
  unfold isWhole at h
  rw [Option.any_eq_true] at h
  obtain ⟨ts, hlex, hall⟩ := h
  obtain ⟨us, s', hrun, hopen, rfl⟩ := run_of_lex? hlex
  rw [List.all_eq_true] at hall
  exact ⟨s', ⟨us, hrun, fun t ht => hall t (List.mem_append_left _ ht)⟩, hopen⟩

theorem isWhole_of_passes {s : String} {s' : State} (h : Passes .gap s.toList s')
    (hopen : s'.isOpen = false) : isWhole s = true := by
  obtain ⟨us, hrun, hall⟩ := h
  have hpending : ∀ t ∈ s'.pending, t.isCommon = true := by
    cases s' <;> simp [State.pending, Token.isCommon]
  rw [isWhole, lex?_of_run hrun hopen, Option.any_some, List.all_append, Bool.and_eq_true]
  exact ⟨List.all_eq_true.2 hall, List.all_eq_true.2 hpending⟩

theorem passes_nil {s s' : State} : Passes s [] s' ↔ s' = s := by
  constructor
  · rintro ⟨ts, hrun, -⟩
    exact (Prod.mk.inj (Option.some.inj hrun)).2.symm
  · rintro rfl
    exact ⟨[], rfl, by simp⟩

theorem passes_cons {s s' : State} {c : Char} {cs : List Char} :
    Passes s (c :: cs) s' ↔
      ∃ ts s₁, step .sqlite s c = some (ts, s₁) ∧ (∀ t ∈ ts, t.isCommon = true) ∧
        Passes s₁ cs s' := by
  constructor
  · rintro ⟨ts, hrun, hall⟩
    rw [run, Option.bind_eq_some_iff] at hrun
    obtain ⟨⟨us, s₁⟩, hstep, hrun⟩ := hrun
    rw [Option.map_eq_some_iff] at hrun
    obtain ⟨⟨vs, s₂⟩, hrun, heq⟩ := hrun
    cases heq
    exact ⟨us, s₁, hstep, fun t ht => hall t (List.mem_append_left _ ht),
      vs, hrun, fun t ht => hall t (List.mem_append_right _ ht)⟩
  · rintro ⟨us, s₁, hstep, hus, vs, hrun, hvs⟩
    refine ⟨us ++ vs, by rw [run, hstep, Option.bind_some, hrun, Option.map_some], fun t ht => ?_⟩
    exact (List.mem_append.1 ht).elim (hus t) (hvs t)

/-- Only a quote opens a quotation. -/
theorem isOpen_of_step {d : Dialect} {s s' : State} {c : Char} {ts : List Token}
    (hs : s.isOpen = false) (hc : Mysql.isQuote c = false) (h : step d s c = some (ts, s')) :
    s'.isOpen = false := by
  have hstart : ∀ {ts s'}, start d c = some (ts, s') → s'.isOpen = false := by
    intro ts s' h
    unfold start at h
    rw [hc] at h
    simp only [Bool.false_eq_true, if_false] at h
    repeat' split at h
    all_goals cases h <;> rfl
  have hnext : ∀ {ts s'}, next d s c = some (ts, s') → s'.isOpen = false := by
    intro ts s' h
    rw [next, Option.map_eq_some_iff] at h
    obtain ⟨p, hp, h⟩ := h
    cases h
    exact hstart hp
  cases s with
  | gap => exact hstart h
  | word cs =>
    rw [step] at h
    split at h
    · cases h
      rfl
    · exact hnext h
  | minus | slash =>
    rw [step] at h
    split at h
    · cases h
    · exact hnext h
  | quoted | escaped => cases hs

/-- Outside of quotations, characters that are no quotes can be left out. -/
theorem Passes.dropWhile {p : Char → Bool} (hp : ∀ c, p c = true → Mysql.isQuote c = false)
    {s s' : State} {cs : List Char} (h : Passes s cs s') (hs : s.isOpen = false) :
    ∃ s₁, s₁.isOpen = false ∧ Passes s₁ (cs.dropWhile p) s' := by
  induction cs generalizing s with
  | nil => exact ⟨s, hs, h⟩
  | cons c cs ih =>
    rw [List.dropWhile_cons]
    split
    · next hc =>
      obtain ⟨ts, s₁, hstep, -, hrest⟩ := passes_cons.1 h
      exact ih hrest (isOpen_of_step hs (hp c hc) hstep)
    · exact ⟨s, hs, h⟩

theorem step_of_isQuote {s : State} (hs : s.isOpen = false) {q : Char}
    (hq : Mysql.isQuote q = true) : step .sqlite s q = some (s.pending, .quoted q []) := by
  rw [step_of_breaks hs (breaks_of_isQuote hq), next, start_of_isQuote hq, Option.map_some,
    List.append_nil]

/-- Between quotes, other characters add to the token. -/
theorem Passes.of_quoted {q c : Char} {acc cs : List Char} {s' : State} (hc : c ≠ q)
    (h : Passes (.quoted q acc) (c :: cs) s') : ∃ acc', Passes (.quoted q acc') cs s' := by
  obtain ⟨ts, s₁, hstep, -, hrest⟩ := passes_cons.1 h
  rw [step, if_neg hc, if_neg (fun h => absurd h.1 (by decide))] at hstep
  cases hstep
  exact ⟨_, hrest⟩

/-- A closing quote ends the token, which then is a common one. -/
theorem Passes.of_close {q : Char} {acc cs : List Char} {s' : State}
    (h : Passes (.quoted q acc) (q :: cs) s') : Passes .gap cs s' ∧ q ≠ '`' := by
  obtain ⟨ts, s₁, hstep, hall, hrest⟩ := passes_cons.1 h
  rw [step, if_pos rfl] at hstep
  cases hstep
  exact ⟨hrest, by simpa [Token.isCommon] using hall⟩

/-- A quotation that is closed can be read. -/
theorem Passes.exists_readBody? {q : Char} (hq : Mysql.isQuote q = true) {acc cs : List Char}
    {s' : State} (h : Passes (.quoted q acc) cs s') (hopen : s'.isOpen = false) :
    ∃ u r, Text.Quoted.readBody? q false cs = some (u, r) ∧ Passes .gap r s' ∧ q ≠ '`' := by
  induction cs using Text.Quoted.readBody?.induct q false generalizing acc with
  | case1 =>
    rw [passes_nil.1 h] at hopen
    cases hopen
  | case2 => exact ⟨[], [], by simp [Text.Quoted.readBody?], h.of_close⟩
  | case3 c hc =>
    obtain ⟨acc', hrest⟩ := h.of_quoted hc
    rw [passes_nil.1 hrest] at hopen
    cases hopen
  | case4 r ih =>
    obtain ⟨hrest, -⟩ := h.of_close
    obtain ⟨ts, s₁, hstep, -, hagain⟩ := passes_cons.1 hrest
    rw [step_of_isQuote rfl hq] at hstep
    cases hstep
    obtain ⟨u, r', hread, hpass⟩ := ih hagain
    exact ⟨q :: u, r', by simp [Text.Quoted.readBody?, hread], hpass⟩
  | case5 d r hd =>
    exact ⟨[], d :: r, by simp [Text.Quoted.readBody?, hd], h.of_close⟩
  | case6 c d r hc he => exact absurd he.1 (by decide)
  | case7 c d r hc he ih =>
    obtain ⟨acc', hrest⟩ := h.of_quoted hc
    obtain ⟨u, r', hread, hpass⟩ := ih hrest
    exact ⟨c :: u, r', by simp [Text.Quoted.readBody?, hc, hread], hpass⟩

end Lexer

/-! ## Statements that are whole -/

theorem tolerant_common : Tolerant fun ts => ∀ t ∈ ts, t.isCommon = true where
  own h t ht := (h t ht).2
  append hts hus t ht := (List.mem_append.1 ht).elim (hts t) (hus t)
  paren hts t ht := by
    rcases List.mem_cons.1 ht with rfl | ht
    · rfl
    · rcases List.mem_append.1 ht with ht | ht
      · exact hts t ht
      · obtain rfl := List.mem_singleton.1 ht
        rfl

/-- What is put together from whole texts is whole. -/
theorem Draft.Phrased.isWhole_spelled {x : Draft} {a b : Edge}
    (h : x.Phrased .sqlite (fun t => isWhole t = true) a b) (hx : x.fault = none) (k : Nat) :
    isWhole (x.spelled .sqlite (Piece.placeholders .sqlite) k) = true := by
  have hverbatim (t : String) (ht : isWhole t = true) :
      Tokenizes .sqlite (fun ts => ∀ t ∈ ts, t.isCommon = true) .clean .any t.toList := by
    obtain ⟨s', ⟨us, hrun, hus⟩, hopen⟩ := passes_of_isWhole ht
    intro s hs
    obtain rfl := State.eq_gap_of_rank hs
    exact ⟨us, s', hrun, State.rank_of_isOpen hopen, hus⟩
  have hmark (k : Nat) (v : Value) : Tokenizes .sqlite (fun ts => ∀ t ∈ ts, t.isCommon = true)
      .clean .word (Piece.placeholders .sqlite k v).toList := by
    intro s hs
    obtain rfl := State.eq_gap_of_rank hs
    have hrun : run .sqlite .gap "?".toList = some ([.sign '?'], .gap) := by decide
    exact ⟨[.sign '?'], .gap, hrun, Nat.zero_le _, by simp [Token.isCommon]⟩
  have hphrase := (h hx).tokenizes tolerant_common hverbatim hmark
  obtain ⟨us, s', hrun, hrank, hus⟩ := hphrase k .gap (Nat.zero_le _)
  rw [← toList_spelled] at hrun
  have hle : b.rank ≤ 2 := by cases b <;> decide
  exact isWhole_of_passes ⟨us, hrun, hus⟩ (State.isOpen_of_rank (Nat.le_trans hrank hle))

namespace Sqlite

/-! ## Tokens of a text that goes on -/

namespace Token

theorem takeWhile_append_of_not {α : Type} {p : α → Bool} {x : α} (hx : p x = false)
    (l r : List α) : (l ++ x :: r).takeWhile p = l.takeWhile p := by
  induction l with
  | nil => simp [hx]
  | cons y l ih => rw [List.cons_append, List.takeWhile_cons, List.takeWhile_cons, ih]

theorem dropWhile_append_of_not {α : Type} {p : α → Bool} {x : α} (hx : p x = false)
    (l r : List α) : (l ++ x :: r).dropWhile p = l.dropWhile p ++ x :: r := by
  induction l with
  | nil => simp [hx]
  | cons y l ih =>
    rw [List.cons_append, List.dropWhile_cons, List.dropWhile_cons, ih]
    split <;> rfl

/-- A reader takes the same token off the front of a text if the text goes on with a semicolon, and
what it leaves goes on from a state outside of quotations. -/
def Stops (f : List Char → Token × List Char) (cs : List Char) (s' : State) : Prop :=
  ∃ t r, f cs = (t, r) ∧ (∀ tail, f (cs ++ ';' :: tail) = (t, r ++ ';' :: tail)) ∧ r <:+ cs ∧
    ∃ s, s.isOpen = false ∧ Passes s r s'

/-! ### Symbols -/

/-- The symbol at the front of a text. -/
def symbolAt (c : Char) (cs : List Char) : Token × List Char :=
  let two := String.ofList (c :: cs.take 1)
  if two ∈ pairs then (.symbol two, cs.drop 1) else (.symbol (String.ofList [c]), cs)

theorem eq_of_mem_pairs {cs : List Char} (h : String.ofList cs ∈ pairs) :
    ∃ c d, cs = [c, d] ∧ c ≠ ';' ∧ (d = '=' ∨ d = '>') := by
  have hlist : ∀ two ∈ pairs, ∃ c d, two.toList = [c, d] ∧ c ≠ ';' ∧ (d = '=' ∨ d = '>') := by
    simp only [pairs, List.forall_mem_cons]
    exact ⟨⟨'<', '=', by decide⟩, ⟨'>', '=', by decide⟩, ⟨'<', '>', by decide⟩,
      ⟨'!', '=', by decide⟩, ⟨'=', '=', by decide⟩, by simp⟩
  simpa using hlist _ h

theorem stops_symbolAt (c : Char) {cs : List Char} {s s' : State} (hs : s.isOpen = false)
    (h : Passes s cs s') : Stops (symbolAt c) cs s' := by
  cases cs with
  | nil =>
    have hone : String.ofList [c] ∉ pairs := by
      intro h
      obtain ⟨c', d', h, -, -⟩ := eq_of_mem_pairs h
      cases h
    have htwo : String.ofList [c, ';'] ∉ pairs := by
      intro h
      obtain ⟨c', d', h, -, hd⟩ := eq_of_mem_pairs h
      cases h
      exact absurd hd (by decide)
    exact ⟨_, [], if_neg hone, fun tail => if_neg htwo, List.suffix_refl _, s, hs, h⟩
  | cons d cs =>
    by_cases hpair : String.ofList [c, d] ∈ pairs
    · obtain ⟨c', d', heq, -, hd⟩ := eq_of_mem_pairs hpair
      cases heq
      have hquote : Mysql.isQuote d = false := by rcases hd with rfl | rfl <;> decide
      obtain ⟨ts, s₁, hstep, -, hrest⟩ := passes_cons.1 h
      exact ⟨_, cs, if_pos hpair, fun tail => if_pos hpair, List.suffix_cons d cs, s₁,
        isOpen_of_step hs hquote hstep, hrest⟩
    · exact ⟨_, d :: cs, if_neg hpair, fun tail => if_neg hpair, List.suffix_refl _, s, hs, h⟩

/-! ### Words and numbers -/

/-- What no quote has, a character that has it is no quote. -/
theorem isQuote_eq_false {p : Char → Bool} (hp : ['\'', '"', '\x60'].any p = false) {c : Char}
    (hc : p c = true) : Mysql.isQuote c = false := by
  rw [Mysql.isQuote, Bool.eq_false_iff, Ne, Bool.or_eq_true, Bool.or_eq_true]
  simp only [List.any_eq_false, List.forall_mem_cons] at hp
  rintro ((hq | hq) | hq)
  all_goals
    rw [of_decide_eq_true hq] at hc
    simp_all

/-- What consists of characters of one kind, which are no quotes. -/
theorem stops_while (p : Char → Bool) (hp : ['\'', '"', '\x60', ';'].any p = false)
    (g : List Char → Token) {cs : List Char} {s s' : State} (hs : s.isOpen = false)
    (h : Passes s cs s') : Stops (fun cs => (g (cs.takeWhile p), cs.dropWhile p)) cs s' := by
  have hquotes : ['\'', '"', '\x60'].any p = false := by simp_all
  have hsemicolon : p ';' = false := by simp_all
  refine ⟨_, _, rfl, fun tail => ?_, List.dropWhile_suffix _,
    h.dropWhile (fun _ => isQuote_eq_false hquotes) hs⟩
  dsimp only
  rw [takeWhile_append_of_not hsemicolon, dropWhile_append_of_not hsemicolon]

/-! ### Names and literals in quotes -/

theorem stops_readBody? {q : Char} (hq : Mysql.isQuote q = true) {f : List Char → Token × List Char}
    (g : List Char → Token)
    (hf : ∀ {cs u r}, Text.Quoted.readBody? q false cs = some (u, r) → f cs = (g u, r))
    {acc cs : List Char} {s' : State} (h : Passes (.quoted q acc) cs s') (hopen : s'.isOpen = false) :
    Stops f cs s' := by
  have hne : q ≠ ';' ∧ q ≠ '\\' := by
    simp only [Mysql.isQuote, Bool.or_eq_true, decide_eq_true_eq] at hq
    rcases hq with (rfl | rfl) | rfl <;> decide
  obtain ⟨u, r, hread, hpass, -⟩ := h.exists_readBody? hq hopen
  refine ⟨g u, r, hf hread, fun tail => hf ?_, Text.Quoted.suffix_of_readBody? hread, .gap, rfl, hpass⟩
  obtain ⟨rfl, hr⟩ := Text.Quoted.eq_body_of_readBody? hread
  rw [List.append_assoc, List.cons_append]
  refine Text.Quoted.readBody?_body hne.2 false u _ ?_
  cases r with
  | nil => simpa using Ne.symm hne.1
  | cons d r => exact hr

/-! ### Tokens -/

theorem Stops.congr {f f' : List Char → Token × List Char} {cs : List Char} {s' : State}
    (h : Stops f cs s') (hf : f' cs = f cs)
    (hf' : ∀ tail, f' (cs ++ ';' :: tail) = f (cs ++ ';' :: tail)) : Stops f' cs s' := by
  obtain ⟨t, r, ht, hmore, hr⟩ := h
  exact ⟨t, r, hf.trans ht, fun tail => (hf' tail).trans (hmore tail), hr⟩

theorem first_eq (c : Char) (cs : List Char) :
    first c cs =
      if c.isDigit then
        match Digits.value? ((c :: cs).takeWhile Char.isDigit) with
        | some n => (.number n, cs.dropWhile Char.isDigit)
        | none => symbolAt c cs
      else if isWordChar c then
        (ofWord ((c :: cs).takeWhile isWordChar), cs.dropWhile isWordChar)
      else match readIdent? (c :: cs), Dialect.sqlite.readLiteral? (c :: cs) with
        | some (s, rest), _ => (.name (String.ofList s), rest)
        | none, some (s, rest) => (.literal (String.ofList s), rest)
        | none, none => symbolAt c cs := rfl

theorem stops_first_of_isQuote {c : Char} (hc : Mysql.isQuote c = true) {cs : List Char} {s' : State}
    (h : Passes (.quoted c []) cs s') (hopen : s'.isOpen = false) : Stops (first c) cs s' := by
  have hdigit : ¬c.isDigit = true := fun h => by
    rw [isQuote_eq_false (p := Char.isDigit) (by decide) h] at hc
    cases hc
  have hword : ¬isWordChar c = true := fun h => by
    rw [isQuote_eq_false (p := isWordChar) (by decide) h] at hc
    cases hc
  obtain ⟨-, -, -, -, hbacktick⟩ := h.exists_readBody? hc hopen
  have hfirst (cs : List Char) : first c cs =
      match readIdent? (c :: cs), Dialect.sqlite.readLiteral? (c :: cs) with
      | some (s, rest), _ => (.name (String.ofList s), rest)
      | none, some (s, rest) => (.literal (String.ofList s), rest)
      | none, none => symbolAt c cs := by
    rw [first_eq, if_neg hdigit, if_neg hword]
  by_cases hdouble : c = '"'
  · subst hdouble
    refine stops_readBody? hc (fun u => .name (String.ofList u)) (fun {cs u r} hread => ?_) h hopen
    rw [hfirst, readIdent?, Text.Quoted.read?, if_pos rfl, hread]
  · have hsingle : c = '\'' := by simpa [Mysql.isQuote, hdouble, hbacktick] using hc
    subst hsingle
    have hescapes : Dialect.sqlite.backslashEscapes = false := rfl
    refine stops_readBody? hc (fun u => .literal (String.ofList u)) (fun {cs u r} hread => ?_) h hopen
    rw [hfirst, readIdent?, Text.Quoted.read?, if_neg hdouble, Dialect.readLiteral?,
      Text.Quoted.read?, if_pos rfl, hescapes, hread]

section Unquoted

variable {c : Char} {cs : List Char} {s s' : State} (hs : s.isOpen = false) (h : Passes s cs s')
include hs h

theorem stops_first_of_isDigit (hc : c.isDigit = true) : Stops (first c) cs s' := by
  have hfirst (cs : List Char) : first c cs =
      match Digits.value? ((c :: cs).takeWhile Char.isDigit) with
      | some n => (.number n, cs.dropWhile Char.isDigit)
      | none => symbolAt c cs := by
    rw [first_eq, if_pos hc]
  have htake (tail : List Char) : (c :: (cs ++ ';' :: tail)).takeWhile Char.isDigit =
      (c :: cs).takeWhile Char.isDigit := takeWhile_append_of_not (by decide) (c :: cs) tail
  cases hvalue : Digits.value? ((c :: cs).takeWhile Char.isDigit) with
  | none =>
    refine (stops_symbolAt c hs h).congr ?_ fun tail => ?_
    · rw [hfirst, hvalue]
    · rw [hfirst, htake, hvalue]
  | some n =>
    refine (stops_while Char.isDigit (by decide) (fun _ => .number n) hs h).congr ?_ fun tail => ?_
    · rw [hfirst, hvalue]
    · rw [hfirst, htake, hvalue]

theorem stops_first_of_isWordChar (hdigit : ¬c.isDigit = true) (hc : isWordChar c = true) :
    Stops (first c) cs s' := by
  refine (stops_while isWordChar (by decide) (fun w => ofWord (c :: w)) hs h).congr ?_ fun tail => ?_
  all_goals rw [first_eq, if_neg hdigit, if_pos hc, List.takeWhile_cons_of_pos hc]

theorem stops_first_of_not (hdigit : ¬c.isDigit = true) (hword : ¬isWordChar c = true)
    (hquote : Mysql.isQuote c = false) : Stops (first c) cs s' := by
  have hident (cs : List Char) : readIdent? (c :: cs) = none := by
    refine if_neg ?_
    rintro rfl
    cases hquote
  have hliteral (cs : List Char) : Dialect.sqlite.readLiteral? (c :: cs) = none := by
    refine if_neg ?_
    rintro rfl
    cases hquote
  refine (stops_symbolAt c hs h).congr ?_ fun tail => ?_
  all_goals rw [first_eq, if_neg hdigit, if_neg hword, hident, hliteral]

end Unquoted

/-- The token at the front of a text is the same if the text goes on behind it with a semicolon. -/
theorem stops_first {c : Char} {cs : List Char} {s s' : State} (hs : s.isOpen = false)
    (h : Passes s (c :: cs) s') (hopen : s'.isOpen = false) : Stops (first c) cs s' := by
  obtain ⟨ts, s₁, hstep, -, hrest⟩ := passes_cons.1 h
  cases hquote : Mysql.isQuote c with
  | true =>
    rw [step_of_isQuote hs hquote] at hstep
    cases hstep
    exact stops_first_of_isQuote hquote hrest hopen
  | false =>
    have hs₁ := isOpen_of_step hs hquote hstep
    by_cases hdigit : c.isDigit = true
    · exact stops_first_of_isDigit hs₁ hrest hdigit
    · by_cases hword : isWordChar c = true
      · exact stops_first_of_isWordChar hs₁ hrest hdigit hword
      · exact stops_first_of_not hs₁ hrest hdigit hword hquote

/-! ### Texts -/

theorem first_semicolon (tail : List Char) : (first ';' tail).1 = .symbol ";" := by
  rw [first_eq, if_neg (by decide), if_neg (by decide)]
  have hpair : String.ofList (';' :: tail.take 1) ∉ pairs := by
    intro h
    obtain ⟨c, d, heq, hc, -⟩ := eq_of_mem_pairs h
    exact hc (List.cons.inj heq).1.symm
  exact congrArg Prod.fst (if_neg hpair)

theorem bytesTo_append (cs r tail : List Char) :
    bytesTo (cs ++ tail) (r ++ tail) = bytesTo cs r := by
  have hle : cs.length - r.length ≤ cs.length := Nat.sub_le ..
  rw [bytesTo, bytesTo, List.length_append, List.length_append, Nat.add_sub_add_right,
    List.take_append_of_le_length hle]

/-- The tokens end at a semicolon behind a text, whatever bounds their number. -/
theorem scan_append {cs : List Char} {s s' : State} (hs : s.isOpen = false) (h : Passes s cs s')
    (hopen : s'.isOpen = false) (tail : List Char) {fuel fuel' : Nat} (hfuel : cs.length ≤ fuel)
    (hfuel' : cs.length < fuel') (place : Nat) :
    scan fuel' place (cs ++ ';' :: tail) = scan fuel place cs := by
  induction hn : cs.length using Nat.strongRecOn generalizing cs s fuel fuel' place with
  | _ n ih =>
    subst hn
    obtain ⟨fuel', rfl⟩ := Nat.exists_eq_add_one_of_ne_zero (Nat.ne_zero_of_lt hfuel')
    cases cs with
    | nil =>
      have hscan : scan fuel place [] = [] := by cases fuel <;> rfl
      rw [hscan, List.nil_append, scan, if_neg (by decide)]
      exact if_pos (first_semicolon tail)
    | cons c cs =>
      obtain ⟨fuel, rfl⟩ := Nat.exists_eq_add_one_of_ne_zero (Nat.ne_zero_of_lt hfuel)
      rw [List.length_cons] at hfuel hfuel'
      rw [List.cons_append, scan, scan]
      by_cases hblank : Text.isBlank c = true
      · have hquote : Mysql.isQuote c = false := isQuote_eq_false (by decide) hblank
        obtain ⟨ts, s₁, hstep, -, hrest⟩ := passes_cons.1 h
        rw [if_pos hblank, if_pos hblank]
        exact ih cs.length (by simp) (isOpen_of_step hs hquote hstep) hrest (by omega) (by omega) _ rfl
      · obtain ⟨t, r, ht, hmore, hr, s₁, hs₁, hrest⟩ := stops_first hs h hopen
        have hlength := hr.length_le
        rw [if_neg hblank, if_neg hblank, ht, hmore tail]
        dsimp only
        split
        · rfl
        · rw [← List.cons_append, bytesTo_append]
          have hfuel : r.length ≤ fuel := by omega
          rw [ih r.length (by simp; omega) hs₁ hrest hfuel (by omega) _ rfl]

/-- Behind a whole text, what follows a semicolon adds no tokens. -/
theorem ofText_append {t : String} (ht : isWhole t = true) (rest : String) :
    ofText (t ++ ";" ++ rest) = ofText t := by
  obtain ⟨s', hpass, hopen⟩ := passes_of_isWhole ht
  have htext : (t ++ ";" ++ rest).toList = t.toList ++ ';' :: rest.toList := by simp
  have hlength : t.toList.length < (t ++ ";" ++ rest).length := by
    rw [← String.length_toList, htext, List.length_append, List.length_cons]
    omega
  rw [ofText, ofText, htext]
  exact scan_append rfl hpass hopen rest.toList (Nat.le_of_eq String.length_toList) hlength 0

end Token

/-! ## Languages that read first statements -/

/-- The words of the statements that begin and end transactions. -/
def borderWords : List String := ["BEGIN", "COMMIT", "ROLLBACK"]

/-- What preparing relies on: of a text with several statements the first is compiled.  It is that of
the text up to a semicolon if that text is whole, and is one that begins or ends a transaction or
starts like a statement on rows. -/
def Language.ReadsFirst {δ : Type} (lang : Language δ) : Prop :=
  ∀ t rest x, isWhole t = true → t ∈ borderWords ∨ IsRowText t →
    (lang (t ++ ";" ++ rest) x).toOption = (lang t x).toOption

namespace Tables

/-- But for its errors, a statement does not depend on its text. -/
theorem toOption_prepare (sql sql' : String) (ts : Tables) (s : Statement) :
    (prepare sql ts s).toOption = (prepare sql' ts s).toOption := by
  cases s with
  | create name column place =>
    unfold prepare
    dsimp only
    split <;> rfl
  | _ => rfl

theorem readsFirst_language : language.ReadsFirst := by
  intro t rest ts ht _
  have htokens := Token.ofText_append ht rest
  unfold language Statement.ofText?
  rw [htokens]
  dsimp only
  split
  · next s _ => exact toOption_prepare _ _ ts s
  · show (none : Option (Prepared Tables)) = none
    rfl

end Tables

end Sqlite

end SqlKit
