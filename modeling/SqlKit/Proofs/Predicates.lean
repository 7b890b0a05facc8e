import SqlKit.Proofs.Parts

/-!
# Texts of which predicates consist

What the reader makes of columns, of literals and placeholders and of texts in parentheses: lumps that
neither connect nor separate.  Whatever stands for a value is read as such lumps, in either mode of the
compiler.

    the text of a column reads as calm lumps, the first of them a quotation    (column_reads)
    literals and placeholders read as calm lumps                       (fills_literals, fills_placeholders)
-/

namespace SqlKit

open Lexer Chain

variable {d : Dialect} {f : Piece.Spelling}

namespace Draft

theorem toList_spelled_paren {x : Draft} (h : x.fault = none) (k : Nat) :
    ((paren x).spelled d f k).toList = '(' :: ((x.spelled d f k).toList ++ [')']) := by
  have hp : (paren x).template d = .char '(' :: (x.template d ++ [.char ')']) := by
    rw [paren, append_of_sound h, append_of_sound (by rfl)]
    simp [template, text, Template.ofPieces, Template.ofPiece, Template.ofText]
  rw [toList_spelled, hp, toList_spelled]
  simp [Template.fill, Template.fill_append]

theorem params_paren {x : Draft} (h : x.fault = none) : (paren x).params = x.params := by
  rw [paren, append_of_sound h, append_of_sound (by rfl)]
  simp [params, text, List.filterMap_cons, Piece.value?]

end Draft

/-! ## Texts and their lumps -/

/-- The text reads as these lumps. -/
def Reads (d : Dialect) (cs : List Char) (ls : List Lump) : Prop :=
  ∃ ts, lex? d cs = some ts ∧ Nests ts ls

/-- The text reads as these lumps and is closed. -/
def ReadsClosed (d : Dialect) (cs : List Char) (ls : List Lump) : Prop :=
  ∃ ts, Closes d cs ts ∧ Nests ts ls

/-- The text reads as lumps that neither connect nor separate. -/
def ReadsCalm (d : Dialect) (cs : List Char) : Prop := ∃ ls, Reads d cs ls ∧ ∀ l ∈ ls, l.Calm

/-- The text reads as such lumps and is closed. -/
def ReadsCalmClosed (d : Dialect) (cs : List Char) : Prop :=
  ∃ ls, ReadsClosed d cs ls ∧ ∀ l ∈ ls, l.Calm

theorem ReadsClosed.reads {cs : List Char} {ls : List Lump} (h : ReadsClosed d cs ls) :
    Reads d cs ls := by
  obtain ⟨ts, hts, hls⟩ := h
  exact ⟨ts, hts.lex?, hls⟩

theorem ReadsClosed.append {a b : List Char} {ls ms : List Lump} (ha : ReadsClosed d a ls)
    (hb : ReadsClosed d b ms) : ReadsClosed d (a ++ b) (ls ++ ms) := by
  obtain ⟨ts, hts, hls⟩ := ha
  obtain ⟨us, hus, hms⟩ := hb
  exact ⟨ts ++ us, hts.append hus, hls.append hms⟩

theorem ReadsClosed.append_reads {a b : List Char} {ls ms : List Lump} (ha : ReadsClosed d a ls)
    (hb : Reads d b ms) : Reads d (a ++ b) (ls ++ ms) := by
  obtain ⟨ts, hts, hls⟩ := ha
  obtain ⟨us, hus, hms⟩ := hb
  exact ⟨ts ++ us, hts.lex?_append hus, hls.append hms⟩

theorem Reads.append_closed {a b : List Char} {c : Char} {ls ms : List Lump} (ha : Reads d a ls)
    (hb : ReadsClosed d (c :: b) ms) (hc : breaks c = true) :
    ReadsClosed d (a ++ c :: b) (ls ++ ms) := by
  obtain ⟨ts, hts, hls⟩ := ha
  obtain ⟨us, hus, hms⟩ := hb
  exact ⟨ts ++ us, closes_append_of_breaks hts hus hc, hls.append hms⟩

theorem calm_append {ls ms : List Lump} (hl : ∀ l ∈ ls, l.Calm) (hm : ∀ m ∈ ms, m.Calm) :
    ∀ l ∈ ls ++ ms, l.Calm := by
  intro l h
  rcases List.mem_append.mp h with h | h
  · exact hl l h
  · exact hm l h

theorem ReadsCalmClosed.reads {cs : List Char} (h : ReadsCalmClosed d cs) : ReadsCalm d cs := by
  obtain ⟨ls, hls, hcalm⟩ := h
  exact ⟨ls, hls.reads, hcalm⟩

theorem ReadsCalmClosed.append {a b : List Char} (ha : ReadsCalmClosed d a)
    (hb : ReadsCalmClosed d b) : ReadsCalmClosed d (a ++ b) := by
  obtain ⟨ls, hls, hl⟩ := ha
  obtain ⟨ms, hms, hm⟩ := hb
  exact ⟨ls ++ ms, hls.append hms, calm_append hl hm⟩

theorem ReadsCalmClosed.append_reads {a b : List Char} (ha : ReadsCalmClosed d a)
    (hb : ReadsCalm d b) : ReadsCalm d (a ++ b) := by
  obtain ⟨ls, hls, hl⟩ := ha
  obtain ⟨ms, hms, hm⟩ := hb
  exact ⟨ls ++ ms, hls.append_reads hms, calm_append hl hm⟩

theorem ReadsCalm.append_closed {a b : List Char} {c : Char} (ha : ReadsCalm d a)
    (hb : ReadsCalmClosed d (c :: b)) (hc : breaks c = true) : ReadsCalmClosed d (a ++ c :: b) := by
  obtain ⟨ls, hls, hl⟩ := ha
  obtain ⟨ms, hms, hm⟩ := hb
  exact ⟨ls ++ ms, hls.append_closed hms hc, calm_append hl hm⟩

/-- Parentheses around a text make one lump of it. -/
theorem Reads.paren {cs : List Char} {ls : List Lump} (h : Reads d cs ls) :
    ReadsClosed d ('(' :: (cs ++ [')'])) [Chain.group ls] := by
  obtain ⟨ts, hts, hls⟩ := h
  have hclose : Closes d [')'] [.closing] := rfl
  have hopen : Closes d ['('] [.opening] := rfl
  have hall : Closes d ('(' :: (cs ++ [')'])) (.opening :: (ts ++ [.closing])) :=
    hopen.append (closes_append_of_breaks hts hclose rfl)
  exact ⟨_, hall, hls.group⟩

theorem ofText?_of_reads {s : String} {ls : List Lump} (h : Reads d s.toList ls) :
    Chain.ofText? d s = ofLumps? ls := by
  obtain ⟨ts, hts, hls⟩ := h
  rw [Chain.ofText?, lumps?, hts, Option.bind_some, nest?_of_nests hls, Option.bind_some]

theorem reads_of_ofText? {s : String} {c : Chain} (h : Chain.ofText? d s = some c) :
    ∃ ls, Reads d s.toList ls ∧ ofLumps? ls = some c := by
  obtain ⟨ls, hls, hc⟩ := Option.bind_eq_some_iff.mp h
  obtain ⟨ts, hts, hn⟩ := Option.bind_eq_some_iff.mp hls
  exact ⟨ls, ⟨ts, hts, nests_of_nest? hn⟩, hc⟩

/-- A text of words and signs. -/
theorem readsClosed_plain {s : String} {t : List Token} (h : Closes d s.toList t)
    (ht : ∀ u ∈ t, IsPlain u) : ReadsClosed d s.toList (t.map .token) :=
  ⟨t, h, nests_plain ht⟩

/-- A text of calm words and signs. -/
theorem readsCalm_plain {s : String} (t : List Token) (h : lex? d s.toList = some t)
    (ht : ∀ u ∈ t, IsPlain u ∧ (Lump.token u).Calm) : ReadsCalm d s.toList := by
  refine ⟨t.map .token, ⟨t, h, nests_plain fun u hu => (ht u hu).1⟩, ?_⟩
  intro l hl
  obtain ⟨u, hu, rfl⟩ := List.mem_map.mp hl
  exact (ht u hu).2

theorem readsCalmClosed_plain {s : String} (t : List Token) (h : Closes d s.toList t)
    (ht : ∀ u ∈ t, IsPlain u ∧ (Lump.token u).Calm) : ReadsCalmClosed d s.toList := by
  refine ⟨t.map .token, readsClosed_plain h fun u hu => (ht u hu).1, ?_⟩
  intro l hl
  obtain ⟨u, hu, rfl⟩ := List.mem_map.mp hl
  exact (ht u hu).2

/-- A text in any phrase reads as some lumps. -/
theorem exists_reads_of_balances {b : Edge} {cs : List Char} (h : Balances d .clean b cs)
    (hb : b.rank ≤ 2) : ∃ ls, Reads d cs ls := by
  obtain ⟨us, s, hrun, hs, ls, hls⟩ := h .gap (Nat.zero_le _)
  have hlex := lex?_of_run hrun (State.isOpen_of_rank (Nat.le_trans hs hb))
  exact ⟨_, _, hlex, hls.append (nests_plain s.plain_pending)⟩

/-! ## Columns -/

/-- Lumps that are calm, the first of them a quotation. -/
def Opens (ls : List Lump) : Prop :=
  ∃ q cs ms, ls = .token (.quoted q cs) :: ms ∧ ∀ m ∈ ms, Lump.Calm m

theorem Opens.append {ls ms : List Lump} (hl : Opens ls) (hm : ∀ m ∈ ms, m.Calm) : Opens (ls ++ ms) := by
  obtain ⟨q, cs, ns, rfl, hns⟩ := hl
  exact ⟨q, cs, ns ++ ms, rfl, calm_append hns hm⟩

theorem Opens.calm {ls : List Lump} (h : Opens ls) : ∀ l ∈ ls, l.Calm := by
  obtain ⟨q, cs, ms, rfl, hms⟩ := h
  intro l hl
  rcases List.mem_cons.mp hl with rfl | hl
  · exact Lump.calm_quoted q cs
  · exact hms l hl

theorem opens_of_quoted {ts : List Token} (hne : ts ≠ []) (h : ∀ t ∈ ts, IsQuoted t) :
    Opens (ts.map .token) := by
  have hall : ∀ t ∈ ts, ∃ q cs, t = .quoted q cs := by
    intro t ht
    have := h t ht
    cases t <;> first | contradiction | exact ⟨_, _, rfl⟩
  cases ts with
  | nil => exact absurd rfl hne
  | cons t ts =>
    obtain ⟨q, cs, rfl⟩ := hall t (by simp)
    refine ⟨q, cs, ts.map .token, rfl, ?_⟩
    intro m hm
    obtain ⟨u, hu, rfl⟩ := List.mem_map.mp hm
    obtain ⟨p, ds, rfl⟩ := hall u (by simp [hu])
    exact Lump.calm_quoted p ds

theorem plain_of_quoted {ts : List Token} (h : ∀ t ∈ ts, IsQuoted t) : ∀ t ∈ ts, IsPlain t := by
  intro t ht
  have := h t ht
  cases t <;> first | contradiction | simp [IsPlain]

theorem ident_reads (s : String) :
    ∃ ls, ReadsClosed d (quoteIdent s).toList ls ∧ Opens ls := by
  obtain ⟨ts, hts, hne, hall⟩ := closes_ident (d := d) s
  exact ⟨_, readsClosed_plain hts (plain_of_quoted hall), opens_of_quoted hne hall⟩

theorem column_reads (c : Column) : ∃ ls, ReadsClosed d c.text.toList ls ∧ Opens ls := by
  unfold Column.text
  cases c.table with
  | none => exact ident_reads c.name
  | some t =>
    obtain ⟨ls, hls, hopens⟩ := ident_reads (d := d) t.reference
    obtain ⟨ms, hms, hcalm⟩ := ident_reads (d := d) c.name
    have hdot : ReadsClosed d ".".toList [.token (.sign '.')] :=
      readsClosed_plain (t := [.sign '.']) rfl (by simp [IsPlain])
    refine ⟨ls ++ [.token (.sign '.')] ++ ms, ?_, (hopens.append ?_).append hcalm.calm⟩
    · rw [String.toList_append, String.toList_append]
      exact (hls.append hdot).append hms
    · intro m hm
      obtain rfl := List.mem_singleton.mp hm
      exact Lump.calm_sign (by decide)

/-! ## What stands for values -/

/-- What takes the place of a value is read as calm lumps and leaves the parentheses alone. -/
def Fills (d : Dialect) (f : Piece.Spelling) : Prop :=
  ∀ k v, ReadsCalm d (f k v).toList ∧ Balances d .clean .word (f k v).toList

theorem run_word (cs : List Char) {ds : List Char} (h : ∀ c ∈ ds, isWordChar c = true) :
    run d (.word cs) ds = some ([], .word (cs ++ ds)) := by
  induction ds generalizing cs with
  | nil => simp [run]
  | cons c ds ih =>
    have hstep : step d (.word cs) c = some ([], .word (cs ++ [c])) := by
      rw [step, if_pos (h c (by simp))]
    rw [run, hstep, Option.bind_some, ih _ fun e he => h e (by simp [he])]
    simp

theorem run_gap_word {c : Char} {cs : List Char} (h : ∀ e ∈ c :: cs, isWordChar e = true) :
    run d .gap (c :: cs) = some ([], .word (c :: cs)) := by
  have hstart : step d .gap c = some ([], .word [c]) := by
    rw [step, start, if_pos (h c (by simp))]
  rw [run, hstart, Option.bind_some, run_word _ fun e he => h e (by simp [he])]
  simp

/-- A word that starts with no letter is no keyword. -/
theorem calm_word {c : Char} (hc : c.toUpper ∉ ['A', 'B', 'C', 'E', 'O']) (cs : List Char) :
    (Lump.token (.word (c :: cs))).Calm := by
  refine ⟨rfl, ?_⟩
  intro w hw
  simp only [Lump.isWord, List.map_cons, decide_eq_false_iff_not]
  intro h
  have heads : ∀ w ∈ ["CASE", "END", "BETWEEN", "AND", "OR"],
      w.toList.head?.all (· ∈ ['A', 'B', 'C', 'E', 'O']) = true := by decide
  have hhead := heads w hw
  rw [← h] at hhead
  exact hc (by simpa using hhead)

theorem reads_word {c : Char} (hc : c.toUpper ∉ ['A', 'B', 'C', 'E', 'O']) {w : List Char}
    (h : (c :: w).all isWordChar = true) : ReadsCalm d (c :: w) := by
  have hrun := run_gap_word (d := d) (List.all_eq_true.mp h)
  refine ⟨[.token (.word (c :: w))], ⟨_, lex?_of_run hrun rfl, ?_⟩, ?_⟩
  · exact nests_plain (t := [.word (c :: w)]) (by simp [IsPlain])
  · intro l hl
    obtain rfl := List.mem_singleton.mp hl
    exact calm_word hc w

theorem isWordChar_digits (n : Nat) : ∀ c ∈ Digits.digits n, isWordChar c = true :=
  fun c hc => isWordChar_of_isLetter (isLetter_of_isDigit (isDigit_digits c hc))

theorem fills_placeholders (d : Dialect) : Fills d (Piece.placeholders d) := by
  intro k v
  have word : ∀ {c : Char} {cs : List Char}, (∀ e ∈ c :: cs, isWordChar e = true) →
      Balances d .clean .word (c :: cs) := by
    intro c cs h s hs
    obtain rfl := State.eq_gap_of_rank hs
    exact ⟨[], .word (c :: cs), run_gap_word h, Nat.le_refl _, _, nests_nil⟩
  cases d with
  | postgres =>
    have htext : (Piece.placeholders .postgres k v).toList = '$' :: Digits.digits k := by
      simp [Piece.placeholders, Dialect.placeholder, Digits.text]
    have hall : ∀ e ∈ '$' :: Digits.digits k, isWordChar e = true := by
      intro e he
      rcases List.mem_cons.mp he with rfl | he
      · decide
      · exact isWordChar_digits k e he
    rw [htext]
    exact ⟨reads_word (by decide) (List.all_eq_true.mpr hall), word hall⟩
  | mysql =>
    have htext : (Piece.placeholders .mysql k v).toList = ['%', 's'] := by
      simp [Piece.placeholders, Dialect.placeholder]
    rw [htext]
    refine ⟨⟨[.token (.sign '%'), .token (.word ['s'])], ⟨_, rfl, ?_⟩, ?_⟩, ?_⟩
    · exact nests_plain (t := [.sign '%', .word ['s']]) (by simp [IsPlain])
    · intro l hl
      simp only [List.mem_cons, List.not_mem_nil, or_false] at hl
      rcases hl with rfl | rfl
      · exact Lump.calm_sign (by decide)
      · exact calm_word (by decide) []
    · intro s hs
      obtain rfl := State.eq_gap_of_rank hs
      exact ⟨[.sign '%'], .word ['s'], rfl, Nat.le_refl _, _, nests_plain (by simp [IsPlain])⟩
  | sqlite =>
    have htext : (Piece.placeholders .sqlite k v).toList = ['?'] := by
      simp [Piece.placeholders, Dialect.placeholder]
    rw [htext]
    refine ⟨⟨[.token (.sign '?')], ⟨_, rfl, ?_⟩, ?_⟩, ?_⟩
    · exact nests_plain (t := [.sign '?']) (by simp [IsPlain])
    · intro l hl
      obtain rfl := List.mem_singleton.mp hl
      exact Lump.calm_sign (by decide)
    · intro s hs
      obtain rfl := State.eq_gap_of_rank hs
      exact ⟨[.sign '?'], .gap, rfl, Nat.zero_le _, _, nests_plain (by simp [IsPlain])⟩

theorem toUpper_of_isDigit {c : Char} (h : c.isDigit = true) : c.toUpper = c := by
  simp only [Char.isDigit, Bool.and_eq_true, decide_eq_true_eq] at h
  obtain ⟨-, hle⟩ := h
  unfold Char.toUpper
  rw [dif_neg]
  rintro ⟨hge, -⟩
  exact absurd (UInt32.le_trans hge hle) (by decide)

theorem not_keyword_of_isDigit {c : Char} (h : c.isDigit = true) :
    c.toUpper ∉ ['A', 'B', 'C', 'E', 'O'] := by
  rw [toUpper_of_isDigit h]
  intro hc
  simp only [List.mem_cons, List.not_mem_nil, or_false] at hc
  rcases hc with rfl | rfl | rfl | rfl | rfl <;> exact absurd h (by decide)

/-- A state between the characters of a number. -/
def InNumber : State → Prop
  | .gap => True
  | .minus => True
  | .word cs => ∃ c ds, cs = c :: ds ∧ c.isDigit = true
  | _ => False

theorem InNumber.isOpen {s : State} (h : InNumber s) : s.isOpen = false := by
  cases s <;> first | rfl | contradiction

theorem InNumber.pending {s : State} (h : InNumber s) :
    ∀ t ∈ s.pending, IsPlain t ∧ (Lump.token t).Calm := by
  intro t ht
  cases s with
  | word cs =>
    obtain ⟨c, ds, rfl, hc⟩ := h
    obtain rfl := List.mem_singleton.mp ht
    exact ⟨by simp [IsPlain], calm_word (not_keyword_of_isDigit hc) ds⟩
  | minus =>
    obtain rfl := List.mem_singleton.mp ht
    exact ⟨by simp [IsPlain], Lump.calm_sign (by decide)⟩
  | gap => simp [State.pending] at ht
  | _ => contradiction

/-- One more digit or point. -/
theorem step_number {s : State} (hs : InNumber s) {c : Char} (hc : c.isDigit = true ∨ c = '.') :
    ∃ us s', step d s c = some (us, s') ∧ InNumber s' ∧
      ∀ t ∈ us, IsPlain t ∧ (Lump.token t).Calm := by
  rcases hc with hc | rfl
  · have hstart : start d c = some ([], .word [c]) := start_of_isLetter (isLetter_of_isDigit hc)
    have hw := isWordChar_of_isLetter (isLetter_of_isDigit hc)
    cases s with
    | gap => exact ⟨[], .word [c], hstart, ⟨c, [], rfl, hc⟩, by simp⟩
    | word cs =>
      obtain ⟨b, ds, rfl, hb⟩ := hs
      exact ⟨[], .word (b :: ds ++ [c]), by rw [step, if_pos hw], ⟨b, ds ++ [c], rfl, hb⟩, by simp⟩
    | minus =>
      have hne : c ≠ '-' := by
        rintro rfl
        exact absurd hc (by decide)
      refine ⟨[.sign '-'], .word [c], ?_, ⟨c, [], rfl, hc⟩, hs.pending⟩
      rw [step, if_neg hne, next, hstart]
      rfl
    | _ => contradiction
  · have hdot : IsPlain (.sign '.') ∧ (Lump.token (.sign '.')).Calm :=
      ⟨by simp [IsPlain], Lump.calm_sign (by decide)⟩
    refine ⟨s.pending ++ [.sign '.'], .gap, ?_, trivial, ?_⟩
    · rw [step_of_breaks hs.isOpen (by rfl), next]
      rfl
    · intro t ht
      rcases List.mem_append.mp ht with ht | ht
      · exact hs.pending t ht
      · obtain rfl := List.mem_singleton.mp ht
        exact hdot

theorem run_number {cs : List Char} (h : ∀ c ∈ cs, c.isDigit = true ∨ c = '.') {s : State}
    (hs : InNumber s) :
    ∃ us s', run d s cs = some (us, s') ∧ InNumber s' ∧
      ∀ t ∈ us, IsPlain t ∧ (Lump.token t).Calm := by
  induction cs generalizing s with
  | nil => exact ⟨[], s, rfl, hs, by simp⟩
  | cons c cs ih =>
    obtain ⟨us, s', hstep, hs', hus⟩ := step_number (d := d) hs (h c (by simp))
    obtain ⟨vs, s'', hrun, hs'', hvs⟩ := ih (fun e he => h e (by simp [he])) hs'
    refine ⟨us ++ vs, s'', ?_, hs'', ?_⟩
    · rw [run, hstep, Option.bind_some, hrun]
      rfl
    · intro t ht
      rcases List.mem_append.mp ht with ht | ht
      · exact hus t ht
      · exact hvs t ht

/-- Digits and points, perhaps behind a minus sign. -/
theorem reads_number (negative : Bool) {cs : List Char} (h : ∀ c ∈ cs, c.isDigit = true ∨ c = '.') :
    ReadsCalm d ((if negative then ['-'] else []) ++ cs) := by
  have hsign : ∃ s, run d .gap (if negative then ['-'] else []) = some ([], s) ∧ InNumber s := by
    cases negative with
    | false => exact ⟨.gap, rfl, trivial⟩
    | true => exact ⟨.minus, rfl, trivial⟩
  obtain ⟨s, hrun, hs⟩ := hsign
  obtain ⟨us, s', hrun', hs', hus⟩ := run_number (d := d) h hs
  have hall : ∀ t ∈ us ++ s'.pending, IsPlain t ∧ (Lump.token t).Calm := by
    intro t ht
    rcases List.mem_append.mp ht with ht | ht
    · exact hus t ht
    · exact hs'.pending t ht
  have hlex := lex?_of_run (run_append_of_run hrun hrun') hs'.isOpen
  refine ⟨(us ++ s'.pending).map .token, ⟨_, hlex, nests_plain fun t ht => (hall t ht).1⟩, ?_⟩
  intro l hl
  obtain ⟨t, ht, rfl⟩ := List.mem_map.mp hl
  exact (hall t ht).2

theorem reads_literal_token (s : String) :
    ∃ ls, ReadsClosed d (d.quoteLiteral s).toList ls ∧ Opens ls := by
  obtain ⟨ts, hts, hne, hall⟩ := closes_literal (d := d) s
  exact ⟨_, readsClosed_plain hts (plain_of_quoted hall), opens_of_quoted hne hall⟩

theorem reads_quoteLiteral (s : String) : ReadsCalm d (d.quoteLiteral s).toList := by
  obtain ⟨ls, hls, hopens⟩ := reads_literal_token (d := d) s
  exact ⟨ls, hls.reads, hopens.calm⟩

theorem reads_intText (i : Int) : ReadsCalm d (Digits.intText i).toList := by
  have digits : ∀ n, ∀ c ∈ Digits.digits n, c.isDigit = true ∨ c = '.' :=
    fun n c hc => Or.inl (isDigit_digits c hc)
  cases i with
  | ofNat n => simpa [Digits.intText, Digits.text] using reads_number (d := d) false (digits n)
  | negSucc n => simpa [Digits.intText, Digits.text] using reads_number (d := d) true (digits (n + 1))

theorem reads_float (x : Binary64) : ReadsCalm d (Layout.plain.text x).toList := by
  simp only [Layout.text]
  cases x.magnitude with
  | nan =>
    show ReadsCalm d "NaN".toList
    exact reads_word (c := 'N') (w := ['a', 'N']) (by decide) rfl
  | infinite =>
    cases x.isNegative with
    | false => exact reads_word (c := 'i') (w := ['n', 'f']) (by decide) rfl
    | true =>
      refine ⟨[.token (.sign '-'), .token (.word ['i', 'n', 'f'])], ⟨_, rfl, ?_⟩, ?_⟩
      · exact nests_plain (t := [.sign '-', .word ['i', 'n', 'f']]) (by simp [IsPlain])
      · intro l hl
        simp only [List.mem_cons, List.not_mem_nil, or_false] at hl
        rcases hl with rfl | rfl
        · exact Lump.calm_sign (by decide)
        · exact calm_word (by decide) _
  | finite m q =>
    simpa using reads_number (d := d) x.isNegative (isDigit_or_point_unsigned m q)

theorem reads_hexadecimal (b : Bytes) :
    ReadsCalm d ("X'" ++ Digits.hexUpperText b ++ "'").toList := by
  obtain ⟨ls, hls, hcalm⟩ := reads_word (d := d) (c := 'X') (w := []) (by decide) rfl
  obtain ⟨ms, hms, hopens⟩ := reads_literal_token (d := d) (Digits.hexUpperText b)
  have hquote : ∃ cs, (d.quoteLiteral (Digits.hexUpperText b)).toList = '\'' :: cs := by
    rw [Dialect.quoteLiteral, String.toList_ofList]
    exact ⟨_, rfl⟩
  obtain ⟨cs, hcs⟩ := hquote
  rw [hexadecimal_eq d, String.toList_append, hcs]
  rw [hcs] at hms
  exact ⟨ls ++ ms, (hls.append_closed hms (by decide)).reads, calm_append hcalm hopens.calm⟩

/-- What the items of a list read as does not matter, as it stands in parentheses. -/
theorem reads_listLiteral (items : List Value) :
    ReadsCalm d ("(" ++ ", ".intercalate (Value.literals d items) ++ ")").toList := by
  have hitems : Phrase d (Closed d) .clean .any
      (Template.ofText (", ".intercalate (Value.literals d items))) :=
    Phrase.intercalate (.text (by decide)) (Value.phrase_literals items)
  have hbalances := hitems.balances (fun k v => (fills_placeholders d k v).2) 1
  rw [Template.fill_ofText] at hbalances
  obtain ⟨ls, hls⟩ := exists_reads_of_balances hbalances (Nat.le_refl _)
  have htext : ("(" ++ ", ".intercalate (Value.literals d items) ++ ")").toList =
      '(' :: ((", ".intercalate (Value.literals d items)).toList ++ [')']) := by
    simp
  rw [htext]
  refine ⟨[Chain.group ls], hls.paren.reads, ?_⟩
  intro l hl
  obtain rfl := List.mem_singleton.mp hl
  exact Lump.calm_group _ _

/-- A literal reads as calm lumps. -/
theorem reads_literal (v : Value) : ReadsCalm d (v.literal d).toList := by
  cases v <;> simp only [Value.literal]
  case null => exact reads_word (by decide) rfl
  case bool b => cases b <;> exact reads_word (by decide) rfl
  case int i => exact reads_intText i.toInt
  case float x => exact reads_float x
  case bytes b => exact reads_hexadecimal b
  case list items => exact reads_listLiteral items
  all_goals exact reads_quoteLiteral _

theorem fills_literals (d : Dialect) : Fills d (Piece.literals d) := by
  intro k v
  refine ⟨reads_literal v, ?_⟩
  have hbalances := (Value.phrase_literal (d := d) (P := Closed d) v).balances
    (fun k v => (fills_placeholders d k v).2) 1
  rwa [Template.fill_ofText] at hbalances

end SqlKit
