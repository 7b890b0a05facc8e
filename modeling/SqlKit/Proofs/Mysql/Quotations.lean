import SqlKit.Mysql.Placeholders

/-!
# Placeholders and quotations

MySQL splits a statement into string literals, quoted identifiers and the rest.  A quotation ends at the
next quote of its kind; the same quote twice stands for itself, and so does what follows a backslash in
a literal.  The scanner that puts question marks for placeholders knows nothing of backslashes.  It
follows the rules of a server that takes them for ordinary characters, and gives what the other rules
ask for exactly where both find every `%s` on the same side of the quotes.

    the parts of a text are the text                                   (chars_partsFrom)
    rewriting the parts between quotations is scanning                 (rewritten_partsFrom)
    two scanners agree iff every `%s` is outside for both or for none  (marks_eq_iff)
    markChars o (markChars o cs) = markChars o cs                      (markChars_markChars)
-/

namespace SqlKit.Mysql

/-! ## Lexical rules -/

/-- Where a character of a statement stands. -/
inductive Place where
  | rest
  | quoted (q : Char)
  /-- Behind a backslash between quotes. -/
  | escaped (q : Char)
  /-- Behind a quote that ends a quotation, unless it comes twice. -/
  | ending (q : Char)
deriving DecidableEq

namespace Place

/-- Outside of quotations, unless the character to come doubles a quote. -/
def isOutside : Place → Bool
  | rest | ending _ => true
  | quoted _ | escaped _ => false

/-- The place behind one more character; `escapes` says whether a backslash escapes in literals. -/
def next (escapes : Bool) : Place → Char → Place
  | rest, c | ending _, c => if isQuote c then quoted c else rest
  | quoted q, c =>
    if escapes = true ∧ q = '\'' ∧ c = '\\' then escaped q
    else if c = q then ending q
    else quoted q
  | escaped q, _ => quoted q

/-- Does another part start behind this place if the next character leads to that one? -/
def isLeft : Place → Place → Bool
  | rest, quoted _ => true
  | ending _, rest => true
  | ending q, quoted q' => q ≠ q'
  | _, _ => false

end Place

/-- The place behind a text. -/
def placeAfter (escapes : Bool) (cs : List Char) : Place := cs.foldl (Place.next escapes) .rest

/-- A part of a statement. -/
inductive Part where
  /-- Text outside of quotations. -/
  | rest (cs : List Char)
  /-- A literal or a quoted identifier, with its quotes; without the last one if it never ends. -/
  | quotation (cs : List Char)
deriving DecidableEq

namespace Part

def chars : Part → List Char
  | rest cs | quotation cs => cs

def push (c : Char) : Part → Part
  | rest cs => rest (c :: cs)
  | quotation cs => quotation (c :: cs)

/-- The part that ends at a place. -/
def last : Place → Part
  | .rest => rest []
  | .quoted _ | .escaped _ | .ending _ => quotation []

end Part

/-- The parts of a text that starts at a place. -/
def partsFrom (escapes : Bool) : Place → List Char → List Part
  | p, [] => [.last p]
  | p, c :: cs =>
    let ps := (partsFrom escapes (p.next escapes c) cs).modifyHead (.push c)
    if p.isLeft (p.next escapes c) then .last p :: ps else ps

def parts (escapes : Bool) (cs : List Char) : List Part := partsFrom escapes .rest cs

/-- A question mark for each placeholder. -/
def questionMarks : List Char → List Char
  | [] => []
  | '%' :: 's' :: cs => '?' :: questionMarks cs
  | c :: cs => c :: questionMarks cs

/-- A part with question marks, if it is no quotation. -/
def Part.rewritten : Part → List Char
  | rest cs => questionMarks cs
  | quotation cs => cs

/-! ## Scanners -/

section Scanners

variable {σ τ : Type} (next : σ → Char → σ) (isOutside : σ → Bool)

/-- A text with question marks for the placeholders that a scanner finds outside. -/
def marks : σ → List Char → List Char
  | _, [] => []
  | s, '%' :: 's' :: cs =>
    (if isOutside s then ['?'] else ['%', 's']) ++ marks (next (next s '%') 's') cs
  | s, c :: cs => c :: marks (next s c) cs

variable {next isOutside}

theorem marks_cons {c : Char} {cs : List Char} (h : ∀ ds, c :: cs ≠ '%' :: 's' :: ds) (s : σ) :
    marks next isOutside s (c :: cs) = c :: marks next isOutside (next s c) cs := by
  rw [marks]
  intro ds hc hcs
  exact h ds (by rw [hc, hcs])

/-- Two scanners give the same text if and only if every placeholder is outside for both or for none. -/
theorem marks_eq_iff {next' : τ → Char → τ} {isOutside' : τ → Bool} (s : σ) (s' : τ)
    (cs : List Char) :
    marks next isOutside s cs = marks next' isOutside' s' cs ↔
      ∀ a b, cs = a ++ '%' :: 's' :: b → isOutside (a.foldl next s) = isOutside' (a.foldl next' s') := by
  induction cs using questionMarks.induct generalizing s s' with
  | case1 => simp [marks]
  | case2 cs ih =>
    have hrest := ih (next (next s '%') 's') (next' (next' s' '%') 's')
    rw [marks, marks]
    constructor
    · intro h a b hab
      have hfirst : isOutside s = isOutside' s' := by
        cases hs : isOutside s <;> cases hs' : isOutside' s' <;> simp [hs, hs'] at h ⊢
      rw [hfirst] at h
      have hbehind := hrest.1 (List.append_cancel_left h)
      rcases a with _ | ⟨c, _ | ⟨d, a⟩⟩
      · exact hfirst
      · simp at hab
      · simp only [List.cons_append, List.cons.injEq] at hab
        obtain ⟨rfl, rfl, rfl⟩ := hab
        exact hbehind a b rfl
    · intro h
      have hfirst : isOutside s = isOutside' s' := h [] cs rfl
      have hbehind := hrest.2 fun a b hab => h ('%' :: 's' :: a) b (by simp [hab])
      rw [hfirst, hbehind]
  | case3 c cs hc ih =>
    have hne : ∀ ds, c :: cs ≠ '%' :: 's' :: ds := by
      intro ds h
      obtain ⟨rfl, rfl⟩ := List.cons.inj h
      exact hc ds rfl rfl
    have hrest := ih (next s c) (next' s' c)
    rw [marks_cons hne, marks_cons hne, List.cons.injEq, and_iff_right rfl, hrest]
    constructor
    · intro h a b hab
      cases a with
      | nil => exact absurd hab (hne b)
      | cons d a =>
        obtain ⟨rfl, hrest⟩ := List.cons.inj hab
        exact h a b hrest
    · exact fun h a b hab => h (c :: a) b (by simp [hab])

end Scanners

/-! ## Parts -/

section Parts

variable {escapes : Bool} {p : Place} {c : Char} {cs : List Char}

/-- Only from outside a character leads to the rest, and it is no quote. -/
theorem Place.next_eq_rest_iff : p.next escapes c = .rest ↔ p.isOutside = true ∧ isQuote c = false := by
  cases p with
  | rest | ending => cases hc : isQuote c <;> simp [next, isOutside, hc]
  | escaped => simp [next, isOutside]
  | quoted q =>
    simp only [next, isOutside, Bool.false_eq_true, false_and, iff_false]
    split
    · simp
    · split <;> simp

theorem Part.last_of_ne (hp : p ≠ .rest) : last p = .quotation [] := by
  cases p with
  | rest => exact absurd rfl hp
  | _ => rfl

/-- Outside of quotations the first part is the text up to the next one. -/
theorem exists_partsFrom_rest (escapes : Bool) (cs : List Char) :
    ∃ x ps, partsFrom escapes .rest cs = .rest x :: ps ∧ x <+: cs := by
  induction cs with
  | nil => exact ⟨[], [], rfl, List.nil_prefix⟩
  | cons c cs ih =>
    obtain ⟨x, ps, hparts, hx⟩ := ih
    by_cases hc : isQuote c = true
    · have hleft : Place.isLeft .rest (Place.rest.next escapes c) = true := by
        simp [Place.next, hc, Place.isLeft]
      exact ⟨[], _, by rw [partsFrom, if_pos hleft]; rfl, List.nil_prefix⟩
    · have hnext : Place.rest.next escapes c = .rest := by simp [Place.next, hc]
      refine ⟨c :: x, ps, ?_, (List.cons_prefix_cons).2 ⟨rfl, hx⟩⟩
      rw [partsFrom, hnext, hparts]
      rfl

theorem exists_partsFrom_quotation (escapes : Bool) (hp : p ≠ .rest) (cs : List Char) :
    ∃ x ps, partsFrom escapes p cs = .quotation x :: ps := by
  induction cs generalizing p with
  | nil => exact ⟨[], [], by rw [partsFrom, Part.last_of_ne hp]⟩
  | cons c cs ih =>
    by_cases hleft : p.isLeft (p.next escapes c) = true
    · exact ⟨[], _, by rw [partsFrom, if_pos hleft, Part.last_of_ne hp]⟩
    · have hne : p.next escapes c ≠ .rest := by
        intro hrest
        have hout := (Place.next_eq_rest_iff.1 hrest).1
        rw [hrest] at hleft
        cases p <;> first | exact hp rfl | exact hleft rfl | cases hout
      obtain ⟨x, ps, hparts⟩ := ih hne
      exact ⟨c :: x, ps, by rw [partsFrom, if_neg hleft, hparts]; rfl⟩

theorem exists_partsFrom (escapes : Bool) (p : Place) (cs : List Char) :
    ∃ y ps, partsFrom escapes p cs = y :: ps := by
  by_cases hp : p = .rest
  · subst hp
    obtain ⟨x, ps, hparts, -⟩ := exists_partsFrom_rest escapes cs
    exact ⟨_, _, hparts⟩
  · obtain ⟨x, ps, hparts⟩ := exists_partsFrom_quotation escapes hp cs
    exact ⟨_, _, hparts⟩

/-- A character goes in front of the first part of what follows it; a part that is left is empty. -/
theorem flatMap_partsFrom_cons {f : Part → List Char} (hf : ∀ p, f (.last p) = []) {y : Part}
    {ps : List Part} (h : partsFrom escapes (p.next escapes c) cs = y :: ps) :
    (partsFrom escapes p (c :: cs)).flatMap f = f (y.push c) ++ ps.flatMap f := by
  rw [partsFrom, h]
  split
  · rw [List.flatMap_cons, hf]
    rfl
  · rfl

/-- Splitting a text loses nothing. -/
theorem chars_partsFrom (escapes : Bool) (p : Place) (cs : List Char) :
    (partsFrom escapes p cs).flatMap Part.chars = cs := by
  have hlast : ∀ p, Part.chars (.last p) = [] := by
    intro p
    cases p <;> rfl
  induction cs generalizing p with
  | nil => simp [partsFrom, hlast]
  | cons c cs ih =>
    obtain ⟨y, ps, hparts⟩ := exists_partsFrom escapes (p.next escapes c) cs
    have hpush : (y.push c).chars = c :: y.chars := by cases y <;> rfl
    have hrest := ih (p.next escapes c)
    rw [hparts, List.flatMap_cons] at hrest
    rw [flatMap_partsFrom_cons hlast hparts, hpush, List.cons_append, hrest]

theorem rewritten_last (p : Place) : (Part.last p).rewritten = [] := by
  cases p <;> rfl

theorem questionMarks_cons (h : ∀ ds, c :: cs ≠ '%' :: 's' :: ds) :
    questionMarks (c :: cs) = c :: questionMarks cs := by
  rw [questionMarks]
  intro ds hc hcs
  exact h ds (by rw [hc, hcs])

/-- A character stays as it is, unless it stands outside and begins a placeholder. -/
theorem rewritten_cons (h : p.next escapes c = .rest → ∀ ds, c :: cs ≠ '%' :: 's' :: ds) :
    (partsFrom escapes p (c :: cs)).flatMap Part.rewritten =
      c :: (partsFrom escapes (p.next escapes c) cs).flatMap Part.rewritten := by
  by_cases hnext : p.next escapes c = .rest
  · obtain ⟨x, ps, hparts, d, hd⟩ := exists_partsFrom_rest escapes cs
    rw [← hnext] at hparts
    have hx : ∀ ds, c :: x ≠ '%' :: 's' :: ds := by
      intro ds hcx
      obtain ⟨rfl, rfl⟩ := List.cons.inj hcx
      exact h hnext (ds ++ d) (by rw [← hd]; rfl)
    rw [flatMap_partsFrom_cons rewritten_last hparts, hparts, List.flatMap_cons]
    show questionMarks (c :: x) ++ _ = _
    rw [questionMarks_cons hx]
    rfl
  · obtain ⟨x, ps, hparts⟩ := exists_partsFrom_quotation escapes hnext cs
    rw [flatMap_partsFrom_cons rewritten_last hparts, hparts, List.flatMap_cons]
    rfl

/-- A placeholder outside becomes a question mark. -/
theorem rewritten_placeholder (hp : p.isOutside = true) (cs : List Char) :
    (partsFrom escapes p ('%' :: 's' :: cs)).flatMap Part.rewritten =
      '?' :: (partsFrom escapes .rest cs).flatMap Part.rewritten := by
  have hpercent : p.next escapes '%' = .rest := Place.next_eq_rest_iff.2 ⟨hp, by decide⟩
  have hletter : Place.rest.next escapes 's' = .rest := Place.next_eq_rest_iff.2 ⟨rfl, by decide⟩
  obtain ⟨x, ps, hparts, -⟩ := exists_partsFrom_rest escapes cs
  have hbehind : partsFrom escapes (p.next escapes '%') ('s' :: cs) = .rest ('s' :: x) :: ps := by
    rw [hpercent, partsFrom, hletter, hparts]
    rfl
  rw [flatMap_partsFrom_cons rewritten_last hbehind, hparts, List.flatMap_cons]
  show questionMarks ('%' :: 's' :: x) ++ _ = _
  rw [questionMarks]
  rfl

/-- Rewriting the parts between quotations is scanning for placeholders outside. -/
theorem rewritten_partsFrom (escapes : Bool) (p : Place) (cs : List Char) :
    (partsFrom escapes p cs).flatMap Part.rewritten =
      marks (Place.next escapes) Place.isOutside p cs := by
  induction cs using questionMarks.induct generalizing p with
  | case1 => simp [partsFrom, rewritten_last, marks]
  | case2 cs ih =>
    rw [marks, ← ih]
    cases hp : p.isOutside with
    | true =>
      have hpercent : p.next escapes '%' = .rest := Place.next_eq_rest_iff.2 ⟨hp, by decide⟩
      have hletter : Place.rest.next escapes 's' = .rest :=
        Place.next_eq_rest_iff.2 ⟨rfl, by decide⟩
      rw [rewritten_placeholder hp, hpercent, hletter]
      rfl
    | false =>
      have hinside : p.next escapes '%' = .rest → ∀ ds, '%' :: 's' :: cs ≠ '%' :: 's' :: ds := by
        intro hrest
        rw [(Place.next_eq_rest_iff.1 hrest).1] at hp
        cases hp
      rw [rewritten_cons hinside, rewritten_cons fun _ ds => by simp]
      rfl
  | case3 c cs hc ih =>
    have hne : ∀ ds, c :: cs ≠ '%' :: 's' :: ds := by
      intro ds h
      obtain ⟨rfl, rfl⟩ := List.cons.inj h
      exact hc ds rfl rfl
    rw [marks_cons hne, rewritten_cons fun _ => hne, ih]

end Parts

/-! ## The scanner -/

/-- The quote that is open behind one more character. -/
def scan : Option Char → Char → Option Char
  | none, c => if isQuote c then some c else none
  | some q, c => if c = q then none else some q

theorem markChars_step {o : Option Char} {c : Char} {cs : List Char}
    (h : o = none → ∀ ds, c :: cs ≠ '%' :: 's' :: ds) :
    markChars o (c :: cs) = c :: markChars (scan o c) cs := by
  cases o with
  | some q =>
    rw [markChars]
    rfl
  | none =>
    rw [markChars]
    · rfl
    · intro ds hc hcs
      exact h rfl ds (by rw [hc, hcs])

theorem markChars_eq_marks (o : Option Char) (cs : List Char) :
    markChars o cs = marks scan Option.isNone o cs := by
  induction cs using questionMarks.induct generalizing o with
  | case1 => cases o <;> rfl
  | case2 cs ih =>
    rw [marks, ← ih]
    cases o with
    | none => rfl
    | some q =>
      rw [markChars_step (by simp), markChars_step fun _ ds => by simp]
      rfl
  | case3 c cs hc ih =>
    have hne : ∀ ds, c :: cs ≠ '%' :: 's' :: ds := by
      intro ds h
      obtain ⟨rfl, rfl⟩ := List.cons.inj h
      exact hc ds rfl rfl
    rw [marks_cons hne, ← ih, markChars_step fun _ => hne]

/-- The quote that is open at a place. -/
def Place.open? : Place → Option Char
  | rest | ending _ => none
  | quoted q | escaped q => some q

/-- Where no backslash escapes, the scanner knows where it is. -/
theorem foldl_scan {p : Place} (hp : ∀ q, p ≠ .escaped q) (cs : List Char) :
    cs.foldl scan p.open? = (cs.foldl (Place.next false) p).open? := by
  induction cs generalizing p with
  | nil => rfl
  | cons c cs ih =>
    have hstep : scan p.open? c = (p.next false c).open? ∧ ∀ q, p.next false c ≠ .escaped q := by
      cases p with
      | rest | ending =>
        simp only [Place.next, Place.open?, scan]
        split <;> simp
      | escaped q => exact absurd rfl (hp q)
      | quoted q =>
        simp only [Place.next, Place.open?, scan, Bool.false_eq_true, false_and, if_false]
        split <;> simp
    rw [List.foldl_cons, List.foldl_cons, hstep.1, ih hstep.2]

theorem isNone_open? (p : Place) : p.open?.isNone = p.isOutside := by
  cases p <;> rfl

theorem isNone_foldl_scan (cs : List Char) :
    (cs.foldl scan none).isNone = (placeAfter false cs).isOutside := by
  have h := foldl_scan (p := .rest) (by simp) cs
  rw [placeAfter, ← isNone_open?, ← h]
  rfl

/-! ## Scanning twice -/

/-- Scanning puts no letter where there was none. -/
theorem head?_markChars (o : Option Char) {cs : List Char} (h : cs.head? ≠ some 's') :
    (markChars o cs).head? ≠ some 's' := by
  cases cs with
  | nil => cases o <;> simp [markChars]
  | cons c cs =>
    have hc : c ≠ 's' := by simpa using h
    by_cases hmark : o = none ∧ ∃ ds, c :: cs = '%' :: 's' :: ds
    · obtain ⟨rfl, ds, hds⟩ := hmark
      rw [hds]
      simp [markChars]
    · rw [markChars_step fun ho ds hds => hmark ⟨ho, ds, hds⟩]
      simpa using hc

/-- What was scanned has no placeholders left. -/
theorem markChars_markChars (o : Option Char) (cs : List Char) :
    markChars o (markChars o cs) = markChars o cs := by
  induction cs using questionMarks.induct generalizing o with
  | case1 => cases o <;> rfl
  | case2 cs ih =>
    cases o with
    | none =>
      have hmark : markChars none ('%' :: 's' :: cs) = '?' :: markChars none cs := by rw [markChars]
      rw [hmark, markChars_step fun _ ds => by simp]
      show '?' :: markChars none (markChars none cs) = _
      rw [ih]
    | some q =>
      have hstep : markChars (some q) ('%' :: 's' :: cs) =
          '%' :: 's' :: markChars (scan (scan (some q) '%') 's') cs := by
        rw [markChars_step (by simp), markChars_step fun _ ds => by simp]
      rw [hstep, markChars_step (by simp), markChars_step fun _ ds => by simp, ih]
  | case3 c cs hc ih =>
    have hne : o = none → ∀ ds, c :: cs ≠ '%' :: 's' :: ds := by
      intro _ ds h
      obtain ⟨rfl, rfl⟩ := List.cons.inj h
      exact hc ds rfl rfl
    have hagain : o = none → ∀ ds, c :: markChars (scan o c) cs ≠ '%' :: 's' :: ds := by
      intro _ ds h
      obtain ⟨rfl, hhead⟩ := List.cons.inj h
      refine absurd (show (markChars (scan o '%') cs).head? = some 's' by rw [hhead]; rfl) ?_
      refine head?_markChars (scan o '%') fun hs => ?_
      cases cs with
      | nil => cases hs
      | cons d ds =>
        obtain rfl : d = 's' := by simpa using hs
        exact hc ds rfl rfl
    rw [markChars_step hne, markChars_step hagain, ih]

/-! ## The whole statement -/

/-- **What becomes of the parts of a statement.**  A statement is its parts, by the rules of a server
where the backslash escapes in literals as by those of one where it does not.  By the latter, what is
sent is the statement with a question mark for each `%s` between the quotations, and nothing else
changed.  By the former, so it is if and only if no `%s` stands outside of quotations by one of the
rules and inside by the other.  By both, doing it twice is doing it once. -/
theorem withMarks_eq_iff (sql : String) :
    (∀ escapes, (parts escapes sql.toList).flatMap Part.chars = sql.toList) ∧
    withMarks sql = String.ofList ((parts false sql.toList).flatMap Part.rewritten) ∧
    (withMarks sql = String.ofList ((parts true sql.toList).flatMap Part.rewritten) ↔
      ∀ a b, sql.toList = a ++ '%' :: 's' :: b →
        (placeAfter true a).isOutside = (placeAfter false a).isOutside) ∧
    withMarks (withMarks sql) = withMarks sql := by
  refine ⟨fun escapes => chars_partsFrom escapes .rest _, ?_, ?_, ?_⟩
  · rw [withMarks, markChars_eq_marks, parts, rewritten_partsFrom]
    congr 1
    rw [marks_eq_iff]
    exact fun a _ _ => isNone_foldl_scan a
  · rw [withMarks, String.ofList_inj, markChars_eq_marks, parts, rewritten_partsFrom, marks_eq_iff]
    refine forall_congr' fun a => forall_congr' fun b => imp_congr_right fun _ => ?_
    rw [isNone_foldl_scan]
    exact eq_comm
  · rw [withMarks, withMarks, String.toList_ofList, markChars_markChars]

/-- A literal with a quote behind a backslash: the scanner takes that quote for the end of the literal,
and what follows for a placeholder. -/
theorem withMarks_escaped_quote :
    let sql := "SELECT 'it\\'s %s'"
    parts true sql.toList =
        [.rest "SELECT ".toList, .quotation "'it\\'s %s'".toList] ∧
      String.ofList ((parts true sql.toList).flatMap Part.rewritten) = sql ∧
      withMarks sql = "SELECT 'it\\'s ?'" := by
  decide

end SqlKit.Mysql
