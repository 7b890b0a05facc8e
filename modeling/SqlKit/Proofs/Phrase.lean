import SqlKit.Proofs.Template
import SqlKit.Proofs.Verbatim

/-!
# Phrases

How a statement is put together from separators, plain words, quoted tokens, holes and verbatim
texts.  A phrase says on either side what it can stand next to: behind a verbatim text, of which
nothing is known, there is always a separator, a quotation or a parenthesis.  So a property of
statements that has to do with their characters is proved once for each way to build a phrase.

    ofText (v.literal d) is a phrase without holes                     (Value.phrase_literal)
    texts of separators and letters are phrases                        (Phrase.text)
-/

namespace SqlKit

/-! ## Phrases -/

/-- What is known of the text up to a place: it ends in a separator or a token that is closed, it
may also end in a plain word, it may end in anything. -/
inductive Edge where
  | clean | word | any
deriving DecidableEq, Repr

def Edge.rank : Edge → Nat
  | clean => 0
  | word => 1
  | any => 2

/-- Characters that stand between words. -/
def isSeparator (c : Char) : Bool := c ∈ [' ', '\n', ',', ';', '.', '=', '<', '>']

/-- Characters of plain words. -/
def isLetter (c : Char) : Bool := c.isAlphanum || c = '_'

/-- Templates that may follow a text that ends as the first edge says, and that end as the second
says.  `P` holds of the verbatim texts. -/
inductive Phrase (d : Dialect) (P : String → Prop) : Edge → Edge → Template → Prop
  | nil (e : Edge) : Phrase d P e e []
  | seq {a m b : Edge} {t u : Template} (ht : Phrase d P a m t) (hu : Phrase d P m b u) :
      Phrase d P a b (t ++ u)
  | weaken {e₁ e₂ e₃ e₄ : Edge} {t : Template} (ht : Phrase d P e₂ e₃ t)
      (h₁ : e₁.rank ≤ e₂.rank) (h₂ : e₃.rank ≤ e₄.rank) : Phrase d P e₁ e₄ t
  | separator (c : Char) (h : isSeparator c = true) : Phrase d P .any .clean [.char c]
  | letter (c : Char) (h : isLetter c = true) : Phrase d P .word .word [.char c]
  | minus (c : Char) (h : isLetter c = true ∨ isSeparator c = true) :
      Phrase d P .clean .word [.char '-', .char c]
  | star : Phrase d P .clean .clean [.char '*']
  | verbatim (s : String) (h : P s) : Phrase d P .clean .any (Template.ofText s)
  | ident (s : String) : Phrase d P .any .clean (Template.ofText (quoteIdent s))
  | literal (s : String) : Phrase d P .any .clean (Template.ofText (d.quoteLiteral s))
  | hole (v : Value) : Phrase d P .clean .word [.hole v]
  | paren {t : Template} (ht : Phrase d P .clean .any t) :
      Phrase d P .any .clean (.char '(' :: (t ++ [.char ')']))

variable {d : Dialect} {P : String → Prop}

namespace Phrase

open Template

/-- A phrase that may follow anything may follow a separator. -/
theorem behind {e e' : Edge} {t : Template} (h : Phrase d P .any e' t) : Phrase d P e e' t :=
  weaken h (by cases e <;> decide) (Nat.le_refl _)

/-- A phrase that may follow anything, of which less is said at the end. -/
theorem ends {e : Edge} {t : Template} (h : Phrase d P .any e t) : Phrase d P .any .any t :=
  weaken h (Nat.le_refl _) (by cases e <;> decide)

/-- A phrase of which less is said at both ends. -/
theorem part {e e' : Edge} {t : Template} (h : Phrase d P e e' t) : Phrase d P .clean .any t :=
  weaken h (Nat.zero_le _) (by cases e' <;> decide)

/-- How a text of separators and letters ends. -/
def plainEdge : Edge → List Char → Option Edge
  | e, [] => some e
  | e, c :: cs =>
    if isSeparator c then plainEdge .clean cs
    else if isLetter c && e != .any then plainEdge .word cs
    else none

theorem plain {a b : Edge} {cs : List Char} (h : plainEdge a cs = some b) :
    Phrase d P a b (cs.map .char) := by
  induction cs generalizing a with
  | nil =>
    obtain rfl := Option.some.inj h
    exact nil a
  | cons c cs ih =>
    have hcons : (c :: cs).map Glyph.char = [.char c] ++ cs.map .char := rfl
    rw [hcons]
    unfold plainEdge at h
    by_cases hs : isSeparator c = true
    · rw [if_pos hs] at h
      exact seq (behind (separator c hs)) (ih h)
    · rw [if_neg hs] at h
      by_cases hl : (isLetter c && a != .any) = true
      · rw [if_pos hl] at h
        rw [Bool.and_eq_true] at hl
        have ha : a.rank ≤ Edge.word.rank := by
          cases a with
          | any => exact absurd hl.2 (by decide)
          | clean => decide
          | word => decide
        exact seq (weaken (letter c hl.1) ha (Nat.le_refl _)) (ih h)
      · rw [if_neg hl] at h
        contradiction

/-- A text of separators and letters. -/
theorem text {a b : Edge} {s : String} (h : plainEdge a s.toList = some b) :
    Phrase d P a b (ofText s) := plain h

theorem letters {cs : List Char} (h : ∀ c ∈ cs, isLetter c = true) :
    Phrase d P .word .word (cs.map .char) := by
  induction cs with
  | nil => exact nil _
  | cons c cs ih =>
    exact seq (t := [.char c]) (letter c (h c (by simp))) (ih fun b hb => h b (by simp [hb]))

/-- Phrases with a separator between them. -/
theorem intercalate {s : String} (hs : Phrase d P .any .clean (ofText s)) {items : List String}
    (h : ∀ t ∈ items, Phrase d P .clean .any (ofText t)) :
    Phrase d P .clean .any (ofText (s.intercalate items)) := by
  induction items with
  | nil => exact (nil .clean).part
  | cons t ts ih =>
    cases ts with
    | nil => simpa using h t (by simp)
    | cons u us =>
      rw [String.intercalate_cons_cons, ofText_append, ofText_append]
      refine seq (seq (h t (by simp)) hs) (ih ?_)
      intro v hv
      exact h v (by simp [hv])

end Phrase

/-! ## Literals -/

theorem isLetter_of_isDigit {c : Char} (h : c.isDigit = true) : isLetter c = true := by
  simp [isLetter, Char.isAlphanum, h]

theorem isDigit_digits {n : Nat} : ∀ c ∈ Digits.digits n, c.isDigit = true :=
  fun _ hc => Nat.isDigit_of_mem_toDigits (by decide) (by decide) hc

theorem isLetter_hexDigit : ∀ n < 16, isLetter (Digits.hexDigit 'A' n) = true := by decide

theorem isLetter_hexUpper (b : Bytes) : ∀ c ∈ b.flatMap (Digits.hexPair 'A'), isLetter c = true := by
  intro c hc
  obtain ⟨x, -, hx⟩ := List.mem_flatMap.mp hc
  have hlt : x.toNat < 256 := x.toNat_lt
  simp only [Digits.hexPair, List.mem_cons, List.not_mem_nil, or_false] at hx
  rcases hx with rfl | rfl
  · exact isLetter_hexDigit _ (by omega)
  · exact isLetter_hexDigit _ (by omega)

/-- Letters need no doubling. -/
theorem quote_of_isLetter {q : Char} (hq : isLetter q = false) (escapes : Bool) {cs : List Char}
    (h : ∀ c ∈ cs, isLetter c = true) : Text.Quoted.quote q escapes cs = q :: (cs ++ [q]) := by
  have body : Text.Quoted.body q escapes cs = cs := by
    induction cs with
    | nil => rfl
    | cons c cs ih =>
      have hc := h c (by simp)
      have hne : c ≠ q := by
        intro e
        rw [e, hq] at hc
        contradiction
      have hb : c ≠ '\\' := by
        rintro rfl
        contradiction
      have hcs := ih fun b hb => h b (by simp [hb])
      simp only [Text.Quoted.body] at hcs ⊢
      simp [Text.Quoted.double, hne, hb, hcs]
  rw [Text.Quoted.quote, body, List.cons_append]

/-- The literal for bytes is a word and a quoted token. -/
theorem hexadecimal_eq (d : Dialect) (b : Bytes) :
    "X'" ++ Digits.hexUpperText b ++ "'" = "X" ++ d.quoteLiteral (Digits.hexUpperText b) := by
  have hq : d.quoteLiteral (Digits.hexUpperText b) = "'" ++ Digits.hexUpperText b ++ "'" := by
    rw [Dialect.quoteLiteral, Digits.hexUpperText, String.toList_ofList,
      quote_of_isLetter (by decide) _ (isLetter_hexUpper b)]
    rw [← List.singleton_append, String.ofList_append, String.ofList_append, String.append_assoc]
  rw [hq, ← String.append_assoc, ← String.append_assoc]
  rfl

/-- The characters of a decimal fraction. -/
theorem isDigit_or_point_unsigned (m : Nat) (q : Int) :
    ∀ c ∈ Layout.plain.unsigned m q, c.isDigit = true ∨ c = '.' := by
  have zeros : ∀ (n : Nat), ∀ c ∈ List.replicate n '0', c.isDigit = true := by
    intro n c hc
    rw [(List.mem_replicate.mp hc).2]
    decide
  intro c hc
  unfold Layout.unsigned at hc
  by_cases hm : m = 0
  · rw [if_pos hm] at hc
    simp only [Layout.plain, Bool.false_eq_true, if_false, List.mem_singleton] at hc
    subst hc
    decide
  · rw [if_neg hm] at hc
    have hpos : ∀ e : Int, Layout.plain.positional e = true := fun _ => rfl
    simp only [hpos, if_true] at hc
    generalize Shortest.shortest Layout.plain.tie m q = x at hc
    simp only [Layout.places, Layout.plain, Bool.false_eq_true, if_false, List.append_nil] at hc
    split at hc
    · rcases List.mem_append.mp hc with h | h
      · exact Or.inl (isDigit_digits c h)
      · exact Or.inl (zeros _ c h)
    · split at hc
      · rcases List.mem_append.mp hc with h | h
        · exact Or.inl (isDigit_digits c (List.mem_of_mem_take h))
        · rcases List.mem_cons.mp h with rfl | h
          · decide
          · exact Or.inl (isDigit_digits c (List.mem_of_mem_drop h))
      · rcases List.mem_cons.mp hc with rfl | h
        · decide
        · rcases List.mem_cons.mp h with rfl | h
          · decide
          · rcases List.mem_append.mp h with h | h
            · exact Or.inl (zeros _ c h)
            · exact Or.inl (isDigit_digits c h)

theorem unsigned_ne_nil (m : Nat) (q : Int) : Layout.plain.unsigned m q ≠ [] := by
  unfold Layout.unsigned
  by_cases hm : m = 0
  · rw [if_pos hm]
    exact List.cons_ne_nil _ _
  · rw [if_neg hm]
    have hpos : ∀ e : Int, Layout.plain.positional e = true := fun _ => rfl
    simp only [hpos, if_true]
    generalize Shortest.shortest Layout.plain.tie m q = x
    have hds := Digits.digits_ne_nil x.digits
    simp only [Layout.places]
    split
    · simp [hds]
    · split <;> simp

namespace Phrase

open Template

/-- Plain characters behind a sign. -/
theorem signed (negative : Bool) {s : List Char} (hne : s ≠ [])
    (h : ∀ c ∈ s, isLetter c = true ∨ isSeparator c = true) :
    Phrase d P .clean .word (((if negative then ['-'] else []) ++ s).map .char) := by
  have plain : ∀ ds : List Char, (∀ c ∈ ds, isLetter c = true ∨ isSeparator c = true) →
      Phrase d P .word .word (ds.map .char) := by
    intro ds hds
    induction ds with
    | nil => exact nil _
    | cons c ds ih =>
      refine seq (t := [.char c]) ?_ (ih fun b hb => hds b (by simp [hb]))
      rcases hds c (by simp) with hc | hc
      · exact letter c hc
      · exact weaken (separator c hc) (by decide) (by decide)
  cases negative with
  | false => exact weaken (plain s h) (by decide) (Nat.le_refl _)
  | true =>
    cases s with
    | nil => exact absurd rfl hne
    | cons c cs =>
      have hrest := plain cs fun b hb => h b (by simp [hb])
      exact seq (t := [.char '-', .char c]) (minus c (h c (by simp))) hrest

/-- An integer. -/
theorem integer (n : Int) : Phrase d P .clean .word (ofText (Digits.intText n)) := by
  have digits : ∀ m, ∀ c ∈ Digits.digits m, isLetter c = true ∨ isSeparator c = true :=
    fun m c hc => Or.inl (isLetter_of_isDigit (isDigit_digits c hc))
  cases n with
  | ofNat m =>
    have h := signed (d := d) (P := P) false (Digits.digits_ne_nil m) (digits m)
    simpa [ofText, Digits.intText, Digits.text] using h
  | negSucc m =>
    have h := signed (d := d) (P := P) true (Digits.digits_ne_nil (m + 1)) (digits (m + 1))
    simpa [ofText, Digits.intText, Digits.text] using h

/-- A floating point number, finite or not. -/
theorem float (x : Binary64) : Phrase d P .clean .word (ofText (Layout.plain.text x)) := by
  unfold Layout.text
  cases x.magnitude with
  | nan => exact weaken (text (s := "NaN") (a := .word) (b := .word) (by decide)) (by decide) (by decide)
  | infinite =>
    have letters : ∀ c ∈ ['i', 'n', 'f'], isLetter c = true ∨ isSeparator c = true := by
      intro c hc
      simp only [List.mem_cons, List.not_mem_nil, or_false] at hc
      rcases hc with rfl | rfl | rfl <;> exact Or.inl rfl
    have h := signed (d := d) (P := P) x.isNegative (List.cons_ne_nil _ _) letters
    simpa [ofText] using h
  | finite m q =>
    have plain : ∀ c ∈ Layout.plain.unsigned m q, isLetter c = true ∨ isSeparator c = true := by
      intro c hc
      rcases isDigit_or_point_unsigned m q c hc with hd | rfl
      · exact Or.inl (isLetter_of_isDigit hd)
      · exact Or.inr (by decide)
    have h := signed (d := d) (P := P) x.isNegative (unsigned_ne_nil m q) plain
    simpa [ofText] using h

/-- Bytes in hexadecimal. -/
theorem hexadecimal (b : Bytes) :
    Phrase d P .clean .clean (ofText ("X'" ++ Digits.hexUpperText b ++ "'")) := by
  rw [hexadecimal_eq d, ofText_append]
  exact seq (text (b := .word) (by decide)) (behind (literal _))

end Phrase

mutual

/-- A literal is a phrase without holes. -/
theorem Value.phrase_literal : (v : Value) →
    Phrase d P .clean .word (Template.ofText (v.literal d))
  | .null => by
    simp only [Value.literal]
    exact .text (by decide)
  | .bool b => by
    simp only [Value.literal]
    cases b
    · exact .text (by decide)
    · exact .text (by decide)
  | .int i => by
    simp only [Value.literal]
    exact .integer i.toInt
  | .float x => by
    simp only [Value.literal]
    exact .float x
  | .string s => by
    simp only [Value.literal]
    exact .weaken (.literal s) (by decide) (by decide)
  | .bytes b => by
    simp only [Value.literal]
    exact .weaken (.hexadecimal b) (by decide) (by decide)
  | .date x => by
    simp only [Value.literal]
    exact .weaken (.literal _) (by decide) (by decide)
  | .dateTime t => by
    simp only [Value.literal]
    exact .weaken (.literal _) (by decide) (by decide)
  | .instant t => by
    simp only [Value.literal]
    exact .weaken (.literal _) (by decide) (by decide)
  | .time t => by
    simp only [Value.literal]
    exact .weaken (.literal _) (by decide) (by decide)
  | .uuid u => by
    simp only [Value.literal]
    exact .weaken (.literal _) (by decide) (by decide)
  | .json j => by
    simp only [Value.literal]
    exact .weaken (.literal _) (by decide) (by decide)
  | .list items => by
    have hitems := Phrase.intercalate (d := d) (P := P) (s := ", ") (.text (by decide))
      (Value.phrase_literals items)
    have h := Phrase.paren hitems
    have ht : Template.ofText ("(" ++ ", ".intercalate (Value.literals d items) ++ ")") =
        .char '(' :: (Template.ofText (", ".intercalate (Value.literals d items)) ++ [.char ')']) := by
      simp [Template.ofText]
    simp only [Value.literal]
    rw [ht]
    exact .weaken h (by decide) (by decide)

theorem Value.phrase_literals : (vs : List Value) →
    ∀ s ∈ Value.literals d vs, Phrase d P .clean .any (Template.ofText s)
  | [] => by
    intro s hs
    simp [Value.literals] at hs
  | v :: vs => by
    intro s hs
    simp only [Value.literals, List.mem_cons] at hs
    rcases hs with rfl | hs
    · exact (Value.phrase_literal v).part
    · exact Value.phrase_literals vs s hs

end

end SqlKit
