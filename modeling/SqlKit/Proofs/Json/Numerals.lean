import Mathlib.Data.List.TakeWhile
import Mathlib.Tactic.SplitIfs
import SqlKit.Json.Written

/-!
# Numerals read back

A numeral is written as its digits, a point with more digits, an exponent with its sign.  Read in
front of what ends it, it is itself again; its digits, taken together, are its significand as long as
they fit into 64 bits.

    readNumeral? n.negative (n.chars ++ r) = some (n, r)               (readNumeral?_chars)
    Significand.whole 0 ds = ⟨v, 0⟩   if ds spell v < 2^64             (whole_eq)
-/

namespace SqlKit.Json

/-! ## Digits -/

/-- Nothing but digits. -/
def AllDigits (ds : List Char) : Prop := ∀ c ∈ ds, isDigit c = true

/-- No digit comes next. -/
def NoDigit (r : List Char) : Prop := ∀ c ∈ r.head?, isDigit c = false

theorem AllDigits.append {ds es : List Char} (hd : AllDigits ds) (he : AllDigits es) :
    AllDigits (ds ++ es) := by
  intro c hc
  rcases List.mem_append.1 hc with h | h
  · exact hd c h
  · exact he c h

theorem allDigits_zeros (k : Nat) : AllDigits (List.replicate k '0') := by
  intro c hc
  rw [List.eq_of_mem_replicate hc]
  rfl

theorem takeWhile_digits {ds r : List Char} (hd : AllDigits ds) (hr : NoDigit r) :
    (ds ++ r).takeWhile isDigit = ds := by
  rw [List.takeWhile_append_of_pos hd]
  cases r with
  | nil => simp
  | cons c r =>
    have hc : isDigit c = false := hr c rfl
    rw [List.takeWhile_cons_of_neg (by simp [hc]), List.append_nil]

theorem isDigit_digitChar {d : Nat} (h : d < 10) : isDigit (Nat.digitChar d) = true := by
  rw [isDigit, Digits.digit?_digitChar h]
  rfl

theorem allDigits_digits (n : Nat) : AllDigits (Digits.digits n) := by
  induction n using Nat.strongRecOn with
  | _ n ih =>
    rcases Nat.lt_or_ge n 10 with h | h
    · intro c hc
      rw [Digits.digits, Nat.toDigits_of_lt_base h, List.mem_singleton] at hc
      rw [hc]
      exact isDigit_digitChar h
    · rw [Digits.digits_eq_append h]
      refine (ih _ (by omega)).append ?_
      intro c hc
      rw [List.mem_singleton.1 hc]
      exact isDigit_digitChar (Nat.mod_lt _ (by decide))

/-- The first digit of a positive number is no zero. -/
theorem head?_digits {n : Nat} (h : 0 < n) : (Digits.digits n).head? ≠ some '0' := by
  induction n using Nat.strongRecOn with
  | _ n ih =>
    rcases Nat.lt_or_ge n 10 with hlt | hge
    · have key : ∀ n, n < 10 → 0 < n → (Digits.digits n).head? ≠ some '0' := by decide
      exact key n hlt h
    · rw [Digits.digits_eq_append hge, List.head?_append,
        Option.or_of_isSome (List.isSome_head?.2 (Digits.digits_ne_nil _))]
      exact ih _ (by omega) (by omega)

/-! ## Reading -/

/-- What may come behind a value inside of a text: the end, a comma or a closing bracket. -/
def Stops (r : List Char) : Prop := ∀ c ∈ r.head?, c = ',' ∨ c = ']' ∨ c = '\x7d'

theorem Stops.noDigit {r : List Char} (h : Stops r) : NoDigit r := by
  intro c hc
  obtain rfl | rfl | rfl := h c hc <;> rfl

namespace Numeral

/-- The exponent as it is written. -/
def exponentChars (n : Numeral) : List Char :=
  match n.exponent with
  | none => []
  | some (neg, ds) => 'e' :: (if neg then '-' else '+') :: ds

/-- The numeral as it is written, its sign apart. -/
def chars (n : Numeral) : List Char :=
  n.whole ++ ((if n.fraction = [] then [] else '.' :: n.fraction) ++ n.exponentChars)

/-- Digits stand where digits belong, and no zero in front of others. -/
structure WellFormed (n : Numeral) : Prop where
  whole_ne_nil : n.whole ≠ []
  whole : AllDigits n.whole
  leading : n.whole.length = 1 ∨ n.whole.head? ≠ some '0'
  fraction : AllDigits n.fraction
  exponent : ∀ neg ds, n.exponent = some (neg, ds) → ds ≠ [] ∧ AllDigits ds

/-- No digit and no point follows the digits behind the point. -/
theorem exponentChars_head {n : Numeral} {r : List Char} (hr : Stops r) :
    ∀ c ∈ (n.exponentChars ++ r).head?, isDigit c = false ∧ c ≠ '.' := by
  intro c hc
  unfold exponentChars at hc
  split at hc
  · obtain rfl | rfl | rfl := hr c hc <;> decide
  · obtain rfl : 'e' = c := by simpa using hc
    decide

theorem readFraction?_chars {n : Numeral} (hn : n.WellFormed) {r : List Char} (hr : Stops r) :
    readFraction? ((if n.fraction = [] then [] else '.' :: n.fraction) ++ (n.exponentChars ++ r)) =
      some (n.fraction, n.exponentChars ++ r) := by
  have hexp := exponentChars_head (n := n) hr
  split
  · next h =>
    rw [List.nil_append, h]
    unfold readFraction?
    split
    · next hs => exact absurd rfl (hexp '.' (by rw [hs]; rfl)).2
    · rfl
  · next h =>
    have htake := takeWhile_digits hn.fraction fun c hc => (hexp c hc).1
    simp only [List.cons_append, readFraction?, htake, List.drop_left]
    rw [if_neg (by simpa using h)]

theorem readExponent?_chars {n : Numeral} (hn : n.WellFormed) {r : List Char} (hr : Stops r) :
    readExponent? (n.exponentChars ++ r) = some (n.exponent, r) := by
  unfold exponentChars
  split
  · next h =>
    rw [List.nil_append, h]
    unfold readExponent?
    split
    · next c s =>
      have hc : (c = 'e' || c = 'E') = false := by
        obtain rfl | rfl | rfl := hr c rfl <;> rfl
      rw [hc]
      rfl
    · rfl
  · next neg ds h =>
    obtain ⟨hne, hds⟩ := hn.exponent neg ds h
    have htake := takeWhile_digits hds hr.noDigit
    have hsign : exponentSign ((if neg then '-' else '+') :: (ds ++ r)) = (neg, ds ++ r) := by
      cases neg <;> rfl
    simp only [List.cons_append, readExponent?, hsign, htake, List.drop_left]
    simp [hne, h]

/-- A numeral in front of what ends it reads as itself. -/
theorem readNumeral?_chars {n : Numeral} (hn : n.WellFormed) {r : List Char} (hr : Stops r) :
    readNumeral? n.negative (n.chars ++ r) = some (n, r) := by
  have htail : NoDigit ((if n.fraction = [] then [] else '.' :: n.fraction) ++
      (n.exponentChars ++ r)) := by
    intro c hc
    split at hc
    · exact (exponentChars_head hr c hc).1
    · obtain rfl : '.' = c := by simpa using hc
      rfl
  have hwhole : (n.chars ++ r).takeWhile isDigit = n.whole := by
    rw [chars, List.append_assoc, List.append_assoc]
    exact takeWhile_digits hn.whole htail
  have hdrop : (n.chars ++ r).drop n.whole.length =
      (if n.fraction = [] then [] else '.' :: n.fraction) ++ (n.exponentChars ++ r) := by
    rw [chars, List.append_assoc, List.append_assoc, List.drop_left]
  have hlead : (n.whole.isEmpty || n.whole.length ≠ 1 && n.whole.head? = some '0') = false := by
    rcases hn.leading with h | h <;> simp [hn.whole_ne_nil, h]
  simp only [readNumeral?, hwhole, hdrop, hlead, readFraction?_chars hn hr, Bool.false_eq_true,
    if_false, Option.bind_eq_bind, Option.bind_some, readExponent?_chars hn hr]
  rfl

end Numeral

/-! ## Significands -/

theorem valueFrom?_ge {acc v : Nat} {ds : List Char} (h : Digits.valueFrom? acc ds = some v) :
    acc ≤ v := by
  induction ds generalizing acc with
  | nil => exact Nat.le_of_eq (Option.some.inj h)
  | cons c ds ih =>
    obtain ⟨d, -, h⟩ := Option.bind_eq_some_iff.1 h
    have := ih h
    omega

/-- Digits in front of the point are taken in as long as what they spell fits. -/
theorem Significand.whole_eq {acc v : Nat} {ds : List Char}
    (h : Digits.valueFrom? acc ds = some v) (hv : v < UInt64.size) :
    Significand.whole acc ds = ⟨v, 0⟩ := by
  induction ds generalizing acc with
  | nil => rw [Option.some.inj h]; rfl
  | cons c ds ih =>
    obtain ⟨d, hd, h⟩ := Option.bind_eq_some_iff.1 h
    have hle := valueFrom?_ge h
    simp only [Significand.whole, hd, Option.getD_some]
    rw [if_pos (by omega), ih h]

/-- So are those behind the point, and each shifts it by one place. -/
theorem Significand.fraction_eq {acc v : Nat} {s : Int} {ds : List Char}
    (h : Digits.valueFrom? acc ds = some v) (hv : v < UInt64.size) :
    Significand.fraction ⟨acc, s⟩ ds = ⟨v, s - ds.length⟩ := by
  induction ds generalizing acc s with
  | nil => rw [Option.some.inj h]; simp [Significand.fraction]
  | cons c ds ih =>
    obtain ⟨d, hd, h⟩ := Option.bind_eq_some_iff.1 h
    have hle := valueFrom?_ge h
    simp only [Significand.fraction, hd, Option.getD_some]
    rw [if_pos (by omega), ih h, List.length_cons, Int.natCast_succ]
    congr 1
    omega

/-! ## Integers -/

/-- An integer as a numeral. -/
def Numeral.ofInt (i : Int) : Numeral := ⟨decide (i < 0), Digits.digits i.natAbs, [], none⟩

theorem Numeral.wellFormed_ofInt (i : Int) : (Numeral.ofInt i).WellFormed where
  whole_ne_nil := Digits.digits_ne_nil _
  whole := allDigits_digits _
  leading := by
    rcases Nat.eq_zero_or_pos i.natAbs with h | h
    · exact .inl (by rw [ofInt, h]; rfl)
    · exact .inr (head?_digits h)
  fraction := by intro c hc; cases hc
  exponent := by intro neg ds h; cases h

/-- An integer's text is its numeral, a minus sign in front of a negative one. -/
theorem Numeral.toList_intText (i : Int) :
    (Digits.intText i).toList =
      (if i < 0 then ['-'] else []) ++ (Numeral.ofInt i).chars := by
  cases i with
  | ofNat n => simp [Digits.intText, Digits.text, chars, exponentChars, ofInt]
  | negSucc n =>
    have hneg : Int.negSucc n < 0 := Int.negSucc_lt_zero n
    simp [Digits.intText, Digits.text, chars, exponentChars, ofInt, hneg]

/-- An integer of 64 bits, signed or unsigned, is what its numeral stands for. -/
theorem Numeral.toJson?_ofInt {i : Int} (hlow : -0x8000000000000000 ≤ i)
    (hhigh : i < 0x10000000000000000) : (Numeral.ofInt i).toJson? = some (.int i) := by
  have hsize : UInt64.size = 0x10000000000000000 := rfl
  have hwhole : Significand.whole 0 (Digits.digits i.natAbs) = ⟨i.natAbs, 0⟩ :=
    Significand.whole_eq (Digits.valueFrom?_digits _) (by omega)
  simp only [Numeral.toJson?, Numeral.ofInt, hwhole, List.isEmpty_nil, and_self, if_true]
  by_cases hneg : i < 0
  · rw [if_pos (by simpa using hneg), if_neg (by omega)]
    congr 2
    omega
  · rw [if_neg (by simpa using hneg)]
    congr 2
    omega

end SqlKit.Json
