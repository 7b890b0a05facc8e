import SqlKit.Proofs.Json.Numerals
import SqlKit.Proofs.Number.Scaling
import SqlKit.Proofs.Number.Shortest

/-!
# Doubles in JSON

A finite double is written as its shortest decimal, in places or with an exponent.  The numeral
stands for that decimal exactly; reading it rounds a few times, so the double comes back off by a few
units in the last place at most.

    floatText x = sign and (Numeral.ofDouble x).chars                  (toList_floatText)
    (Numeral.ofDouble x).toJson? = some j → j is a double near x       (near_of_toJson?)
-/

namespace SqlKit.Json

open Binary64

namespace Numeral

/-! ## Values of numerals -/

/-- The power of ten that an exponent stands for. -/
def exponentOf : Option (Bool × List Char) → ℤ
  | none => 0
  | some (neg, ds) =>
    let e := (Digits.valueFrom? 0 ds).getD 0
    if neg then -(e : ℤ) else e

/-- The digits spell `v`, which fits into 64 bits, and the numeral is no plain integer: it has a
point or an exponent. -/
structure Spells (n : Numeral) (v : ℕ) : Prop where
  digits : Digits.valueFrom? 0 (n.whole ++ n.fraction) = some v
  lt_size : v < UInt64.size
  fractional : n.fraction ≠ [] ∨ n.exponent ≠ none
  exponent : ∀ neg ds, n.exponent = some (neg, ds) →
    ∃ e, Digits.valueFrom? 0 ds = some e ∧ e < 0x80000000

/-- The numeral's power of ten. -/
def scale (n : Numeral) : ℤ := exponentOf n.exponent - n.fraction.length

/-- Such a numeral is its significand scaled, with its sign. -/
theorem toJson?_of_spells {n : Numeral} {v : ℕ} (h : n.Spells v) :
    n.toJson? =
      (scaleByTen? 8 (.ofInt v) n.scale).map fun x => .float (signed n.negative x) := by
  obtain ⟨w, hw, hv⟩ :=
    Option.bind_eq_some_iff.1 ((Digits.valueFrom?_append ..).symm.trans h.digits)
  have hle := valueFrom?_ge hv
  have hwhole := Significand.whole_eq hw (lt_of_le_of_lt hle h.lt_size)
  have hfrac := Significand.fraction_eq (s := 0) hv h.lt_size
  unfold toJson?
  simp only [hwhole, hfrac, scale]
  split
  · next neg ds hexp =>
    obtain ⟨e, he, hlt⟩ := h.exponent neg ds hexp
    have hof : exponentOf n.exponent = if neg then -(e : ℤ) else e := by
      rw [hexp, exponentOf, he]
      rfl
    rw [he]
    simp only [if_pos hlt, scaled?]
    rw [hof, show (0 : ℤ) - n.fraction.length + (if neg then -(e : ℤ) else e) =
      (if neg then -(e : ℤ) else e) - n.fraction.length by omega]
  · next hexp =>
    have hfraction : n.fraction ≠ [] := h.fractional.resolve_right (by simp [hexp])
    rw [if_neg (by simp [hfraction]), scaled?, hexp, exponentOf, Int.add_zero]

/-! ## Decimals written in places -/

theorem head?_append_digits {n : ℕ} (h : 0 < n) (cs : List Char) :
    (Digits.digits n ++ cs).head? ≠ some '0' := by
  rw [List.head?_append, Option.or_of_isSome (List.isSome_head?.2 (Digits.digits_ne_nil n))]
  exact head?_digits h

theorem valueFrom?_zeros (acc k : ℕ) :
    Digits.valueFrom? acc (List.replicate k '0') = some (acc * 10 ^ k) := by
  induction k generalizing acc with
  | zero => simp [Digits.valueFrom?]
  | succ k ih =>
    have hzero : Digits.digit? '0' = some 0 := by decide
    rw [List.replicate_succ, Digits.valueFrom?, hzero, Option.bind_some, ih, pow_succ]
    congr 1
    ring

/-- A decimal with its digits at their places; a whole number keeps one zero behind the point. -/
def inPlaces (neg : Bool) (d : Decimal) : Numeral :=
  let ds := Digits.digits d.digits
  let k := (-d.scale).toNat
  if 0 ≤ d.scale then ⟨neg, ds ++ List.replicate d.scale.toNat '0', ['0'], none⟩
  else if k < ds.length then ⟨neg, ds.take (ds.length - k), ds.drop (ds.length - k), none⟩
  else ⟨neg, ['0'], List.replicate (k - ds.length) '0' ++ ds, none⟩

theorem chars_inPlaces (neg : Bool) (d : Decimal) :
    (inPlaces neg d).chars = Layout.json.places d := by
  have hne := Digits.digits_ne_nil d.digits
  have hpoint : Layout.json.pointZero = true := rfl
  unfold inPlaces Layout.places
  simp only [hpoint, if_true]
  generalize Digits.digits d.digits = ds at *
  split_ifs with hscale hk
  · simp [chars, exponentChars]
  · have hdrop : ds.drop (ds.length - (-d.scale).toNat) ≠ [] := by
      rw [ne_eq, List.drop_eq_nil_iff]
      omega
    simp only [chars, exponentChars, if_neg hdrop, List.append_nil]
  · simp [chars, exponentChars, hne]

theorem wellFormed_inPlaces (neg : Bool) {d : Decimal} (hd : 0 < d.digits) :
    (inPlaces neg d).WellFormed := by
  have hne := Digits.digits_ne_nil d.digits
  have hds := allDigits_digits d.digits
  have hzero : AllDigits ['0'] := allDigits_zeros 1
  unfold inPlaces
  dsimp only
  split_ifs with hscale hk
  · exact ⟨by simp [hne], hds.append (allDigits_zeros _), .inr (head?_append_digits hd _), hzero,
      fun _ _ h => by cases h⟩
  · refine ⟨?_, fun c hc => hds c (List.mem_of_mem_take hc), .inr ?_,
      fun c hc => hds c (List.mem_of_mem_drop hc), fun _ _ h => by cases h⟩
    · rw [ne_eq, List.take_eq_nil_iff]
      simp [hne]
      omega
    · rw [List.head?_take, if_neg (by omega)]
      exact head?_digits hd
  · exact ⟨by simp, hzero, .inl rfl, (allDigits_zeros _).append hds, fun _ _ h => by cases h⟩

/-- A whole number in places has no more than sixteen digits. -/
theorem shifted_lt {d : Decimal} {k : ℕ} (hk : d.scale = k)
    (hpos : Layout.json.positional ((Digits.digits d.digits).length - 1 + d.scale) = true) :
    d.digits * 10 ^ k < 10 ^ 16 := by
  have hplaces : (Digits.digits d.digits).length + k ≤ 16 := by
    simp only [Layout.positional, Layout.json, Option.all_some, Bool.and_eq_true,
      decide_eq_true_eq] at hpos
    omega
  calc d.digits * 10 ^ k < 10 ^ (Digits.digits d.digits).length * 10 ^ k :=
        Nat.mul_lt_mul_of_pos_right (Digits.length_bounds _).1 (by positivity)
    _ = 10 ^ ((Digits.digits d.digits).length + k) := (pow_add ..).symm
    _ ≤ 10 ^ 16 := Nat.pow_le_pow_right (by norm_num) hplaces

theorem spells_inPlaces (neg : Bool) {d : Decimal} (hle : d.digits ≤ 10 ^ 18)
    (hscale : -418 ≤ d.scale)
    (hpos : Layout.json.positional ((Digits.digits d.digits).length - 1 + d.scale) = true) :
    ∃ v, (inPlaces neg d).Spells v ∧ -616 ≤ (inPlaces neg d).scale ∧
      (v : ℚ) * 10 ^ (inPlaces neg d).scale = d.value := by
  have hsize : UInt64.size = 0x10000000000000000 := rfl
  have hvalue := Digits.valueFrom?_digits d.digits
  have hne := Digits.digits_ne_nil d.digits
  have hzero : Digits.digit? '0' = some 0 := by decide
  unfold inPlaces
  dsimp only
  split_ifs with hnonneg hk
  · obtain ⟨k, hk⟩ := Int.eq_ofNat_of_zero_le hnonneg
    have hlt := shifted_lt hk hpos
    refine ⟨d.digits * 10 ^ k * 10, ⟨?_, by omega, .inl (by simp), fun _ _ h => by cases h⟩, ?_, ?_⟩
    · rw [Digits.valueFrom?_append, Digits.valueFrom?_append, hvalue, Option.bind_some,
        valueFrom?_zeros, Option.bind_some, hk, Int.toNat_natCast]
      simp [Digits.valueFrom?, hzero, mul_comm]
    · simp [scale, exponentOf]
    · simp only [scale, exponentOf, List.length_singleton, Nat.cast_one, zero_sub, Decimal.value, hk]
      rw [zpow_natCast, zpow_neg_one]
      push_cast
      field_simp
  · have hlen : (List.drop ((Digits.digits d.digits).length - (-d.scale).toNat)
        (Digits.digits d.digits)).length = (-d.scale).toNat := by
      rw [List.length_drop]
      omega
    refine ⟨d.digits, ⟨?_, by omega, .inl ?_, fun _ _ h => by cases h⟩, ?_, ?_⟩
    · rwa [List.take_append_drop]
    · rw [← List.length_pos_iff, hlen]
      omega
    · simp only [scale, exponentOf, hlen]
      omega
    · simp only [scale, exponentOf, hlen, Decimal.value]
      congr 2
      omega
  · refine ⟨d.digits, ⟨?_, by omega, .inl (by simp [hne]), fun _ _ h => by cases h⟩, ?_, ?_⟩
    · rw [List.singleton_append, Digits.valueFrom?, hzero, Option.bind_some,
        Digits.valueFrom?_append, valueFrom?_zeros, Option.bind_some]
      simpa using hvalue
    · simp only [scale, exponentOf, List.length_append, List.length_replicate]
      omega
    · simp only [scale, exponentOf, List.length_append, List.length_replicate, Decimal.value]
      congr 2
      omega

/-! ## Decimals written with an exponent -/

/-- A decimal with one digit in front of the point and its exponent. -/
def withExponent (neg : Bool) (d : Decimal) : Numeral :=
  let ds := Digits.digits d.digits
  let e := ds.length - 1 + d.scale
  ⟨neg, ds.take 1, ds.drop 1, some (decide (e < 0), Digits.digits e.natAbs)⟩

theorem chars_withExponent (neg : Bool) (d : Decimal) :
    (withExponent neg d).chars =
      Layout.json.scientific d ((Digits.digits d.digits).length - 1 + d.scale) := by
  have hne := Digits.digits_ne_nil d.digits
  have hplus : Layout.json.plusInExponent = true := rfl
  unfold withExponent Layout.scientific
  simp only [hplus, if_true]
  generalize Digits.digits d.digits = ds at *
  obtain ⟨c, cs, rfl⟩ := List.exists_cons_of_ne_nil hne
  generalize ((c :: cs).length - 1 + d.scale : ℤ) = e
  by_cases he : e < 0 <;> cases cs <;> simp [chars, exponentChars, he]

theorem wellFormed_withExponent (neg : Bool) (d : Decimal) : (withExponent neg d).WellFormed := by
  have hne := Digits.digits_ne_nil d.digits
  have hds := allDigits_digits d.digits
  have hlen : 0 < (Digits.digits d.digits).length := List.length_pos_of_ne_nil hne
  refine ⟨?_, fun c hc => hds c (List.mem_of_mem_take hc), .inl ?_,
    fun c hc => hds c (List.mem_of_mem_drop hc), ?_⟩
  · simp [withExponent, hne]
  · simp [withExponent]
    omega
  · intro neg' ds' h
    obtain ⟨-, rfl⟩ := Prod.mk.inj (Option.some.inj h)
    exact ⟨Digits.digits_ne_nil _, allDigits_digits _⟩

theorem length_digits_le {n k : ℕ} (h : n ≤ 10 ^ k) : (Digits.digits n).length ≤ k + 1 := by
  rcases Nat.eq_zero_or_pos n with rfl | hpos
  · exact Nat.le_add_left 1 k
  · have hlow := (Digits.length_bounds n).2 hpos
    have := (Nat.pow_le_pow_iff_right (by norm_num : 1 < 10)).1 (hlow.trans h)
    omega

theorem spells_withExponent (neg : Bool) {d : Decimal} (hle : d.digits ≤ 10 ^ 18)
    (hlow : -418 ≤ d.scale) (hhigh : d.scale ≤ 1000) :
    ∃ v, (withExponent neg d).Spells v ∧ -616 ≤ (withExponent neg d).scale ∧
      (v : ℚ) * 10 ^ (withExponent neg d).scale = d.value := by
  have hsize : UInt64.size = 0x10000000000000000 := rfl
  have hlen : 0 < (Digits.digits d.digits).length :=
    List.length_pos_of_ne_nil (Digits.digits_ne_nil _)
  have hlen' := length_digits_le hle
  have hscale : (withExponent neg d).scale = d.scale := by
    simp only [scale, withExponent, exponentOf, Digits.valueFrom?_digits, Option.getD_some,
      decide_eq_true_eq, List.length_drop]
    split_ifs <;> omega
  refine ⟨d.digits, ⟨?_, by omega, .inr (by simp [withExponent]), ?_⟩, by omega, by rw [hscale]; rfl⟩
  · rw [withExponent, List.take_append_drop]
    exact Digits.valueFrom?_digits _
  · intro neg' ds h
    obtain ⟨-, rfl⟩ := Prod.mk.inj (Option.some.inj h)
    exact ⟨_, Digits.valueFrom?_digits _, by omega⟩

/-! ## Doubles as numerals -/

/-- A decimal as JSON writes it: in places while its exponent is small. -/
def ofDecimal (neg : Bool) (d : Decimal) : Numeral :=
  if Layout.json.positional ((Digits.digits d.digits).length - 1 + d.scale) then inPlaces neg d
  else withExponent neg d

/-- The numeral of a magnitude: zero, or the shortest decimal. -/
def ofMagnitude (neg : Bool) : Magnitude → Numeral
  | .finite 0 _ => ⟨neg, ['0'], ['0'], none⟩
  | .finite m q => ofDecimal neg (Shortest.shortest .toEven m q)
  | .infinite => ⟨neg, ['0'], ['0'], none⟩
  | .nan => ⟨neg, ['0'], ['0'], none⟩

/-- The numeral of a double. -/
def ofDouble (x : Binary64) : Numeral := ofMagnitude x.isNegative x.magnitude

theorem negative_ofMagnitude (neg : Bool) (x : Magnitude) : (ofMagnitude neg x).negative = neg := by
  have hdecimal : ∀ d, (ofDecimal neg d).negative = neg := by
    intro d
    unfold ofDecimal inPlaces
    dsimp only
    split_ifs <;> rfl
  unfold ofMagnitude
  split
  · rfl
  · exact hdecimal _
  · rfl
  · rfl

theorem chars_ofMagnitude (neg : Bool) (m : ℕ) (q : ℤ) :
    (ofMagnitude neg (.finite m q)).chars = Layout.json.unsigned m q := by
  have htie : Layout.json.tie = .toEven := rfl
  cases m with
  | zero => rfl
  | succ m =>
    rw [ofMagnitude, ofDecimal, Layout.unsigned, if_neg (Nat.succ_ne_zero m), htie]
    · dsimp only
      split_ifs
      · exact chars_inPlaces ..
      · exact chars_withExponent ..
    · simp

/-- A finite double's text is its numeral, a minus sign in front of a negative one. -/
theorem toList_floatText {x : Binary64} (hx : x.IsFinite) :
    (floatText x).toList = (if x.isNegative then ['-'] else []) ++ (ofDouble x).chars := by
  obtain ⟨m, q, hmag⟩ := hx
  rw [floatText, Layout.text, ofDouble, hmag, chars_ofMagnitude]
  simp

theorem wellFormed_zero (neg : Bool) : (⟨neg, ['0'], ['0'], none⟩ : Numeral).WellFormed :=
  ⟨by simp, allDigits_zeros 1, .inl rfl, allDigits_zeros 1, fun _ _ h => by cases h⟩

theorem wellFormed_ofMagnitude (neg : Bool) (m : ℕ) {q : ℤ} (hq : -1074 ≤ q) :
    (ofMagnitude neg (.finite m q)).WellFormed := by
  cases m with
  | zero => exact wellFormed_zero neg
  | succ m =>
    obtain ⟨hpos, -⟩ := Shortest.shortest_spec .toEven (Nat.succ_pos m) hq
    rw [ofMagnitude, ofDecimal]
    · split_ifs
      · exact wellFormed_inPlaces neg hpos
      · exact wellFormed_withExponent ..
    · simp

/-- The decimal of a double has no larger exponent than the largest double. -/
theorem scale_shortest_le {m : ℕ} (hm : 0 < m) (hm' : m < 2 ^ 53) {q : ℤ} (hq : -1074 ≤ q)
    (hq' : q ≤ 971) : (Shortest.shortest .toEven m q).scale ≤ 1000 := by
  obtain ⟨hpos, -, -, hnear⟩ := Shortest.shortest_spec .toEven hm hq
  have hm1 : (1 : ℚ) ≤ m := by exact_mod_cast hm
  have hpow : (0 : ℚ) < 2 ^ q := by positivity
  have hunit : (2 : ℚ) ^ q ≤ m * 2 ^ q := le_mul_of_one_le_left hpow.le hm1
  have hvalue : (Shortest.shortest .toEven m q).value ≤ 2 * (m * 2 ^ q) := by
    have hmax : max ((2 : ℚ) ^ q / 2) (m * 2 ^ q / 10 ^ 17) ≤ m * 2 ^ q := by
      refine max_le (by linarith) (div_le_self (by positivity) (by norm_num))
    linarith [(abs_le.1 (hnear.trans hmax)).2]
  have hdigits : (10 : ℚ) ^ (Shortest.shortest .toEven m q).scale ≤
      (Shortest.shortest .toEven m q).value := by
    refine le_mul_of_one_le_left (by positivity) ?_
    exact_mod_cast hpos
  have hlarge : 2 * ((m : ℚ) * 2 ^ q) ≤ 10 ^ (1000 : ℤ) := by
    calc 2 * ((m : ℚ) * 2 ^ q) ≤ 2 * (2 ^ (53 : ℤ) * 2 ^ (971 : ℤ)) := by
          refine mul_le_mul_of_nonneg_left (mul_le_mul ?_ ?_ hpow.le (by positivity)) (by norm_num)
          · exact_mod_cast hm'.le
          · exact zpow_le_zpow_right₀ one_le_two hq'
      _ = 2 ^ (1 + (53 + 971) : ℤ) := by
          rw [zpow_add₀ two_ne_zero, zpow_add₀ two_ne_zero, zpow_one]
      _ ≤ 2 ^ ((3 * 1000 : ℕ) : ℤ) := zpow_le_zpow_right₀ one_le_two (by norm_num)
      _ ≤ 10 ^ (1000 : ℤ) := by
          rw [zpow_natCast]
          exact_mod_cast Shortest.two_pow_le 1000
  exact (zpow_le_zpow_iff_right₀ (by norm_num : (1 : ℚ) < 10)).1
    ((hdigits.trans hvalue).trans hlarge)

/-- The numeral of a double is off by half a unit in the last place at most, or than the
seventeenth digit. -/
theorem spells_ofMagnitude (neg : Bool) {m : ℕ} (hm : m < 2 ^ 53) {q : ℤ} (hq : -1074 ≤ q)
    (hq' : q ≤ 971) :
    ∃ v, (ofMagnitude neg (.finite m q)).Spells v ∧ -616 ≤ (ofMagnitude neg (.finite m q)).scale ∧
      |(v : ℚ) * 10 ^ (ofMagnitude neg (.finite m q)).scale - m * 2 ^ q| ≤
        max ((2 : ℚ) ^ q / 2) ((m : ℚ) * 2 ^ q / 10 ^ 17) := by
  cases m with
  | zero =>
    refine ⟨0, ⟨rfl, by decide, .inl (by simp [ofMagnitude]), fun _ _ h => by cases h⟩, ?_, ?_⟩
    · simp [ofMagnitude, scale, exponentOf]
    · simp
  | succ m =>
    obtain ⟨-, hle, hlow, hnear⟩ := Shortest.shortest_spec .toEven (Nat.succ_pos m) hq
    have hhigh := scale_shortest_le (Nat.succ_pos m) hm hq hq'
    have hspells : ∃ v, (ofDecimal neg (Shortest.shortest .toEven (m + 1) q)).Spells v ∧
        -616 ≤ (ofDecimal neg (Shortest.shortest .toEven (m + 1) q)).scale ∧
        (v : ℚ) * 10 ^ (ofDecimal neg (Shortest.shortest .toEven (m + 1) q)).scale =
          (Shortest.shortest .toEven (m + 1) q).value := by
      unfold ofDecimal
      split_ifs with hpos
      · exact spells_inPlaces neg hle hlow hpos
      · exact spells_withExponent neg hle hlow hhigh
    obtain ⟨v, hv, hscale, hvalue⟩ := hspells
    rw [ofMagnitude]
    · exact ⟨v, hv, hscale, by rwa [hvalue]⟩
    · simp

end Numeral

/-! ## What comes back -/

/-- A sign in front changes nothing else. -/
theorem signed_spec (neg : Bool) {y : Binary64} (hy : y.isNegative = false) :
    (signed neg y).isNegative = neg ∧ (signed neg y).magnitude = y.magnitude := by
  have hsign : Format.double.signBit = 2 ^ 63 := by decide
  cases neg with
  | false => exact ⟨hy, rfl⟩
  | true =>
    have hlt : y.bits.toNat < 2 ^ 63 := by
      rw [isNegative, hsign] at hy
      simpa using hy
    have hbits : (signed true y).bits.toNat = 2 ^ 63 + y.bits.toNat := by
      have hor := Nat.two_pow_add_eq_or_of_lt hlt 1
      rw [Nat.or_comm, mul_one] at hor
      simpa [signed] using hor.symm
    rw [isNegative, magnitude, magnitude, hbits, hsign]
    exact ⟨by simp, by rw [Nat.add_mod_left]⟩

/-- Half a unit in the last place is a small part of the double, or half of the least step. -/
theorem half_unit_le {m : ℕ} {q : ℤ} (h : q = -1074 ∨ 2 ^ 52 ≤ m) :
    max ((2 : ℚ) ^ q / 2) ((m : ℚ) * 2 ^ q / 10 ^ 17) ≤ m * 2 ^ q / 2 ^ 53 + halfStep := by
  have hhalf := halfStep_pos
  have hpow : (0 : ℚ) < 2 ^ q := by positivity
  have hpart : (0 : ℚ) ≤ m * 2 ^ q / 2 ^ 53 := by positivity
  refine max_le ?_ ?_
  · rcases h with rfl | h
    · have : (2 : ℚ) ^ (-1074 : ℤ) / 2 = halfStep := by
        rw [show (-1074 : ℤ) = -1075 + 1 by norm_num, zpow_add_one₀ two_ne_zero, halfStep]
        ring
      linarith
    · have hm : (2 : ℚ) ^ 52 ≤ m := by exact_mod_cast h
      have : (2 : ℚ) ^ q / 2 ≤ m * 2 ^ q / 2 ^ 53 := by
        rw [div_le_div_iff₀ (by norm_num) (by positivity)]
        linarith [mul_le_mul_of_nonneg_right hm hpow.le]
      linarith
  · have : (m : ℚ) * 2 ^ q / 10 ^ 17 ≤ m * 2 ^ q / 2 ^ 53 :=
      div_le_div_of_nonneg_left (by positivity) (by positivity) (by norm_num)
    linarith

/-- The decimal that a double is written as reads as a double near to it. -/
theorem near_of_toJson? {x : Binary64} (hx : x.IsFinite) {j : Json}
    (h : (Numeral.ofDouble x).toJson? = some j) : ∃ y, j = .float y ∧ x.Near y := by
  obtain ⟨m, q, hmag⟩ := hx
  obtain ⟨hm, hq, hq', hunit⟩ := magnitude_finite hmag
  obtain ⟨v, hspells, hscale, hnear⟩ := Numeral.spells_ofMagnitude x.isNegative hm hq hq'
  have hsize : x.size = m * 2 ^ q := by rw [size, hmag]; rfl
  rw [Numeral.ofDouble, hmag, Numeral.toJson?_of_spells hspells] at h
  obtain ⟨y, hy, rfl⟩ := Option.map_eq_some_iff.1 h
  have hlt : v < 2 ^ 64 := hspells.lt_size
  obtain ⟨hneg, hfin, herr⟩ := scaleByTen?_near hlt hscale hy
  have hsign := Numeral.negative_ofMagnitude x.isNegative (.finite m q)
  obtain ⟨hneg', hmag'⟩ := signed_spec x.isNegative hneg
  rw [hsign]
  refine ⟨_, rfl, hneg', ?_, ?_⟩
  · rwa [IsFinite, hmag']
  · rw [size, hmag', hsize]
    have hhalf := halfStep_pos
    have hwrite := hnear.trans (half_unit_le hunit)
    have hV : (0 : ℚ) ≤ m * 2 ^ q := by positivity
    rw [size] at herr
    generalize (v : ℚ) * 10 ^ (Numeral.ofMagnitude x.isNegative (.finite m q)).scale = D at *
    generalize (m : ℚ) * 2 ^ q = V at *
    generalize y.magnitude.size = Y at *
    obtain ⟨hw1, hw2⟩ := abs_le.1 hwrite
    obtain ⟨hr1, hr2⟩ := abs_le.1 herr
    rw [abs_le]
    constructor <;> linarith

end SqlKit.Json
