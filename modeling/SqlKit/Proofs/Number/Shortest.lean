import Mathlib.Algebra.Order.Field.Power
import Mathlib.Tactic.FieldSimp
import Mathlib.Tactic.Linarith
import Mathlib.Tactic.NormNum
import Mathlib.Tactic.Positivity
import Mathlib.Tactic.Ring
import Mathlib.Tactic.SplitIfs
import SqlKit.Number.Shortest

/-!
# The shortest decimal lies near

The grid point that is taken lies in the rounding interval, so at half a unit in the last place from
the value; without one, the digits cut off after the eighteenth do.

    10 ^ (magnitude - 1) ≤ value / den < 10 ^ magnitude                (magnitude_spec)
    |d.digits * 10 ^ d.scale - m * 2 ^ q| ≤ max (2 ^ q / 2) (m * 2 ^ q / 10 ^ 17)  (shortest_spec)
-/

namespace SqlKit

/-! ## Lengths of digit strings -/

theorem Digits.length_bounds (n : ℕ) :
    n < 10 ^ (Digits.digits n).length ∧ (0 < n → 10 ^ ((Digits.digits n).length - 1) ≤ n) := by
  induction n using Nat.strongRecOn with
  | _ n ih =>
    rcases Nat.lt_or_ge n 10 with h | h
    · rw [Digits.digits, Nat.toDigits_of_lt_base h]
      exact ⟨by simpa using h, fun hpos => by rwa [List.length_singleton, Nat.sub_self, pow_zero]⟩
    · obtain ⟨hup, hlow⟩ := ih (n / 10) (by omega)
      have hlen : (Digits.digits (n / 10)).length ≠ 0 := by
        simp [Digits.digits_ne_nil]
      obtain ⟨k, hk⟩ := Nat.exists_eq_succ_of_ne_zero hlen
      have hlow' := hlow (by omega)
      rw [Digits.digits_eq_append h, List.length_append, List.length_singleton]
      rw [hk] at hup hlow' ⊢
      refine ⟨?_, fun _ => ?_⟩
      · rw [pow_succ]
        omega
      · rw [Nat.add_sub_cancel, pow_succ]
        rw [Nat.succ_sub_one] at hlow'
        omega

/-- A number that fits fills its width and no more. -/
theorem Digits.length_padded_of_lt {w n : ℕ} (hw : 0 < w) (hn : n < 10 ^ w) :
    (Digits.padded w n).length = w := by
  have hlen : (Digits.digits n).length ≤ w := by
    rcases Nat.eq_zero_or_pos n with rfl | hpos
    · exact hw
    · have hlow := (Digits.length_bounds n).2 hpos
      have := (Nat.pow_lt_pow_iff_right (by decide : 1 < 10)).1 (hlow.trans_lt hn)
      omega
  rw [Digits.length_padded]
  omega

/-- The number that a decimal stands for. -/
def Decimal.value (d : Decimal) : ℚ := d.digits * 10 ^ d.scale

namespace Shortest

/-- A power of ten as a quotient of two powers without sign. -/
theorem ten_zpow (e : ℤ) : (10 : ℚ) ^ e = 10 ^ e.toNat / 10 ^ (-e).toNat := by
  rcases le_total 0 e with h | h
  · obtain ⟨k, rfl⟩ := Int.eq_ofNat_of_zero_le h
    simp
  · obtain ⟨k, hk⟩ := Int.eq_ofNat_of_zero_le (show 0 ≤ -e by omega)
    obtain rfl : e = -(k : ℤ) := by omega
    simp

namespace Interval

variable (iv : Interval)

/-- The value as a number. -/
def number : ℚ := iv.value / iv.den

/-! ## The number of digits -/

/-- The search for the first digit behind the point. -/
theorem magnitude_go {den : ℕ} (hiv : iv.den = den) {fuel v j : ℕ} (hlt : v < den)
    (hfuel : den ≤ v * 10 ^ fuel) :
    ∃ k : ℕ, magnitude.go iv fuel v j = -(k : ℤ) ∧ j ≤ k ∧ v * 10 ^ (k - j) < den ∧
      den ≤ v * 10 ^ (k - j + 1) := by
  induction fuel generalizing v j with
  | zero =>
    rw [pow_zero, mul_one] at hfuel
    omega
  | succ fuel ih =>
    rw [magnitude.go]
    split_ifs with h
    · rw [hiv] at h
      exact ⟨j, rfl, le_refl j, by simpa using hlt, by simpa [mul_comm] using h⟩
    · rw [hiv] at h
      obtain ⟨k, hk, hjk, hlow, hhigh⟩ := ih (v := 10 * v) (j := j + 1) (by omega) (by
        rw [pow_succ] at hfuel
        linarith)
      refine ⟨k, hk, by omega, ?_, ?_⟩
      · rw [show k - j = k - (j + 1) + 1 by omega, pow_succ]
        linarith
      · rw [show k - j = k - (j + 1) + 1 by omega, pow_succ]
        linarith

/-- So many digits has the value in front of the point. -/
theorem magnitude_spec (hden : 0 < iv.den) (hfuel : iv.den ≤ iv.value * 10 ^ 400) :
    (10 : ℚ) ^ (iv.magnitude - 1) ≤ iv.number ∧ iv.number < 10 ^ iv.magnitude := by
  have hd : (0 : ℚ) < iv.den := by exact_mod_cast hden
  unfold magnitude number
  split_ifs with h
  · have hpos : 0 < iv.value / iv.den := Nat.div_pos h hden
    obtain ⟨hup, hlow⟩ := Digits.length_bounds (iv.value / iv.den)
    have hlen : (Digits.digits (iv.value / iv.den)).length ≠ 0 := by
      simp [Digits.digits_ne_nil]
    obtain ⟨k, hk⟩ := Nat.exists_eq_succ_of_ne_zero hlen
    have hlow' := hlow hpos
    rw [hk] at hup hlow' ⊢
    rw [Nat.succ_sub_one] at hlow'
    constructor
    · rw [show ((k.succ : ℕ) : ℤ) - 1 = k by push_cast; ring, zpow_natCast, le_div_iff₀ hd]
      exact_mod_cast (Nat.mul_le_mul_right _ hlow').trans (Nat.div_mul_le_self ..)
    · rw [zpow_natCast, div_lt_iff₀ hd]
      exact_mod_cast (Nat.div_lt_iff_lt_mul hden).1 hup
  · obtain ⟨k, hk, -, hlow, hhigh⟩ :=
      iv.magnitude_go rfl (j := 0) (show iv.value < iv.den by omega) hfuel
    rw [Nat.sub_zero] at hlow hhigh
    rw [hk]
    constructor
    · rw [show -(k : ℤ) - 1 = -((k + 1 : ℕ) : ℤ) by push_cast; ring, zpow_neg, zpow_natCast,
        inv_le_iff_one_le_mul₀ (by positivity), div_mul_eq_mul_div, le_div_iff₀ hd, one_mul]
      exact_mod_cast hhigh
    · rw [zpow_neg, zpow_natCast, div_lt_iff₀ hd, inv_mul_eq_div, lt_div_iff₀ (by positivity)]
      exact_mod_cast hlow

/-! ## Grid points -/

/-- The interval reaches `w` to either side of the value, at most. -/
def Reaches (w : ℚ) : Prop :=
  (iv.number - w) * iv.den ≤ iv.low ∧ (iv.high : ℚ) ≤ (iv.number + w) * iv.den

variable {iv}

theorem near_of_contains {w : ℚ} (hiv : iv.Reaches w) (hden : 0 < iv.den) {n d : ℕ} (hd : 0 < d)
    (h : iv.contains n d = true) : |(n : ℚ) / d - iv.number| ≤ w := by
  have hdq : (0 : ℚ) < d := by exact_mod_cast hd
  have hdenq : (0 : ℚ) < iv.den := by exact_mod_cast hden
  have hle : iv.low * d ≤ n * iv.den ∧ n * iv.den ≤ iv.high * d := by
    unfold contains at h
    dsimp only at h
    split at h
    · simpa using h
    · simp only [Bool.decide_and, Bool.and_eq_true, decide_eq_true_eq] at h
      exact ⟨h.1.le, h.2.le⟩
  have hlow : (iv.low : ℚ) * d ≤ n * iv.den := by exact_mod_cast hle.1
  have hhigh : (n : ℚ) * iv.den ≤ iv.high * d := by exact_mod_cast hle.2
  rw [abs_le]
  constructor
  · have hmul : (iv.number - w) * d ≤ n := by
      refine le_of_mul_le_mul_right ?_ hdenq
      calc (iv.number - w) * d * iv.den = (iv.number - w) * iv.den * d := by ring
        _ ≤ iv.low * d := mul_le_mul_of_nonneg_right hiv.1 hdq.le
        _ ≤ n * iv.den := hlow
    have := (le_div_iff₀ hdq).2 hmul
    linarith
  · have hmul : (n : ℚ) ≤ (iv.number + w) * d := by
      refine le_of_mul_le_mul_right ?_ hdenq
      calc (n : ℚ) * iv.den ≤ iv.high * d := hhigh
        _ ≤ (iv.number + w) * iv.den * d := mul_le_mul_of_nonneg_right hiv.2 hdq.le
        _ = (iv.number + w) * d * iv.den := by ring
    have := (div_le_iff₀ hdq).2 hmul
    linarith

theorem gridPoint?_bounds {tie : Tie} {num d k : ℕ} (h : iv.gridPoint? tie num d = some k) :
    0 < k ∧ k ≤ iv.value * d / (iv.den * num) + 1 := by
  unfold gridPoint? at h
  grind

/-- The whole steps of a grid up to the value. -/
theorem steps_bounds (hden : 0 < iv.den) (scale : ℤ) :
    ((iv.value * 10 ^ (-scale).toNat / (iv.den * 10 ^ scale.toNat) : ℕ) : ℚ) * 10 ^ scale ≤
        iv.number ∧
      iv.number <
        ((iv.value * 10 ^ (-scale).toNat / (iv.den * 10 ^ scale.toNat) : ℕ) + 1) * 10 ^ scale := by
  have hdenq : (0 : ℚ) < iv.den := by exact_mod_cast hden
  have hpos : 0 < iv.den * 10 ^ scale.toNat := by positivity
  have hlow := Nat.div_mul_le_self (iv.value * 10 ^ (-scale).toNat) (iv.den * 10 ^ scale.toNat)
  have hhigh := Nat.lt_mul_of_div_lt
    (Nat.lt_succ_self (iv.value * 10 ^ (-scale).toNat / (iv.den * 10 ^ scale.toNat))) hpos
  generalize iv.value * 10 ^ (-scale).toNat / (iv.den * 10 ^ scale.toNat) = k at *
  have hlow' : (k : ℚ) * (iv.den * 10 ^ scale.toNat) ≤ iv.value * 10 ^ (-scale).toNat := by
    exact_mod_cast hlow
  have hhigh' : (iv.value : ℚ) * 10 ^ (-scale).toNat < (k + 1) * (iv.den * 10 ^ scale.toNat) := by
    exact_mod_cast hhigh
  rw [ten_zpow, number]
  constructor
  · rw [mul_div_assoc', div_le_div_iff₀ (by positivity) hdenq]
    linarith
  · rw [mul_div_assoc', div_lt_div_iff₀ hdenq (by positivity)]
    linarith

/-! ## The search -/

/-- What the search comes back with. -/
structure Found (iv : Interval) (w : ℚ) (d : Decimal) : Prop where
  pos : 0 < d.digits
  digits_le : d.digits ≤ 10 ^ 18
  scale_ge : iv.magnitude - 18 ≤ d.scale
  near : |d.value - iv.number| ≤ max w (iv.number / 10 ^ 17)

/-- Up to the value, a grid of `n` digits has steps of as many digits at most. -/
theorem steps_lt (hden : 0 < iv.den) (hfuel : iv.den ≤ iv.value * 10 ^ 400) (n : ℕ) :
    iv.value * 10 ^ (-(iv.magnitude - n)).toNat /
      (iv.den * 10 ^ (iv.magnitude - n).toNat) < 10 ^ n := by
  obtain ⟨-, hhigh⟩ := iv.magnitude_spec hden hfuel
  have hpow : (0 : ℚ) < 10 ^ (iv.magnitude - n) := by positivity
  have hlt : ((iv.value * 10 ^ (-(iv.magnitude - n)).toNat /
      (iv.den * 10 ^ (iv.magnitude - n).toNat) : ℕ) : ℚ) * 10 ^ (iv.magnitude - n) <
      10 ^ n * 10 ^ (iv.magnitude - n) := by
    refine lt_of_le_of_lt (steps_bounds hden _).1 (lt_of_lt_of_eq hhigh ?_)
    rw [← zpow_natCast, ← zpow_add₀ (by norm_num)]
    congr 1
    ring
  exact_mod_cast lt_of_mul_lt_mul_right hlt hpow.le

/-- The last grid has a point near the value, whatever the interval. -/
theorem search_last {w : ℚ} (hden : 0 < iv.den) (hfuel : iv.den ≤ iv.value * 10 ^ 400)
    (tie : Tie) : Found iv w (iv.search tie iv.magnitude 0 18) := by
  obtain ⟨hlow, -⟩ := iv.magnitude_spec hden hfuel
  rw [search]
  simp only [Nat.pow_eq]
  obtain ⟨hle, hlt⟩ := steps_bounds hden (iv.magnitude - (18 : ℕ))
  have hup := steps_lt hden hfuel 18
  generalize iv.value * 10 ^ (-(iv.magnitude - (18 : ℕ))).toNat /
    (iv.den * 10 ^ (iv.magnitude - (18 : ℕ)).toNat) = k at *
  have hpow : (0 : ℚ) < 10 ^ (iv.magnitude - (18 : ℕ)) := by positivity
  have hten : (10 : ℚ) ^ 17 * 10 ^ (iv.magnitude - (18 : ℕ)) ≤ iv.number := by
    refine le_of_eq_of_le ?_ hlow
    rw [← zpow_natCast, ← zpow_add₀ (by norm_num)]
    congr 1
    push_cast
    ring
  have hk : 10 ^ 17 ≤ k := by
    have : (10 : ℚ) ^ 17 < k + 1 := lt_of_mul_lt_mul_right (lt_of_le_of_lt hten hlt) hpow.le
    exact Nat.lt_succ_iff.1 (by exact_mod_cast this)
  refine ⟨lt_of_lt_of_le (by norm_num) hk, hup.le, le_refl _, le_max_of_le_right ?_⟩
  rw [le_div_iff₀ (by positivity), Decimal.value]
  rw [add_mul, one_mul] at hlt
  rw [abs_of_nonpos (by linarith)]
  linarith

theorem search_found {w : ℚ} (hiv : iv.Reaches w) (hden : 0 < iv.den)
    (hfuel : iv.den ≤ iv.value * 10 ^ 400) (tie : Tie) {fuel n : ℕ} (hn : n + fuel = 18) :
    Found iv w (iv.search tie iv.magnitude fuel n) := by
  induction fuel generalizing n with
  | zero =>
    obtain rfl : n = 18 := hn
    exact search_last hden hfuel tie
  | succ fuel ih =>
    rw [search]
    split
    · next k hk =>
      simp only [Nat.pow_eq] at hk
      obtain ⟨hpos, hle⟩ := gridPoint?_bounds hk
      have hnear := near_of_contains hiv hden (by positivity) (contains_of_gridPoint? hk)
      refine ⟨hpos, (hle.trans (steps_lt hden hfuel n)).trans ?_, ?_, le_max_of_le_left ?_⟩
      · exact Nat.pow_le_pow_right (by norm_num) (by omega)
      · dsimp only
        omega
      · rwa [Decimal.value, ten_zpow, ← mul_div_assoc, ← Nat.cast_ofNat, ← Nat.cast_pow,
          ← Nat.cast_pow, ← Nat.cast_mul]
    · exact ih (by omega)

end Interval

/-! ## The shortest decimal -/

/-- Trailing zeros go over into the scale. -/
theorem trim_spec (fuel : ℕ) {d : Decimal} (hpos : 0 < d.digits) :
    0 < (trim fuel d).digits ∧ (trim fuel d).digits ≤ d.digits ∧ d.scale ≤ (trim fuel d).scale ∧
      (trim fuel d).value = d.value := by
  induction fuel generalizing d with
  | zero => exact ⟨hpos, le_refl _, le_refl _, rfl⟩
  | succ fuel ih =>
    rw [trim]
    split_ifs with h
    · obtain ⟨hp, hle, hscale, hval⟩ :=
        ih (d := ⟨d.digits / 10, d.scale + 1⟩) (Nat.div_pos (by omega) (by norm_num))
      refine ⟨hp, hle.trans (Nat.div_le_self ..), le_trans (by simp) hscale, hval.trans ?_⟩
      have hdigits : (d.digits : ℚ) = (d.digits / 10 : ℕ) * 10 := by
        exact_mod_cast (Nat.div_mul_cancel (Nat.dvd_of_mod_eq_zero h.1)).symm
      simp only [Decimal.value]
      rw [hdigits, zpow_add_one₀ (by norm_num)]
      ring
    · exact ⟨hpos, le_refl _, le_refl _, rfl⟩

theorem interval_number (m : ℕ) (q : ℤ) : (interval m q).number = m * 2 ^ q := by
  simp only [Interval.number, interval, Nat.shiftLeft_eq]
  rcases le_total 0 q with h | h
  · obtain ⟨k, rfl⟩ := Int.eq_ofNat_of_zero_le h
    simp
    ring
  · obtain ⟨k, hk⟩ := Int.eq_ofNat_of_zero_le (show 0 ≤ -q by omega)
    obtain rfl : q = -(k : ℤ) := by omega
    simp
    field_simp

/-- The interval reaches half a unit in the last place to either side, at most. -/
theorem interval_reaches (m : ℕ) (q : ℤ) : (interval m q).Reaches (2 ^ q / 2) := by
  have hhalf : (2 : ℚ) ^ q / 2 * (interval m q).den = 2 * 2 ^ q.toNat := by
    simp only [interval, Nat.shiftLeft_eq]
    rcases le_total 0 q with h | h
    · obtain ⟨k, rfl⟩ := Int.eq_ofNat_of_zero_le h
      simp
      ring
    · obtain ⟨k, hk⟩ := Int.eq_ofNat_of_zero_le (show 0 ≤ -q by omega)
      obtain rfl : q = -(k : ℤ) := by omega
      simp
      field_simp
      norm_num
  have hvalue : (interval m q).number * (interval m q).den = (interval m q).value := by
    have hden : ((interval m q).den : ℚ) ≠ 0 := by
      simp [interval, Nat.shiftLeft_eq]
    rw [Interval.number, div_mul_cancel₀ _ hden]
  rw [Interval.Reaches, sub_mul, add_mul, hhalf, hvalue]
  have hlow : (interval m q).value ≤ (interval m q).low + 2 * 2 ^ q.toNat := by
    simp only [interval, Nat.shiftLeft_eq, one_mul]
    split <;> omega
  have hhigh : (interval m q).high = (interval m q).value + 2 * 2 ^ q.toNat := by
    simp only [interval, Nat.shiftLeft_eq, one_mul]
  constructor
  · have : ((interval m q).value : ℚ) ≤ (interval m q).low + 2 * 2 ^ q.toNat := by
      exact_mod_cast hlow
    linarith
  · rw [hhigh]
    push_cast
    exact le_refl _

theorem two_pow_le (k : ℕ) : 2 ^ (3 * k) ≤ 10 ^ k := by
  rw [pow_mul]
  exact Nat.pow_le_pow_left (by norm_num) k

/-- The shortest decimal of a positive double: at most eighteen digits, no further than half a unit
in the last place off, or than the seventeenth digit. -/
theorem shortest_spec (tie : Tie) {m : ℕ} (hm : 0 < m) {q : ℤ} (hq : -1074 ≤ q) :
    0 < (shortest tie m q).digits ∧ (shortest tie m q).digits ≤ 10 ^ 18 ∧
      -418 ≤ (shortest tie m q).scale ∧
      |(shortest tie m q).value - m * 2 ^ q| ≤ max ((2 : ℚ) ^ q / 2) ((m : ℚ) * 2 ^ q / 10 ^ 17) := by
  have hden : 0 < (interval m q).den := by
    simp only [interval, Nat.shiftLeft_eq]
    positivity
  have hfuel : (interval m q).den ≤ (interval m q).value * 10 ^ 400 := by
    simp only [interval, Nat.shiftLeft_eq, one_mul]
    calc 4 * 2 ^ (-q).toNat ≤ 4 * 2 ^ (3 * 400) :=
          Nat.mul_le_mul_left _ (Nat.pow_le_pow_right (by norm_num) (by omega))
      _ ≤ 4 * 10 ^ 400 := Nat.mul_le_mul_left _ (two_pow_le 400)
      _ ≤ 4 * m * 2 ^ q.toNat * 10 ^ 400 := by
          refine Nat.mul_le_mul_right _ ?_
          have : 1 ≤ m * 2 ^ q.toNat := Nat.mul_pos hm (by positivity)
          rw [mul_assoc]
          omega
  have hmag : -400 ≤ (interval m q).magnitude := by
    obtain ⟨-, hhigh⟩ := (interval m q).magnitude_spec hden hfuel
    have hleast : (10 : ℚ) ^ (-400 : ℤ) ≤ (interval m q).number := by
      have hdenq : (0 : ℚ) < (interval m q).den := by exact_mod_cast hden
      rw [Interval.number, le_div_iff₀ hdenq, zpow_neg, inv_mul_le_iff₀ (by positivity), mul_comm]
      exact_mod_cast hfuel
    exact (zpow_lt_zpow_iff_right₀ (by norm_num : (1 : ℚ) < 10)).1
      (lt_of_le_of_lt hleast hhigh) |>.le
  have hfound := Interval.search_found (interval_reaches m q) hden hfuel tie
    (show 1 + 17 = 18 from rfl)
  obtain ⟨hpos, hle, hscale, hval⟩ := trim_spec 20 hfound.pos
  have hnear := hfound.near
  rw [interval_number] at hnear
  refine ⟨hpos, hle.trans hfound.digits_le, ?_, ?_⟩
  · have := hfound.scale_ge
    exact le_trans (by omega) hscale
  · rw [shortest, hval]
    exact hnear

end Shortest

end SqlKit
