import Mathlib.Algebra.Order.Field.Power
import Mathlib.Data.Rat.Cast.Order
import Mathlib.Tactic.FieldSimp
import Mathlib.Tactic.Linarith
import Mathlib.Tactic.NormNum
import Mathlib.Tactic.Positivity
import Mathlib.Tactic.Ring
import SqlKit.Number.Binary

/-!
# How far rounding moves a number

The pattern that `ofRatio` gives stands for the multiple of a power of two that lies nearest to the
ratio.  The power is chosen so that the significand fills its bits, or is the least of the format; so
the error is half a unit in the last place.

    2 ^ leadingExponent n d ≤ n / d < 2 ^ (leadingExponent n d + 1)     (leadingExponent_spec)
    |m * 2 ^ q - n / d| ≤ max (n / d / 2 ^ (fractionBits + 1)) (2 ^ minScale / 2)  (ofRatio_near)
-/

namespace SqlKit

/-- The number of a magnitude, zero where there is none. -/
def Magnitude.size : Magnitude → ℚ
  | .finite m q => m * 2 ^ q
  | .infinite => 0
  | .nan => 0

namespace Format

/-! ## Rounding to an integer -/

theorem roundHalfEven_near (n : ℕ) {d : ℕ} (hd : 0 < d) :
    |(roundHalfEven n d : ℚ) - n / d| ≤ 1 / 2 := by
  have hdq : (0 : ℚ) < d := by exact_mod_cast hd
  have hn : (n : ℚ) / d = (n / d : ℕ) + (n % d : ℕ) / d := by
    have h : (n : ℚ) = d * (n / d : ℕ) + (n % d : ℕ) := by exact_mod_cast (Nat.div_add_mod n d).symm
    field_simp
    linarith
  rw [hn, abs_le]
  unfold roundHalfEven
  dsimp only
  split_ifs with hlow hhigh
  · have hr : ((n % d : ℕ) : ℚ) / d < 1 / 2 := by
      rw [div_lt_iff₀ hdq]
      have : (2 * (n % d : ℕ) : ℚ) < d := by exact_mod_cast hlow
      linarith
    have hr0 : (0 : ℚ) ≤ (n % d : ℕ) / d := by positivity
    constructor <;> linarith
  · have hr : 1 / 2 < ((n % d : ℕ) : ℚ) / d := by
      rw [lt_div_iff₀ hdq]
      have : (d : ℚ) < 2 * (n % d : ℕ) := by exact_mod_cast hhigh
      linarith
    have hr1 : ((n % d : ℕ) : ℚ) / d ≤ 1 := by
      rw [div_le_one hdq]
      exact_mod_cast (Nat.mod_lt n hd).le
    push_cast
    constructor <;> linarith
  · have hr : ((n % d : ℕ) : ℚ) / d = 1 / 2 := by
      rw [div_eq_iff hdq.ne']
      have : (2 * (n % d : ℕ) : ℚ) = d := by exact_mod_cast (show 2 * (n % d) = d by omega)
      linarith
    rcases Nat.mod_two_eq_zero_or_one (n / d) with h | h <;> rw [h] <;> push_cast <;>
      constructor <;> linarith

/-! ## The leading digit -/

theorem log2_bounds {n : ℕ} (hn : 0 < n) :
    (2 : ℚ) ^ (n.log2 : ℤ) ≤ n ∧ (n : ℚ) < 2 ^ ((n.log2 : ℤ) + 1) := by
  constructor
  · rw [zpow_natCast]
    exact_mod_cast Nat.log2_self_le hn.ne'
  · rw [← Nat.cast_succ, zpow_natCast]
    exact_mod_cast Nat.lt_log2_self (n := n)

/-- The comparison that `leadingExponent` makes. -/
theorem below_iff {n d : ℕ} (hd : 0 < d) (e : ℤ) :
    (if 0 ≤ e then n < d <<< e.toNat else n <<< (-e).toNat < d) ↔ (n : ℚ) / d < 2 ^ e := by
  have hdq : (0 : ℚ) < d := by exact_mod_cast hd
  rw [div_lt_iff₀ hdq]
  split_ifs with he
  · obtain ⟨k, rfl⟩ := Int.eq_ofNat_of_zero_le he
    rw [Int.toNat_natCast, Nat.shiftLeft_eq, zpow_natCast, mul_comm]
    exact_mod_cast Iff.rfl
  · obtain ⟨k, hk⟩ := Int.eq_ofNat_of_zero_le (show 0 ≤ -e by omega)
    obtain rfl : e = -(k : ℤ) := by omega
    have hpow : (0 : ℚ) < 2 ^ k := by positivity
    rw [neg_neg, Int.toNat_natCast, Nat.shiftLeft_eq, zpow_neg, zpow_natCast, inv_mul_eq_div,
      lt_div_iff₀ hpow]
    exact_mod_cast Iff.rfl

theorem leadingExponent_spec {n d : ℕ} (hn : 0 < n) (hd : 0 < d) :
    (2 : ℚ) ^ leadingExponent n d ≤ n / d ∧ (n : ℚ) / d < 2 ^ (leadingExponent n d + 1) := by
  have hdq : (0 : ℚ) < d := by exact_mod_cast hd
  obtain ⟨hn1, hn2⟩ := log2_bounds hn
  obtain ⟨hd1, hd2⟩ := log2_bounds hd
  have hpow : ∀ k : ℤ, (0 : ℚ) < 2 ^ k := fun k => by positivity
  have hlow : (2 : ℚ) ^ ((n.log2 : ℤ) - d.log2 - 1) ≤ n / d := by
    rw [le_div_iff₀ hdq]
    calc (2 : ℚ) ^ ((n.log2 : ℤ) - d.log2 - 1) * d
        ≤ 2 ^ ((n.log2 : ℤ) - d.log2 - 1) * 2 ^ ((d.log2 : ℤ) + 1) :=
          mul_le_mul_of_nonneg_left hd2.le (hpow _).le
      _ = 2 ^ (n.log2 : ℤ) := by
          rw [← zpow_add₀ two_ne_zero]
          congr 1
          ring
      _ ≤ n := hn1
  have hhigh : (n : ℚ) / d < 2 ^ ((n.log2 : ℤ) - d.log2 + 1) := by
    rw [div_lt_iff₀ hdq]
    calc (n : ℚ) < 2 ^ ((n.log2 : ℤ) + 1) := hn2
      _ = 2 ^ ((n.log2 : ℤ) - d.log2 + 1) * 2 ^ (d.log2 : ℤ) := by
          rw [← zpow_add₀ two_ne_zero]
          congr 1
          ring
      _ ≤ 2 ^ ((n.log2 : ℤ) - d.log2 + 1) * d := mul_le_mul_of_nonneg_left hd1 (hpow _).le
  unfold leadingExponent
  dsimp only
  have hiff := below_iff (n := n) hd ((n.log2 : ℤ) - d.log2)
  split_ifs at hiff ⊢ <;> simp_all

/-! ## Patterns -/

/-- The significand that `ofRatio` takes, at the exponent of its last place. -/
def significand (n d : ℕ) (scale : ℤ) : ℕ :=
  if 0 ≤ scale then roundHalfEven n (d <<< scale.toNat) else roundHalfEven (n <<< (-scale).toNat) d

theorem significand_near (n : ℕ) {d : ℕ} (hd : 0 < d) (scale : ℤ) :
    |(significand n d scale : ℚ) - n / d / 2 ^ scale| ≤ 1 / 2 := by
  unfold significand
  split_ifs with h
  · obtain ⟨k, rfl⟩ := Int.eq_ofNat_of_zero_le h
    have hpos : 0 < d <<< k := by
      rw [Nat.shiftLeft_eq]
      positivity
    have := roundHalfEven_near n hpos
    rw [Nat.shiftLeft_eq, Nat.cast_mul, Nat.cast_pow, Nat.cast_ofNat, ← div_div] at this
    rwa [Int.toNat_natCast, Nat.shiftLeft_eq, zpow_natCast]
  · obtain ⟨k, hk⟩ := Int.eq_ofNat_of_zero_le (show 0 ≤ -scale by omega)
    obtain rfl : scale = -(k : ℤ) := by omega
    have := roundHalfEven_near (n <<< k) hd
    rw [Nat.shiftLeft_eq, Nat.cast_mul, Nat.cast_pow, Nat.cast_ofNat] at this
    rwa [neg_neg, Int.toNat_natCast, Nat.shiftLeft_eq, zpow_neg, zpow_natCast, div_inv_eq_mul,
      div_mul_eq_mul_div]

variable (f : Format)

/-- The exponent of the last place that `ofRatio` rounds to. -/
def lastPlace (n d : ℕ) : ℤ := max (leadingExponent n d - f.fractionBits) f.minScale

theorem ofRatio_eq {n : ℕ} (hn : 0 < n) (d : ℕ) :
    f.ofRatio n d = min ((f.lastPlace n d - f.minScale).toNat * 2 ^ f.fractionBits +
      significand n d (f.lastPlace n d)) f.infinity := by
  rw [← Nat.shiftLeft_eq]
  simp only [ofRatio, if_neg hn.ne']
  rfl

/-- The significand fits its bits, and fills them unless the exponent is the least. -/
theorem significand_bounds {n d : ℕ} (hn : 0 < n) (hd : 0 < d) :
    significand n d (f.lastPlace n d) ≤ 2 ^ (f.fractionBits + 1) ∧
      (f.lastPlace n d = f.minScale ∨
        2 ^ f.fractionBits ≤ significand n d (f.lastPlace n d) ∧
        (2 : ℚ) ^ (f.lastPlace n d + f.fractionBits) ≤ n / d) := by
  obtain ⟨hlow, hhigh⟩ := leadingExponent_spec hn hd
  have hnear := abs_le.1 (significand_near n hd (f.lastPlace n d))
  have hpow : (0 : ℚ) < 2 ^ f.lastPlace n d := by positivity
  have hup : (n : ℚ) / d / 2 ^ f.lastPlace n d < 2 ^ (f.fractionBits + 1) := by
    rw [div_lt_iff₀ hpow, ← zpow_natCast, ← zpow_add₀ two_ne_zero]
    refine lt_of_lt_of_le hhigh (zpow_le_zpow_right₀ one_le_two ?_)
    have := le_max_left (leadingExponent n d - f.fractionBits) f.minScale
    simp only [lastPlace]
    omega
  refine ⟨?_, ?_⟩
  · have hlt : (significand n d (f.lastPlace n d) : ℚ) < 2 ^ (f.fractionBits + 1) + 1 := by
      linarith [hnear.2]
    exact Nat.lt_succ_iff.1 (by exact_mod_cast hlt)
  · by_cases hmin : f.lastPlace n d = f.minScale
    · exact .inl hmin
    · have hplace : f.lastPlace n d + f.fractionBits = leadingExponent n d := by
        simp only [lastPlace] at hmin ⊢
        omega
      have hdown : (2 : ℚ) ^ f.fractionBits ≤ n / d / 2 ^ f.lastPlace n d := by
        rw [le_div_iff₀ hpow, ← zpow_natCast, ← zpow_add₀ two_ne_zero, add_comm, hplace]
        exact hlow
      refine .inr ⟨?_, by rwa [hplace]⟩
      have hlt : (2 : ℚ) ^ f.fractionBits < significand n d (f.lastPlace n d) + 1 := by
        linarith [hnear.1]
      exact Nat.lt_succ_iff.1 (by exact_mod_cast hlt)

/-- A pattern that is put together from a significand and its exponent stands for their product;
a significand one bit too long counts into the exponent. -/
theorem magnitude_pattern {k m : ℕ} (hm : m ≤ 2 ^ (f.fractionBits + 1))
    (hk : k = 0 ∨ 2 ^ f.fractionBits ≤ m)
    (hlt : k * 2 ^ f.fractionBits + m < f.infinity) :
    ∃ (m' : ℕ) (q : ℤ), f.magnitude (k * 2 ^ f.fractionBits + m) = .finite m' q ∧
      (m' : ℚ) * 2 ^ q = m * 2 ^ (f.minScale + k) := by
  have hP : 0 < 2 ^ f.fractionBits := by positivity
  have hfield : (k * 2 ^ f.fractionBits + m) / 2 ^ f.fractionBits ≠ 2 ^ f.exponentBits - 1 := by
    rw [infinity, Nat.shiftLeft_eq, Nat.shiftLeft_eq, one_mul] at hlt
    exact (Nat.div_lt_of_lt_mul (by rwa [mul_comm (2 ^ f.fractionBits)])).ne
  unfold magnitude
  simp only [Nat.shiftRight_eq_div_pow, Nat.shiftLeft_eq, one_mul, if_neg hfield]
  rcases Nat.lt_or_ge m (2 ^ f.fractionBits) with hsmall | hlarge
  · obtain rfl : k = 0 := by omega
    rw [zero_mul, zero_add, Nat.div_eq_of_lt hsmall, if_pos rfl, Nat.mod_eq_of_lt hsmall]
    exact ⟨m, _, rfl, by rw [Nat.cast_zero, add_zero]⟩
  · rcases Nat.lt_or_ge m (2 ^ (f.fractionBits + 1)) with hfull | hlong
    · obtain ⟨r, rfl⟩ := Nat.exists_eq_add_of_le hlarge
      have hr : r < 2 ^ f.fractionBits := by
        rw [pow_succ] at hfull
        omega
      have hb : k * 2 ^ f.fractionBits + (2 ^ f.fractionBits + r) =
          r + 2 ^ f.fractionBits * (k + 1) := by ring
      rw [hb, Nat.add_mul_div_left _ _ hP, Nat.div_eq_of_lt hr, Nat.add_mul_mod_self_left,
        Nat.mod_eq_of_lt hr, if_neg (by omega)]
      exact ⟨_, _, rfl, by rw [zero_add, Nat.add_sub_cancel]⟩
    · obtain rfl : m = 2 ^ (f.fractionBits + 1) := le_antisymm hm hlong
      have hb : k * 2 ^ f.fractionBits + 2 ^ (f.fractionBits + 1) =
          2 ^ f.fractionBits * (k + 2) := by ring
      rw [hb, Nat.mul_div_cancel_left _ hP, Nat.mul_mod_right, if_neg (by omega)]
      refine ⟨_, _, rfl, ?_⟩
      rw [show k + 2 - 1 = k + 1 by omega]
      push_cast
      rw [← add_assoc, zpow_add_one₀ two_ne_zero]
      ring

/-- A ratio that does not come out as infinity is off by half a unit in the last place at most: by
one in `2 ^ (fractionBits + 1)` of itself, or by half of the least number of the format. -/
theorem ofRatio_near {n d : ℕ} (hn : 0 < n) (hd : 0 < d) (hlt : f.ofRatio n d < f.infinity) :
    ∃ (m : ℕ) (q : ℤ), f.magnitude (f.ofRatio n d) = .finite m q ∧
      |(m : ℚ) * 2 ^ q - n / d| ≤
        max ((n : ℚ) / d / 2 ^ (f.fractionBits + 1)) ((2 : ℚ) ^ f.minScale / 2) := by
  obtain ⟨hm, hfill⟩ := f.significand_bounds hn hd
  have hnear := significand_near n hd (f.lastPlace n d)
  have hpattern := f.ofRatio_eq hn d
  have hplace : f.minScale + ((f.lastPlace n d - f.minScale).toNat : ℤ) = f.lastPlace n d := by
    have := le_max_right (leadingExponent n d - f.fractionBits) f.minScale
    simp only [lastPlace]
    omega
  rw [hpattern] at hlt ⊢
  have hsum : (f.lastPlace n d - f.minScale).toNat * 2 ^ f.fractionBits +
      significand n d (f.lastPlace n d) < f.infinity :=
    (min_lt_iff.1 hlt).resolve_right (lt_irrefl _)
  rw [min_eq_left hsum.le]
  obtain ⟨m', q, hmag, hval⟩ := f.magnitude_pattern hm
    (hfill.imp (fun h => by omega) fun h => h.1) hsum
  refine ⟨m', q, hmag, ?_⟩
  have hpow : (0 : ℚ) < 2 ^ f.lastPlace n d := by positivity
  have herr : |(m' : ℚ) * 2 ^ q - n / d| ≤ 2 ^ f.lastPlace n d / 2 := by
    have hscale : (significand n d (f.lastPlace n d) : ℚ) * 2 ^ f.lastPlace n d - n / d =
        (significand n d (f.lastPlace n d) - n / d / 2 ^ f.lastPlace n d) *
          2 ^ f.lastPlace n d := by
      rw [sub_mul, div_mul_cancel₀ _ hpow.ne']
    rw [hval, hplace, hscale, abs_mul, abs_of_pos hpow]
    linarith [mul_le_mul_of_nonneg_right hnear hpow.le]
  refine herr.trans ?_
  rcases hfill with hmin | ⟨-, hbig⟩
  · exact le_max_of_le_right (by rw [hmin])
  · refine le_max_of_le_left ?_
    rw [zpow_add₀ two_ne_zero, zpow_natCast] at hbig
    rw [le_div_iff₀ (by positivity), pow_succ]
    linarith

/-- A ratio below `2 ^ 1023` does not come out as infinity in double precision. -/
theorem ofRatio_double_lt {n d : ℕ} (hn : 0 < n) (hd : 0 < d) (hz : (n : ℚ) / d < 2 ^ (1023 : ℤ)) :
    double.ofRatio n d < double.infinity := by
  obtain ⟨hm, -⟩ := double.significand_bounds hn hd
  have hexp : leadingExponent n d < 1023 :=
    (zpow_lt_zpow_iff_right₀ one_lt_two).1 (lt_of_le_of_lt (leadingExponent_spec hn hd).1 hz)
  have hplace : double.lastPlace n d ≤ 970 := by
    simp only [lastPlace, double, minScale]
    omega
  have hmin : double.minScale = -1074 := by decide
  have hinf : double.infinity = 2047 * 2 ^ 52 := by decide
  rw [double.ofRatio_eq hn, min_lt_iff, hinf]
  left
  have hk : (double.lastPlace n d - double.minScale).toNat ≤ 2044 := by omega
  calc (double.lastPlace n d - double.minScale).toNat * 2 ^ 52 + significand n d _
      ≤ 2044 * 2 ^ 52 + 2 ^ 53 := Nat.add_le_add (Nat.mul_le_mul_right _ hk) hm
    _ < 2047 * 2 ^ 52 := by norm_num

end Format

end SqlKit
