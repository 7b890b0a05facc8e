import SqlKit.Json.Written
import SqlKit.Proofs.Number.Rounding

/-!
# Rounded arithmetic on doubles

Sums and products of doubles are worked out exactly and rounded once.  `Rounds z x` says that `x` is
`z` rounded: infinite, or off by one part in `2 ^ 53`, or by half of the least double.  Above the least
normal double this is a factor: `Within k a b` says that `a` and `b` lie within `k` such factors, and
factors of products and quotients add up.

    Rounds (m₁ * 2 ^ q₁ * (m₂ * 2 ^ q₂)) (mulFinite false m₁ q₁ m₂ q₂)  (rounds_mulFinite)
    Within j a b → Within k c d → Within (j + k) (a * c) (b * d)       (Within.mul)
-/

namespace SqlKit

namespace Binary64

/-- The absolute value of a double, zero where it has none. -/
def size (x : Binary64) : ℚ := x.magnitude.size

/-- Is the double a number? -/
def IsFinite (x : Binary64) : Prop := ∃ m q, x.magnitude = .finite m q

/-- Half of the least double. -/
def halfStep : ℚ := 2 ^ (-1075 : ℤ)

theorem halfStep_pos : 0 < halfStep := by
  unfold halfStep
  positivity

/-- The double is `z` rounded to the nearest one, unless it is infinite. -/
def Rounds (z : ℚ) (x : Binary64) : Prop :=
  x.isNegative = false ∧ (x.IsFinite → |x.size - z| ≤ max (z / 2 ^ 53) halfStep)

/-- The double `y` is `x` after a few roundings: it has the sign of `x` and is off by one part in
`2 ^ 49` at most, or by two of the least steps. -/
def Near (x y : Binary64) : Prop :=
  y.isNegative = x.isNegative ∧ y.IsFinite ∧ |y.size - x.size| ≤ x.size / 2 ^ 49 + 4 * halfStep

/-! ## Patterns -/

/-- A finite double fills the bits of its significand or has the least exponent. -/
theorem magnitude_finite {x : Binary64} {m : ℕ} {q : ℤ} (h : x.magnitude = .finite m q) :
    m < 2 ^ 53 ∧ -1074 ≤ q ∧ q ≤ 971 ∧ (q = -1074 ∨ 2 ^ 52 ≤ m) := by
  have hsign : Format.double.signBit = 2 ^ 63 := by decide
  have hmin : Format.double.minScale = -1074 := by decide
  have hlt := Nat.mod_lt x.bits.toNat (show 0 < 2 ^ 63 by norm_num)
  rw [magnitude, hsign, Format.magnitude, hmin] at h
  generalize x.bits.toNat % 2 ^ 63 = b at *
  simp only [Format.double, Nat.shiftRight_eq_div_pow, Nat.shiftLeft_eq, one_mul] at h
  split_ifs at h with hinf hzero hsub
  all_goals
    obtain ⟨rfl, rfl⟩ := Magnitude.finite.inj h
    omega

theorem toNat_ofPattern (neg : Bool) {p : ℕ} (hp : p < 2 ^ 63) :
    (ofPattern neg p).bits.toNat = (if neg then 2 ^ 63 else 0) + p := by
  have hsign : Format.double.signBit = 2 ^ 63 := by decide
  rw [ofPattern, hsign, UInt64.toNat_ofNat']
  apply Nat.mod_eq_of_lt
  split <;> omega

theorem magnitude_ofPattern (neg : Bool) {p : ℕ} (hp : p < 2 ^ 63) :
    (ofPattern neg p).magnitude = Format.double.magnitude p := by
  have hsign : Format.double.signBit = 2 ^ 63 := by decide
  rw [magnitude, toNat_ofPattern neg hp, hsign]
  congr 1
  split <;> omega

theorem isNegative_ofPattern (neg : Bool) {p : ℕ} (hp : p < 2 ^ 63) :
    (ofPattern neg p).isNegative = neg := by
  have hsign : Format.double.signBit = 2 ^ 63 := by decide
  rw [isNegative, toNat_ofPattern neg hp, hsign]
  cases neg with
  | false => simpa using hp
  | true => simp

theorem ofRatio_lt (n d : ℕ) : Format.double.ofRatio n d < 2 ^ 63 := by
  have hinf : Format.double.infinity = 2047 * 2 ^ 52 := by decide
  unfold Format.ofRatio
  split
  · norm_num
  · refine lt_of_le_of_lt (min_le_right ..) ?_
    rw [hinf]
    norm_num

theorem ofRatio_le (n d : ℕ) : Format.double.ofRatio n d ≤ Format.double.infinity := by
  unfold Format.ofRatio
  split
  · exact Nat.zero_le _
  · exact min_le_right ..

/-! ## One rounding -/

/-- A ratio made into a double is the ratio rounded. -/
theorem rounds_ofRatio (n : ℕ) {d : ℕ} (hd : 0 < d) :
    Rounds (n / d) (ofPattern false (Format.double.ofRatio n d)) := by
  have hlt := ofRatio_lt n d
  refine ⟨isNegative_ofPattern false hlt, fun hfinite => ?_⟩
  rw [IsFinite, magnitude_ofPattern false hlt] at hfinite
  rw [size, magnitude_ofPattern false hlt]
  rcases Nat.eq_zero_or_pos n with rfl | hn
  · have hzero : Format.double.magnitude (Format.double.ofRatio 0 d) = .finite 0 (-1074) := by
      rw [Format.ofRatio_zero]
      decide
    rw [hzero]
    simp [Magnitude.size, halfStep_pos.le]
  · have hnot : Format.double.ofRatio n d < Format.double.infinity := by
      refine lt_of_le_of_ne (ofRatio_le n d) fun h => ?_
      obtain ⟨m, q, hmag⟩ := hfinite
      rw [h, show Format.double.magnitude Format.double.infinity = .infinite by decide] at hmag
      cases hmag
    obtain ⟨m, q, hmag, herr⟩ := Format.double.ofRatio_near hn hd hnot
    have hhalf : (2 : ℚ) ^ Format.double.minScale / 2 = halfStep := by
      rw [show Format.double.minScale = -1075 + 1 by decide, zpow_add_one₀ two_ne_zero, halfStep]
      ring
    rw [hhalf] at herr
    rw [hmag]
    exact herr

/-- A pattern below that of infinity is one of a finite double. -/
theorem isFinite_of_lt_infinity {n d : ℕ} (hd : 0 < d)
    (h : Format.double.ofRatio n d < Format.double.infinity) :
    (ofPattern false (Format.double.ofRatio n d)).IsFinite := by
  rw [IsFinite, magnitude_ofPattern false (ofRatio_lt n d)]
  rcases Nat.eq_zero_or_pos n with rfl | hn
  · exact ⟨0, -1074, by rw [Format.ofRatio_zero]; decide⟩
  · obtain ⟨m, q, hmag, -⟩ := Format.double.ofRatio_near hn hd h
    exact ⟨m, q, hmag⟩

/-- A ratio below `2 ^ 1023` gives a finite double. -/
theorem isFinite_ofRatio {n d : ℕ} (hd : 0 < d) (hz : (n : ℚ) / d < 2 ^ (1023 : ℤ)) :
    (ofPattern false (Format.double.ofRatio n d)).IsFinite := by
  apply isFinite_of_lt_infinity hd
  rcases Nat.eq_zero_or_pos n with rfl | hn
  · rw [Format.ofRatio_zero]
    decide
  · exact Format.ofRatio_double_lt hn hd hz

/-- A scaled integer is rounded as the ratio that it is. -/
theorem exists_ofScaled (m : ℕ) (q : ℤ) :
    ∃ n d : ℕ, 0 < d ∧ Format.double.ofScaled m q = Format.double.ofRatio n d ∧
      (n : ℚ) / d = m * 2 ^ q := by
  unfold Format.ofScaled
  split_ifs with h
  · obtain ⟨k, rfl⟩ := Int.eq_ofNat_of_zero_le h
    refine ⟨_, 1, Nat.one_pos, rfl, ?_⟩
    rw [Int.toNat_natCast, Nat.shiftLeft_eq, zpow_natCast]
    push_cast
    ring
  · obtain ⟨k, hk⟩ := Int.eq_ofNat_of_zero_le (show 0 ≤ -q by omega)
    obtain rfl : q = -(k : ℤ) := by omega
    refine ⟨m, _, ?_, rfl, ?_⟩
    · rw [Nat.shiftLeft_eq]
      positivity
    · rw [neg_neg, Int.toNat_natCast, Nat.shiftLeft_eq, zpow_neg, zpow_natCast]
      push_cast
      rw [one_mul, div_eq_mul_inv]

theorem rounds_ofInt (n : ℕ) : Rounds n (ofInt n) := by
  have h := rounds_ofRatio n Nat.one_pos
  rw [Nat.cast_one, div_one] at h
  have hneg : decide ((n : ℤ) < 0) = false := by simp
  rwa [ofInt, Int.natAbs_natCast, hneg]

theorem rounds_mulFinite (m₁ m₂ : ℕ) (q₁ q₂ : ℤ) :
    Rounds (m₁ * 2 ^ q₁ * (m₂ * 2 ^ q₂)) (mulFinite false m₁ q₁ m₂ q₂) := by
  obtain ⟨n, d, hd, hpattern, hratio⟩ := exists_ofScaled (m₁ * m₂) (q₁ + q₂)
  have h := rounds_ofRatio n hd
  rw [hratio, Nat.cast_mul, zpow_add₀ two_ne_zero] at h
  rw [mulFinite, hpattern]
  convert h using 1
  ring

/-- A quotient is rounded as the ratio that it is. -/
theorem exists_divFinite (m₁ : ℕ) {m₂ : ℕ} (q₁ q₂ : ℤ) (hm : 0 < m₂) :
    ∃ n d : ℕ, 0 < d ∧
      divFinite false m₁ q₁ m₂ q₂ = ofPattern false (Format.double.ofRatio n d) ∧
      (n : ℚ) / d = m₁ * 2 ^ q₁ / (m₂ * 2 ^ q₂) := by
  have hmq : (m₂ : ℚ) ≠ 0 := by exact_mod_cast hm.ne'
  have hratio : (m₁ : ℚ) * 2 ^ q₁ / (m₂ * 2 ^ q₂) = m₁ / m₂ * 2 ^ (q₁ - q₂) := by
    rw [zpow_sub₀ two_ne_zero]
    field_simp
  rw [hratio]
  unfold divFinite
  dsimp only
  generalize q₁ - q₂ = q
  split_ifs with h
  · obtain ⟨k, rfl⟩ := Int.eq_ofNat_of_zero_le h
    refine ⟨_, m₂, hm, rfl, ?_⟩
    rw [Int.toNat_natCast, Nat.shiftLeft_eq, zpow_natCast]
    push_cast
    ring
  · obtain ⟨k, hk⟩ := Int.eq_ofNat_of_zero_le (show 0 ≤ -q by omega)
    obtain rfl : q = -(k : ℤ) := by omega
    refine ⟨m₁, _, ?_, rfl, ?_⟩
    · rw [Nat.shiftLeft_eq]
      positivity
    · rw [neg_neg, Int.toNat_natCast, Nat.shiftLeft_eq, zpow_neg, zpow_natCast]
      push_cast
      field_simp

theorem rounds_divFinite (m₁ : ℕ) {m₂ : ℕ} (q₁ q₂ : ℤ) (hm : 0 < m₂) :
    Rounds (m₁ * 2 ^ q₁ / (m₂ * 2 ^ q₂)) (divFinite false m₁ q₁ m₂ q₂) := by
  obtain ⟨n, d, hd, hdiv, hratio⟩ := exists_divFinite m₁ q₁ q₂ hm
  rw [hdiv, ← hratio]
  exact rounds_ofRatio n hd

theorem isFinite_divFinite (m₁ : ℕ) {m₂ : ℕ} (q₁ q₂ : ℤ) (hm : 0 < m₂)
    (hz : (m₁ : ℚ) * 2 ^ q₁ / (m₂ * 2 ^ q₂) < 2 ^ (1023 : ℤ)) :
    (divFinite false m₁ q₁ m₂ q₂).IsFinite := by
  obtain ⟨n, d, hd, hdiv, hratio⟩ := exists_divFinite m₁ q₁ q₂ hm
  rw [hdiv]
  exact isFinite_ofRatio hd (by rwa [hratio])

theorem rounds_powerOfTen {k : ℕ} (hk : k ≤ 308) : Rounds (10 ^ k) (Json.powerOfTen k) := by
  have h := rounds_ofRatio (10 ^ k) Nat.one_pos
  rw [Nat.cast_one, div_one, Nat.cast_pow, Nat.cast_ofNat] at h
  have hlog : ((Nat.log2 1 : ℕ) : ℤ) = 0 := by decide
  rw [Json.powerOfTen, ofDecimal, if_neg Nat.one_ne_zero, hlog, if_neg (by omega),
    if_neg (by omega), if_pos (by omega), Int.toNat_natCast, one_mul]
  exact h

/-! ## Several roundings -/

/-- The factor that one rounding keeps within, for normal doubles. -/
def slack : ℚ := 1 + 1 / 2 ^ 52

theorem one_lt_slack : 1 < slack := by
  unfold slack
  norm_num

/-- Two positive numbers lie within `k` roundings of each other. -/
structure Within (k : ℕ) (a b : ℚ) : Prop where
  pos : 0 < a
  pos' : 0 < b
  le : a ≤ b * slack ^ k
  ge : b ≤ a * slack ^ k

namespace Within

variable {j k : ℕ} {a b c d : ℚ}

theorem refl (ha : 0 < a) : Within 0 a a := ⟨ha, ha, by simp, by simp⟩

theorem trans (h : Within j a b) (h' : Within k b c) : Within (j + k) a c := by
  have hs : (0 : ℚ) < slack ^ j := by have := one_lt_slack; positivity
  have hs' : (0 : ℚ) < slack ^ k := by have := one_lt_slack; positivity
  refine ⟨h.pos, h'.pos', ?_, ?_⟩
  · calc a ≤ b * slack ^ j := h.le
      _ ≤ c * slack ^ k * slack ^ j := mul_le_mul_of_nonneg_right h'.le hs.le
      _ = c * slack ^ (j + k) := by rw [pow_add]; ring
  · calc c ≤ b * slack ^ k := h'.ge
      _ ≤ a * slack ^ j * slack ^ k := mul_le_mul_of_nonneg_right h.ge hs'.le
      _ = a * slack ^ (j + k) := by rw [pow_add]; ring

theorem mul (h : Within j a b) (h' : Within k c d) : Within (j + k) (a * c) (b * d) := by
  refine ⟨mul_pos h.pos h'.pos, mul_pos h.pos' h'.pos', ?_, ?_⟩
  · calc a * c ≤ b * slack ^ j * (d * slack ^ k) :=
          mul_le_mul h.le h'.le h'.pos.le (h.pos.le.trans h.le)
      _ = b * d * slack ^ (j + k) := by rw [pow_add]; ring
  · calc b * d ≤ a * slack ^ j * (c * slack ^ k) :=
          mul_le_mul h.ge h'.ge h'.pos'.le (h.pos'.le.trans h.ge)
      _ = a * c * slack ^ (j + k) := by rw [pow_add]; ring

theorem inv (h : Within k a b) : Within k a⁻¹ b⁻¹ := by
  have hs : (0 : ℚ) < slack ^ k := by have := one_lt_slack; positivity
  refine ⟨inv_pos.2 h.pos, inv_pos.2 h.pos', ?_, ?_⟩
  · rw [inv_mul_eq_div, le_div_iff₀ h.pos', inv_mul_le_iff₀ h.pos]
    exact h.ge
  · rw [inv_mul_eq_div, le_div_iff₀ h.pos, inv_mul_le_iff₀ h.pos']
    exact h.le

theorem div (h : Within j a b) (h' : Within k c d) : Within (j + k) (a / c) (b / d) := by
  rw [div_eq_mul_inv, div_eq_mul_inv]
  exact h.mul h'.inv

theorem mono (h : Within j a b) (hjk : j ≤ k) : Within k a b := by
  have hpow : slack ^ j ≤ slack ^ k := pow_le_pow_right₀ one_lt_slack.le hjk
  refine ⟨h.pos, h.pos', h.le.trans ?_, h.ge.trans ?_⟩
  · exact mul_le_mul_of_nonneg_left hpow h.pos'.le
  · exact mul_le_mul_of_nonneg_left hpow h.pos.le

end Within

/-- A number off by a small part of another lies within the factors that make up for the part. -/
theorem within_of_near {k : ℕ} {z s t : ℚ} (hz : 0 < z) (herr : |s - z| ≤ z * t) (ht : t < 1)
    (hup : 1 + t ≤ slack ^ k) (hdown : 1 ≤ (1 - t) * slack ^ k) : Within k z s := by
  obtain ⟨hlow, hhigh⟩ := abs_le.1 herr
  have hs : z * (1 - t) ≤ s := by linarith
  have hspos : 0 < s := lt_of_lt_of_le (mul_pos hz (by linarith)) hs
  have hpow : (0 : ℚ) < slack ^ k := by
    have := one_lt_slack
    positivity
  refine ⟨hz, hspos, ?_, ?_⟩
  · calc z ≤ z * ((1 - t) * slack ^ k) := le_mul_of_one_le_right hz.le hdown
      _ = z * (1 - t) * slack ^ k := by ring
      _ ≤ s * slack ^ k := mul_le_mul_of_nonneg_right hs hpow.le
  · calc s ≤ z * (1 + t) := by linarith
      _ ≤ z * slack ^ k := mul_le_mul_of_nonneg_left hup hz.le

/-- From the least normal double on, rounding keeps within one factor. -/
theorem Rounds.within {z : ℚ} {x : Binary64} (h : Rounds z x) (hx : x.IsFinite)
    (hz : 2 ^ (-1022 : ℤ) ≤ z) : Within 1 z x.size := by
  have hpos : 0 < z := lt_of_lt_of_le (by positivity) hz
  have hhalf : halfStep ≤ z / 2 ^ 53 := by
    rw [le_div_iff₀ (by positivity)]
    calc halfStep * 2 ^ 53 = 2 ^ (-1022 : ℤ) := by
          rw [halfStep, ← zpow_natCast, ← zpow_add₀ two_ne_zero]
          rfl
      _ ≤ z := hz
  have herr := h.2 hx
  rw [max_eq_left hhalf, div_eq_mul_one_div] at herr
  exact within_of_near hpos herr (by norm_num) (by norm_num [slack]) (by norm_num [slack])

/-- A little below it, rounding keeps within three. -/
theorem Rounds.within_three {z : ℚ} {x : Binary64} (h : Rounds z x) (hx : x.IsFinite)
    (hz : 2 ^ (-1024 : ℤ) ≤ z) : Within 3 z x.size := by
  have hpos : 0 < z := lt_of_lt_of_le (by positivity) hz
  have hhalf : halfStep ≤ z / 2 ^ 51 := by
    rw [le_div_iff₀ (by positivity)]
    calc halfStep * 2 ^ 51 = 2 ^ (-1024 : ℤ) := by
          rw [halfStep, ← zpow_natCast, ← zpow_add₀ two_ne_zero]
          rfl
      _ ≤ z := hz
  have hpart : z / 2 ^ 53 ≤ z / 2 ^ 51 :=
    div_le_div_of_nonneg_left hpos.le (by positivity) (by norm_num)
  have herr := (h.2 hx).trans (max_le hpart hhalf)
  rw [div_eq_mul_one_div] at herr
  exact within_of_near hpos herr (by norm_num) (by norm_num [slack]) (by norm_num [slack])

/-- One rounding more, for doubles of any size. -/
theorem Rounds.near {z w : ℚ} {x : Binary64} (h : Rounds w x) (hx : x.IsFinite)
    (hw : Within 6 z w) : |x.size - z| ≤ z * (7 / 2 ^ 52) + halfStep := by
  obtain ⟨hz, hwpos, hzw, hwz⟩ := hw
  have hslack : slack ^ 6 ≤ 1 + 49 / (8 * 2 ^ 52) := by norm_num [slack]
  have hup : w ≤ z * (1 + 49 / (8 * 2 ^ 52)) :=
    hwz.trans (mul_le_mul_of_nonneg_left hslack hz.le)
  have hdown : z * (1 - 49 / (8 * 2 ^ 52)) ≤ w := by
    have hzw' : z ≤ w * (1 + 49 / (8 * 2 ^ 52)) :=
      hzw.trans (mul_le_mul_of_nonneg_left hslack hwpos.le)
    calc z * (1 - 49 / (8 * 2 ^ 52))
        ≤ w * (1 + 49 / (8 * 2 ^ 52)) * (1 - 49 / (8 * 2 ^ 52)) :=
          mul_le_mul_of_nonneg_right hzw' (by norm_num)
      _ = w * ((1 + 49 / (8 * 2 ^ 52)) * (1 - 49 / (8 * 2 ^ 52))) := by ring
      _ ≤ w := mul_le_of_le_one_right hwpos.le (by norm_num)
  have hpart : w / 2 ^ 53 ≤ z * (3 / (4 * 2 ^ 52)) := by
    rw [div_le_iff₀ (by positivity)]
    refine hup.trans ?_
    rw [mul_assoc]
    exact mul_le_mul_of_nonneg_left (by norm_num) hz.le
  have hmax : max (w / 2 ^ 53) halfStep ≤ z * (3 / (4 * 2 ^ 52)) + halfStep :=
    max_le (by linarith [halfStep_pos]) (by linarith [mul_pos hz (show (0 : ℚ) < 3 / (4 * 2 ^ 52) by norm_num)])
  obtain ⟨hlow, hhigh⟩ := abs_le.1 ((h.2 hx).trans hmax)
  rw [abs_le]
  constructor <;> linarith

end Binary64

end SqlKit
