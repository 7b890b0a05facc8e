import SqlKit.Proofs.Number.Doubles

/-!
# Scaling by powers of ten in double arithmetic

A significand times a power of ten is one product or quotient of rounded numbers; far below the least
power, one quotient more.  What comes out is off by seven units in the last place at most.

    scaleByTen? 8 (.ofInt s) e = some y → |y.size - s * 10 ^ e| ≤ s * 10 ^ e * (7 / 2 ^ 52) + halfStep
                                                                       (scaleByTen?_near)
-/

namespace SqlKit.Json

open Binary64

/-! ## Products and quotients -/

theorem isFinite_mulFinite {m₁ m₂ : ℕ} {q₁ q₂ : ℤ}
    (h : (mulFinite false m₁ q₁ m₂ q₂).isInfinite = false) :
    (mulFinite false m₁ q₁ m₂ q₂).IsFinite := by
  obtain ⟨n, d, hd, hpattern, -⟩ := exists_ofScaled (m₁ * m₂) (q₁ + q₂)
  rw [mulFinite, hpattern] at h ⊢
  rw [isInfinite, magnitude_ofPattern false (ofRatio_lt n d)] at h
  apply isFinite_of_lt_infinity hd
  refine lt_of_le_of_ne (ofRatio_le n d) fun hinf => ?_
  rw [hinf, show Format.double.magnitude Format.double.infinity = .infinite by decide] at h
  simp at h

/-- A product that there is, is finite and rounded. -/
theorem rounds_product? {x y z : Binary64} (h : product? x y = some z) :
    z.IsFinite ∧ Rounds (x.size * y.size) z ∧ x.IsFinite ∧ y.IsFinite := by
  unfold product? at h
  split at h
  · next m q m' q' hx hy =>
    dsimp only at h
    split at h
    · cases h
    · next hinf =>
      obtain rfl := Option.some.inj h
      refine ⟨isFinite_mulFinite (by simpa using hinf), ?_, ⟨m, q, hx⟩, ⟨m', q', hy⟩⟩
      rw [size, hx, size, hy]
      exact rounds_mulFinite m m' q q'
  · cases h

/-- A quotient by what is not zero is rounded, and finite unless it is very large. -/
theorem rounds_quotient? {x y z : Binary64} (h : quotient? x y = some z)
    (hpos : y.IsFinite → 0 < y.size) :
    Rounds (x.size / y.size) z ∧ (x.size / y.size < 2 ^ (1023 : ℤ) → z.IsFinite) ∧
      x.IsFinite ∧ y.IsFinite := by
  unfold quotient? at h
  split at h
  · next m q m' q' hx hy =>
    obtain rfl := Option.some.inj h
    have hpos' := hpos ⟨m', q', hy⟩
    rw [size, hy] at hpos'
    have hm' : 0 < m' := by
      rcases Nat.eq_zero_or_pos m' with rfl | hm
      · simp [Magnitude.size] at hpos'
      · exact hm
    rw [size, hx, size, hy]
    exact ⟨rounds_divFinite m q q' hm', isFinite_divFinite m q q' hm', ⟨m, q, hx⟩, ⟨m', q', hy⟩⟩
  · cases h

theorem within_powerOfTen {k : ℕ} (hk : k ≤ 308) (h : (powerOfTen k).IsFinite) :
    Within 1 (10 ^ (k : ℤ)) (powerOfTen k).size := by
  rw [zpow_natCast]
  refine (rounds_powerOfTen hk).within h ?_
  calc (2 : ℚ) ^ (-1022 : ℤ) ≤ 2 ^ (0 : ℤ) := zpow_le_zpow_right₀ one_le_two (by norm_num)
    _ = 1 := zpow_zero 2
    _ ≤ 10 ^ k := one_le_pow₀ (by norm_num)

/-! ## Scaling -/

/-- One step of scaling, by a power of at most `10 ^ 308`. -/
theorem scale_once {j : ℕ} {z : ℚ} {x y : Binary64} {e : ℤ} (hx : Within j z x.size)
    (hbound : x.size < 2 ^ (1000 : ℤ)) (he : e.natAbs ≤ 308)
    (h : (if 0 ≤ e then product? x (powerOfTen e.natAbs) else quotient? x (powerOfTen e.natAbs)) =
      some y) :
    y.IsFinite ∧ ∃ w, Within (j + 1) (z * 10 ^ e) w ∧ Rounds w y := by
  split at h
  · next hpos =>
    obtain ⟨hy, hround, -, hten⟩ := rounds_product? h
    have hpow := within_powerOfTen he hten
    rw [Int.natAbs_of_nonneg hpos] at hpow
    exact ⟨hy, _, hx.mul hpow, hround⟩
  · next hneg =>
    obtain ⟨hround, hy, -, hten⟩ :=
      rounds_quotient? h fun hten => (within_powerOfTen he hten).pos'
    have hpow := within_powerOfTen he hten
    refine ⟨hy ?_, _, ?_, hround⟩
    · have hone : (1 : ℚ) ≤ 10 ^ ((e.natAbs : ℕ) : ℤ) := one_le_zpow₀ (by norm_num) (by omega)
      have htwo : slack ^ 1 ≤ 2 := by norm_num [slack]
      have hhalf : 1 / 2 ≤ (powerOfTen e.natAbs).size := by
        have := mul_le_mul_of_nonneg_left htwo hpow.pos'.le
        linarith [hpow.le]
      rw [div_lt_iff₀ hpow.pos']
      calc x.size < 2 ^ (1000 : ℤ) := hbound
        _ ≤ 2 ^ (1022 : ℤ) := zpow_le_zpow_right₀ one_le_two (by norm_num)
        _ = 2 ^ (1023 : ℤ) * (1 / 2) := by
          rw [show (1023 : ℤ) = 1022 + 1 by norm_num, zpow_add_one₀ two_ne_zero]
          ring
        _ ≤ 2 ^ (1023 : ℤ) * (powerOfTen e.natAbs).size :=
          mul_le_mul_of_nonneg_left hhalf (by positivity)
    · have hdiv := hx.div hpow
      rwa [div_eq_mul_inv z, ← zpow_neg, Int.ofNat_natAbs_of_nonpos (by omega), neg_neg] at hdiv

/-- What lies within a few roundings of a significand is far from the largest doubles. -/
theorem lt_of_within {k : ℕ} {z a : ℚ} (h : Within k z a) (hk : k ≤ 6) (hz : z ≤ 2 ^ (64 : ℤ)) :
    a < 2 ^ (1000 : ℤ) := by
  have htwo : slack ^ k ≤ 2 :=
    (pow_le_pow_right₀ one_lt_slack.le hk).trans (by norm_num [slack])
  calc a ≤ z * slack ^ k := h.ge
    _ ≤ z * 2 := mul_le_mul_of_nonneg_left htwo h.pos.le
    _ ≤ 2 ^ (64 : ℤ) * 2 := mul_le_mul_of_nonneg_right hz (by norm_num)
    _ = 2 ^ (65 : ℤ) := by norm_num
    _ < 2 ^ (1000 : ℤ) := zpow_lt_zpow_right₀ one_lt_two (by norm_num)

/-- A significand divided by `10 ^ 308` is hardly below the least normal double. -/
theorem least_quotient {k : ℕ} (hk : k ≤ 308) :
    (2 : ℚ) ^ (-1024 : ℤ) * slack ^ 2 ≤ 10 ^ (-(k : ℤ)) := by
  have hquarter : (10 : ℚ) ^ 77 * slack ≤ 2 ^ 256 := by norm_num [slack]
  have hslack : slack ^ 2 ≤ slack ^ 4 := pow_le_pow_right₀ one_lt_slack.le (by norm_num)
  have hten : (10 : ℚ) ^ 308 * slack ^ 4 ≤ 2 ^ 1024 := by
    have hpow := pow_le_pow_left₀ (by unfold slack; positivity) hquarter 4
    rwa [mul_pow, ← pow_mul, ← pow_mul] at hpow
  have hk' : (10 : ℚ) ^ k * slack ^ 2 ≤ 10 ^ 308 * slack ^ 4 :=
    mul_le_mul (pow_le_pow_right₀ (by norm_num) hk) hslack (by unfold slack; positivity)
      (by positivity)
  rw [zpow_neg, zpow_neg, inv_mul_eq_div, div_le_iff₀ (by positivity), inv_mul_eq_div,
    le_div_iff₀ (by positivity), mul_comm, zpow_natCast]
  exact hk'.trans hten

/-- The first quotient of two: a significand by a power of ten. -/
theorem scale_first {s k : ℕ} {x y : Binary64} (hs : 1 ≤ s) (hs' : s < 2 ^ 64)
    (hx : Within 1 s x.size) (hk : k ≤ 308) (h : quotient? x (powerOfTen k) = some y) :
    Within 5 (s * 10 ^ (-(k : ℤ))) y.size := by
  have hs1 : (1 : ℚ) ≤ s := by exact_mod_cast hs
  have hs2 : (s : ℚ) ≤ 2 ^ (64 : ℤ) := by exact_mod_cast hs'.le
  obtain ⟨hround, hy, -, hten⟩ :=
    rounds_quotient? h fun hten => (within_powerOfTen hk hten).pos'
  have hpow := within_powerOfTen hk hten
  have hw : Within 2 (s * 10 ^ (-(k : ℤ))) (x.size / (powerOfTen k).size) := by
    rw [zpow_neg, ← div_eq_mul_inv]
    exact hx.div hpow
  have hsmall : (10 : ℚ) ^ (-(k : ℤ)) ≤ 1 :=
    zpow_le_one_of_nonpos₀ (by norm_num) (by omega)
  have hlarge : x.size / (powerOfTen k).size < 2 ^ (1023 : ℤ) := by
    refine (lt_of_within hw (by norm_num) ?_).trans (zpow_lt_zpow_right₀ one_lt_two (by norm_num))
    exact (mul_le_of_le_one_right (by positivity) hsmall).trans hs2
  have hleast : (2 : ℚ) ^ (-1024 : ℤ) ≤ x.size / (powerOfTen k).size := by
    have hpos : (0 : ℚ) < slack ^ 2 := by
      unfold slack
      positivity
    refine le_of_mul_le_mul_right ?_ hpos
    calc (2 : ℚ) ^ (-1024 : ℤ) * slack ^ 2 ≤ 10 ^ (-(k : ℤ)) := least_quotient hk
      _ ≤ s * 10 ^ (-(k : ℤ)) := le_mul_of_one_le_left (by positivity) hs1
      _ ≤ x.size / (powerOfTen k).size * slack ^ 2 := hw.le
  exact hw.trans (hround.within_three (hy hlarge) hleast)

theorem isFinite_ofInt {s : ℕ} (hs : s < 2 ^ 64) : (ofInt s).IsFinite := by
  have hneg : decide ((s : ℤ) < 0) = false := by simp
  rw [ofInt, Int.natAbs_natCast, hneg]
  refine isFinite_ofRatio Nat.one_pos ?_
  rw [Nat.cast_one, div_one]
  calc (s : ℚ) < 2 ^ (64 : ℤ) := by exact_mod_cast hs
    _ < 2 ^ (1023 : ℤ) := zpow_lt_zpow_right₀ one_lt_two (by norm_num)

/-- Zero stays zero, up to a rounding. -/
theorem scaleByTen?_zero {e : ℤ} {y : Binary64} (h : scaleByTen? 8 (ofInt 0) e = some y) :
    y.isNegative = false ∧ y.IsFinite ∧ |y.size| ≤ halfStep := by
  have hzero : (ofInt 0).magnitude = .finite 0 (-1074) := by decide
  have hsize : (ofInt 0).size = 0 := by rw [size, hzero]; simp [Magnitude.size]
  have hround : ∀ z, Rounds 0 z → z.IsFinite → |z.size| ≤ halfStep := by
    intro z hz hfin
    have := hz.2 hfin
    rwa [sub_zero, zero_div, max_eq_right halfStep_pos.le] at this
  rw [scaleByTen?] at h
  split at h
  · next he =>
    split at h
    · obtain ⟨hy, hr, -⟩ := rounds_product? h
      rw [hsize, zero_mul] at hr
      exact ⟨hr.1, hy, hround y hr hy⟩
    · obtain ⟨hr, hy, -⟩ := rounds_quotient? h fun hten => (within_powerOfTen he hten).pos'
      rw [hsize, zero_div] at hr hy
      have hfin := hy (by positivity)
      exact ⟨hr.1, hfin, hround y hr hfin⟩
  · rw [hzero] at h
    obtain rfl := Option.some.inj h
    refine ⟨by decide, ⟨0, _, hzero⟩, ?_⟩
    rw [hsize, abs_zero]
    exact halfStep_pos.le

/-- A significand scaled by a power of ten is off by seven units in the last place at most, or by
half of the least double. -/
theorem scaleByTen?_near {s : ℕ} (hs : s < 2 ^ 64) {e : ℤ} (he : -616 ≤ e) {y : Binary64}
    (h : scaleByTen? 8 (ofInt s) e = some y) :
    y.isNegative = false ∧ y.IsFinite ∧
      |y.size - s * 10 ^ e| ≤ s * 10 ^ e * (7 / 2 ^ 52) + halfStep := by
  rcases Nat.eq_zero_or_pos s with rfl | hpos
  · obtain ⟨hneg, hy, herr⟩ := scaleByTen?_zero h
    exact ⟨hneg, hy, by simpa using herr⟩
  have hs1 : (1 : ℚ) ≤ s := by exact_mod_cast hpos
  have hs2 : (s : ℚ) ≤ 2 ^ (64 : ℤ) := by exact_mod_cast hs.le
  have hfin := isFinite_ofInt hs
  have hx : Within 1 s (ofInt s).size := by
    refine (rounds_ofInt s).within hfin (le_trans ?_ hs1)
    exact zpow_le_one_of_nonpos₀ one_le_two (by norm_num)
  rw [scaleByTen?] at h
  split at h
  · next hle =>
    obtain ⟨hy, w, hw, hround⟩ := scale_once hx (lt_of_within hx (by norm_num) hs2) hle h
    exact ⟨hround.1, hy, hround.near hy (hw.mono (by norm_num))⟩
  · next hgt =>
    split at h
    · next q hmag =>
      have hzero := hx.pos'
      rw [size, hmag] at hzero
      simp [Magnitude.size] at hzero
    · split at h
      · cases h
      · next hneg =>
        obtain ⟨t, ht, hy⟩ := Option.bind_eq_some_iff.1 h
        have hfirst := scale_first hpos hs hx le_rfl ht
        have hbound : t.size < 2 ^ (1000 : ℤ) := by
          refine lt_of_within hfirst (by norm_num) (le_trans ?_ hs2)
          exact mul_le_of_le_one_right (by positivity)
            (zpow_le_one_of_nonpos₀ (by norm_num) (by norm_num))
        rw [scaleByTen?, if_pos (by omega)] at hy
        obtain ⟨hfin', w, hw, hround⟩ := scale_once hfirst hbound (by omega) hy
        rw [mul_assoc, ← zpow_add₀ (by norm_num), show -((308 : ℕ) : ℤ) + (e + 308) = e by
          push_cast; ring] at hw
        exact ⟨hround.1, hfin', hround.near hfin' hw⟩
    · cases h

end SqlKit.Json
