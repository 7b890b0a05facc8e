import SqlKit.Calendar.Time

/-!
# Dates by their day number

A day number lies between the first day of its date's year and that of the next, and what is left
walks through the months to the date's own.  So a date can be had back from its day number, and a
point in time from its seconds.

    yearOfDay n = y   if n lies in year y                              (yearOfDay_eq)
    ofDayNumber? d.dayNumber = some d                                  (ofDayNumber?_dayNumber)
    DateTime.ofSeconds? t.seconds t.time.nanos = some t                (ofSeconds?_seconds)
-/

namespace SqlKit.Calendar

/-! ## Years -/

namespace Date

theorem daysBeforeYear_mono {y z : Int} (h : y ≤ z) : daysBeforeYear y ≤ daysBeforeYear z := by
  simp only [daysBeforeYear]
  omega

/-- The estimate by the longest year length is the year or the one before. -/
theorem estimate_bounds (n : Int) :
    daysBeforeYear (n / 146097 * 400 + n % 146097 / 366 + 1) ≤ n ∧
      n < daysBeforeYear (n / 146097 * 400 + n % 146097 / 366 + 3) := by
  have hr := Int.emod_nonneg n (show (146097 : Int) ≠ 0 by decide)
  have hlt := Int.emod_lt_of_pos n (show (0 : Int) < 146097 by decide)
  have hn := Int.mul_ediv_add_emod n 146097
  generalize n / 146097 = q at *
  generalize n % 146097 = r at *
  simp only [daysBeforeYear]
  omega

theorem yearOfDay_bounds (n : Int) :
    daysBeforeYear (yearOfDay n) ≤ n ∧ n < daysBeforeYear (yearOfDay n + 1) := by
  obtain ⟨hlo, hhi⟩ := estimate_bounds n
  simp only [yearOfDay]
  split
  · next h => exact ⟨h, by rwa [Int.add_assoc, Int.add_assoc]⟩
  · next h => exact ⟨hlo, by omega⟩

theorem yearOfDay_eq {n y : Int} (hlo : daysBeforeYear y ≤ n) (hhi : n < daysBeforeYear (y + 1)) :
    yearOfDay n = y := by
  obtain ⟨hlo', hhi'⟩ := yearOfDay_bounds n
  rcases Int.lt_trichotomy (yearOfDay n) y with h | h | h
  · have := daysBeforeYear_mono (show yearOfDay n + 1 ≤ y by omega)
    omega
  · exact h
  · have := daysBeforeYear_mono (show y + 1 ≤ yearOfDay n by omega)
    omega

/-! ## Months -/

theorem daysBeforeMonth_succ (y : Int) {m : Nat} (h : m ≠ 0) :
    daysBeforeMonth y (m + 1) = daysBeforeMonth y m + daysInMonth y m := by
  simp [daysBeforeMonth, h]

theorem daysBeforeMonth_mono (y : Int) {m k : Nat} (h : m ≤ k) :
    daysBeforeMonth y m ≤ daysBeforeMonth y k := by
  induction h with
  | refl => exact Nat.le_refl _
  | @step k h ih =>
    refine Nat.le_trans ih ?_
    rw [daysBeforeMonth]
    split
    · next hk => subst hk; exact Nat.le_refl _
    · exact Nat.le_add_right ..

/-- The twelve months make up the year. -/
theorem daysBeforeMonth_thirteen (y : Int) : (daysBeforeMonth y 13 : Int) = daysInYear y := by
  simp only [daysBeforeMonth, daysInMonth, daysInYear]
  cases isLeap y <;> rfl

/-- From the first day of month `k`, the walk over the days up to day `d` of month `m` ends there. -/
theorem monthOfDay_eq {y : Int} {m d : Nat} (hd : 1 ≤ d) (hd' : d ≤ daysInMonth y m) :
    ∀ {fuel k rest : Nat}, 1 ≤ k → k ≤ m → m ≤ k + fuel →
      daysBeforeMonth y k + rest = daysBeforeMonth y m + (d - 1) →
      monthOfDay y fuel k rest = (m, d) := by
  intro fuel
  induction fuel with
  | zero =>
    intro k rest _ hkm hfuel hrest
    obtain rfl : k = m := by omega
    rw [monthOfDay, show rest + 1 = d by omega]
  | succ fuel ih =>
    intro k rest hk hkm hfuel hrest
    have hk' := daysBeforeMonth_succ y (show k ≠ 0 by omega)
    rw [monthOfDay]
    split
    · next hlt =>
      have hnot : ¬ k + 1 ≤ m := by
        intro h
        have := daysBeforeMonth_mono y h
        omega
      obtain rfl : k = m := by omega
      rw [show rest + 1 = d by omega]
    · next hge =>
      have hne : k ≠ m := by
        rintro rfl
        omega
      exact ih (by omega) (by omega) (by omega) (by omega)

/-! ## Dates -/

theorem dayNumber_bounds (d : Date) :
    daysBeforeYear d.year ≤ d.dayNumber ∧ d.dayNumber < daysBeforeYear (d.year + 1) := by
  obtain ⟨-, -, hm, hm', hd, hd'⟩ := d.valid
  have hmonth := daysBeforeMonth_succ d.year (show d.month ≠ 0 by omega)
  have hyear := daysBeforeMonth_mono d.year (show d.month + 1 ≤ 13 by omega)
  have hall := daysBeforeMonth_thirteen d.year
  rw [daysBeforeYear_succ]
  simp only [dayNumber]
  omega

/-- A day number is that of one date only. -/
theorem ofDayNumber?_dayNumber (d : Date) : ofDayNumber? d.dayNumber = some d := by
  obtain ⟨hlo, hhi⟩ := dayNumber_bounds d
  obtain ⟨-, -, hm, hm', hd, hd'⟩ := d.valid
  have hrest : (d.dayNumber - daysBeforeYear d.year).toNat =
      daysBeforeMonth d.year d.month + (d.day - 1) := by
    simp only [dayNumber]
    omega
  have hwalk : monthOfDay d.year 11 1 (daysBeforeMonth d.year d.month + (d.day - 1)) =
      (d.month, d.day) :=
    monthOfDay_eq hd hd' (Nat.le_refl 1) hm (by omega) (by simp [daysBeforeMonth])
  simp only [ofDayNumber?, yearOfDay_eq hlo hhi, hrest, hwalk]
  exact ofYmd?_self d

/-- All dates lie within 97 million days of 0001-01-01. -/
theorem dayNumber_range (d : Date) : -96500000 < d.dayNumber ∧ d.dayNumber < 96500000 := by
  obtain ⟨hlo, hhi⟩ := dayNumber_bounds d
  obtain ⟨hmin, hmax, -⟩ := d.valid
  have h1 := daysBeforeYear_mono hmin
  have h2 := daysBeforeYear_mono (show d.year + 1 ≤ maxYear + 1 by omega)
  have e1 : -96500000 < daysBeforeYear minYear := by decide
  have e2 : daysBeforeYear (maxYear + 1) < 96500000 := by decide
  omega

end Date

/-! ## Times -/

theorem TimeOfDay.ofSeconds?_seconds (t : TimeOfDay) :
    TimeOfDay.ofSeconds? t.seconds t.nanos = some t := by
  obtain ⟨-, hm, hs, -⟩ := t.valid
  have h1 : t.seconds / 3600 = t.hour := by simp only [seconds]; omega
  have h2 : t.seconds / 60 % 60 = t.minute := by simp only [seconds]; omega
  have h3 : t.seconds % 60 = t.second := by simp only [seconds]; omega
  rw [TimeOfDay.ofSeconds?, h1, h2, h3]
  exact TimeOfDay.ofFields?_self t

/-- What is read from seconds and nanoseconds has these nanoseconds. -/
theorem TimeOfDay.nanos_of_ofSeconds? {s n : Nat} {t : TimeOfDay}
    (h : TimeOfDay.ofSeconds? s n = some t) : t.nanos = n := by
  simp only [TimeOfDay.ofSeconds?, TimeOfDay.ofFields?] at h
  split at h
  · obtain rfl := Option.some.inj h; rfl
  · cases h

theorem DateTime.ofSeconds?_seconds (t : DateTime) :
    DateTime.ofSeconds? t.seconds t.time.nanos = some t := by
  have hs := t.time.seconds_lt
  have h1 : t.seconds / 86400 = t.date.dayNumber := by simp only [DateTime.seconds]; omega
  have h2 : (t.seconds % 86400).toNat = t.time.seconds := by simp only [DateTime.seconds]; omega
  simp only [DateTime.ofSeconds?, h1, h2, Date.ofDayNumber?_dayNumber,
    TimeOfDay.ofSeconds?_seconds]
  rfl

theorem DateTime.nanos_of_ofSeconds? {s : Int} {n : Nat} {t : DateTime}
    (h : DateTime.ofSeconds? s n = some t) : t.time.nanos = n := by
  simp only [DateTime.ofSeconds?, Option.bind_eq_bind, Option.bind_eq_some_iff] at h
  obtain ⟨date, -, time, htime, ht⟩ := h
  obtain rfl := Option.some.inj ht
  exact TimeOfDay.nanos_of_ofSeconds? htime

end SqlKit.Calendar
