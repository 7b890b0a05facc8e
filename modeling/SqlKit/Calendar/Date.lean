import SqlKit.Text.Digits

/-!
# Dates of the proleptic Gregorian calendar

A `Date` carries the proof that its day exists.  `dayNumber` counts days from 0001-01-01, so it
turns differences of dates into subtraction; `ofDayNumber?` goes back.

    ofYmd? d.year d.month d.day = some d                               (ofYmd?_self)
    daysBeforeYear (y + 1) = daysBeforeYear y + daysInYear y            (daysBeforeYear_succ)
-/

namespace SqlKit.Calendar

/-! ## Algorithm -/

/-- The first year that can be represented. -/
def minYear : Int := -262143

/-- The last year that can be represented. -/
def maxYear : Int := 262142

/-- Every fourth year is a leap year, of the centuries every fourth. -/
def isLeap (y : Int) : Bool := y % 4 = 0 && (y % 100 ≠ 0 || y % 400 = 0)

def daysInYear (y : Int) : Int := if isLeap y then 366 else 365

/-- The length of month `m`, zero for a number that names no month. -/
def daysInMonth (y : Int) (m : Nat) : Nat :=
  match m with
  | 1 | 3 | 5 | 7 | 8 | 10 | 12 => 31
  | 4 | 6 | 9 | 11 => 30
  | 2 => if isLeap y then 29 else 28
  | _ => 0

/-- Year, month and day name a day within range. -/
def IsDate (y : Int) (m d : Nat) : Prop :=
  minYear ≤ y ∧ y ≤ maxYear ∧ 1 ≤ m ∧ m ≤ 12 ∧ 1 ≤ d ∧ d ≤ daysInMonth y m

instance (y : Int) (m d : Nat) : Decidable (IsDate y m d) := by unfold IsDate; infer_instance

/-- A calendar day. -/
structure Date where
  year : Int
  month : Nat
  day : Nat
  valid : IsDate year month day
deriving DecidableEq

namespace Date

/-- The date with these fields, if there is one. -/
def ofYmd? (y : Int) (m d : Nat) : Option Date :=
  if h : IsDate y m d then some ⟨y, m, d, h⟩ else none

/-- Days from 0001-01-01 to the first day of year `y`. -/
def daysBeforeYear (y : Int) : Int := 365 * (y - 1) + (y - 1) / 4 - (y - 1) / 100 + (y - 1) / 400

/-- Days from the first day of the year to the first day of month `m`. -/
def daysBeforeMonth (y : Int) : Nat → Nat
  | 0 => 0
  | m + 1 => if m = 0 then 0 else daysBeforeMonth y m + daysInMonth y m

/-- Days since 0001-01-01. -/
def dayNumber (d : Date) : Int :=
  daysBeforeYear d.year + daysBeforeMonth d.year d.month + (d.day - 1 : Nat)

/-- Walks through the months `m`, `m + 1`, … with `rest` days still to go. -/
def monthOfDay (y : Int) : Nat → Nat → Nat → Nat × Nat
  | 0, m, rest => (m, rest + 1)
  | fuel + 1, m, rest =>
    if rest < daysInMonth y m then (m, rest + 1)
    else monthOfDay y fuel (m + 1) (rest - daysInMonth y m)

/-- The year that holds day number `n`: the estimate by the longest year length is at most one
short. -/
def yearOfDay (n : Int) : Int :=
  let y := n / 146097 * 400 + n % 146097 / 366 + 1
  if daysBeforeYear (y + 1) ≤ n then y + 1 else y

/-- The date with day number `n`, if it is in range. -/
def ofDayNumber? (n : Int) : Option Date :=
  let y := yearOfDay n
  let md := monthOfDay y 11 1 (n - daysBeforeYear y).toNat
  ofYmd? y md.1 md.2

/-- A year with four places; outside of 0 to 9999 it carries a sign. -/
def yearText (y : Int) : String :=
  if 0 ≤ y ∧ y ≤ 9999 then Digits.padText 4 y.toNat
  else (if y < 0 then "-" else "+") ++ Digits.padText 4 y.natAbs

/-- Year, month and day joined by hyphens. -/
def text (d : Date) : String :=
  yearText d.year ++ "-" ++ Digits.padText 2 d.month ++ "-" ++ Digits.padText 2 d.day

end Date

/-! ## Lemmas -/

theorem Date.ofYmd?_self (d : Date) : Date.ofYmd? d.year d.month d.day = some d := by
  simp [Date.ofYmd?, d.valid]

theorem Date.ofYmd?_eq_some {y : Int} {m n : Nat} {d : Date} (h : Date.ofYmd? y m n = some d) :
    d.year = y ∧ d.month = m ∧ d.day = n := by
  simp only [Date.ofYmd?] at h
  split at h
  · obtain rfl := Option.some.inj h; exact ⟨rfl, rfl, rfl⟩
  · exact absurd h (by simp)

theorem Date.daysBeforeYear_succ (y : Int) :
    Date.daysBeforeYear (y + 1) = Date.daysBeforeYear y + daysInYear y := by
  simp only [Date.daysBeforeYear, daysInYear, isLeap, Bool.and_eq_true, decide_eq_true_eq,
    Bool.or_eq_true]
  split <;> omega

end SqlKit.Calendar
