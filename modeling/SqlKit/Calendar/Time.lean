import SqlKit.Calendar.Date

/-!
# Times of day and points in time

A `TimeOfDay` counts nanoseconds within its second; a count of 10⁹ and more is a leap second, which
only second 59 can have and which is written as second 60.  A fraction is written with 3, 6 or 9
places, the fewest that are exact, and not at all when it is zero.

    TimeOfDay.ofFields? t.hour t.minute t.second t.nanos = some t      (ofFields?_self)
-/

namespace SqlKit.Calendar

/-! ## Algorithm -/

/-- Nanoseconds in a second. -/
def nanosPerSecond : Nat := 1000000000

/-- Hour, minute, second and nanoseconds name a time, leap seconds included. -/
def IsTime (h m s n : Nat) : Prop :=
  h < 24 ∧ m < 60 ∧ s < 60 ∧ (n < nanosPerSecond ∨ s = 59 ∧ n < 2 * nanosPerSecond)

instance (h m s n : Nat) : Decidable (IsTime h m s n) := by unfold IsTime; infer_instance

/-- A time of day. -/
structure TimeOfDay where
  hour : Nat
  minute : Nat
  second : Nat
  nanos : Nat
  valid : IsTime hour minute second nanos
deriving DecidableEq

/-- The fraction of a second, with the fewest of 3, 6 and 9 places. -/
def fractionText (nanos : Nat) : String :=
  if nanos = 0 then ""
  else if nanos % 1000000 = 0 then "." ++ Digits.padText 3 (nanos / 1000000)
  else if nanos % 1000 = 0 then "." ++ Digits.padText 6 (nanos / 1000)
  else "." ++ Digits.padText 9 nanos

namespace TimeOfDay

/-- The time with these fields, if there is one. -/
def ofFields? (h m s n : Nat) : Option TimeOfDay :=
  if v : IsTime h m s n then some ⟨h, m, s, n, v⟩ else none

def midnight : TimeOfDay := ⟨0, 0, 0, 0, by decide⟩

/-- Seconds since midnight, without the fraction. -/
def seconds (t : TimeOfDay) : Nat := 3600 * t.hour + 60 * t.minute + t.second

/-- The time `s` seconds after midnight, `s` below the length of a day. -/
def ofSeconds? (s n : Nat) : Option TimeOfDay :=
  ofFields? (s / 3600) (s / 60 % 60) (s % 60) n

/-- Hour, minute and second joined by colons, then the fraction. -/
def text (t : TimeOfDay) : String :=
  let leap := nanosPerSecond ≤ t.nanos
  let second := if leap then t.second + 1 else t.second
  let nanos := if leap then t.nanos - nanosPerSecond else t.nanos
  Digits.padText 2 t.hour ++ ":" ++ Digits.padText 2 t.minute ++ ":" ++ Digits.padText 2 second ++
    fractionText nanos

end TimeOfDay

/-- A date and a time of day, without a zone or in UTC. -/
structure DateTime where
  date : Date
  time : TimeOfDay
deriving DecidableEq

namespace DateTime

/-- Date and time joined by a blank. -/
def text (t : DateTime) : String := t.date.text ++ " " ++ t.time.text

/-- Date and time joined by `T`. -/
def isoText (t : DateTime) : String := t.date.text ++ "T" ++ t.time.text

/-- A point in time, as text. -/
def utcText (t : DateTime) : String := t.text ++ " UTC"

/-- A point in time, in the short ISO form. -/
def zuluText (t : DateTime) : String := t.isoText ++ "Z"

/-- A point in time, with its offset written out. -/
def offsetText (t : DateTime) : String := t.isoText ++ "+00:00"

/-- Seconds since 0001-01-01 00:00:00, without the fraction. -/
def seconds (t : DateTime) : Int := 86400 * t.date.dayNumber + t.time.seconds

/-- The point `s` seconds after 0001-01-01 00:00:00, if it is in range. -/
def ofSeconds? (s : Int) (nanos : Nat) : Option DateTime := do
  let date ← Date.ofDayNumber? (s / 86400)
  let time ← TimeOfDay.ofSeconds? (s % 86400).toNat nanos
  return ⟨date, time⟩

end DateTime

/-! ## Lemmas -/

theorem TimeOfDay.ofFields?_self (t : TimeOfDay) :
    TimeOfDay.ofFields? t.hour t.minute t.second t.nanos = some t := by
  simp [TimeOfDay.ofFields?, t.valid]

theorem TimeOfDay.seconds_lt (t : TimeOfDay) : t.seconds < 86400 := by
  obtain ⟨h, m, s, n, hh, hm, hs, hn⟩ := t
  simp only [seconds]
  omega

end SqlKit.Calendar
