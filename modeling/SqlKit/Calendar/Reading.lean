import SqlKit.Calendar.Time
import SqlKit.Text.Blank

/-!
# Reading dates and times

A text form is a list of `Item`s, read from left to right into `Fields`; what the form leaves open
stays `none`.  Numbers may have blanks in front and need not fill their width.  A second of 60 reads
as the leap second of second 59.
-/

namespace SqlKit.Calendar

/-! ## Items -/

/-- One part of a text form. -/
inductive Item where
  | literal (c : Char)
  | blanks
  | year
  | month
  | day
  | hour
  | minute
  | second
  /-- An optional point with the digits behind it. -/
  | fraction
deriving DecidableEq, Repr

/-- What has been read so far. -/
structure Fields where
  year : Option Int
  month : Option Nat
  day : Option Nat
  hour : Option Nat
  minute : Option Nat
  second : Option Nat
  nanos : Option Nat

def Fields.empty : Fields := ⟨none, none, none, none, none, none, none⟩

/-- Reads one to `width` digits. -/
def number? (width : Nat) (s : List Char) : Option (Nat × List Char) := do
  let ds := (s.take width).takeWhile fun c => (Digits.digit? c).isSome
  let n ← Digits.value? ds
  return (n, s.drop ds.length)

/-- Reads as many digits as there are. -/
def longNumber? (s : List Char) : Option (Nat × List Char) := number? s.length s

/-- Reads a year: four digits at most, or any number of them behind a sign. -/
def year? (s : List Char) : Option (Int × List Char) :=
  match s with
  | '-' :: r => (longNumber? r).map fun p => (-(p.1 : Int), p.2)
  | '+' :: r => (longNumber? r).map fun p => ((p.1 : Int), p.2)
  | _ => (number? 4 s).map fun p => ((p.1 : Int), p.2)

/-- Reads a number of two digits at most that lies within bounds. -/
def bounded? (lo hi : Nat) (s : List Char) : Option (Nat × List Char) := do
  let (n, rest) ← number? 2 (Text.trimStart s)
  if lo ≤ n ∧ n ≤ hi then some (n, rest) else none

/-- Reads the digits behind a point as nanoseconds; digits past the ninth are dropped. -/
def nanos? (s : List Char) : Option (Nat × List Char) := do
  let (n, rest) ← number? 9 s
  let places := s.length - rest.length
  return (n * Nat.pow 10 (9 - places), rest.dropWhile fun c => (Digits.digit? c).isSome)

/-- Reads one item. -/
def Item.read? (f : Fields) (s : List Char) : Item → Option (Fields × List Char)
  | .literal c => match s with
    | [] => none
    | d :: r => if d = c then some (f, r) else none
  | .blanks => some (f, Text.trimStart s)
  | .year => (year? (Text.trimStart s)).map fun p => ({ f with year := some p.1 }, p.2)
  | .month => (bounded? 1 12 s).map fun p => ({ f with month := some p.1 }, p.2)
  | .day => (bounded? 1 31 s).map fun p => ({ f with day := some p.1 }, p.2)
  | .hour => (bounded? 0 23 s).map fun p => ({ f with hour := some p.1 }, p.2)
  | .minute => (bounded? 0 59 s).map fun p => ({ f with minute := some p.1 }, p.2)
  | .second => (bounded? 0 60 s).map fun p => ({ f with second := some p.1 }, p.2)
  | .fraction => match s with
    | '.' :: r => (nanos? r).map fun p => ({ f with nanos := some p.1 }, p.2)
    | _ => some (f, s)

/-- Reads the items in turn. -/
def Item.readAll? : List Item → Fields → List Char → Option (Fields × List Char)
  | [], f, s => some (f, s)
  | i :: is, f, s => (i.read? f s).bind fun p => Item.readAll? is p.1 p.2

/-- Reads a whole text. -/
def Item.parse? (items : List Item) (s : List Char) : Option Fields :=
  match Item.readAll? items .empty s with
  | some (f, []) => some f
  | _ => none

/-- The date that was read. -/
def Fields.date? (f : Fields) : Option Date := do
  Date.ofYmd? (← f.year) (← f.month) (← f.day)

/-- The time that was read; seconds may be missing. -/
def Fields.time? (f : Fields) : Option TimeOfDay := do
  let hour ← f.hour
  let minute ← f.minute
  let nanos := f.nanos.getD 0
  match f.second with
  | some 60 => TimeOfDay.ofFields? hour minute 59 (nanosPerSecond + nanos)
  | some s => TimeOfDay.ofFields? hour minute s nanos
  | none => if f.nanos.isNone then TimeOfDay.ofFields? hour minute 0 0 else none

def Fields.dateTime? (f : Fields) : Option DateTime := do
  return ⟨← f.date?, ← f.time?⟩

/-! ## Forms -/

/-- Year, month and day with hyphens. -/
def dateForm : List Item := [.year, .literal '-', .month, .literal '-', .day]

/-- Hour, minute and second with colons, then the fraction. -/
def timeForm : List Item := [.hour, .literal ':', .minute, .literal ':', .second, .fraction]

/-- Blanks are allowed in front of each separator. -/
def looseDateForm : List Item :=
  [.year, .blanks, .literal '-', .month, .blanks, .literal '-', .day]

def looseTimeForm : List Item :=
  [.hour, .blanks, .literal ':', .minute, .blanks, .literal ':', .second, .fraction, .blanks]

/-- Reads a date such as `2024-01-15`. -/
def Date.parse? (s : String) : Option Date := (Item.parse? dateForm s.toList).bind Fields.date?

/-- Reads a date and a time with blanks between them, such as `2024-01-15 10:30:00.5`. -/
def DateTime.parse? (s : String) : Option DateTime :=
  (Item.parse? (dateForm ++ .blanks :: timeForm) s.toList).bind Fields.dateTime?

/-- Reads a date in ISO form, blanks around its parts allowed. -/
def Date.parseIso? (s : String) : Option Date :=
  (Item.parse? (looseDateForm ++ [.blanks]) s.toList).bind Fields.date?

/-- Reads a date and time in ISO form, with `T` between them. -/
def DateTime.parseIso? (s : String) : Option DateTime :=
  (Item.parse? (looseDateForm ++ [.blanks, .literal 'T'] ++ looseTimeForm) s.toList).bind
    Fields.dateTime?

/-- Reads a time of day; its seconds may be left out. -/
def TimeOfDay.parseIso? (s : String) : Option TimeOfDay := do
  let (f, rest) ← Item.readAll? [.hour, .blanks, .literal ':', .minute] .empty s.toList
  let (f, rest) :=
    (Item.readAll? [.blanks, .literal ':', .second, .fraction, .blanks] f rest).getD (f, rest)
  if (Text.trimStart rest).isEmpty then f.time? else none

/-- Reads an offset from UTC in seconds: `Z`, or a sign, two digits, separators, two digits. -/
def offset? (s : List Char) : Option (Int × List Char) :=
  match s with
  | 'Z' :: r | 'z' :: r => some (0, r)
  | '+' :: r => digits r
  | '-' :: r | '\u2212' :: r => (digits r).map fun p => (-p.1, p.2)
  | _ => none
where
  digits (s : List Char) : Option (Int × List Char) :=
    match s with
    | h₁ :: h₂ :: r => do
      let h ← Digits.value? [h₁, h₂]
      match r.dropWhile (fun c => c = ':' || Text.isBlank c) with
      | m₁ :: m₂ :: r => do
        let m ← Digits.value? [m₁, m₂]
        if m < 60 then some (((3600 * h + 60 * m : Nat) : Int), r) else none
      | _ => none
    | _ => none

/-- Reads a point in time with its offset and moves it to UTC. -/
def DateTime.parseUtc? (s : String) : Option DateTime := do
  let (f, rest) ← Item.readAll? looseDateForm .empty s.toList
  let rest ← match rest with
    | 'T' :: r | 't' :: r | ' ' :: r => some r
    | _ => none
  let (f, rest) ← Item.readAll? looseTimeForm f rest
  let zone := Text.trimStart rest
  let (shift, rest) ←
    if (zone.take 3).map Char.toUpper = ['U', 'T', 'C'] then some (0, zone.drop 3)
    else offset? zone
  if !(Text.trimStart rest).isEmpty || 86400 ≤ shift.natAbs then none
  else
    let t ← f.dateTime?
    DateTime.ofSeconds? (t.seconds - shift) t.time.nanos

end SqlKit.Calendar
