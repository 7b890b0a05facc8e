import SqlKit.Calendar.Reading
import SqlKit.Proofs.Json.Floats

/-!
# Dates and times read back

Each number of a date or a time is written at its full width, so it is read back whatever stands
behind it; only a year may be longer, and then it is the hyphen that ends it.  A fraction has as many
places as it needs, and the places tell what it counts.  A leap second is written as second 60 and is
the only one that is.

    number? w (padded w n ++ r) = some (n, r)   if n < 10 ^ w          (number?_padded)
    year? (yearText y ++ r) = some (y, r)       if r starts with no digit (year?_yearText)
    Date.parse? d.text = some d                                        (Date.parse?_text)
    DateTime.parse? t.text = some t                                    (DateTime.parse?_text)
-/

namespace SqlKit.Calendar

open Json (AllDigits NoDigit isDigit)

/-! ## Numbers -/

theorem allDigits_padded (w n : Nat) : AllDigits (Digits.padded w n) :=
  (Json.allDigits_zeros _).append (Json.allDigits_digits n)

theorem value?_padded (w n : Nat) : Digits.value? (Digits.padded w n) = some n := by
  have hfrom : Digits.valueFrom? 0 (Digits.padded w n) = some n := by
    rw [Digits.padded, Digits.valueFrom?_append, Json.Numeral.valueFrom?_zeros, Nat.zero_mul]
    exact Digits.valueFrom?_digits n
  cases h : Digits.padded w n with
  | nil => exact absurd h (by simp [Digits.padded, Digits.digits_ne_nil])
  | cons c cs => rwa [h] at hfrom

/-- Digits are read up to the width, or up to what is no digit. -/
theorem number?_append {w n : Nat} {ds r : List Char} (hds : AllDigits ds)
    (hn : Digits.value? ds = some n) (hlen : ds.length ≤ w) (hend : ds.length = w ∨ NoDigit r) :
    number? w (ds ++ r) = some (n, r) := by
  have hstop : NoDigit (r.take (w - ds.length)) := by
    rcases hend with h | h
    · simp [h, NoDigit]
    · intro c hc
      rw [List.head?_take] at hc
      split at hc
      · simp at hc
      · exact h c hc
  have hwhile : ((ds ++ r).take w).takeWhile isDigit = ds := by
    rw [List.take_append, List.take_of_length_le hlen]
    exact Json.takeWhile_digits hds hstop
  have hwhile' : ((ds ++ r).take w).takeWhile (fun c => (Digits.digit? c).isSome) = ds := hwhile
  simp only [number?, hwhile', hn, Option.bind_eq_bind, Option.bind_some, List.drop_left]
  rfl

theorem number?_padded {w n : Nat} (hw : 0 < w) (hn : n < 10 ^ w) (r : List Char) :
    number? w (Digits.padded w n ++ r) = some (n, r) := by
  have hlen := Digits.length_padded_of_lt hw hn
  exact number?_append (allDigits_padded w n) (value?_padded w n) hlen.le (.inl hlen)

theorem longNumber?_padded {w n : Nat} {r : List Char} (hr : NoDigit r) :
    longNumber? (Digits.padded w n ++ r) = some (n, r) :=
  number?_append (allDigits_padded w n) (value?_padded w n) (by simp) (.inr hr)

/-- A padded number starts with a digit. -/
theorem exists_digit_padded (w n : Nat) :
    ∃ c cs, Digits.padded w n = c :: cs ∧ isDigit c = true := by
  have hall := allDigits_padded w n
  cases h : Digits.padded w n with
  | nil => exact absurd h (by simp [Digits.padded, Digits.digits_ne_nil])
  | cons c cs => exact ⟨c, cs, rfl, hall c (by simp [h])⟩

theorem isDigit_iff {c : Char} : isDigit c = true ↔ '0' ≤ c ∧ c ≤ '9' := by
  simp only [isDigit, Digits.digit?]
  split <;> simp [*]

theorem not_isBlank_of_isDigit {c : Char} (h : isDigit c = true) : Text.isBlank c = false := by
  obtain ⟨hlo, hhi⟩ := isDigit_iff.1 h
  have hlo' : 48 ≤ c.toNat := hlo
  have hhi' : c.toNat ≤ 57 := hhi
  simp only [Text.isBlank, Bool.or_eq_false_iff, Bool.and_eq_false_iff, decide_eq_false_iff_not]
  omega

/-- There are no blanks in front of a padded number. -/
theorem trimStart_padded (w n : Nat) (r : List Char) :
    Text.trimStart (Digits.padded w n ++ r) = Digits.padded w n ++ r := by
  obtain ⟨c, cs, h, hc⟩ := exists_digit_padded w n
  rw [h, List.cons_append, Text.trimStart, List.dropWhile_cons_of_neg]
  simp [not_isBlank_of_isDigit hc]

/-! ## Parts -/

theorem bounded?_padText {lo hi n : Nat} (hlo : lo ≤ n) (hhi : n ≤ hi) (hlt : n < 100)
    (r : List Char) : bounded? lo hi ((Digits.padText 2 n).toList ++ r) = some (n, r) := by
  rw [Digits.padText, String.toList_ofList, bounded?, trimStart_padded,
    number?_padded (by decide) hlt]
  simp [hlo, hhi]

theorem year?_yearText (y : Int) {r : List Char} (hr : NoDigit r) :
    year? ((Date.yearText y).toList ++ r) = some (y, r) := by
  unfold Date.yearText
  split_ifs with hplain hneg
  · obtain ⟨c, cs, h, hc⟩ := exists_digit_padded 4 y.toNat
    have hnumber := number?_padded (by decide) (show y.toNat < 10 ^ 4 by omega) r
    have hminus : c ≠ '-' := by rintro rfl; exact absurd hc (by decide)
    have hplus : c ≠ '+' := by rintro rfl; exact absurd hc (by decide)
    rw [Digits.padText, String.toList_ofList]
    rw [h, List.cons_append] at hnumber ⊢
    rw [year?]
    · rw [hnumber, Option.map_some, Int.toNat_of_nonneg hplain.1]
    · simpa using fun hx => absurd hx hminus
    · simpa using fun hx => absurd hx hplus
  · have hminus : ("-" : String).toList = ['-'] := rfl
    rw [String.toList_append, hminus, Digits.padText, String.toList_ofList]
    show (longNumber? (Digits.padded 4 y.natAbs ++ r)).map _ = _
    rw [longNumber?_padded hr, Option.map_some, show -((y.natAbs : Nat) : Int) = y by omega]
  · have hplus : ("+" : String).toList = ['+'] := rfl
    rw [String.toList_append, hplus, Digits.padText, String.toList_ofList]
    show (longNumber? (Digits.padded 4 y.natAbs ++ r)).map _ = _
    rw [longNumber?_padded hr, Option.map_some, show ((y.natAbs : Nat) : Int) = y by omega]

/-- A year starts with a digit or a sign. -/
theorem trimStart_yearText (y : Int) (r : List Char) :
    Text.trimStart ((Date.yearText y).toList ++ r) = (Date.yearText y).toList ++ r := by
  unfold Date.yearText
  split_ifs with hplain hneg
  · rw [Digits.padText, String.toList_ofList, trimStart_padded]
  · rw [String.toList_append]
    rfl
  · rw [String.toList_append]
    rfl

/-- So many places count so many nanoseconds each. -/
theorem nanos?_padded {k m : Nat} (hpos : 0 < k) (hk : k ≤ 9) (hm : m < 10 ^ k) :
    nanos? (Digits.padded k m) = some (m * 10 ^ (9 - k), []) := by
  have hlen := Digits.length_padded_of_lt hpos hm
  have hnumber : number? 9 (Digits.padded k m) = some (m, []) := by
    have h := number?_append (w := 9) (allDigits_padded k m) (value?_padded k m) (by omega)
      (.inr (show NoDigit [] by simp [NoDigit]))
    rwa [List.append_nil] at h
  simp [nanos?, hnumber, hlen]

/-- A fraction of zero leaves open how many nanoseconds there are. -/
theorem read?_fractionText {n : Nat} (hn : n < nanosPerSecond) (f : Fields) :
    Item.fraction.read? f (fractionText n).toList =
      some ({ f with nanos := if n = 0 then f.nanos else some n }, []) := by
  have hplaces {k m : Nat} (hpos : 0 < k) (hk : k ≤ 9) (hm : m < 10 ^ k) :
      Item.fraction.read? f ("." ++ Digits.padText k m).toList =
        some ({ f with nanos := some (m * 10 ^ (9 - k)) }, []) := by
    have hpoint : (".").toList = ['.'] := rfl
    rw [String.toList_append, hpoint, Digits.padText, String.toList_ofList]
    show (nanos? (Digits.padded k m)).map _ = _
    rw [nanos?_padded hpos hk hm, Option.map_some]
  have hn' : n < 1000000000 := hn
  unfold fractionText
  split_ifs with hzero hmilli hmicro
  · rfl
  · rw [hplaces (by decide) (by decide) (show n / 1000000 < 10 ^ 3 by omega),
      show n / 1000000 * 10 ^ (9 - 3) = n by omega]
  · rw [hplaces (by decide) (by decide) (show n / 1000 < 10 ^ 6 by omega),
      show n / 1000 * 10 ^ (9 - 6) = n by omega]
  · rw [hplaces (by decide) (by decide) (show n < 10 ^ 9 by omega),
      show n * 10 ^ (9 - 9) = n by omega]

/-! ## Forms -/

theorem readAll?_append (is js : List Item) (f : Fields) (s : List Char) :
    Item.readAll? (is ++ js) f s =
      (Item.readAll? is f s).bind fun p => Item.readAll? js p.1 p.2 := by
  induction is generalizing f s with
  | nil => rfl
  | cons i is ih =>
    rw [List.cons_append, Item.readAll?, Item.readAll?, Option.bind_assoc]
    exact Option.bind_congr fun p _ => ih p.1 p.2

/-- A date is read in front of anything that starts with no digit. -/
theorem readAll?_dateText (d : Date) (f : Fields) (r : List Char) :
    Item.readAll? dateForm f (d.text.toList ++ r) =
      some ({ f with year := some d.year, month := some d.month, day := some d.day }, r) := by
  obtain ⟨-, -, hm, hm', hd, hd'⟩ := d.valid
  have hlast : d.day ≤ 31 := by
    refine hd'.trans ?_
    unfold daysInMonth
    split <;> (try split) <;> omega
  have hhyphen : ("-").toList = ['-'] := rfl
  have hstop (s : List Char) : NoDigit ('-' :: s) := by
    intro c hc
    obtain rfl : '-' = c := by simpa using hc
    rfl
  simp only [Date.text, String.toList_append, hhyphen, List.append_assoc, List.cons_append,
    List.nil_append, dateForm, Item.readAll?, Item.read?, trimStart_yearText,
    year?_yearText _ (hstop _), Option.map_some, Option.bind_some, if_true,
    bounded?_padText hm hm' (by omega), bounded?_padText hd hlast (by omega)]

/-- Hour, minute and second are read in front of anything. -/
theorem readAll?_clock {h m s : Nat} (hh : h ≤ 23) (hm : m ≤ 59) (hs : s ≤ 60) (f : Fields)
    (r : List Char) :
    Item.readAll? [.hour, .literal ':', .minute, .literal ':', .second] f
        ((Digits.padText 2 h).toList ++ ':' :: ((Digits.padText 2 m).toList ++
          ':' :: ((Digits.padText 2 s).toList ++ r))) =
      some ({ f with hour := some h, minute := some m, second := some s }, r) := by
  simp only [Item.readAll?, Item.read?, Option.map_some, Option.bind_some, if_true,
    bounded?_padText (Nat.zero_le _) hh (by omega), bounded?_padText (Nat.zero_le _) hm (by omega),
    bounded?_padText (Nat.zero_le _) hs (by omega)]

/-- A time is read from its text.  Second 60 stands for the leap second. -/
theorem exists_readAll?_timeText (t : TimeOfDay) {f : Fields} (hf : f.nanos = none) :
    ∃ g, Item.readAll? timeForm f t.text.toList = some (g, []) ∧ g.date? = f.date? ∧
      g.time? = some t := by
  obtain ⟨hh, hm, hs, hn⟩ := t.valid
  have hcolon : (":").toList = [':'] := rfl
  have hread {s n : Nat} (hs : s ≤ 60) (hn : n < nanosPerSecond) :
      Item.readAll? timeForm f (Digits.padText 2 t.hour ++ ":" ++ Digits.padText 2 t.minute ++ ":" ++
          Digits.padText 2 s ++ fractionText n).toList =
        some ({ f with
          hour := some t.hour, minute := some t.minute, second := some s
          nanos := if n = 0 then none else some n }, []) := by
    rw [show timeForm = [.hour, .literal ':', .minute, .literal ':', .second] ++ [.fraction] from rfl,
      readAll?_append]
    simp only [String.toList_append, hcolon, List.append_assoc, List.cons_append, List.nil_append]
    rw [readAll?_clock (by omega) (by omega) hs, Option.bind_some, Item.readAll?,
      read?_fractionText hn, hf]
    rfl
  have hcount (n : Nat) : (if n = 0 then none else some n).getD 0 = n := by
    split_ifs with h
    · exact h.symm
    · rfl
  unfold TimeOfDay.text
  rcases Nat.lt_or_ge t.nanos nanosPerSecond with hlt | hge
  · simp only [Nat.not_le.2 hlt, if_false]
    refine ⟨_, hread (by omega) hlt, rfl, ?_⟩
    have hne : t.second ≠ 60 := by omega
    simp only [Fields.time?, Option.bind_eq_bind, Option.bind_some, hcount]
    exact TimeOfDay.ofFields?_self t
  · obtain ⟨hlast, hlong⟩ := hn.resolve_left (Nat.not_lt.2 hge)
    simp only [hge, if_true, hlast]
    refine ⟨_, hread (by omega) (by omega), rfl, ?_⟩
    simp only [Fields.time?, Option.bind_eq_bind, Option.bind_some, hcount,
      Nat.add_sub_cancel' hge]
    rw [← hlast]
    exact TimeOfDay.ofFields?_self t

/-! ## Texts -/

/-- Every date is read back from its text. -/
theorem Date.parse?_text (d : Date) : Date.parse? d.text = some d := by
  have hread := readAll?_dateText d .empty []
  rw [List.append_nil] at hread
  simp only [Date.parse?, Item.parse?, hread]
  exact Date.ofYmd?_self d

/-- Every point in time is read back from its text. -/
theorem DateTime.parse?_text (t : DateTime) : DateTime.parse? t.text = some t := by
  have hblank : (" ").toList = [' '] := rfl
  have hdate := readAll?_dateText t.date .empty (' ' :: t.time.text.toList)
  obtain ⟨g, htime, hgdate, hgtime⟩ := exists_readAll?_timeText t.time
    (f := { Fields.empty with
      year := some t.date.year, month := some t.date.month, day := some t.date.day }) rfl
  have htrim : Text.trimStart (' ' :: t.time.text.toList) = t.time.text.toList := by
    have h := trimStart_padded 2 t.time.hour
    simp only [TimeOfDay.text, Digits.padText, String.toList_append, String.toList_ofList,
      List.append_assoc]
    exact h _
  have hread : Item.readAll? (dateForm ++ .blanks :: timeForm) .empty t.text.toList =
      some (g, []) := by
    rw [DateTime.text, String.toList_append, String.toList_append, hblank, List.append_assoc,
      List.singleton_append, readAll?_append, hdate, Option.bind_some, Item.readAll?, Item.read?,
      Option.bind_some, htrim, htime]
  have hwhole : g.dateTime? = some t := by
    have hread : g.date? = some t.date := hgdate.trans (Date.ofYmd?_self t.date)
    rw [Fields.dateTime?, hread, hgtime]
    rfl
  simp only [DateTime.parse?, Item.parse?, hread, Option.bind_some, hwhole]

end SqlKit.Calendar
