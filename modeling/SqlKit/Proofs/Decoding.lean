import SqlKit.Postgres.Fault
import SqlKit.Proofs.Calendar.Texts
import SqlKit.Proofs.Mysql.Kinds
import SqlKit.Text.Split

/-!
# What servers send, at the limits of its fields

The fields of a MySQL `TIME` and the code of a PostgreSQL error are whatever the server puts there.
The hours of a `TIME` are counted in 32 bits, which is enough for most day counts but not for all; its
microseconds are written as decimals, which says the same only below a million.  The class of an error
is cut off its code behind two bytes, where there is such a place.

    an unsigned integer keeps its number                               (integer?_toValue_uint)
    a TIME keeps its length ↔ its hours fit and its decimals do        (seconds?_toValue_time_iff)
    an error gets the class of its code ↔ the code can be cut there    (error?_server_iff)
-/

namespace SqlKit

open Calendar

/-! ## What values say -/

/-- The seconds of a span of time, with its sign; `part` is the part of a second. -/
def spanSeconds (isNegative : Bool) (hours minutes seconds : ℕ) (part : ℚ) : ℚ :=
  (if isNegative then -1 else 1) * (3600 * hours + 60 * minutes + seconds + part)

namespace Value

/-- The integer that a value says, as such or in digits. -/
def integer? : Value → Option ℤ
  | .int i => some i.toInt
  | .string s => (Digits.value? s.toList).map Int.ofNat
  | _ => none

/-- Reads hours, minutes and seconds with colons between them and decimals behind a point.  The parts
may be as large as they like. -/
def clock? (isNegative : Bool) (cs : List Char) : Option ℚ :=
  match Text.splitAll ':' cs with
  | [hours, minutes, seconds] => do
    let (whole, decimals) ← Text.splitOnce? '.' seconds
    let h ← Digits.value? hours
    let m ← Digits.value? minutes
    let s ← Digits.value? whole
    let p ← Digits.value? decimals
    return spanSeconds isNegative h m s (p / 10 ^ decimals.length)
  | _ => none

/-- Reads them with a sign in front. -/
def signedClock? : List Char → Option ℚ
  | '-' :: cs => clock? true cs
  | cs => clock? false cs

/-- The span of time that a value says, in seconds: since midnight for a time of day. -/
def seconds? : Value → Option ℚ
  | .time t => some (t.seconds + t.nanos / nanosPerSecond)
  | .string s => signedClock? s.toList
  | _ => none

end Value

/-! ## Spans of time -/

theorem spanSeconds_eq_iff {isNegative : Bool} {h h' m s : ℕ} {p p' : ℚ} :
    spanSeconds isNegative h m s p = spanSeconds isNegative h' m s p' ↔
      3600 * (h : ℚ) + p = 3600 * h' + p' := by
  have hsign : (if isNegative then -1 else 1 : ℚ) ≠ 0 := by
    split <;> norm_num
  rw [spanSeconds, spanSeconds, mul_right_inj' hsign]
  constructor <;> intro heq <;> linarith

/-- With hours that may only have become fewer, the span is the same if they have not and the part of
a second is written with its six decimals. -/
theorem spanSeconds_decimals_iff {isNegative : Bool} {h h' m s us : ℕ} (hle : h' ≤ h) :
    spanSeconds isNegative h' m s (us / 10 ^ (Digits.padded 6 us).length) =
        spanSeconds isNegative h m s (us / 1000000) ↔ h' = h ∧ us < 1000000 := by
  have hlen : (Digits.padded 6 us).length = max 6 (Digits.digits us).length :=
    Digits.length_padded 6 us
  rw [spanSeconds_eq_iff]
  rcases Nat.lt_or_ge us 1000000 with hlt | hge
  · rw [Digits.length_padded_of_lt (by decide) (show us < 10 ^ 6 by omega)]
    norm_num [hlt]
  · -- More digits than six make the part smaller, and fewer hours cannot make up for that.
    have hseven : 7 ≤ (Digits.padded 6 us).length := by
      have hup := (Digits.length_bounds us).1
      by_contra hshort
      have hpow := Nat.pow_le_pow_right (show 0 < 10 by decide)
        (show (Digits.digits us).length ≤ 6 by omega)
      omega
    have hpow : (10 : ℚ) ^ 7 ≤ 10 ^ (Digits.padded 6 us).length :=
      pow_le_pow_right₀ (by norm_num) hseven
    have hus : (1000000 : ℚ) ≤ us := by exact_mod_cast hge
    have hpart : (us : ℚ) / 10 ^ (Digits.padded 6 us).length < us / 1000000 :=
      div_lt_div_of_pos_left (by linarith) (by norm_num) (by linarith)
    have hhours : (h' : ℚ) ≤ h := by exact_mod_cast hle
    constructor
    · intro heq
      linarith
    · intro heq
      omega

/-! ## Clock readings -/

theorem not_mem_padded {c : Char} (h : Json.isDigit c = false) (w n : ℕ) :
    c ∉ Digits.padded w n := by
  intro hc
  rw [allDigits_padded w n c hc] at h
  cases h

namespace Value

/-- A clock reading says what its parts say; decimals count by how many there are. -/
theorem clock?_padded (isNegative : Bool) (h m s p : ℕ) :
    clock? isNegative (Digits.padded 2 h ++ ':' :: (Digits.padded 2 m ++ ':' ::
        (Digits.padded 2 s ++ '.' :: Digits.padded 6 p))) =
      some (spanSeconds isNegative h m s (p / 10 ^ (Digits.padded 6 p).length)) := by
  have hcolon : ∀ w n, ':' ∉ Digits.padded w n := not_mem_padded (by decide)
  have hpoint : ∀ w n, '.' ∉ Digits.padded w n := not_mem_padded (by decide)
  have hlast : ':' ∉ Digits.padded 2 s ++ '.' :: Digits.padded 6 p := by
    simp [hcolon]
  rw [clock?, Text.splitAll_append (hcolon 2 h), Text.splitAll_append (hcolon 2 m),
    Text.splitAll_of_not_mem hlast]
  simp only [Text.splitOnce?_append (hpoint 2 s), value?_padded, Option.bind_eq_bind,
    Option.bind_some]
  rfl

/-- Where a digit stands there is no sign. -/
theorem signedClock?_padded (h : ℕ) (r : List Char) :
    signedClock? (Digits.padded 2 h ++ r) = clock? false (Digits.padded 2 h ++ r) := by
  obtain ⟨c, cs, hcs, hc⟩ := exists_digit_padded 2 h
  have hne : c ≠ '-' := by
    rintro rfl
    cases hc
  rw [hcs, List.cons_append, signedClock?]
  exact fun r' hr => hne (List.cons.inj hr).1

end Value

/-! ## MySQL -/

namespace Mysql.Datum

/-- Unsigned integers of 64 bits come out as themselves or as their digits. -/
theorem integer?_toValue_uint (t : ColumnType) (n : UInt64) :
    (toValue t (.uint n)).integer? = some (n.toNat : ℤ) := by
  simp only [toValue]
  split
  · next hlt =>
    have hint : n.toInt64.toInt = (n.toNat : ℤ) :=
      BitVec.toInt_eq_toNat_of_lt (x := n.toBitVec) (by show 2 * n.toNat < 2 ^ 64; omega)
    rw [Value.integer?, hint]
  · rw [Value.integer?, Digits.text, String.toList_ofList, Digits.value?_digits]
    rfl

/-- The hours of a `TIME`, as they are counted in 32 bits. -/
theorem toNat_hours (days : UInt32) (h : UInt8) :
    (days * 24 + h.toUInt32).toNat = (24 * days.toNat + h.toNat) % UInt32.size := by
  have h24 : (24 : UInt32).toNat = 24 := rfl
  have hsize : UInt32.size = 2 ^ 32 := rfl
  rw [UInt32.toNat_add, UInt32.toNat_mul, UInt8.toNat_toUInt32, h24, hsize]
  omega

section

variable {isNegative : Bool} {hours : UInt32} {mi s : UInt8} {us : UInt32}

/-- A time of day says the span it was made from. -/
theorem seconds?_valueOfTime_of_fits
    (hfits : isNegative = false ∧ IsTime hours.toNat mi.toNat s.toNat (1000 * us.toNat)) :
    (valueOfTime isNegative hours mi s us).seconds? =
      some (spanSeconds isNegative hours.toNat mi.toNat s.toNat (us.toNat / 1000000)) := by
  obtain ⟨rfl, htime⟩ := hfits
  simp only [valueOfTime, TimeOfDay.ofFields?, dif_pos htime, Value.seconds?, spanSeconds,
    TimeOfDay.seconds, nanosPerSecond, Bool.false_eq_true, if_false]
  push_cast
  ring_nf

/-- A text says the span, but for what its decimals make of the microseconds. -/
theorem seconds?_valueOfTime_of_not_fits
    (hfits : ¬ (isNegative = false ∧ IsTime hours.toNat mi.toNat s.toNat (1000 * us.toNat))) :
    (valueOfTime isNegative hours mi s us).seconds? =
      some (spanSeconds isNegative hours.toNat mi.toNat s.toNat
        (us.toNat / 10 ^ (Digits.padded 6 us.toNat).length)) := by
  rw [valueOfTime_of_not_fits hfits, Value.seconds?]
  simp only [String.toList_append, Digits.padText, String.toList_ofList, String.reduceToList,
    List.append_assoc, List.cons_append, List.nil_append]
  cases isNegative with
  | true => exact Value.clock?_padded true hours.toNat mi.toNat s.toNat us.toNat
  | false =>
    exact (Value.signedClock?_padded hours.toNat _).trans
      (Value.clock?_padded false hours.toNat mi.toNat s.toNat us.toNat)

end

/-- What a `TIME` comes out as says the same span of time exactly if its hours fit into 32 bits, and
its microseconds into six decimals where it is no time of day. -/
theorem seconds?_toValue_time_iff {t : ColumnType} {isNegative : Bool} {days : UInt32}
    {h mi s : UInt8} {us : UInt32} :
    (toValue t (.time isNegative days h mi s us)).seconds? =
        some (spanSeconds isNegative (24 * days.toNat + h.toNat) mi.toNat s.toNat
          (us.toNat / 1000000)) ↔
      24 * days.toNat + h.toNat < UInt32.size ∧
        (us.toNat < 1000000 ∨ Fits t (.time isNegative days h mi s us)) := by
  have hhours := toNat_hours days h
  have hle : (days * 24 + h.toUInt32).toNat ≤ 24 * days.toNat + h.toNat :=
    hhours ▸ Nat.mod_le _ _
  have hsame : (days * 24 + h.toUInt32).toNat = 24 * days.toNat + h.toNat ↔
      24 * days.toNat + h.toNat < UInt32.size := by
    rw [hhours, Nat.mod_eq_iff_lt (by decide)]
  rw [toValue]
  by_cases hfits : Fits t (.time isNegative days h mi s us)
  · rw [seconds?_valueOfTime_of_fits hfits, Option.some_inj, spanSeconds_eq_iff, ← hsame]
    have h3600 : (3600 : ℚ) ≠ 0 := by norm_num
    rw [add_left_inj, mul_right_inj' h3600, Nat.cast_inj]
    simp only [hfits, or_true, and_true]
  · rw [seconds?_valueOfTime_of_not_fits hfits, Option.some_inj, spanSeconds_decimals_iff hle, hsame]
    simp only [hfits, or_false]

end Mysql.Datum

/-! ## PostgreSQL -/

namespace Postgres.Fault

/-- Some characters at the beginning of the code have two bytes together. -/
def IsCut (code : String) : Prop :=
  ∃ a b, code.toList = a ++ b ∧ (a.map Char.utf8Size).sum = 2

theorem isCut_iff {code : String} :
    IsCut code ↔ (∃ c cs, code.toList = c :: cs ∧ c.utf8Size = 2) ∨
      ∃ c d cs, code.toList = c :: d :: cs ∧ c.utf8Size = 1 ∧ d.utf8Size = 1 := by
  constructor
  · rintro ⟨a, b, hcode, hsum⟩
    match a with
    | [] => cases hsum
    | [c] => exact .inl ⟨c, b, hcode, by simpa using hsum⟩
    | c :: d :: a' =>
      have hc := c.utf8Size_pos
      have hd := d.utf8Size_pos
      simp only [List.map_cons, List.sum_cons] at hsum
      exact .inr ⟨c, d, a' ++ b, hcode, by omega, by omega⟩
  · rintro (⟨c, cs, hcode, hc⟩ | ⟨c, d, cs, hcode, hc, hd⟩)
    · exact ⟨[c], cs, hcode, by simpa using hc⟩
    · exact ⟨[c, d], cs, hcode, by simp [hc, hd]⟩

/-- What starts with a character outside ASCII is of no special class. -/
theorem ofClass_of_utf8Size {c : Char} (hc : c.utf8Size = 2) (cs : List Char) (detail : String) :
    ofClass (String.ofList (c :: cs)) detail = .database detail := by
  have hne : ∀ k ∈ ["23", "08", "40", "53", "57"], String.ofList (c :: cs) ≠ k := by
    intro k hk heq
    have hlist : c :: cs = k.toList := by rw [← heq, String.toList_ofList]
    simp only [List.mem_cons, List.not_mem_nil, or_false] at hk
    rcases hk with rfl | rfl | rfl | rfl | rfl <;>
      · obtain rfl := (List.cons.inj hlist).1
        cases hc
  rw [ofClass, if_neg (hne _ (by simp)), if_neg]
  intro hmem
  exact hne _ (List.mem_cons_of_mem _ hmem) rfl

theorem sqlClass?_of_utf8Size_two {code : String} {c : Char} {cs : List Char}
    (hcode : code.toList = c :: cs) (hc : c.utf8Size = 2) :
    sqlClass? code = some (String.ofList [c]) := by
  rw [sqlClass?, hcode]
  exact if_pos hc

theorem sqlClass?_of_utf8Size_one {code : String} {c d : Char} {cs : List Char}
    (hcode : code.toList = c :: d :: cs) (hc : c.utf8Size = 1) (hd : d.utf8Size = 1) :
    sqlClass? code = some (String.ofList [c, d]) := by
  have hne : c.utf8Size ≠ 2 := by omega
  rw [sqlClass?, hcode]
  exact (if_neg hne).trans (if_pos ⟨hc, hd⟩)

theorem sqlClass?_of_not_isCut {code : String} (h : ¬ IsCut code) : sqlClass? code = none := by
  rw [isCut_iff, not_or] at h
  obtain ⟨htwo, hone⟩ := h
  unfold sqlClass?
  split
  · next c cs hcode =>
    rw [if_neg fun hc => htwo ⟨c, cs, hcode, hc⟩]
    split
    · next d ds => exact if_neg fun hcd => hone ⟨c, d, ds, hcode, hcd.1, hcd.2⟩
    · rfl
  · rfl

/-- An error whose code can be cut behind two bytes becomes one of the class that the first two
characters name. -/
theorem error?_server_of_isCut {e : ServerError} (h : IsCut e.code) :
    (server e).error? = some (ofClass (String.ofList (e.code.toList.take 2)) "db error") := by
  rw [error?]
  rcases isCut_iff.1 h with ⟨c, cs, hcode, hc⟩ | ⟨c, d, cs, hcode, hc, hd⟩
  · rw [sqlClass?_of_utf8Size_two hcode hc, hcode, List.take_succ_cons, Option.map_some,
      ofClass_of_utf8Size hc, ofClass_of_utf8Size hc]
  · rw [sqlClass?_of_utf8Size_one hcode hc hd, hcode]
    rfl

theorem error?_server_iff {e : ServerError} :
    (server e).error? = some (ofClass (String.ofList (e.code.toList.take 2)) "db error") ↔
      IsCut e.code := by
  refine ⟨fun h => ?_, error?_server_of_isCut⟩
  by_contra hcut
  rw [error?, sqlClass?_of_not_isCut hcut] at h
  cases h

end Postgres.Fault

/-! ## Both servers -/

open Mysql Mysql.Datum Postgres.Fault in
/-- What comes of an unsigned integer `n` and of a `TIME` of MySQL, and of an error `e` of
PostgreSQL. -/
theorem sent_data_denoted_iff (t : ColumnType) (n : UInt64) (isNegative : Bool) (days : UInt32)
    (h mi s : UInt8) (us : UInt32) (e : Postgres.ServerError) :
    (toValue t (.uint n)).integer? = some (n.toNat : ℤ) ∧
      ((toValue t (.time isNegative days h mi s us)).seconds? =
          some (spanSeconds isNegative (24 * days.toNat + h.toNat) mi.toNat s.toNat
            (us.toNat / 1000000)) ↔
        24 * days.toNat + h.toNat < UInt32.size ∧
          (us.toNat < 1000000 ∨ Fits t (.time isNegative days h mi s us))) ∧
      ((Postgres.Fault.server e).error? =
          some (ofClass (String.ofList (e.code.toList.take 2)) "db error") ↔ IsCut e.code) :=
  ⟨integer?_toValue_uint t n, seconds?_toValue_time_iff, error?_server_iff⟩

open Mysql.Datum Postgres.Fault in
/-- 178956971 days come out as eight hours, two million microseconds as a fifth of a second, and an
error whose code has one character does not come out at all. -/
theorem hours_overflow :
    (toValue .time (.time false 178956971 0 0 0 0)).seconds? ≠
        some (spanSeconds false (24 * 178956971) 0 0 0) ∧
      (toValue .time (.time false 0 1 2 3 2000000)).seconds? ≠
        some (spanSeconds false 1 2 3 2) ∧
      (Postgres.Fault.server ⟨"2", "denied"⟩).error? = none := by
  have hdays : ¬ 24 * (178956971 : UInt32).toNat + (0 : UInt8).toNat < UInt32.size := by decide
  have hmicros : ¬ ((2000000 : UInt32).toNat < 1000000 ∨
      Fits .time (.time false 0 1 2 3 2000000)) := by
    rintro (hlt | ⟨-, htime⟩)
    · exact absurd hlt (by decide)
    · revert htime
      decide
  have hdays' : (178956971 : UInt32).toNat = 178956971 := rfl
  have hmicros' : (2000000 : UInt32).toNat = 2000000 := rfl
  refine ⟨fun heq => hdays (seconds?_toValue_time_iff.1 (heq.trans ?_)).1,
    fun heq => hmicros (seconds?_toValue_time_iff.1 (heq.trans ?_)).2, rfl⟩
  · norm_num [hdays']
  · show _ = some (spanSeconds false 1 2 3 ((2000000 : UInt32).toNat / 1000000))
    norm_num [hmicros']

end SqlKit
