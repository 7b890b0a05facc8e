import SqlKit.Postgres.Cell
import SqlKit.Proofs.Calendar.DayNumber
import SqlKit.Proofs.Json.Meaning

/-!
# What parameters of PostgreSQL denote

The bytes of a parameter are read by the format of its type.  A value of a kind that is written for
the type, and within what the type can hold (`suits`), is denoted by them, up to the rounding of floats
and the JSON form of a list.  A value of any other kind is written in its own form although the type
has another, and times are cut to microseconds: if such bytes are a datum of the type at all, it is one
of some other value.

    read? t b = some w → (Denotes v w ↔ t.suits v = true)              (denotes_iff_suits)
-/

namespace SqlKit.Postgres

open Calendar

/-! ## Reading a datum -/

/-- The value that a datum of a type denotes. -/
def read? (t : DataType) (b : Bytes) : Option Value := if isKnown t then decode? t b else text? t b

/-- A cell that is not null is what its datum denotes. -/
theorem ofCell_some_iff {i : Nat} {t : DataType} {b : Bytes} {w : Value} (hw : w ≠ .null) :
    ofCell i t (some b) = .ok w ↔ read? t b = some w := by
  unfold read?
  simp only [ofCell]
  by_cases hknown : isKnown t = true
  · rw [if_pos hknown, if_pos hknown]
    cases decode? t b with
    | none => simp
    | some v => simp
  · rw [if_neg hknown, if_neg hknown]
    cases text? t b with
    | none => simp [hw.symm]
    | some v => simp

/-! ## Denoting -/

/-- The value `w` is `v`, up to the rounding of floats and the JSON form of a list. -/
inductive Denotes : Value → Value → Prop
  | same (v : Value) : Denotes v v
  /-- An integer as the nearest double. -/
  | double (i : Int64) : Denotes (.int i) (.float (.ofInt i.toInt))
  /-- An integer as the nearest single. -/
  | single (i : Int64) : Denotes (.int i) (.float (Binary32.ofInt i.toInt).widen)
  /-- A double as the nearest single, if it is not past the largest one. -/
  | narrow (x : Binary64) (h : x.narrow.widen.isInfinite = true → x.isInfinite = true) :
    Denotes (.float x) (.float x.narrow.widen)
  | json {j k : Json} (h : j.Near k) : Denotes (.json j) (.json k)
  | list {items : List Value} {k : Json} (h : (Value.list items).toJson.Near k) :
    Denotes (.list items) (.json k)

/-- A whole number of microseconds, and no leap second. -/
def isExact (t : TimeOfDay) : Bool := decide (t.nanos < nanosPerSecond) && t.nanos % 1000 = 0

/-- Is the value one that a datum of the type can denote? -/
def DataType.isOwn : DataType → Value → Bool
  | .bool, .bool _ => true
  | .int2, .int _ => true
  | .int4, .int _ => true
  | .int8, .int _ => true
  | .float4, .float _ => true
  | .float8, .float _ => true
  | .bytea, .bytes _ => true
  | .uuid, .uuid _ => true
  | .date, .date _ => true
  | .timestamp, .dateTime m => isExact m.time
  | .timestamptz, .instant m => isExact m.time
  | .time, .time m => isExact m
  | .json, .json _ => true
  | .jsonb, .json _ => true
  | t, .string _ => t.isText
  | _, _ => false

/-- Is the value of a kind that is written for the type, and within what the type can hold? -/
def DataType.suits : DataType → Value → Bool
  | .float4, .int _ => true
  | .float8, .int _ => true
  | .float4, .float x => !x.narrow.widen.isInfinite || x.isInfinite
  | .json, .list _ => true
  | .jsonb, .list _ => true
  | t, v => t.isOwn v

/-- The value as the type holds it, JSON aside. -/
def DataType.held : DataType → Value → Value
  | .float4, .int i => .float (Binary32.ofInt i.toInt).widen
  | .float8, .int i => .float (.ofInt i.toInt)
  | .float4, .float x => .float x.narrow.widen
  | _, v => v

mutual

/-- A value whose JSON is as programs build it. -/
def Proper : Value → Prop
  | .json j => j.Proper
  | .list items => ProperAll items
  | _ => True

def ProperAll : List Value → Prop
  | [] => True
  | v :: vs => Proper v ∧ ProperAll vs

end

/-! ## Numbers in bytes -/

theorem int?_encode {width : Nat} {i : Int}
    (h : Int.bmod i (BigEndian.patterns width) = i) :
    int? width (BigEndian.encode width i) = some i := by
  rw [int?, exactly?, if_pos (BigEndian.length_encode ..), Option.map_some, BigEndian.decode_encode h]

theorem int?_encode_four {i : Int} (hlow : -0x80000000 ≤ i) (hhigh : i < 0x80000000) :
    int? 4 (BigEndian.encode 4 i) = some i := by
  have hpatterns : BigEndian.patterns 4 = 0x100000000 := by decide
  refine int?_encode ?_
  rw [hpatterns, Int.bmod]
  omega

theorem int?_encode_eight {i : Int} (hlow : -0x8000000000000000 ≤ i)
    (hhigh : i < 0x8000000000000000) : int? 8 (BigEndian.encode 8 i) = some i := by
  have hpatterns : BigEndian.patterns 8 = 0x10000000000000000 := by decide
  refine int?_encode ?_
  rw [hpatterns, Int.bmod]
  omega

theorem exactly?_encode (width : Nat) (i : Int) :
    exactly? width (BigEndian.encode width i) = some (BigEndian.encode width i) := by
  rw [exactly?, if_pos (BigEndian.length_encode ..)]

theorem value_encode_nat {width n : Nat} (h : n < BigEndian.patterns width) :
    BigEndian.value (BigEndian.encode width n) = n := by
  rw [BigEndian.value_encode, ← Int.natCast_emod, Int.toNat_natCast, Nat.mod_eq_of_lt h]

/-- The bits of a single come back. -/
theorem single_encode (x : Binary32) :
    (⟨UInt32.ofNat (BigEndian.value (BigEndian.encode 4 x.bits.toNat))⟩ : Binary32) = x := by
  have hpatterns : BigEndian.patterns 4 = 2 ^ 32 := by decide
  rw [value_encode_nat (by rw [hpatterns]; exact x.bits.toNat_lt), UInt32.ofNat_toNat]

/-- The bits of a double come back. -/
theorem double_encode (x : Binary64) :
    (⟨UInt64.ofNat (BigEndian.value (BigEndian.encode 8 x.bits.toNat))⟩ : Binary64) = x := by
  have hpatterns : BigEndian.patterns 8 = 2 ^ 64 := by decide
  rw [value_encode_nat (by rw [hpatterns]; exact x.bits.toNat_lt), UInt64.ofNat_toNat]

/-! ## Times in bytes -/

theorem isExact_iff (t : TimeOfDay) :
    isExact t = true ↔ t.nanos < nanosPerSecond ∧ t.nanos % 1000 = 0 := by
  simp [isExact]

/-- A moment in whole microseconds. -/
theorem microsOfMoment_eq {m : DateTime} (h : isExact m.time = true) :
    microsOfMoment m = 1000000 * (m.seconds - 86400 * epochDay) + (m.time.nanos / 1000 : Nat) := by
  obtain ⟨hlt, hmod⟩ := (isExact_iff _).1 h
  have hsum : 86400 * (nanosPerSecond : Int) * (m.date.dayNumber - epochDay) + nanosOfDay m.time =
      1000 * (1000000 * (m.seconds - 86400 * epochDay) + (m.time.nanos / 1000 : Nat)) := by
    simp only [nanosOfDay, nanosPerSecond, DateTime.seconds]
    omega
  rw [microsOfMoment, hsum, Int.mul_tdiv_cancel_left _ (by decide)]

theorem momentOfMicros?_micros {m : DateTime} (h : isExact m.time = true) :
    momentOfMicros? (microsOfMoment m) = some m := by
  obtain ⟨hlt, hmod⟩ := (isExact_iff _).1 h
  have hdiv : 86400 * epochDay + microsOfMoment m / 1000000 = m.seconds := by
    rw [microsOfMoment_eq h]
    simp only [nanosPerSecond] at hlt
    omega
  have hrest : (microsOfMoment m % 1000000 * 1000).toNat = m.time.nanos := by
    rw [microsOfMoment_eq h]
    simp only [nanosPerSecond] at hlt
    omega
  rw [momentOfMicros?, hdiv, hrest, DateTime.ofSeconds?_seconds]

theorem microsOfMoment_range {m : DateTime} (h : isExact m.time = true) :
    -0x8000000000000000 ≤ microsOfMoment m ∧ microsOfMoment m < 0x8000000000000000 := by
  obtain ⟨hlt, -⟩ := (isExact_iff _).1 h
  obtain ⟨hlow, hhigh⟩ := m.date.dayNumber_range
  have hsec := m.time.seconds_lt
  rw [microsOfMoment_eq h]
  simp only [DateTime.seconds, epochDay, nanosPerSecond] at *
  omega

/-- What is read from microseconds is exact. -/
theorem isExact_of_momentOfMicros? {n : Int} {m : DateTime} (h : momentOfMicros? n = some m) :
    isExact m.time = true := by
  rw [isExact_iff, DateTime.nanos_of_ofSeconds? h, nanosPerSecond]
  omega

/-- A time of day in whole microseconds. -/
theorem microsOfTime_eq {t : TimeOfDay} (h : isExact t = true) :
    (nanosOfDay t).tdiv 1000 = 1000000 * t.seconds + (t.nanos / 1000 : Nat) := by
  obtain ⟨hlt, hmod⟩ := (isExact_iff _).1 h
  have hsum : nanosOfDay t = 1000 * (1000000 * t.seconds + (t.nanos / 1000 : Nat)) := by
    simp only [nanosOfDay, nanosPerSecond]
    omega
  rw [hsum, Int.mul_tdiv_cancel_left _ (by decide)]

theorem microsOfTime_range {t : TimeOfDay} (h : isExact t = true) :
    0 ≤ (nanosOfDay t).tdiv 1000 ∧ (nanosOfDay t).tdiv 1000 < 86400 * 1000000 := by
  obtain ⟨hlt, -⟩ := (isExact_iff _).1 h
  have hsec := t.seconds_lt
  rw [microsOfTime_eq h]
  simp only [nanosPerSecond] at hlt
  omega

theorem timeOfMicros?_micros {t : TimeOfDay} (h : isExact t = true) :
    timeOfMicros? ((nanosOfDay t).tdiv 1000) = some t := by
  obtain ⟨hlt, hmod⟩ := (isExact_iff _).1 h
  obtain ⟨hlow, hhigh⟩ := microsOfTime_range h
  have hdiv : ((nanosOfDay t).tdiv 1000 / 1000000).toNat = t.seconds := by
    rw [microsOfTime_eq h]
    simp only [nanosPerSecond] at hlt
    omega
  have hrest : ((nanosOfDay t).tdiv 1000 % 1000000 * 1000).toNat = t.nanos := by
    rw [microsOfTime_eq h]
    simp only [nanosPerSecond] at hlt
    omega
  rw [timeOfMicros?, Int.emod_eq_of_lt hlow hhigh, hdiv, hrest, TimeOfDay.ofSeconds?_seconds]

theorem isExact_of_timeOfMicros? {n : Int} {t : TimeOfDay} (h : timeOfMicros? n = some t) :
    isExact t = true := by
  rw [isExact_iff, TimeOfDay.nanos_of_ofSeconds? h, nanosPerSecond]
  omega

/-! ## Values of the type's own kinds -/

theorem int?_encodeInt? {width : Nat} {i : Int} {b : Bytes} (h : encodeInt? width i = some b) :
    int? width b = some i := by
  unfold encodeInt? at h
  split at h
  · next hfits =>
    obtain rfl := Option.some.inj h
    exact int?_encode hfits
  · cases h

theorem read?_bool {t : DataType} {x : Bool} {b : Bytes} (hs : t.suits (.bool x) = true)
    (henc : encode? t (.bool x) = some (some b)) : read? t b = some (t.held (.bool x)) := by
  obtain rfl := Option.some.inj (Option.some.inj henc)
  cases t with
  | bool => cases x <;> rfl
  | _ => cases hs

/-- The bits of a single are read from `float4` as the single. -/
theorem read?_float4 (x : Binary32) :
    read? .float4 (BigEndian.encode 4 x.bits.toNat) = some (.float x.widen) := by
  show (exactly? 4 (BigEndian.encode 4 x.bits.toNat)).map
    (fun b => Value.float (Binary32.widen ⟨UInt32.ofNat (BigEndian.value b)⟩)) = some (.float x.widen)
  rw [exactly?_encode, Option.map_some, single_encode]

/-- The bits of a double are read from `float8` as the double. -/
theorem read?_float8 (x : Binary64) :
    read? .float8 (BigEndian.encode 8 x.bits.toNat) = some (.float x) := by
  show (exactly? 8 (BigEndian.encode 8 x.bits.toNat)).map
    (fun b => Value.float ⟨UInt64.ofNat (BigEndian.value b)⟩) = some (.float x)
  rw [exactly?_encode, Option.map_some, double_encode]

theorem read?_int {t : DataType} {i : Int64} {b : Bytes} (hs : t.suits (.int i) = true)
    (henc : encode? t (.int i) = some (some b)) : read? t b = some (t.held (.int i)) := by
  cases t with
  | int2 =>
    obtain ⟨_, hb, heq⟩ := Option.map_eq_some_iff.1 henc
    obtain rfl := (Option.some.inj heq).symm
    show (int? 2 b).map (fun k => Value.int (Int64.ofInt k)) = some (.int i)
    rw [int?_encodeInt? hb, Option.map_some, Int64.ofInt_toInt]
  | int4 =>
    obtain ⟨_, hb, heq⟩ := Option.map_eq_some_iff.1 henc
    obtain rfl := (Option.some.inj heq).symm
    show (int? 4 b).map (fun k => Value.int (Int64.ofInt k)) = some (.int i)
    rw [int?_encodeInt? hb, Option.map_some, Int64.ofInt_toInt]
  | int8 =>
    obtain rfl := Option.some.inj (Option.some.inj henc)
    show (int? 8 (BigEndian.encode 8 i.toInt)).map (fun k => Value.int (Int64.ofInt k)) =
      some (.int i)
    rw [int?_encode_eight i.le_toInt i.toInt_lt, Option.map_some, Int64.ofInt_toInt]
  | float4 =>
    obtain rfl := Option.some.inj (Option.some.inj henc)
    exact read?_float4 _
  | float8 =>
    obtain rfl := Option.some.inj (Option.some.inj henc)
    exact read?_float8 _
  | _ => cases hs

theorem read?_float {t : DataType} {x : Binary64} {b : Bytes} (hs : t.suits (.float x) = true)
    (henc : encode? t (.float x) = some (some b)) : read? t b = some (t.held (.float x)) := by
  cases t with
  | float4 =>
    obtain rfl := Option.some.inj (Option.some.inj henc)
    exact read?_float4 _
  | float8 =>
    obtain rfl := Option.some.inj (Option.some.inj henc)
    exact read?_float8 _
  | _ => cases hs

theorem read?_string {t : DataType} {x : String} {b : Bytes} (hs : t.suits (.string x) = true)
    (henc : encode? t (.string x) = some (some b)) : read? t b = some (t.held (.string x)) := by
  obtain rfl := Option.some.inj (Option.some.inj henc)
  cases t with
  | text | varchar | bpchar | name | unknown =>
    show (utf8? (utf8 x)).map Value.string = some (.string x)
    rw [utf8?_utf8, Option.map_some]
  | _ => cases hs

theorem read?_bytes {t : DataType} {x b : Bytes} (hs : t.suits (.bytes x) = true)
    (henc : encode? t (.bytes x) = some (some b)) : read? t b = some (t.held (.bytes x)) := by
  obtain rfl := Option.some.inj (Option.some.inj henc)
  cases t with
  | bytea => rfl
  | _ => cases hs

theorem read?_uuid {t : DataType} {u : Uuid} {b : Bytes} (hs : t.suits (.uuid u) = true)
    (henc : encode? t (.uuid u) = some (some b)) : read? t b = some (t.held (.uuid u)) := by
  obtain rfl := Option.some.inj (Option.some.inj henc)
  cases t with
  | uuid =>
    show (Uuid.ofBytes? u.bytes).map Value.uuid = some (.uuid u)
    rw [Uuid.ofBytes?, dif_pos u.length_eq, Option.map_some]
  | _ => cases hs

theorem read?_date {t : DataType} {d : Date} {b : Bytes} (hs : t.suits (.date d) = true)
    (henc : encode? t (.date d) = some (some b)) : read? t b = some (t.held (.date d)) := by
  obtain rfl := Option.some.inj (Option.some.inj henc)
  cases t with
  | date =>
    obtain ⟨hlow, hhigh⟩ := d.dayNumber_range
    have hint : int? 4 (BigEndian.encode 4 (d.dayNumber - epochDay)) =
        some (d.dayNumber - epochDay) := by
      apply int?_encode_four <;> (unfold epochDay; omega)
    have hday : epochDay + (d.dayNumber - epochDay) = d.dayNumber := by omega
    show ((int? 4 (BigEndian.encode 4 (d.dayNumber - epochDay))).bind fun n =>
      (Date.ofDayNumber? (epochDay + n)).bind fun d => some (Value.date d)) = some (.date d)
    rw [hint, Option.bind_some, hday, Date.ofDayNumber?_dayNumber, Option.bind_some]
  | _ => cases hs

/-- A point in time is read from its microseconds. -/
theorem micros_bind {m : DateTime} (h : isExact m.time = true) (make : DateTime → Value) :
    ((int? 8 (BigEndian.encode 8 (microsOfMoment m))).bind fun n =>
      (momentOfMicros? n).bind fun m => some (make m)) = some (make m) := by
  obtain ⟨hlow, hhigh⟩ := microsOfMoment_range h
  rw [int?_encode_eight hlow hhigh, Option.bind_some, momentOfMicros?_micros h, Option.bind_some]

theorem read?_dateTime {t : DataType} {m : DateTime} {b : Bytes}
    (hs : t.suits (.dateTime m) = true) (henc : encode? t (.dateTime m) = some (some b)) :
    read? t b = some (t.held (.dateTime m)) := by
  obtain rfl := Option.some.inj (Option.some.inj henc)
  cases t with
  | timestamp => exact micros_bind hs .dateTime
  | _ => cases hs

theorem read?_instant {t : DataType} {m : DateTime} {b : Bytes}
    (hs : t.suits (.instant m) = true) (henc : encode? t (.instant m) = some (some b)) :
    read? t b = some (t.held (.instant m)) := by
  obtain rfl := Option.some.inj (Option.some.inj henc)
  cases t with
  | timestamptz => exact micros_bind hs .instant
  | _ => cases hs

theorem read?_time {t : DataType} {m : TimeOfDay} {b : Bytes} (hs : t.suits (.time m) = true)
    (henc : encode? t (.time m) = some (some b)) : read? t b = some (t.held (.time m)) := by
  obtain rfl := Option.some.inj (Option.some.inj henc)
  cases t with
  | time =>
    obtain ⟨hlow, hhigh⟩ := microsOfTime_range hs
    have hint := int?_encode_eight (show -0x8000000000000000 ≤ (nanosOfDay m).tdiv 1000 by omega)
      (show (nanosOfDay m).tdiv 1000 < 0x8000000000000000 by omega)
    show ((int? 8 (BigEndian.encode 8 ((nanosOfDay m).tdiv 1000))).bind fun n =>
      (timeOfMicros? n).bind fun m => some (Value.time m)) = some (.time m)
    rw [hint, Option.bind_some, timeOfMicros?_micros hs, Option.bind_some]
  | _ => cases hs

/-! ## JSON -/

theorem ofFloat_proper (x : Binary64) : (Json.ofFloat x).Proper := by
  unfold Json.ofFloat
  split
  · next hx => exact ⟨_, _, hx⟩
  · exact trivial

mutual

/-- The JSON form of a value is built as programs build JSON. -/
theorem toJson_proper {v : Value} (h : Proper v) : v.toJson.Proper := by
  cases v with
  | int i =>
    have hlow := i.le_toInt
    have hhigh := i.toInt_lt
    simp only [Value.toJson, Json.Proper]
    omega
  | float x => exact ofFloat_proper x
  | json j => exact h
  | list items => exact toJsons_proper h
  | _ => exact trivial

theorem toJsons_proper {vs : List Value} (h : ProperAll vs) :
    Json.ProperItems (Value.toJsons vs) := by
  cases vs with
  | nil => exact trivial
  | cons v vs => exact ⟨toJson_proper h.1, toJsons_proper h.2⟩

end

theorem near_of_read? {t : DataType} {j : Json} {w : Value} (hj : j.Proper)
    (ht : t = .json ∨ t = .jsonb) (h : read? t (encodeJson t j) = some w) :
    ∃ k, w = .json k ∧ j.Near k := by
  have hjson : (json? (utf8 j.text)).map Value.json = some w := by
    rcases ht with rfl | rfl
    · exact h
    · exact h
  obtain ⟨k, hk, rfl⟩ := Option.map_eq_some_iff.1 hjson
  rw [json?, utf8?_utf8, Option.bind_some] at hk
  exact ⟨k, rfl, Json.near_of_parse? hj hk⟩

/-! ## Parameters that suit their type -/

/-- Is the value sent as JSON text? -/
def isJson : Value → Bool
  | .json _ => true
  | .list _ => true
  | _ => false

/-- What suits its type is read back as the type holds it. -/
theorem read?_encode {t : DataType} {v : Value} {b : Bytes} (hjson : isJson v = false)
    (hs : t.suits v = true) (henc : encode? t v = some (some b)) :
    read? t b = some (t.held v) := by
  cases v with
  | null => cases henc
  | bool x => exact read?_bool hs henc
  | int i => exact read?_int hs henc
  | float x => exact read?_float hs henc
  | string x => exact read?_string hs henc
  | bytes x => exact read?_bytes hs henc
  | date d => exact read?_date hs henc
  | dateTime m => exact read?_dateTime hs henc
  | instant m => exact read?_instant hs henc
  | time m => exact read?_time hs henc
  | uuid u => exact read?_uuid hs henc
  | json j => cases hjson
  | list items => cases hjson

theorem denotes_held {t : DataType} {v : Value} (hs : t.suits v = true) :
    Denotes v (t.held v) := by
  unfold DataType.held
  split
  · exact .single _
  · exact .double _
  · next x =>
    refine .narrow x fun hinf => ?_
    simp only [DataType.suits, Bool.or_eq_true, Bool.not_eq_true'] at hs
    rcases hs with hfin | hinf'
    · rw [hfin] at hinf
      cases hinf
    · exact hinf'
  · exact .same _

/-- Only JSON types suit JSON. -/
theorem json_of_suits {t : DataType} {v : Value} (hjson : isJson v = true)
    (hs : t.suits v = true) : t = .json ∨ t = .jsonb := by
  cases v <;> cases t <;> simp_all [isJson, DataType.suits, DataType.isOwn]

/-- What suits its type is denoted by the datum it is written as. -/
theorem denotes_of_suits {t : DataType} {v : Value} {b : Bytes} {w : Value} (hv : Proper v)
    (henc : encode? t v = some (some b)) (hread : read? t b = some w)
    (hs : t.suits v = true) : Denotes v w := by
  cases hjson : isJson v with
  | false =>
    rw [read?_encode hjson hs henc] at hread
    obtain rfl := Option.some.inj hread
    exact denotes_held hs
  | true =>
    have ht := json_of_suits hjson hs
    cases v with
    | json j =>
      obtain rfl := Option.some.inj (Option.some.inj henc)
      obtain ⟨k, rfl, hk⟩ := near_of_read? (toJson_proper hv) ht hread
      exact .json hk
    | list items =>
      obtain rfl := Option.some.inj (Option.some.inj henc)
      obtain ⟨k, rfl, hk⟩ := near_of_read? (toJson_proper hv) ht hread
      exact .list hk
    | _ => cases hjson

/-! ## Parameters that do not -/

theorem isOwn_string (t : DataType) (s : String) : t.isOwn (.string s) = t.isText := by
  cases t <;> rfl

theorem isOwn_of_decode? {t : DataType} {b : Bytes} {w : Value} (h : decode? t b = some w) :
    t.isOwn w = true := by
  cases t with
  | bool | int2 | int4 | int8 | float4 | float8 | uuid | json =>
    obtain ⟨_, -, rfl⟩ := Option.map_eq_some_iff.1 h
    rfl
  | bytea =>
    obtain rfl := Option.some.inj h
    rfl
  | date =>
    simp only [decode?, Option.bind_eq_bind, Option.bind_eq_some_iff] at h
    obtain ⟨n, -, d, -, hw⟩ := h
    obtain rfl := Option.some.inj hw
    rfl
  | timestamp | timestamptz =>
    simp only [decode?, Option.bind_eq_bind, Option.bind_eq_some_iff] at h
    obtain ⟨n, -, m, hm, hw⟩ := h
    obtain rfl := Option.some.inj hw
    exact isExact_of_momentOfMicros? hm
  | time =>
    simp only [decode?, Option.bind_eq_bind, Option.bind_eq_some_iff] at h
    obtain ⟨n, -, m, hm, hw⟩ := h
    obtain rfl := Option.some.inj hw
    exact isExact_of_timeOfMicros? hm
  | jsonb =>
    simp only [decode?] at h
    split at h
    · obtain ⟨j, -, rfl⟩ := Option.map_eq_some_iff.1 h
      rfl
    · cases h
  | text | varchar | bpchar | name | unknown | other => cases h

/-- What is read from a datum is the type's own. -/
theorem isOwn_of_read? {t : DataType} {b : Bytes} {w : Value} (h : read? t b = some w) :
    t.isOwn w = true := by
  unfold read? at h
  split at h
  · exact isOwn_of_decode? h
  · unfold text? at h
    split at h
    · next htext =>
      obtain ⟨s, -, rfl⟩ := Option.map_eq_some_iff.1 h
      rw [isOwn_string]
      exact htext
    · cases h

/-- A value that is denoted by one of the type's own suits the type. -/
theorem suits_of_denotes {t : DataType} {v w : Value} (hown : t.isOwn w = true)
    (hsingle : ∀ x, t = .float4 → v = .float x → w = .float x.narrow.widen)
    (h : Denotes v w) : t.suits v = true := by
  cases h with
  | same =>
    unfold DataType.suits
    split
    · rfl
    · rfl
    · next x =>
      have hx := Value.float.inj (hsingle x rfl rfl)
      rw [← hx]
      cases x.isInfinite <;> rfl
    · rfl
    · rfl
    · exact hown
  | double i =>
    cases t with
    | float4 => rfl
    | float8 => rfl
    | _ => cases hown
  | single i =>
    cases t with
    | float4 => rfl
    | float8 => rfl
    | _ => cases hown
  | narrow x hinf =>
    cases t with
    | float4 =>
      simp only [DataType.suits, Bool.or_eq_true, Bool.not_eq_true']
      cases hw : x.narrow.widen.isInfinite with
      | false => exact .inl rfl
      | true => exact .inr (hinf hw)
    | float8 => rfl
    | _ => cases hown
  | json h =>
    cases t with
    | json => rfl
    | jsonb => rfl
    | _ => cases hown
  | list h =>
    cases t with
    | json => rfl
    | jsonb => rfl
    | _ => cases hown

/-- The bytes of a parameter that are a datum of its type denote the value exactly if it suits the
type. -/
theorem denotes_iff_suits {t : DataType} {v : Value} {b : Bytes} {w : Value} (hv : Proper v)
    (henc : encode? t v = some (some b)) (hread : read? t b = some w) :
    Denotes v w ↔ t.suits v = true := by
  constructor
  · intro h
    refine suits_of_denotes (isOwn_of_read? hread) ?_ h
    rintro x rfl rfl
    obtain rfl := Option.some.inj (Option.some.inj henc)
    rw [read?_float4] at hread
    exact (Option.some.inj hread).symm
  · exact denotes_of_suits hv henc hread

theorem denotes_iff_suits_seven :
    Proper (.int 7) ∧ encode? .int4 (.int 7) = some (some [0, 0, 0, 7]) ∧
      read? .int4 [0, 0, 0, 7] = some (.int 7) ∧
      (Denotes (.int 7) (.int 7) ↔ DataType.int4.suits (.int 7) = true) := by
  have henc : encode? .int4 (.int 7) = some (some [0, 0, 0, 7]) := rfl
  have hread : read? .int4 [0, 0, 0, 7] = some (.int 7) := by
    have hint : int? 4 [0, 0, 0, 7] = some 7 := by decide
    simp only [read?, isKnown, decode?, hint, if_true, Option.map_some]
    rfl
  exact ⟨trivial, henc, hread, denotes_iff_suits trivial henc hread⟩

/-- The bits of the double one are taken for a large integer. -/
theorem misread_float :
    encode? .int8 (.float ⟨0x3ff0000000000000⟩) = some (some [0x3f, 0xf0, 0, 0, 0, 0, 0, 0]) ∧
      read? .int8 [0x3f, 0xf0, 0, 0, 0, 0, 0, 0] = some (.int 4607182418800017408) ∧
      ¬ Denotes (.float ⟨0x3ff0000000000000⟩) (.int 4607182418800017408) := by
  refine ⟨?_, ?_, ?_⟩
  · rfl
  · have hint : int? 8 [0x3f, 0xf0, 0, 0, 0, 0, 0, 0] = some 4607182418800017408 := by decide
    simp only [read?, isKnown, decode?, hint, if_true, Option.map_some]
    rfl
  · intro h
    cases h

end SqlKit.Postgres
