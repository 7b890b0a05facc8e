import SqlKit.Mysql.Datum

/-!
# Kinds of values from MySQL

A datum in a column has a form on the wire, and each form stands for one kind of value in the
column, say a date for a `DATE`.  A datum that has no value of that kind becomes one of another: bytes
that are no text stay bytes, a day that does not exist becomes null.  So the kind of a value is not
settled by the column.

    d.form = e.form → (kinds are equal ↔ (d.fits t ↔ e.fits t))        (kind_eq_iff)
    bytes come back as bytes ↔ the column cannot read them             (toValue_bytes_iff)
-/

namespace SqlKit

/-! ## Bytes and text -/

theorem utf8?_eq_some_iff {b : Bytes} {s : String} : utf8? b = some s ↔ b = utf8 s := by
  constructor
  · intro h
    rw [utf8?, String.fromUTF8?] at h
    split at h
    · obtain rfl := Option.some.inj h
      rfl
    · cases h
  · rintro rfl
    exact utf8?_utf8 s

theorem utf8?_eq_none_iff {b : Bytes} : utf8? b = none ↔ ∀ s, b ≠ utf8 s := by
  simp only [Option.eq_none_iff_forall_ne_some, ne_eq, utf8?_eq_some_iff]

/-! ## Kinds -/

namespace Value

/-- The kinds of values. -/
inductive Kind where
  | null
  | bool
  | int
  | float
  | string
  | bytes
  | date
  | dateTime
  | instant
  | time
  | uuid
  | json
  | list
deriving DecidableEq, Repr

def kind : Value → Kind
  | null => .null
  | bool _ => .bool
  | int _ => .int
  | float _ => .float
  | string _ => .string
  | bytes _ => .bytes
  | date _ => .date
  | dateTime _ => .dateTime
  | instant _ => .instant
  | time _ => .time
  | uuid _ => .uuid
  | json _ => .json
  | list _ => .list

theorem kind_eq_null_iff {v : Value} : v.kind = .null ↔ v = .null := by
  cases v <;> simp [kind]

end Value

namespace Mysql

open Calendar

/-- The forms that data have on the wire. -/
inductive Form where
  | null
  | bytes
  | int
  | uint
  | float
  | double
  | date
  | time
deriving DecidableEq, Repr

/-- The kind of value that a form stands for in a column. -/
def Form.own (t : ColumnType) : Form → Value.Kind
  | null => .null
  | bytes => if t = .json then .json else .string
  | int | uint => .int
  | float | double => .float
  | date => if t = .date then .date else .dateTime
  | time => .time

/-- The kind of value that stands in for it. -/
def Form.substitute : Form → Value.Kind
  | null | date => .null
  | bytes => .bytes
  | int => .int
  | uint | time => .string
  | float | double => .float

/-- Bytes that a column takes for a text, or for JSON if that is its type. -/
def ColumnType.Reads (t : ColumnType) (b : Bytes) : Prop :=
  ∃ s, b = utf8 s ∧ (t = .json → (Json.parse? s).isSome = true)

namespace Datum

def form : Datum → Form
  | null => .null
  | bytes _ => .bytes
  | int _ => .int
  | uint _ => .uint
  | float _ => .float
  | double _ => .double
  | date .. => .date
  | time .. => .time

/-- Is there a value of the kind that the datum's form stands for? -/
def Fits (t : ColumnType) : Datum → Prop
  | null | int _ | float _ | double _ => True
  | bytes b => t.Reads b
  | uint n => n.toNat < 0x8000000000000000
  | date y mo d h mi s us =>
    IsDate y.toNat mo.toNat d.toNat ∧
      (t = .date ∨ IsTime h.toNat mi.toNat s.toNat (1000 * us.toNat))
  | time isNegative days h mi s us =>
    isNegative = false ∧
      IsTime (days * 24 + h.toUInt32).toNat mi.toNat s.toNat (1000 * us.toNat)

variable {t : ColumnType}

/-! ## One form at a time -/

theorem kind_valueOfBytes_of_reads {b : Bytes} (h : t.Reads b) :
    (valueOfBytes t b).kind = Form.bytes.own t := by
  obtain ⟨s, rfl, hjson⟩ := h
  rw [valueOfBytes, utf8?_utf8]
  by_cases ht : t = .json
  · obtain ⟨j, hj⟩ := Option.isSome_iff_exists.1 (hjson ht)
    simp only [if_pos ht, hj, Form.own]
    rfl
  · simp only [if_neg ht, Form.own]
    rfl

/-- A text is read as one in any column but one of JSON. -/
theorem valueOfBytes_utf8 (ht : t ≠ .json) (s : String) : valueOfBytes t (utf8 s) = .string s := by
  rw [valueOfBytes, utf8?_utf8]
  exact if_neg ht

theorem valueOfBytes_of_not_reads {b : Bytes} (h : ¬ t.Reads b) : valueOfBytes t b = .bytes b := by
  unfold valueOfBytes
  cases hb : utf8? b with
  | none => rfl
  | some s =>
    have hs := utf8?_eq_some_iff.1 hb
    by_cases ht : t = .json
    · cases hj : Json.parse? s with
      | none => simp only [if_pos ht, hj]
      | some j => exact absurd ⟨s, hs, fun _ => by rw [hj]; rfl⟩ h
    · exact absurd ⟨s, hs, fun hjson => absurd hjson ht⟩ h

/-- Bytes stay bytes exactly where the column cannot read them. -/
theorem toValue_bytes_iff (b : Bytes) : toValue t (.bytes b) = .bytes b ↔ ¬ t.Reads b := by
  constructor
  · intro h hreads
    have hkind := kind_valueOfBytes_of_reads hreads
    rw [show valueOfBytes t b = .bytes b from h, Form.own] at hkind
    split at hkind <;> cases hkind
  · exact valueOfBytes_of_not_reads

theorem kind_valueOfDate {y mo d h mi s us : Nat}
    (hfits : IsDate y mo d ∧ (t = .date ∨ IsTime h mi s us)) :
    (valueOfDate t (Date.ofYmd? y mo d) (TimeOfDay.ofFields? h mi s us)).kind =
      Form.date.own t := by
  obtain ⟨hdate, htime⟩ := hfits
  unfold valueOfDate
  rw [Date.ofYmd?, dif_pos hdate]
  by_cases ht : t = .date
  · simp only [if_pos ht, Form.own]
    rfl
  · simp only [if_neg ht, Form.own, TimeOfDay.ofFields?, dif_pos (htime.resolve_left ht)]
    rfl

theorem valueOfDate_of_not_fits {y mo d h mi s us : Nat}
    (hfits : ¬ (IsDate y mo d ∧ (t = .date ∨ IsTime h mi s us))) :
    valueOfDate t (Date.ofYmd? y mo d) (TimeOfDay.ofFields? h mi s us) = .null := by
  unfold valueOfDate
  by_cases hdate : IsDate y mo d
  · have ht : t ≠ .date := fun ht => hfits ⟨hdate, .inl ht⟩
    have htime : ¬ IsTime h mi s us := fun htime => hfits ⟨hdate, .inr htime⟩
    simp only [Date.ofYmd?, dif_pos hdate, if_neg ht, TimeOfDay.ofFields?, dif_neg htime]
  · simp only [Date.ofYmd?, dif_neg hdate]

theorem kind_valueOfTime {isNegative : Bool} {hours : UInt32} {mi s : UInt8} {us : UInt32}
    (hfits : isNegative = false ∧ IsTime hours.toNat mi.toNat s.toNat (1000 * us.toNat)) :
    (valueOfTime isNegative hours mi s us).kind = .time := by
  obtain ⟨rfl, htime⟩ := hfits
  simp only [valueOfTime, TimeOfDay.ofFields?, dif_pos htime]
  rfl

theorem valueOfTime_of_not_fits {isNegative : Bool} {hours : UInt32} {mi s : UInt8} {us : UInt32}
    (hfits : ¬ (isNegative = false ∧ IsTime hours.toNat mi.toNat s.toNat (1000 * us.toNat))) :
    valueOfTime isNegative hours mi s us =
      .string ((if isNegative then "-" else "") ++ Digits.padText 2 hours.toNat ++ ":" ++
        Digits.padText 2 mi.toNat ++ ":" ++ Digits.padText 2 s.toNat ++ "." ++
        Digits.padText 6 us.toNat) := by
  cases isNegative with
  | true => rfl
  | false =>
    have htime := fun htime => hfits ⟨rfl, htime⟩
    simp only [valueOfTime, TimeOfDay.ofFields?, dif_neg htime]

/-! ## All forms -/

/-- The kind of a value, by the form of its datum and whether the datum fits. -/
theorem kind_toValue (d : Datum) :
    (d.Fits t → (toValue t d).kind = d.form.own t) ∧
      (¬ d.Fits t → (toValue t d).kind = d.form.substitute) := by
  cases d with
  | null | int _ | float _ | double _ => exact ⟨fun _ => rfl, fun h => absurd trivial h⟩
  | bytes b =>
    refine ⟨kind_valueOfBytes_of_reads, fun h => ?_⟩
    rw [(toValue_bytes_iff b).2 h]
    rfl
  | uint n =>
    refine ⟨fun h => ?_, fun h => ?_⟩
    · have hlt : n.toNat < 0x8000000000000000 := h
      rw [toValue, if_pos hlt]
      rfl
    · have hge : ¬ n.toNat < 0x8000000000000000 := h
      rw [toValue, if_neg hge]
      rfl
  | date =>
    refine ⟨kind_valueOfDate, fun h => ?_⟩
    rw [toValue, valueOfDate_of_not_fits h]
    rfl
  | time =>
    refine ⟨kind_valueOfTime, fun h => ?_⟩
    rw [toValue, valueOfTime_of_not_fits h]
    rfl

/-- What stands in for a kind is another kind. -/
theorem own_ne_substitute {d : Datum} (h : ¬ d.Fits t) : d.form.own t ≠ d.form.substitute := by
  cases d with
  | null | int _ | float _ | double _ => exact absurd trivial h
  | bytes | date =>
    simp only [form, Form.own, Form.substitute]
    split <;> decide
  | uint | time =>
    intro heq
    cases heq

/-- Data of one form come out in a column as values of one kind if all of them fit, or none does. -/
theorem kind_eq_iff {d e : Datum} (h : d.form = e.form) :
    (toValue t d).kind = (toValue t e).kind ↔ (d.Fits t ↔ e.Fits t) := by
  obtain ⟨hd, hd'⟩ := kind_toValue (t := t) d
  obtain ⟨he, he'⟩ := kind_toValue (t := t) e
  by_cases hdf : d.Fits t
  · by_cases hef : e.Fits t
    · simp only [hd hdf, he hef, h, hdf, hef]
    · rw [hd hdf, he' hef, h]
      simp only [hdf, hef, iff_false, not_true, own_ne_substitute hef]
  · by_cases hef : e.Fits t
    · rw [hd' hdf, he hef, ← h]
      simp only [hdf, hef, iff_true, (own_ne_substitute hdf).symm]
    · simp only [hd' hdf, he' hef, h, hdf, hef]

/-- Bytes that are stored as they are come back as bytes exactly if the column cannot read them, and
the kind of a value is settled by its column and form exactly as far as data fit. -/
theorem bytes_and_kinds (t : ColumnType) (b : Bytes) {d e : Datum} (h : d.form = e.form) :
    (toValue t (ofValue (.bytes b)) = .bytes b ↔ ¬ t.Reads b) ∧
      ((toValue t d).kind = (toValue t e).kind ↔ (d.Fits t ↔ e.Fits t)) :=
  ⟨toValue_bytes_iff b, kind_eq_iff h⟩

theorem bytes_and_kinds_blob :
    (bytes [0xff]).form = (bytes [0x61, 0x62, 0x63]).form ∧
      (toValue .blob (ofValue (.bytes [0xff])) = .bytes [0xff] ↔ ¬ ColumnType.blob.Reads [0xff]) ∧
      ((toValue .blob (bytes [0xff])).kind = (toValue .blob (bytes [0x61, 0x62, 0x63])).kind ↔
        (Fits .blob (bytes [0xff]) ↔ Fits .blob (bytes [0x61, 0x62, 0x63]))) :=
  ⟨rfl, bytes_and_kinds .blob [0xff] rfl⟩

/-- Bytes that happen to be a text come back from a `BLOB` as one, unlike others. -/
theorem blob_text :
    toValue .blob (ofValue (.bytes [0x61, 0x62, 0x63])) = .string "abc" ∧
      (toValue .blob (ofValue (.bytes [0x61, 0x62, 0x63]))).kind ≠
        (toValue .blob (ofValue (.bytes [0xff]))).kind := by
  have habc : [0x61, 0x62, 0x63] = utf8 "abc" := by decide
  have hff : utf8? [0xff] = none := by decide
  have htext : toValue .blob (ofValue (.bytes [0x61, 0x62, 0x63])) = .string "abc" := by
    rw [habc]
    exact valueOfBytes_utf8 (t := .blob) (by decide) "abc"
  have hbytes : toValue .blob (ofValue (.bytes [0xff])) = .bytes [0xff] :=
    (toValue_bytes_iff [0xff]).2 fun ⟨s, hs, _⟩ => utf8?_eq_none_iff.1 hff s hs
  refine ⟨htext, ?_⟩
  rw [htext, hbytes]
  decide

end Datum

end Mysql

end SqlKit
