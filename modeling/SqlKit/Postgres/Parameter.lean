import SqlKit.Number.BigEndian
import SqlKit.Postgres.DataType
import SqlKit.Value

/-!
# Parameters of PostgreSQL

How a value is written as a parameter of a type, in the binary form.  Integers and floats take the
width of a numeric type and JSON the mark of `jsonb`; all else is written in the value's own form,
whatever the type.

    encode? t .null = some none                                        (encode?_null)
    encode? .int8 (.int i) = some (some (encode 8 i))                  (encode?_int8)
-/

namespace SqlKit.Postgres

open Calendar

/-! ## Times -/

/-- Day number of 2000-01-01. -/
def epochDay : Int := 730119

/-- Nanoseconds since midnight; a leap second lies past the end of its minute. -/
def nanosOfDay (t : TimeOfDay) : Int := nanosPerSecond * t.seconds + t.nanos

/-- Microseconds since 2000-01-01 00:00, toward zero. -/
def microsOfMoment (t : DateTime) : Int :=
  (86400 * nanosPerSecond * (t.date.dayNumber - epochDay) + nanosOfDay t.time).tdiv 1000

/-! ## Encoding -/

/-- JSON text, which `jsonb` wants marked with its version. -/
def encodeJson (t : DataType) (j : Json) : Bytes :=
  (if t = .jsonb then [1] else []) ++ utf8 j.text

/-- An integer in `width` bytes, if it fits. -/
def encodeInt? (width : Nat) (i : Int) : Option Bytes :=
  if Int.bmod i (BigEndian.patterns width) = i then some (BigEndian.encode width i) else none

/-- A value as a parameter of a type, null by `some none`; `none` if the type cannot hold it. -/
def encode? (t : DataType) (v : Value) : Option (Option Bytes) :=
  match v with
  | .null => some none
  | .bool b => some (some [if b then 1 else 0])
  | .int i =>
    match t with
    | .int2 => (encodeInt? 2 i.toInt).map some
    | .int4 => (encodeInt? 4 i.toInt).map some
    | .float4 => some (some (BigEndian.encode 4 (Binary32.ofInt i.toInt).bits.toNat))
    | .float8 => some (some (BigEndian.encode 8 (Binary64.ofInt i.toInt).bits.toNat))
    | _ => some (some (BigEndian.encode 8 i.toInt))
  | .float x =>
    match t with
    | .float4 => some (some (BigEndian.encode 4 x.narrow.bits.toNat))
    | _ => some (some (BigEndian.encode 8 x.bits.toNat))
  | .string s => some (some (utf8 s))
  | .bytes b => some (some b)
  | .date d => some (some (BigEndian.encode 4 (d.dayNumber - epochDay)))
  | .dateTime m | .instant m => some (some (BigEndian.encode 8 (microsOfMoment m)))
  | .time m => some (some (BigEndian.encode 8 ((nanosOfDay m).tdiv 1000)))
  | .uuid u => some (some u.bytes)
  | .json j => some (some (encodeJson t j))
  | .list items => some (some (encodeJson t (Value.list items).toJson))

/-- Values as parameters of types; the number of the first that its type cannot hold. -/
def encodeAll (k : Nat) : List (DataType × Value) → Except Nat (List (Option Bytes))
  | [] => .ok []
  | (t, v) :: rest =>
    match encode? t v with
    | none => .error k
    | some b => (encodeAll (k + 1) rest).map (b :: ·)

/-! ## Lemmas -/

theorem epochDay_eq : ∀ h, (Date.mk 2000 1 1 h).dayNumber = epochDay := by decide

theorem encode?_null (t : DataType) : encode? t .null = some none := rfl

theorem encode?_int8 (i : Int64) :
    encode? .int8 (.int i) = some (some (BigEndian.encode 8 i.toInt)) := rfl

end SqlKit.Postgres
