import SqlKit.Json.Written
import SqlKit.Value

/-!
# What MySQL's protocol carries

The data that go to a MySQL server as parameters and come back in rows.  A column's type decides only
between text and JSON, and between a date and a point in time.

    toValue t .null = .null                                            (toValue_null)
    toValue t (ofValue (.int i)) = .int i                              (toValue_ofValue_int)
-/

namespace SqlKit.Mysql

open Calendar

/-- The type of a column. -/
inductive ColumnType where
  | longlong
  | float
  | double
  | newDecimal
  | blob
  | json
  | date
  | dateTime
  | timestamp
  | time
  | varString
deriving DecidableEq, Repr

/-- The type with a name; any other name is that of a plain text. -/
def ColumnType.ofName (s : String) : ColumnType :=
  match s with
  | "LONGLONG" => longlong
  | "FLOAT" => float
  | "DOUBLE" => double
  | "NEWDECIMAL" => newDecimal
  | "BLOB" => blob
  | "JSON" => json
  | "DATE" => date
  | "DATETIME" => dateTime
  | "TIMESTAMP" => timestamp
  | "TIME" => time
  | _ => varString

/-- A datum on the wire. -/
inductive Datum where
  | null
  | bytes (b : Bytes)
  | int (i : Int64)
  | uint (n : UInt64)
  | float (x : Binary32)
  | double (x : Binary64)
  | date (year : UInt16) (month day hour minute second : UInt8) (micros : UInt32)
  | time (isNegative : Bool) (days : UInt32) (hours minutes seconds : UInt8) (micros : UInt32)
deriving DecidableEq

namespace Datum

/-- A text as bytes. -/
def ofText (s : String) : Datum := bytes (utf8 s)

/-- A value as a parameter. -/
def ofValue : Value → Datum
  | .null => .null
  | .bool b => .int (if b then 1 else 0)
  | .int i => .int i
  | .float x => .double x
  | .string s => ofText s
  | .bytes b => .bytes b
  | .date d => ofText d.text
  | .dateTime t => ofText t.text
  | .instant t => ofText t.text
  | .time t => ofText t.text
  | .uuid u => ofText u.text
  | .json j => ofText j.text
  | .list items => ofText (Value.list items).toJson.text

/-- Bytes are JSON in a column of that type, if they are any; else they are text if they can be. -/
def valueOfBytes (t : ColumnType) (b : Bytes) : Value :=
  match utf8? b with
  | none => .bytes b
  | some s =>
    if t = .json then
      match Json.parse? s with
      | some j => .json j
      | none => .bytes b
    else .string s

/-- A date and time of day, if there is one; without a date there is nothing. -/
def valueOfDate (t : ColumnType) (date : Option Date) (time : Option TimeOfDay) : Value :=
  match date with
  | none => .null
  | some d =>
    if t = .date then .date d
    else match time with
      | some m => .dateTime ⟨d, m⟩
      | none => .null

/-- A span of hours, minutes and seconds is a time of day if it is not negative and below a day; any
other is a text. -/
def valueOfTime (isNegative : Bool) (hours : UInt32) (minutes seconds : UInt8) (micros : UInt32) :
    Value :=
  let time := TimeOfDay.ofFields? hours.toNat minutes.toNat seconds.toNat (1000 * micros.toNat)
  match isNegative, time with
  | false, some m => .time m
  | _, _ => .string ((if isNegative then "-" else "") ++ Digits.padText 2 hours.toNat ++ ":" ++
      Digits.padText 2 minutes.toNat ++ ":" ++ Digits.padText 2 seconds.toNat ++ "." ++
      Digits.padText 6 micros.toNat)

/-- The value of a datum in a column. -/
def toValue (t : ColumnType) : Datum → Value
  | null => .null
  | bytes b => valueOfBytes t b
  | int i => .int i
  | uint n => if n.toNat < 0x8000000000000000 then .int n.toInt64 else .string (Digits.text n.toNat)
  | float x => .float x.widen
  | double x => .float x
  | date y mo d h mi s us =>
    valueOfDate t (Date.ofYmd? y.toNat mo.toNat d.toNat)
      (TimeOfDay.ofFields? h.toNat mi.toNat s.toNat (1000 * us.toNat))
  | time isNegative days h mi s us =>
    valueOfTime isNegative (days * 24 + h.toUInt32) mi s us

theorem toValue_null (t : ColumnType) : toValue t .null = .null := rfl

theorem toValue_ofValue_int (t : ColumnType) (i : Int64) :
    toValue t (ofValue (.int i)) = .int i := rfl

end Datum

end SqlKit.Mysql
