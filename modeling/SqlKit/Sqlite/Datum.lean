import SqlKit.Value

/-!
# What SQLite stores

SQLite knows five kinds of data.  Values of other kinds are stored as text, truth values as the
integers 0 and 1, and a float that is no number as null.

    (ofValue v).toValue = v   for null, integers, text and bytes       (toValue_ofValue)
-/

namespace SqlKit.Sqlite

/-! ## Algorithm -/

/-- A datum of a database. -/
inductive Datum where
  | null
  | integer (i : Int64)
  | real (x : Binary64)
  | text (s : String)
  | blob (b : Bytes)
deriving DecidableEq

namespace Datum

/-- What a value is stored as. -/
def ofValue : Value → Datum
  | .null => .null
  | .bool b => .integer (if b then 1 else 0)
  | .int i => .integer i
  | .float x => if x.isNaN then .null else .real x
  | .string s => .text s
  | .bytes b => .blob b
  | .date d => .text d.text
  | .dateTime t => .text t.text
  | .instant t => .text t.offsetText
  | .time t => .text t.text
  | .uuid u => .text u.text
  | .json j => .text j.text
  | .list items => .text (Value.list items).toJson.text

def toValue : Datum → Value
  | null => .null
  | integer i => .int i
  | real x => .float x
  | text s => .string s
  | blob b => .bytes b

/-- An integer that fits into 64 bits. -/
def int64? (i : Int) : Option Int64 :=
  if Int64.minValue.toInt ≤ i ∧ i ≤ Int64.maxValue.toInt then some (Int64.ofInt i) else none

/-! ## Numbers -/

def isDigit (c : Char) : Bool := (Digits.digit? c).isSome

/-- Reads an exponent: digits, which may have a sign. -/
def exponent? : List Char → Option Int
  | '-' :: cs => (Digits.value? cs).map fun n => -(n : Int)
  | '+' :: cs => (Digits.value? cs).map fun n => (n : Int)
  | cs => (Digits.value? cs).map fun n => (n : Int)

/-- Reads a number without its sign: digits, which may have a point among them and an exponent behind
them.  Without point and exponent it is an integer, if it fits. -/
def unsigned? (negative : Bool) (cs : List Char) : Option Datum := do
  let whole := cs.takeWhile isDigit
  let rest := cs.dropWhile isDigit
  let (places, rest) := match rest with
    | '.' :: r => (r.takeWhile isDigit, r.dropWhile isDigit)
    | r => ([], r)
  let n ← Digits.value? (whole ++ places)
  let e ← match rest with
    | [] => some 0
    | c :: r => if c = 'e' ∨ c = 'E' then exponent? r else none
  match int64? (if negative then -(n : Int) else n) with
  | some i => if whole.length = cs.length then return .integer i
  | none => pure ()
  return .real (.ofDecimal negative n (e - places.length))

/-- The number that a text spells; blanks around it do not count. -/
def number? (s : String) : Option Datum :=
  match Text.trim s.toList with
  | '-' :: cs => unsigned? true cs
  | '+' :: cs => unsigned? false cs
  | cs => unsigned? false cs

/-- A datum where a number is wanted: text that spells one becomes it. -/
def numeric : Datum → Datum
  | text s => (number? s).getD (text s)
  | d => d

/-- The integer that a number is, if it is one of 64 bits. -/
def wholeReal? (x : Binary64) : Option Int64 :=
  match x.magnitude with
  | .finite m q =>
    let n := (m <<< q.toNat) >>> (-q).toNat
    if n <<< (-q).toNat = m <<< q.toNat ∧ n < 0x8000000000000000 then
      some (Int64.ofInt (if x.isNegative then -n else n))
    else none
  | _ => none

/-- The integer a datum stands for where an integer is wanted. -/
def integer? (d : Datum) : Option Int64 :=
  match d.numeric with
  | integer i => some i
  | real x => wholeReal? x
  | null | text _ | blob _ => none

/-- How an integer compares with a number. -/
def compareReal (i : Int64) (x : Binary64) : Ordering :=
  match x.magnitude with
  | .finite m q =>
    let n : Int := (m <<< q.toNat : Nat)
    compare (i.toInt * (1 <<< (-q).toNat : Nat)) (if x.isNegative then -n else n)
  | _ => if x.isNegative then .gt else .lt

/-- How an integer compares with a datum, which null leaves open.  Text that spells a number compares
as one; other text and bytes come after all numbers. -/
def compareWith? (i : Int64) (d : Datum) : Option Ordering :=
  match d.numeric with
  | null => none
  | integer j => some (compare i.toInt j.toInt)
  | real x => some (compareReal i x)
  | text _ | blob _ => some .lt

/-! ## Lemmas -/

theorem toValue_ofValue (v : Value) (h : v = .null ∨ (∃ i, v = .int i) ∨ (∃ s, v = .string s) ∨
    ∃ b, v = .bytes b) : (ofValue v).toValue = v := by
  rcases h with rfl | ⟨i, rfl⟩ | ⟨s, rfl⟩ | ⟨b, rfl⟩ <;> rfl

end Datum

end SqlKit.Sqlite
