import SqlKit.Json.Basic

/-!
# JSON as it is written

`Written` is the syntax of a JSON text: numerals by their digits, strings by their code units, every
member of an object in its place.  Reading a text gives this syntax; `toJson?` then gives the value,
unless a numeral is out of range, a surrogate stands alone or the nesting is too deep.  A part of a
text that nobody looks at is only held to the syntax.

    decodeUnits? (cs.map .char) = some cs                              (decodeUnits?_map_char)
-/

namespace SqlKit.Json

/-! ## Syntax -/

/-- A part of a string: a character as such, or a 16-bit unit written by its number. -/
inductive CodeUnit where
  | char (c : Char)
  | unit (n : Nat)
deriving DecidableEq, Repr

/-- A number as written. -/
structure Numeral where
  negative : Bool
  whole : List Char
  fraction : List Char
  /-- Sign (negative or not) and digits. -/
  exponent : Option (Bool × List Char)
deriving DecidableEq, Repr

/-- A JSON text's structure. -/
inductive Written where
  | null
  | bool (b : Bool)
  | number (n : Numeral)
  | string (units : List CodeUnit)
  | array (items : List Written)
  | object (members : List (List CodeUnit × Written))

/-! ## Reading -/

def isSpace (c : Char) : Bool := c = ' ' || c = '\n' || c = '\t' || c = '\r'

def skipSpace (s : List Char) : List Char := s.dropWhile isSpace

def isDigit (c : Char) : Bool := (Digits.digit? c).isSome

/-- Reads the rest of a string behind its opening quote. -/
def readUnits? : List Char → Option (List CodeUnit × List Char)
  | '"' :: r => some ([], r)
  | '\\' :: 'u' :: a :: b :: c :: d :: r => do
    let n ← Digits.hexValueFrom? 0 [a, b, c, d]
    let (us, rest) ← readUnits? r
    return (.unit n :: us, rest)
  | '\\' :: e :: r => do
    let c ← match e with
      | '"' => some '"'
      | '\\' => some '\\'
      | '/' => some '/'
      | 'b' => some (Char.ofNat 8)
      | 'f' => some (Char.ofNat 12)
      | 'n' => some '\n'
      | 'r' => some '\r'
      | 't' => some '\t'
      | _ => none
    let (us, rest) ← readUnits? r
    return (.char c :: us, rest)
  | c :: r =>
    if c.toNat < 32 then none
    else do
      let (us, rest) ← readUnits? r
      return (.char c :: us, rest)
  | [] => none

/-- Reads a point with the digits behind it, if there is one. -/
def readFraction? (s : List Char) : Option (List Char × List Char) :=
  match s with
  | '.' :: r =>
    let ds := r.takeWhile isDigit
    if ds.isEmpty then none else some (ds, r.drop ds.length)
  | _ => some ([], s)

/-- Takes off the sign of an exponent; is it negative? -/
def exponentSign : List Char → Bool × List Char
  | '-' :: r => (true, r)
  | '+' :: r => (false, r)
  | r => (false, r)

/-- Reads an exponent mark with the digits behind it, if there is one. -/
def readExponent? (s : List Char) : Option (Option (Bool × List Char) × List Char) :=
  match s with
  | e :: r =>
    if e = 'e' || e = 'E' then
      let (neg, r) := exponentSign r
      let ds := r.takeWhile isDigit
      if ds.isEmpty then none else some (some (neg, ds), r.drop ds.length)
    else some (none, s)
  | [] => some (none, s)

/-- Reads the digits of a numeral: no zero in front of others, digits behind a point and behind an
exponent mark. -/
def readNumeral? (negative : Bool) (s : List Char) : Option (Numeral × List Char) := do
  let whole := s.takeWhile isDigit
  if whole.isEmpty || (whole.length ≠ 1 && whole.head? = some '0') then none
  else
    let (fraction, rest) ← readFraction? (s.drop whole.length)
    let (exponent, rest) ← readExponent? rest
    return (⟨negative, whole, fraction, exponent⟩, rest)

/-- Reads a fixed word. -/
def readWord? (word : String) (value : Written) (s : List Char) : Option (Written × List Char) :=
  if word.toList.isPrefixOf s then some (value, s.drop word.length) else none

mutual

/-- Reads one value; `fuel` bounds the number of steps. -/
def readValue? : Nat → List Char → Option (Written × List Char)
  | 0, _ => none
  | fuel + 1, s =>
    match skipSpace s with
    | '"' :: r => (readUnits? r).map fun p => (.string p.1, p.2)
    | '-' :: r => (readNumeral? true r).map fun p => (.number p.1, p.2)
    | '[' :: r =>
      match skipSpace r with
      | ']' :: r => some (.array [], r)
      | _ => (readItems? fuel r).map fun p => (.array p.1, p.2)
    | '\x7b' :: r =>
      match skipSpace r with
      | '\x7d' :: r => some (.object [], r)
      | _ => (readMembers? fuel r).map fun p => (.object p.1, p.2)
    | c :: r =>
      if isDigit c then (readNumeral? false (c :: r)).map fun p => (.number p.1, p.2)
      else if c = 't' then readWord? "true" (.bool true) (c :: r)
      else if c = 'f' then readWord? "false" (.bool false) (c :: r)
      else if c = 'n' then readWord? "null" .null (c :: r)
      else none
    | [] => none

/-- Reads the items of an array up to its closing bracket. -/
def readItems? : Nat → List Char → Option (List Written × List Char)
  | 0, _ => none
  | fuel + 1, s => do
    let (v, rest) ← readValue? fuel s
    match skipSpace rest with
    | ',' :: r => do
      let (vs, rest) ← readItems? fuel r
      return (v :: vs, rest)
    | ']' :: r => some ([v], r)
    | _ => none

/-- Reads the members of an object up to its closing brace. -/
def readMembers? : Nat → List Char → Option (List (List CodeUnit × Written) × List Char)
  | 0, _ => none
  | fuel + 1, s =>
    match skipSpace s with
    | '"' :: r => do
      let (key, rest) ← readUnits? r
      match skipSpace rest with
      | ':' :: r => do
        let (v, rest) ← readValue? fuel r
        match skipSpace rest with
        | ',' :: r => do
          let (ms, rest) ← readMembers? fuel r
          return ((key, v) :: ms, rest)
        | '\x7d' :: r => some ([(key, v)], r)
        | _ => none
      | _ => none
    | _ => none

end

/-- Reads a whole text. -/
def read? (s : String) : Option Written :=
  let cs := s.toList
  match readValue? (2 * cs.length + 2) cs with
  | some (w, rest) => if (skipSpace rest).isEmpty then some w else none
  | none => none

/-! ## Values -/

def isHighSurrogate (n : Nat) : Bool := 0xD800 ≤ n && n < 0xDC00

def isLowSurrogate (n : Nat) : Bool := 0xDC00 ≤ n && n < 0xE000

/-- The characters that code units stand for; a surrogate needs its partner. -/
def decodeUnits? : List CodeUnit → Option (List Char)
  | [] => some []
  | .char c :: us => (decodeUnits? us).map (c :: ·)
  | .unit hi :: .unit lo :: us =>
    if isHighSurrogate hi then
      if isLowSurrogate lo then
        (decodeUnits? us).map (Char.ofNat (0x10000 + (hi - 0xD800) * 0x400 + (lo - 0xDC00)) :: ·)
      else none
    else if isLowSurrogate hi then none
    else (decodeUnits? (.unit lo :: us)).map (Char.ofNat hi :: ·)
  | .unit n :: us =>
    if isHighSurrogate n || isLowSurrogate n then none
    else (decodeUnits? us).map (Char.ofNat n :: ·)

/-- The text that code units stand for. -/
def unitsText? (us : List CodeUnit) : Option String := (decodeUnits? us).map String.ofList

/-- A significand of 64 bits and the power of ten it is scaled by. -/
structure Significand where
  value : Nat
  scale : Int

namespace Significand

/-- Takes in digits in front of the point; from the first that does not fit, digits only count. -/
def whole (acc : Nat) : List Char → Significand
  | [] => ⟨acc, 0⟩
  | c :: cs =>
    let next := 10 * acc + (Digits.digit? c).getD 0
    if next < UInt64.size then whole next cs else ⟨acc, (c :: cs).length⟩

/-- Takes in digits behind the point, up to the first that does not fit. -/
def fraction (acc : Significand) : List Char → Significand
  | [] => acc
  | c :: cs =>
    let next := 10 * acc.value + (Digits.digit? c).getD 0
    if next < UInt64.size then fraction ⟨next, acc.scale - 1⟩ cs else acc

end Significand

/-- The double nearest to `10^k`. -/
def powerOfTen (k : Nat) : Binary64 := .ofDecimal false 1 k

/-- The product of two non-negative doubles, unless it overflows. -/
def product? (x y : Binary64) : Option Binary64 :=
  match x.magnitude, y.magnitude with
  | .finite m q, .finite m' q' =>
    let z := Binary64.mulFinite false m q m' q'
    if z.isInfinite then none else some z
  | _, _ => none

/-- The quotient of two non-negative doubles. -/
def quotient? (x y : Binary64) : Option Binary64 :=
  match x.magnitude, y.magnitude with
  | .finite m q, .finite m' q' => some (Binary64.divFinite false m q m' q')
  | _, _ => none

/-- Scales a non-negative double by `10^e` in double arithmetic: one product or quotient with a power
of at most `10^308`, preceded by quotients with `10^308` for smaller scales.  No result when it
overflows. -/
def scaleByTen? : Nat → Binary64 → Int → Option Binary64
  | 0, x, _ => some x
  | fuel + 1, x, e =>
    if e.natAbs ≤ 308 then
      if 0 ≤ e then product? x (powerOfTen e.natAbs) else quotient? x (powerOfTen e.natAbs)
    else
      match x.magnitude with
      | .finite 0 _ => some x
      | .finite _ _ =>
        if 0 ≤ e then none
        else (quotient? x (powerOfTen 308)).bind fun y => scaleByTen? fuel y (e + 308)
      | _ => none

/-- A double with the sign of a numeral. -/
def signed (negative : Bool) (x : Binary64) : Binary64 :=
  if negative then ⟨x.bits ||| 0x8000000000000000⟩ else x

namespace Numeral

/-- The value of the digits scaled by `e` places. -/
def scaled? (n : Numeral) (s : Significand) (e : Int) : Option Json :=
  (scaleByTen? 8 (.ofInt s.value) (s.scale + e)).map fun x => .float (signed n.negative x)

/-- The value of a numeral.  Digits alone are an integer while they fit into 64 bits, negative zero
being a double; every other numeral is a double. -/
def toJson? (n : Numeral) : Option Json :=
  let whole := Significand.whole 0 n.whole
  let s := whole.fraction n.fraction
  match n.exponent with
  | some (neg, ds) =>
    match Digits.valueFrom? 0 ds with
    | none => none
    | some e =>
      if e < 0x80000000 then n.scaled? s (if neg then -(e : Int) else e)
      else if s.value ≠ 0 ∧ !neg then none
      else some (.float (signed n.negative (.zero false)))
  | none =>
    if n.fraction.isEmpty ∧ whole.scale = 0 then
      if n.negative then
        if whole.value = 0 ∨ 0x8000000000000000 < whole.value then
          some (.float (signed true (.ofInt whole.value)))
        else some (.int (-(whole.value : Int)))
      else some (.int whole.value)
    else n.scaled? s 0

end Numeral

/-- How deep arrays and objects may be nested. -/
def maxDepth : Nat := 127

mutual

/-- The value written, with at most `depth` levels of arrays and objects. -/
def Written.toJson? : Nat → Written → Option Json
  | _, .null => some .null
  | _, .bool b => some (.bool b)
  | _, .number n => n.toJson?
  | _, .string us => (unitsText? us).map .string
  | 0, .array _ => none
  | 0, .object _ => none
  | depth + 1, .array items => (itemsToJson? depth items).map .array
  | depth + 1, .object ms => (membersToJson? depth [] ms).map .object

def itemsToJson? (depth : Nat) : List Written → Option (List Json)
  | [] => some []
  | w :: ws => do
    let j ← w.toJson? depth
    let js ← itemsToJson? depth ws
    return j :: js

/-- Inserts member after member, so that the last of equal keys wins. -/
def membersToJson? (depth : Nat) (acc : Assoc Json) : List (List CodeUnit × Written) → Option (Assoc Json)
  | [] => some acc
  | (key, w) :: ms => do
    let k ← unitsText? key
    let j ← w.toJson? depth
    membersToJson? depth (Assoc.insert k j acc) ms

end

/-- The value a text denotes. -/
def parse? (s : String) : Option Json := (read? s).bind (Written.toJson? maxDepth)

/-! ## Lemmas -/

/-- Plain characters stand for themselves. -/
theorem decodeUnits?_map_char (cs : List Char) : decodeUnits? (cs.map .char) = some cs := by
  induction cs with
  | nil => rfl
  | cons c cs ih => simp [decodeUnits?, ih]

end SqlKit.Json
