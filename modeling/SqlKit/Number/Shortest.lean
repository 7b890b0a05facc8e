import SqlKit.Number.Binary
import SqlKit.Text.Digits

/-!
# The fewest decimal digits that read back

Around a double `v` lies the interval of reals that round to it, its ends included exactly when the
significand is even.  `shortest` walks the decimal grids of 1, 2, … 17 significant digits and takes
the first grid with a point in the interval; of two such points the nearer one, and `Tie` says which
when both are equally near.  A `Layout` then says where the point and the exponent go.

    gridPoint? tie num d = some k → contains (k · num) d               (contains_of_gridPoint?)
-/

namespace SqlKit

/-- Which of two equally near decimals is taken. -/
inductive Tie where
  | up
  | toEven
deriving DecidableEq, Repr

/-- A positive decimal `digits · 10^scale`. -/
structure Decimal where
  digits : Nat
  scale : Int
deriving DecidableEq, Repr

namespace Shortest

/-! ## Algorithm -/

/-- A positive value and the interval of reals that round to it, as numerators over one
denominator. -/
structure Interval where
  value : Nat
  low : Nat
  high : Nat
  den : Nat
  closed : Bool

/-- The rounding interval of `m · 2^q`.  Below a power of two the neighbours lie half as far
apart. -/
def interval (m : Nat) (q : Int) : Interval :=
  let unit := 1 <<< q.toNat
  let den := 4 <<< (-q).toNat
  let narrow := m = 1 <<< Format.double.fractionBits ∧ Format.double.minScale < q
  { value := 4 * m * unit
    low := 4 * m * unit - (if narrow then unit else 2 * unit)
    high := 4 * m * unit + 2 * unit
    den := den
    closed := m % 2 = 0 }

namespace Interval

/-- Does `n / d` (over the interval's denominator scaled by `d`) round to the value? -/
def contains (iv : Interval) (n d : Nat) : Bool :=
  let x := n * iv.den
  if iv.closed then iv.low * d ≤ x ∧ x ≤ iv.high * d else iv.low * d < x ∧ x < iv.high * d

/-- The point of the grid of step `num / d` that reads back and lies nearest, if there is one. -/
def gridPoint? (iv : Interval) (tie : Tie) (num d : Nat) : Option Nat :=
  let below := iv.value * d / (iv.den * num)
  let above := below + 1
  let hitBelow := 0 < below && iv.contains (below * num) d
  let hitAbove := iv.contains (above * num) d
  if hitBelow && hitAbove then
    let distBelow := iv.value * d - below * num * iv.den
    let distAbove := above * num * iv.den - iv.value * d
    if distBelow < distAbove then some below
    else if distAbove < distBelow then some above
    else match tie with
      | .up => some above
      | .toEven => if below % 2 = 0 then some below else some above
  else if hitBelow then some below
  else if hitAbove then some above
  else none

/-- The number of decimal digits in front of the point; not positive for values below one tenth. -/
def magnitude (iv : Interval) : Int :=
  if iv.den ≤ iv.value then (Digits.digits (iv.value / iv.den)).length
  else go 400 iv.value 0
where
  go : Nat → Nat → Nat → Int
    | 0, _, j => -(j : Int)
    | fuel + 1, v, j => if iv.den ≤ 10 * v then -(j : Int) else go fuel (10 * v) (j + 1)

/-- Tries the grids of `n`, `n + 1`, … digits. -/
def search (iv : Interval) (tie : Tie) (mag : Int) : Nat → Nat → Decimal
  | 0, n =>
    let scale := mag - n
    ⟨iv.value * Nat.pow 10 (-scale).toNat / (iv.den * Nat.pow 10 scale.toNat), scale⟩
  | fuel + 1, n =>
    let scale := mag - n
    match iv.gridPoint? tie (Nat.pow 10 scale.toNat) (Nat.pow 10 (-scale).toNat) with
    | some k => ⟨k, scale⟩
    | none => search iv tie mag fuel (n + 1)

end Interval

/-- Drops trailing zeros of the digits into the scale. -/
def trim : Nat → Decimal → Decimal
  | 0, d => d
  | fuel + 1, d =>
    if d.digits % 10 = 0 ∧ d.digits ≠ 0 then trim fuel ⟨d.digits / 10, d.scale + 1⟩ else d

/-- The shortest decimal that rounds to `m · 2^q`. -/
def shortest (tie : Tie) (m : Nat) (q : Int) : Decimal :=
  let iv := interval m q
  trim 20 (iv.search tie iv.magnitude 17 1)

end Shortest

/-! ## Layouts -/

/-- How a number is written once its digits are known.  A decimal `d.ddd · 10^e` is positional when
`e` lies between the two bounds, a missing bound being no bound. -/
structure Layout where
  leastExponent : Option Int
  greatestExponent : Option Int
  pointZero : Bool
  plusInExponent : Bool
  tie : Tie
deriving DecidableEq, Repr

namespace Layout

/-- Plain text: never an exponent, a point only before decimals. -/
def plain : Layout := ⟨none, none, false, false, .up⟩

/-- Inspection text: whole numbers keep `.0`, exponents from `1e16` up and below `1e-4`. -/
def inspect : Layout := ⟨some (-4), some 15, true, false, .up⟩

/-- JSON numbers: whole numbers keep `.0`, signed exponents from `1e+16` up and below `1e-5`. -/
def json : Layout := ⟨some (-5), some 15, true, true, .toEven⟩

/-- `10^e` is written out in places. -/
def positional (l : Layout) (e : Int) : Bool :=
  (l.leastExponent.all fun lo => decide (lo ≤ e)) &&
    (l.greatestExponent.all fun hi => decide (e ≤ hi))

/-- Digits written out in places. -/
def places (l : Layout) (d : Decimal) : List Char :=
  let ds := Digits.digits d.digits
  if 0 ≤ d.scale then
    ds ++ List.replicate d.scale.toNat '0' ++ (if l.pointZero then ['.', '0'] else [])
  else
    let k := (-d.scale).toNat
    if k < ds.length then ds.take (ds.length - k) ++ '.' :: ds.drop (ds.length - k)
    else '0' :: '.' :: (List.replicate (k - ds.length) '0' ++ ds)

/-- Digits written with an exponent. -/
def scientific (l : Layout) (d : Decimal) (e : Int) : List Char :=
  let mantissa := match Digits.digits d.digits with
    | [] => []
    | [c] => [c]
    | c :: cs => c :: '.' :: cs
  let sign := if e < 0 then ['-'] else if l.plusInExponent then ['+'] else []
  mantissa ++ 'e' :: (sign ++ Digits.digits e.natAbs)

/-- A finite magnitude. -/
def unsigned (l : Layout) (m : Nat) (q : Int) : List Char :=
  if m = 0 then (if l.pointZero then ['0', '.', '0'] else ['0'])
  else
    let d := Shortest.shortest l.tie m q
    let e := (Digits.digits d.digits).length - 1 + d.scale
    if l.positional e then l.places d else l.scientific d e

/-- The text of a number. -/
def text (l : Layout) (x : Binary64) : String :=
  let sign := if x.isNegative then ['-'] else []
  match x.magnitude with
  | .nan => "NaN"
  | .infinite => String.ofList (sign ++ ['i', 'n', 'f'])
  | .finite m q => String.ofList (sign ++ l.unsigned m q)

end Layout

/-! ## Lemmas -/

/-- A grid point taken reads back as the value. -/
theorem Shortest.Interval.contains_of_gridPoint? {iv : Interval} {tie : Tie} {num d k : Nat}
    (h : iv.gridPoint? tie num d = some k) : iv.contains (k * num) d = true := by
  unfold gridPoint? at h
  grind

end SqlKit
