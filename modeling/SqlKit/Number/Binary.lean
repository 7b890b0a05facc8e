/-!
# Binary floating point, by its bit patterns

A `Binary64` or `Binary32` is the bit pattern of an IEEE number.  Every operation is exact
arithmetic on `sign · m · 2^q` followed by one rounding, `Format.ofRatio`: to the nearest number of
the format, a tie to the even significand, past the largest number to infinity.

    ofRatio f 0 d = 0                                                  (ofRatio_zero)
    b.isNaN = true → b.isInfinite = false                              (not_isInfinite_of_isNaN)
-/

namespace SqlKit

/-! ## Formats -/

/-- The two field widths of an interchange format. -/
structure Format where
  fractionBits : Nat
  exponentBits : Nat
deriving DecidableEq, Repr

namespace Format

def double : Format := ⟨52, 11⟩
def single : Format := ⟨23, 8⟩

/-- Exponent of the last place of the smallest numbers of the format. -/
def minScale (f : Format) : Int := 2 - (1 <<< (f.exponentBits - 1) : Nat) - f.fractionBits

/-- The bit in front of a pattern, set for negative numbers. -/
def signBit (f : Format) : Nat := 1 <<< (f.exponentBits + f.fractionBits)

/-- Pattern of infinity, sign aside. -/
def infinity (f : Format) : Nat := (1 <<< f.exponentBits - 1) <<< f.fractionBits

/-- `n / d` rounded to the nearest integer, a tie to the even one. -/
def roundHalfEven (n d : Nat) : Nat :=
  let q := n / d
  let r := n % d
  if 2 * r < d then q else if d < 2 * r then q + 1 else q + q % 2

/-- The exponent of the leading binary digit of `n / d`. -/
def leadingExponent (n d : Nat) : Int :=
  let e : Int := (n.log2 : Int) - d.log2
  let below := if 0 ≤ e then n < d <<< e.toNat else n <<< (-e).toNat < d
  if below then e - 1 else e

/-- Pattern (sign aside) of the number nearest to `n / d`.  Significand and exponent field are
added, so a significand that rounds up to the next power of two carries into the exponent. -/
def ofRatio (f : Format) (n d : Nat) : Nat :=
  if n = 0 then 0
  else
    let scale := max (leadingExponent n d - f.fractionBits) f.minScale
    let m := if 0 ≤ scale then roundHalfEven n (d <<< scale.toNat)
             else roundHalfEven (n <<< (-scale).toNat) d
    min ((scale - f.minScale).toNat <<< f.fractionBits + m) f.infinity

end Format

/-- A finite magnitude `m · 2^q`, infinity, or no number. -/
inductive Magnitude where
  | finite (m : Nat) (q : Int)
  | infinite
  | nan
deriving DecidableEq, Repr

/-- Reads a pattern without its sign. -/
def Format.magnitude (f : Format) (bits : Nat) : Magnitude :=
  let e := bits >>> f.fractionBits
  let m := bits % 1 <<< f.fractionBits
  if e = 1 <<< f.exponentBits - 1 then (if m = 0 then .infinite else .nan)
  else if e = 0 then .finite m f.minScale
  else .finite (1 <<< f.fractionBits + m) (f.minScale + (e - 1 : Nat))

/-- The pattern (sign aside) of `m · 2^q`, rounded. -/
def Format.ofScaled (f : Format) (m : Nat) (q : Int) : Nat :=
  if 0 ≤ q then f.ofRatio (m <<< q.toNat) 1 else f.ofRatio m (1 <<< (-q).toNat)

/-! ## Double precision -/

/-- A double-precision number, as its 64-bit pattern. -/
structure Binary64 where
  bits : UInt64
deriving DecidableEq, Repr, Inhabited

/-- A single-precision number, as its 32-bit pattern. -/
structure Binary32 where
  bits : UInt32
deriving DecidableEq, Repr, Inhabited

namespace Binary64

def isNegative (x : Binary64) : Bool := Format.double.signBit ≤ x.bits.toNat

def magnitude (x : Binary64) : Magnitude :=
  Format.double.magnitude (x.bits.toNat % Format.double.signBit)

def isNaN (x : Binary64) : Bool := x.magnitude = .nan

def isInfinite (x : Binary64) : Bool := x.magnitude = .infinite

/-- The number with the given sign and pattern. -/
def ofPattern (negative : Bool) (pattern : Nat) : Binary64 :=
  ⟨UInt64.ofNat ((if negative then Format.double.signBit else 0) + pattern)⟩

/-- The one pattern that stands for every value that is no number. -/
def canonicalNaN : Binary64 := ⟨0x7ff8000000000000⟩

def zero (negative : Bool) : Binary64 := ofPattern negative 0

/-- The number nearest to an integer. -/
def ofInt (i : Int) : Binary64 := ofPattern (i < 0) (Format.double.ofRatio i.natAbs 1)

/-- The number nearest to `n · 10^e`. -/
def ofDecimal (negative : Bool) (n : Nat) (e : Int) : Binary64 :=
  ofPattern negative <|
    if n = 0 then 0
    else if 400 < (n.log2 : Int) / 4 + e then Format.double.infinity
    else if (n.log2 : Int) / 3 + e < -400 then 0
    else if 0 ≤ e then Format.double.ofRatio (n * Nat.pow 10 e.toNat) 1
    else Format.double.ofRatio n (Nat.pow 10 (-e).toNat)

/-- Product of two magnitudes of finite numbers. -/
def mulFinite (negative : Bool) (m₁ : Nat) (q₁ : Int) (m₂ : Nat) (q₂ : Int) : Binary64 :=
  ofPattern negative (Format.double.ofScaled (m₁ * m₂) (q₁ + q₂))

/-- Quotient of two magnitudes of finite numbers, the second not zero. -/
def divFinite (negative : Bool) (m₁ : Nat) (q₁ : Int) (m₂ : Nat) (q₂ : Int) : Binary64 :=
  let q := q₁ - q₂
  ofPattern negative <|
    if 0 ≤ q then Format.double.ofRatio (m₁ <<< q.toNat) m₂
    else Format.double.ofRatio m₁ (m₂ <<< (-q).toNat)

/-- The single-precision number nearest to a double.  A value that is no number stays one, quiet,
with the leading bits of its payload. -/
def narrow (x : Binary64) : Binary32 :=
  let sign := if x.isNegative then Format.single.signBit else 0
  let pattern := match x.magnitude with
    | .finite m q => Format.single.ofScaled m q
    | .infinite => Format.single.infinity
    | .nan => Format.single.infinity + (0x400000 ||| (x.bits.toNat % 0x10000000000000) >>> 29)
  ⟨UInt32.ofNat (sign + pattern)⟩

end Binary64

/-- The single-precision number nearest to an integer. -/
def Binary32.ofInt (i : Int) : Binary32 :=
  ⟨UInt32.ofNat ((if i < 0 then Format.single.signBit else 0) + Format.single.ofRatio i.natAbs 1)⟩

/-- Every single-precision number is a double-precision one. -/
def Binary32.widen (x : Binary32) : Binary64 :=
  let negative := Format.single.signBit ≤ x.bits.toNat
  match Format.single.magnitude (x.bits.toNat % Format.single.signBit) with
  | .finite m q => .ofPattern negative (Format.double.ofScaled m q)
  | .infinite => .ofPattern negative Format.double.infinity
  | .nan => .ofPattern negative
      (Format.double.infinity + (0x8000000000000 ||| (x.bits.toNat % 0x800000) <<< 29))

/-! ## Lemmas -/

theorem Format.ofRatio_zero (f : Format) (d : Nat) : f.ofRatio 0 d = 0 := rfl

theorem Binary64.not_isInfinite_of_isNaN {x : Binary64} (h : x.isNaN = true) :
    x.isInfinite = false := by
  simp only [isNaN, decide_eq_true_eq] at h
  simp [isInfinite, h]

end SqlKit
