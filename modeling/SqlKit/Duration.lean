import SqlKit.Text.Digits

/-!
# Spans of time

A span is a number of nanoseconds.  Its text uses the largest of the units `s`, `ms`, `µs` and `ns`
of which it holds at least one, with the decimals it needs and no more.

    (ofSeconds n).text = n in digits followed by s, if n is not zero   (text_ofSeconds)
-/

namespace SqlKit

/-- A span of time. -/
structure Duration where
  nanos : Nat
deriving DecidableEq, Repr

namespace Duration

/-! ## Algorithm -/

def ofSeconds (n : Nat) : Duration := ⟨1000000000 * n⟩

def ofMillis (n : Nat) : Duration := ⟨1000000 * n⟩

/-- Whole seconds. -/
def seconds (d : Duration) : Nat := d.nanos / 1000000000

/-- Drops zeros from the end. -/
def trimZeros (ds : List Char) : List Char := (ds.reverse.dropWhile (· = '0')).reverse

/-- `n` parts of `10^places` to the unit, as decimal text. -/
def decimalText (n places : Nat) : String :=
  let unit := Nat.pow 10 places
  let decimals := trimZeros (Digits.padded places (n % unit))
  Digits.text (n / unit) ++
    (if decimals.isEmpty ∨ places = 0 then "" else "." ++ String.ofList decimals)

/-- The text of a span. -/
def text (d : Duration) : String :=
  if 1000000000 ≤ d.nanos then decimalText d.nanos 9 ++ "s"
  else if 1000000 ≤ d.nanos then decimalText d.nanos 6 ++ "ms"
  else if 1000 ≤ d.nanos then decimalText d.nanos 3 ++ "µs"
  else decimalText d.nanos 0 ++ "ns"

/-! ## Lemmas -/

theorem text_ofSeconds {n : Nat} (h : n ≠ 0) : (ofSeconds n).text = Digits.text n ++ "s" := by
  have h1 : 1000000000 ≤ 1000000000 * n := by omega
  have h2 : 1000000000 * n % Nat.pow 10 9 = 0 := Nat.mul_mod_right _ n
  have h3 : 1000000000 * n / Nat.pow 10 9 = n := Nat.mul_div_cancel_left n (by decide)
  have h4 : trimZeros (Digits.padded 9 0) = [] := by decide
  simp [text, ofSeconds, h1, decimalText, h2, h3, h4]

end Duration

end SqlKit
