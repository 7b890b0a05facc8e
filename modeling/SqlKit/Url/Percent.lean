import SqlKit.Text.Lossy
import SqlKit.Text.Split

/-!
# Percent encoding

A byte may be written as a percent sign and two hexadecimal digits.  Each part of a URL has its own
set of characters that must be written so; controls and everything outside ASCII always are.  A query
is a list of pairs in form encoding, where a plus sign is a blank.

    unescape (escapeByte b ++ cs) = b :: unescape cs                   (unescape_escapeByte)
    a plain character is kept by encode                                (encode_singleton)
-/

namespace SqlKit.Url

/-! ## Writing -/

/-- Controls of ASCII and everything outside it. -/
def isControl (c : Char) : Bool := c.toNat < 0x20 || 0x7F ≤ c.toNat

/-- The characters to be escaped in a path. -/
def isPathUnsafe (c : Char) : Bool :=
  isControl c || [' ', '"', '<', '>', '\x60', '#', '?', '\x7b', '\x7d'].contains c

/-- The characters to be escaped in a name or password. -/
def isCredentialUnsafe (c : Char) : Bool :=
  isPathUnsafe c || ['/', ':', ';', '=', '@', '[', '\\', ']', '^', '|'].contains c

/-- A byte as a percent sign and two digits. -/
def escapeByte (b : UInt8) : List Char := '%' :: Digits.hexPair 'A' b

/-- Escapes the characters that are unsafe. -/
def encode (isUnsafe : Char → Bool) (cs : List Char) : List Char :=
  cs.flatMap fun c => if isUnsafe c then (utf8 (String.singleton c)).flatMap escapeByte else [c]

/-! ## Reading -/

/-- The bytes a text stands for; a percent sign without two digits behind it is itself. -/
def unescape : List Char → Bytes
  | '%' :: a :: b :: cs =>
    match Digits.hexDigit? a, Digits.hexDigit? b with
    | some hi, some lo => UInt8.ofNat (16 * hi + lo) :: unescape cs
    | _, _ => 0x25 :: unescape (a :: b :: cs)
  | c :: cs => utf8 (String.singleton c) ++ unescape cs
  | [] => []

/-- A part of a query as text. -/
def formText (cs : List Char) : String :=
  Text.lossy (unescape (cs.map fun c => if c = '+' then ' ' else c))

/-- Cuts a query into pairs at `&` and the first `=` of each; empty pieces are no pairs. -/
def rawPairs (query : List Char) : List (List Char × List Char) :=
  ((Text.splitAll '&' query).filter fun p => !p.isEmpty).map fun p =>
    (Text.splitOnce? '=' p).getD (p, [])

/-- The pairs of a query in form encoding. -/
def formPairs (query : List Char) : List (String × String) :=
  (rawPairs query).map fun p => (formText p.1, formText p.2)

/-! ## Lemmas -/

theorem hexDigit?_hexDigit_upper {n : Nat} (h : n < 16) :
    Digits.hexDigit? (Digits.hexDigit 'A' n) = some n := by
  have key : ∀ n, n < 16 → Digits.hexDigit? (Digits.hexDigit 'A' n) = some n := by decide
  exact key n h

/-- An escaped byte reads back. -/
theorem unescape_escapeByte (b : UInt8) (cs : List Char) :
    unescape (escapeByte b ++ cs) = b :: unescape cs := by
  have hb := b.toNat_lt
  have e : UInt8.ofNat (16 * (b.toNat / 16) + b.toNat % 16) = b := by
    rw [Nat.div_add_mod]; exact UInt8.ofNat_toNat
  simp [escapeByte, Digits.hexPair, unescape,
    hexDigit?_hexDigit_upper (show b.toNat / 16 < 16 by omega),
    hexDigit?_hexDigit_upper (show b.toNat % 16 < 16 by omega), e]

theorem encode_singleton {isUnsafe : Char → Bool} {c : Char} (h : isUnsafe c = false) :
    encode isUnsafe [c] = [c] := by
  simp [encode, h]

end SqlKit.Url
