/-!
# Blanks

The characters with the Unicode property White_Space, and trimming by them.

    c.isWhitespace = true → isBlank c = true                           (isBlank_of_isWhitespace)
    trimStart (trimStart s) = trimStart s                              (trimStart_trimStart)
-/

namespace SqlKit.Text

/-- The property White_Space. -/
def isBlank (c : Char) : Bool :=
  let n := c.toNat
  (9 ≤ n && n ≤ 13) || n = 0x20 || n = 0x85 || n = 0xA0 || n = 0x1680 ||
    (0x2000 ≤ n && n ≤ 0x200A) || n = 0x2028 || n = 0x2029 || n = 0x202F || n = 0x205F || n = 0x3000

/-- Drops blanks from the front. -/
def trimStart (s : List Char) : List Char := s.dropWhile isBlank

/-- Drops blanks from both ends. -/
def trim (s : List Char) : List Char := (trimStart (trimStart s).reverse).reverse

/-- The first run of characters that are no blanks. -/
def firstWord (s : List Char) : List Char := (trimStart s).takeWhile fun c => !isBlank c

/-- ASCII letters in lower case, all else as it is. -/
def lowerAscii (s : List Char) : List Char := s.map Char.toLower

/-- ASCII letters in upper case, all else as it is. -/
def upperAscii (s : List Char) : List Char := s.map Char.toUpper

/-! ## Lemmas -/

theorem isBlank_of_isWhitespace {c : Char} (h : c.isWhitespace = true) : isBlank c = true := by
  simp only [Char.isWhitespace, Bool.or_eq_true, decide_eq_true_eq] at h
  rcases h with ((rfl | rfl) | rfl) | rfl <;> rfl

theorem trimStart_trimStart (s : List Char) : trimStart (trimStart s) = trimStart s := by
  induction s with
  | nil => rfl
  | cons c cs ih =>
    by_cases h : isBlank c = true
    · simpa [trimStart, List.dropWhile_cons, h] using ih
    · simp [trimStart, h]

end SqlKit.Text
