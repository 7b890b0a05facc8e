/-!
# Digit strings

Decimal and hexadecimal text of natural numbers and bytes.  A digit string is read by a left fold;
`Digits.value?` refuses the empty string and every character that is no ASCII digit.

    value? (digits n) = some n                                        (value?_digits)
    (padded w n).length = max w (digits n).length                     (length_padded)
    hexBytes? (hexOf b) = some b                                      (hexBytes?_hexOf)
    utf8? (utf8 s) = some s                                           (utf8?_utf8)
-/

namespace SqlKit

/-- A byte string. -/
abbrev Bytes := List UInt8

namespace Digits

/-! ## Algorithm -/

/-- The decimal digits of `n`, most significant first, without leading zeros. -/
def digits (n : Nat) : List Char := Nat.toDigits 10 n

/-- Decimal text of a natural number. -/
def text (n : Nat) : String := String.ofList (digits n)

/-- Decimal text of an integer, a minus sign in front of a negative one. -/
def intText : Int → String
  | .ofNat n => text n
  | .negSucc n => "-" ++ text (n + 1)

/-- The digits of `n`, filled up with zeros on the left to at least `width`. -/
def padded (width n : Nat) : List Char :=
  List.replicate (width - (digits n).length) '0' ++ digits n

/-- Text of `padded`. -/
def padText (width n : Nat) : String := String.ofList (padded width n)

/-- The value of one ASCII digit. -/
def digit? (c : Char) : Option Nat :=
  if '0' ≤ c ∧ c ≤ '9' then some (c.toNat - '0'.toNat) else none

/-- The value of a digit string that continues a number read so far. -/
def valueFrom? (acc : Nat) : List Char → Option Nat
  | [] => some acc
  | c :: cs => (digit? c).bind fun d => valueFrom? (10 * acc + d) cs

/-- The value of a non-empty string of ASCII digits. -/
def value? : List Char → Option Nat
  | [] => none
  | cs => valueFrom? 0 cs

/-- One hexadecimal digit; letters come from `base`, `'a'` or `'A'`. -/
def hexDigit (base : Char) (n : Nat) : Char :=
  if n < 10 then Char.ofNat ('0'.toNat + n) else Char.ofNat (base.toNat + (n - 10))

/-- Hexadecimal digits of `n` in lower case, at least one of them. -/
def hexNat (n : Nat) : String := String.ofList (Nat.toDigits 16 n)

/-- The two digits one byte is written as, high half first. -/
def hexPair (base : Char) (b : UInt8) : List Char :=
  [hexDigit base (b.toNat / 16), hexDigit base (b.toNat % 16)]

/-- Lower-case hexadecimal characters of a byte string. -/
def hexOf (b : Bytes) : List Char := b.flatMap (hexPair 'a')

/-- Lower-case hexadecimal text of a byte string. -/
def hexText (b : Bytes) : String := String.ofList (hexOf b)

/-- Upper-case hexadecimal text of a byte string. -/
def hexUpperText (b : Bytes) : String := String.ofList (b.flatMap (hexPair 'A'))

/-- The value of one hexadecimal digit, of either case. -/
def hexDigit? (c : Char) : Option Nat :=
  if '0' ≤ c ∧ c ≤ '9' then some (c.toNat - '0'.toNat)
  else if 'a' ≤ c ∧ c ≤ 'f' then some (c.toNat - 'a'.toNat + 10)
  else if 'A' ≤ c ∧ c ≤ 'F' then some (c.toNat - 'A'.toNat + 10)
  else none

/-- Reads hexadecimal digits two by two. -/
def hexBytes? : List Char → Option Bytes
  | [] => some []
  | h :: l :: cs => do
    let hi ← hexDigit? h
    let lo ← hexDigit? l
    let rest ← hexBytes? cs
    return UInt8.ofNat (16 * hi + lo) :: rest
  | [_] => none

/-- The number a string of hexadecimal digits denotes, continuing `acc`. -/
def hexValueFrom? (acc : Nat) : List Char → Option Nat
  | [] => some acc
  | c :: cs => (hexDigit? c).bind fun d => hexValueFrom? (16 * acc + d) cs

/-- Why a text is no integer of the wanted range. -/
inductive IntegerFault where
  | empty
  | badDigit
  | tooLarge
deriving DecidableEq, Repr

/-- Reads an unsigned integer below `bound`; one leading plus sign is accepted, and of two faults
the one met first from the left counts. -/
def natBelow? (bound : Nat) (s : String) : Except IntegerFault Nat :=
  match s.toList with
  | [] => .error .empty
  | ['+'] => .error .badDigit
  | '+' :: cs => go 0 cs
  | cs => go 0 cs
where
  go (acc : Nat) : List Char → Except IntegerFault Nat
    | [] => .ok acc
    | c :: cs =>
      match digit? c with
      | none => .error .badDigit
      | some d => if 10 * acc + d < bound then go (10 * acc + d) cs else .error .tooLarge

/-- The wording of an integer fault. -/
def IntegerFault.message : IntegerFault → String
  | .empty => "cannot parse integer from empty string"
  | .badDigit => "invalid digit found in string"
  | .tooLarge => "number too large to fit in target type"

/-! ## Lemmas -/

theorem digit?_digitChar {d : Nat} (h : d < 10) : digit? (Nat.digitChar d) = some d := by
  have key : ∀ d, d < 10 → digit? (Nat.digitChar d) = some d := by decide
  exact key d h

theorem valueFrom?_append (cs ds : List Char) (acc : Nat) :
    valueFrom? acc (cs ++ ds) = (valueFrom? acc cs).bind fun v => valueFrom? v ds := by
  induction cs generalizing acc with
  | nil => rfl
  | cons c cs ih =>
    simp only [List.cons_append, valueFrom?]
    cases digit? c with
    | none => rfl
    | some d => exact ih _

theorem digits_ne_nil (n : Nat) : digits n ≠ [] := by
  simp [digits, Nat.toDigits_ne_nil]

/-- All digits but the last are the digits of the tenth part. -/
theorem digits_eq_append {n : Nat} (h : 10 ≤ n) :
    digits n = digits (n / 10) ++ [Nat.digitChar (n % 10)] := by
  have hp := Nat.toDigits_append_toDigits (b := 10) (n := n / 10) (d := n % 10) (by decide)
    (by omega) (by omega)
  rw [Nat.toDigits_of_lt_base (Nat.mod_lt n (by decide))] at hp
  rw [digits, digits, hp, Nat.div_add_mod]

theorem valueFrom?_digits (n : Nat) : valueFrom? 0 (digits n) = some n := by
  induction n using Nat.strongRecOn with
  | _ n ih =>
    rcases Nat.lt_or_ge n 10 with h | h
    · simp [digits, Nat.toDigits_of_lt_base h, valueFrom?, digit?_digitChar h]
    · rw [digits_eq_append h, valueFrom?_append, ih _ (by omega)]
      simp only [Option.bind_some, valueFrom?, digit?_digitChar (Nat.mod_lt n (by decide))]
      rw [Nat.div_add_mod]

/-- Decimal text reads back. -/
theorem value?_digits (n : Nat) : value? (digits n) = some n := by
  have h := valueFrom?_digits n
  cases hd : digits n with
  | nil => exact absurd hd (digits_ne_nil n)
  | cons c cs => rwa [hd] at h

theorem length_padded (w n : Nat) : (padded w n).length = max w (digits n).length := by
  simp [padded]; omega

theorem hexDigit?_hexDigit {n : Nat} (h : n < 16) : hexDigit? (hexDigit 'a' n) = some n := by
  have key : ∀ n, n < 16 → hexDigit? (hexDigit 'a' n) = some n := by decide
  exact key n h

/-- Hexadecimal text reads back as the bytes it was written from. -/
theorem hexBytes?_hexOf (b : Bytes) : hexBytes? (hexOf b) = some b := by
  induction b with
  | nil => rfl
  | cons x xs ih =>
    have hx := x.toNat_lt
    have hi : x.toNat / 16 < 16 := by omega
    have lo : x.toNat % 16 < 16 := by omega
    have e : UInt8.ofNat (16 * (x.toNat / 16) + x.toNat % 16) = x := by
      rw [Nat.div_add_mod]; exact UInt8.ofNat_toNat
    have ih' : hexBytes? (xs.flatMap (hexPair 'a')) = some xs := ih
    simp only [hexOf, List.flatMap_cons, hexPair, List.cons_append, List.nil_append, hexBytes?,
      hexDigit?_hexDigit hi, hexDigit?_hexDigit lo, ih', Option.bind_eq_bind, Option.bind_some, e]
    rfl

end Digits

/-- The UTF-8 bytes of a text. -/
def utf8 (s : String) : Bytes := s.toUTF8.data.toList

/-- The text whose UTF-8 form is `b`, if there is one. -/
def utf8? (b : Bytes) : Option String := String.fromUTF8? ⟨b.toArray⟩

theorem utf8?_utf8 (s : String) : utf8? (utf8 s) = some s := by
  have hbytes : (⟨(utf8 s).toArray⟩ : ByteArray) = s.toByteArray := rfl
  rw [utf8?, hbytes, String.fromUTF8?, dif_pos s.isValidUTF8]
  rfl

end SqlKit
