import SqlKit.Text.Digits

/-!
# UTF-8 with repairs

Reading bytes as UTF-8 text where every malformed part is replaced by U+FFFD: a part is the longest
run of bytes that could still have become a character.

    lossy [] = ""                                                      (lossy_nil)
    decode none (ascii ++ bs) = ascii ++ decode none bs                (decode_ascii_append)
-/

namespace SqlKit.Text

/-! ## Algorithm -/

/-- The stand-in for what cannot be read. -/
def replacement : Char := '\uFFFD'

/-- An unfinished character: the value of its bytes so far, how many are missing, and the bounds of
the next one. -/
structure Pending where
  value : Nat
  missing : Nat
  lo : Nat
  hi : Nat
deriving DecidableEq, Repr

/-- What the first byte of a character says. -/
inductive Lead where
  | char (c : Char)
  | pending (p : Pending)
deriving DecidableEq, Repr

/-- Reads a first byte.  The bounds behind it shut out overlong forms, surrogates and numbers above
U+10FFFF. -/
def lead (b : UInt8) : Lead :=
  let n := b.toNat
  if n < 0x80 then .char (Char.ofNat n)
  else if 0xC2 ≤ n ∧ n ≤ 0xDF then .pending ⟨n - 0xC0, 1, 0x80, 0xBF⟩
  else if 0xE0 ≤ n ∧ n ≤ 0xEF then
    .pending ⟨n - 0xE0, 2, if n = 0xE0 then 0xA0 else 0x80, if n = 0xED then 0x9F else 0xBF⟩
  else if 0xF0 ≤ n ∧ n ≤ 0xF4 then
    .pending ⟨n - 0xF0, 3, if n = 0xF0 then 0x90 else 0x80, if n = 0xF4 then 0x8F else 0xBF⟩
  else .char replacement

/-- The characters of a byte string, behind an unfinished one if there is one. -/
def decode : Option Pending → Bytes → List Char
  | none, [] => []
  | some _, [] => [replacement]
  | none, b :: bs =>
    match lead b with
    | .char c => c :: decode none bs
    | .pending p => decode (some p) bs
  | some p, b :: bs =>
    if p.lo ≤ b.toNat ∧ b.toNat ≤ p.hi then
      let value := 64 * p.value + (b.toNat - 0x80)
      if p.missing = 1 then Char.ofNat value :: decode none bs
      else decode (some ⟨value, p.missing - 1, 0x80, 0xBF⟩) bs
    else
      match lead b with
      | .char c => replacement :: c :: decode none bs
      | .pending p => replacement :: decode (some p) bs

/-- The text of a byte string. -/
def lossy (bs : Bytes) : String := String.ofList (decode none bs)

/-! ## Lemmas -/

theorem lossy_nil : lossy [] = "" := rfl

/-- Bytes below 128 stand for themselves. -/
theorem decode_ascii_append (ascii : List UInt8) (h : ∀ b ∈ ascii, b.toNat < 0x80) (bs : Bytes) :
    decode none (ascii ++ bs) = ascii.map (fun b => Char.ofNat b.toNat) ++ decode none bs := by
  induction ascii with
  | nil => rfl
  | cons b ascii ih =>
    have hb := h b (by simp)
    simp [decode, lead, hb, ih fun x hx => h x (by simp [hx])]

end SqlKit.Text
