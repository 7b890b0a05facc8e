import SqlKit.Text.Digits

/-!
# Integers as bytes, the highest first

An integer in two's complement, in as many bytes as asked for.  Bits that have no place are lost.

    (encode w i).length = w                                            (length_encode)
    value (encode w i) = (i % patterns w).toNat                        (value_encode)
    decode (encode w i) = i   if i is in range                         (decode_encode)
-/

namespace SqlKit.BigEndian

/-! ## Algorithm -/

/-- How many patterns `width` bytes have. -/
def patterns : Nat → Nat
  | 0 => 1
  | width + 1 => 256 * patterns width

/-- The lowest `width` bytes of a number. -/
def encodeNat : Nat → Nat → Bytes
  | 0, _ => []
  | width + 1, n => encodeNat width (n / 256) ++ [UInt8.ofNat (n % 256)]

/-- An integer in `width` bytes. -/
def encode (width : Nat) (i : Int) : Bytes := encodeNat width (i % patterns width).toNat

/-- The number that bytes spell. -/
def value (b : Bytes) : Nat := b.foldl (fun n x => 256 * n + x.toNat) 0

/-- The integer that bytes spell. -/
def decode (b : Bytes) : Int := Int.bmod (value b) (patterns b.length)

/-! ## Lemmas -/

theorem length_encodeNat (w n : Nat) : (encodeNat w n).length = w := by
  induction w generalizing n with
  | zero => rfl
  | succ w ih => simp [encodeNat, ih]

theorem value_append (b : Bytes) (x : UInt8) : value (b ++ [x]) = 256 * value b + x.toNat := by
  simp [value, List.foldl_append]

theorem patterns_pos (w : Nat) : 0 < patterns w := by
  induction w with
  | zero => decide
  | succ w ih => exact Nat.mul_pos (by decide) ih

theorem value_encodeNat (w n : Nat) : value (encodeNat w n) = n % patterns w := by
  induction w generalizing n with
  | zero => simp [encodeNat, value, patterns, Nat.mod_one]
  | succ w ih =>
    have hx : (UInt8.ofNat (n % 256)).toNat = n % 256 := by simp
    rw [encodeNat, value_append, ih, hx, patterns, Nat.mod_mul]
    omega

theorem length_encode (w : Nat) (i : Int) : (encode w i).length = w := length_encodeNat _ _

theorem value_encode (w : Nat) (i : Int) : value (encode w i) = (i % patterns w).toNat := by
  have hpos : (0 : Int) < patterns w := Int.natCast_pos.2 (patterns_pos w)
  have h0 := Int.emod_nonneg i (Int.ne_of_gt hpos)
  have h1 := Int.emod_lt_of_pos i hpos
  rw [encode, value_encodeNat, Nat.mod_eq_of_lt]
  omega

theorem decode_encode {w : Nat} {i : Int} (h : Int.bmod i (patterns w) = i) :
    decode (encode w i) = i := by
  have hpos : (0 : Int) < patterns w := Int.natCast_pos.2 (patterns_pos w)
  have h0 := Int.emod_nonneg i (Int.ne_of_gt hpos)
  rw [decode, value_encode, length_encode, Int.toNat_of_nonneg h0, Int.emod_bmod, h]

end SqlKit.BigEndian
