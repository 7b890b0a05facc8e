import Mathlib.Tactic.SplitIfs
import SqlKit.Json.Written

/-!
# JSON strings read back

A string is written character by character, each as itself, behind a backslash or by its number.
Reading up to the closing quote gives one code unit for each, and the units stand for the string.

    readUnits? (cs.flatMap escape ++ '"' :: r) = some (cs.map CodeUnit.ofChar, r)  (readUnits?_flatMap)
    unitsText? (units s) = some s                                      (unitsText?_units)
-/

namespace SqlKit.Json

/-- Is the character written by its number? -/
def isNumbered (c : Char) : Bool :=
  decide (c.toNat < 32) && c.toNat ≠ 8 && c ≠ '\t' && c ≠ '\n' && c.toNat ≠ 12 && c ≠ '\r'

/-- The code unit that a character is written as. -/
def CodeUnit.ofChar (c : Char) : CodeUnit := if isNumbered c then .unit c.toNat else .char c

/-- The code units that a text is written as. -/
def units (s : String) : List CodeUnit := s.toList.map CodeUnit.ofChar

/-! ## Reading -/

theorem eq_ofNat {c : Char} {n : Nat} (h : c.toNat = n) : c = Char.ofNat n := by
  rw [← h, Char.ofNat_toNat]

theorem hexValueFrom?_number {n : Nat} (h : n < 32) :
    Digits.hexValueFrom? 0 (['0', '0'] ++ Digits.hexPair 'a' (UInt8.ofNat n)) = some n := by
  have key : ∀ n, n < 32 →
      Digits.hexValueFrom? 0 (['0', '0'] ++ Digits.hexPair 'a' (UInt8.ofNat n)) = some n := by
    decide
  exact key n h

/-- A character as it is written reads as one code unit. -/
theorem readUnits?_escape (c : Char) (r : List Char) :
    readUnits? (escape c ++ r) = (readUnits? r).map fun p => (CodeUnit.ofChar c :: p.1, p.2) := by
  have done : ∀ d, ((readUnits? r).bind fun p => some (CodeUnit.char d :: p.1, p.2)) =
      (readUnits? r).map fun p => (CodeUnit.char d :: p.1, p.2) := by
    intro d
    cases readUnits? r <;> rfl
  unfold escape
  split_ifs with hq h8 h9 h10 h12 h13 hn
  · obtain rfl | rfl := hq <;> exact done _
  · obtain rfl := eq_ofNat h8
    exact done _
  · subst h9
    exact done _
  · subst h10
    exact done _
  · obtain rfl := eq_ofNat h12
    exact done _
  · subst h13
    exact done _
  · have hnum : CodeUnit.ofChar c = .unit c.toNat := by
      simp [CodeUnit.ofChar, isNumbered, hn, h8, h9, h10, h12, h13]
    have hhex := hexValueFrom?_number hn
    simp only [Digits.hexPair, List.cons_append, List.nil_append] at hhex ⊢
    rw [readUnits?, hhex, hnum]
    cases readUnits? r <;> rfl
  · have hplain : CodeUnit.ofChar c = .char c := by
      simp [CodeUnit.ofChar, isNumbered, hn]
    rw [hplain, List.cons_append, List.nil_append, readUnits?.eq_def]
    -- the reader's other cases begin with a quote or a backslash
    split
    · simp_all
    · simp_all
    · simp_all
    · next hc =>
      obtain ⟨rfl, rfl⟩ := List.cons.inj hc
      rw [if_neg hn]
      exact done _
    · simp_all

theorem readUnits?_flatMap (cs r : List Char) :
    readUnits? (cs.flatMap escape ++ '"' :: r) = some (cs.map CodeUnit.ofChar, r) := by
  induction cs with
  | nil => rfl
  | cons c cs ih =>
    rw [List.flatMap_cons, List.append_assoc, readUnits?_escape, ih]
    rfl

/-! ## Meaning -/

theorem ofChar_unit {c : Char} {n : Nat} (h : CodeUnit.ofChar c = .unit n) :
    n < 32 ∧ Char.ofNat n = c := by
  unfold CodeUnit.ofChar at h
  split at h
  · next hc =>
    obtain rfl := CodeUnit.unit.inj h
    simp only [isNumbered, Bool.and_eq_true, decide_eq_true_eq] at hc
    exact ⟨hc.1.1.1.1.1, Char.ofNat_toNat c⟩
  · cases h

theorem ofChar_char {c d : Char} (h : CodeUnit.ofChar c = .char d) : d = c := by
  unfold CodeUnit.ofChar at h
  split at h
  · cases h
  · exact (CodeUnit.char.inj h).symm

/-- A number below 32 is no surrogate, so each unit stands for its character alone. -/
theorem decodeUnits?_map_ofChar (cs : List Char) :
    decodeUnits? (cs.map CodeUnit.ofChar) = some cs := by
  induction cs with
  | nil => rfl
  | cons c cs ih =>
    rw [List.map_cons]
    cases hc : CodeUnit.ofChar c with
    | char d =>
      obtain rfl := ofChar_char hc
      simp [decodeUnits?, ih]
    | unit n =>
      obtain ⟨hn, hchar⟩ := ofChar_unit hc
      have hhigh : isHighSurrogate n = false := by simp [isHighSurrogate]; omega
      have hlow : isLowSurrogate n = false := by simp [isLowSurrogate]; omega
      rw [decodeUnits?.eq_def]
      split
      · simp_all
      · simp_all
      · next hi lo us h =>
        obtain ⟨h1, h2⟩ := List.cons.inj h
        obtain rfl := CodeUnit.unit.inj h1
        simp [hhigh, hlow, ← h2, ih, hchar]
      · next m us _ h =>
        obtain ⟨h1, rfl⟩ := List.cons.inj h
        obtain rfl := CodeUnit.unit.inj h1
        simp [hhigh, hlow, ih, hchar]

theorem unitsText?_units (s : String) : unitsText? (units s) = some s := by
  rw [unitsText?, units, decodeUnits?_map_ofChar, Option.map_some, String.ofList_toList]

end SqlKit.Json
