import SqlKit.Text.Digits
import SqlKit.Text.Split

/-!
# IPv6 addresses

Eight groups of 16 bits.  In text one run of zero groups may be left out as `::`, and the last two
groups may be written as four decimal numbers.  The canonical text leaves out the first of the
longest runs of at least two zero groups.

    expand? left right = some gs → gs.length = 8                       (length_expand?)
-/

namespace SqlKit.Url.Ipv6

/-! ## Reading -/

/-- One group: one to four hexadecimal digits. -/
def group? (cs : List Char) : Option Nat :=
  if cs.isEmpty ∨ 4 < cs.length then none else Digits.hexValueFrom? 0 cs

/-- A decimal number below 256 without leading zeros. -/
def octet? (cs : List Char) : Option Nat :=
  if 1 < cs.length ∧ cs.head? = some '0' then none
  else (Digits.value? cs).bind fun n => if n < 256 then some n else none

/-- Four decimal numbers as two groups. -/
def dotted? (cs : List Char) : Option (List Nat) :=
  match (Text.splitAll '.' cs).mapM octet? with
  | some [a, b, c, d] => some [256 * a + b, 256 * c + d]
  | _ => none

/-- Groups between colons; the last may be dotted where `atEnd` says that the address ends there. -/
def groups? (atEnd : Bool) : List (List Char) → Option (List Nat)
  | [] => some []
  | [g] => if atEnd ∧ g.contains '.' then dotted? g else (group? g).map ([·])
  | g :: gs => do
    let n ← group? g
    let ns ← groups? atEnd gs
    return n :: ns

/-- The pieces of one side of `::`. -/
def side (cs : List Char) : List (List Char) := if cs.isEmpty then [] else Text.splitAll ':' cs

/-- Fills the gap between two sides with zeros, at least one. -/
def expand? (left right : List Nat) : Option (List Nat) :=
  if left.length + right.length < 8 then
    some (left ++ List.replicate (8 - left.length - right.length) 0 ++ right)
  else none

/-- Reads an address. -/
def read? (cs : List Char) : Option (List Nat) :=
  match Text.splitOnceAt? [':', ':'] cs with
  | some (l, r) => do
    let left ← groups? false (side l)
    let right ← groups? true (side r)
    expand? left right
  | none => (groups? true (side cs)).bind fun gs => if gs.length = 8 then some gs else none

/-! ## Writing -/

/-- How many zero groups stand at the front. -/
def zeros (gs : List Nat) : Nat := (gs.takeWhile (· = 0)).length

/-- Start and length of the first longest run of zero groups; length 0 without one. -/
def longestRun : Nat → List Nat → Nat × Nat
  | _, [] => (0, 0)
  | i, g :: gs =>
    let here := zeros (g :: gs)
    let later := longestRun (i + 1) gs
    if later.2 ≤ here then (i, here) else later

/-- Groups in hexadecimal digits with colons between them. -/
def joined (gs : List Nat) : String := ":".intercalate (gs.map Digits.hexNat)

/-- The canonical text. -/
def text (gs : List Nat) : String :=
  let (start, length) := longestRun 0 gs
  if length < 2 then joined gs
  else joined (gs.take start) ++ "::" ++ joined (gs.drop (start + length))

/-! ## Lemmas -/

theorem length_expand? {left right gs : List Nat} (h : expand? left right = some gs) :
    gs.length = 8 := by
  unfold expand? at h
  split at h
  · next hlt =>
    have := Option.some.inj h
    subst this
    simp
    omega
  · simp at h

end SqlKit.Url.Ipv6
