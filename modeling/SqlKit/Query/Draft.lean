import SqlKit.Value

/-!
# Drafts

A draft is SQL that no dialect and no numbering has been chosen for: a list of pieces, some of them
values.  It ends early if the statement is malformed; what stands before the fault is kept.  A draft
is spelled by saying what stands for the `k`-th bound value: a placeholder, or the value itself as a
literal.

    (a ++ b) ++ c = a ++ (b ++ c)                                      (append_assoc)
    a.fault = none → (a ++ b).pieces = a.pieces ++ b.pieces            (pieces_append_of_sound)
    spell d f k (ps ++ qs) = spell d f k ps ++ spell d f (k + n) qs    (spell_append)
      where n is the number of values that ps binds
-/

namespace SqlKit

/-! ## Pieces -/

/-- A statement that lacks what its kind needs. -/
inductive Malformed where
  | insertTarget
  | updateTarget
  | updateAssignments (table : String)
  | deleteTarget
deriving DecidableEq, Repr

/-- The wording of a fault. -/
def Malformed.message : Malformed → String
  | insertTarget => "INSERT requires a target table"
  | updateTarget => "UPDATE requires a target table"
  | updateAssignments t => "UPDATE " ++ t ++ " has no SET assignments"
  | deleteTarget => "DELETE requires a target table"

def Malformed.error (m : Malformed) : Error := .compile m.message

/-- A piece of a draft. -/
inductive Piece where
  /-- Text that stands as it is. -/
  | text (s : String)
  /-- The place of a parameter. -/
  | bound (v : Value)
  /-- A value that is written as a literal wherever it stands. -/
  | literal (v : Value)
  /-- The name of the function that builds JSON objects. -/
  | jsonObject

/-- The value a piece binds. -/
def Piece.value? : Piece → Option Value
  | bound v => some v
  | _ => none

/-- Pieces, and the fault that ended them. -/
structure Draft where
  pieces : List Piece
  fault : Option Malformed

namespace Draft

/-! ## Building -/

def empty : Draft := ⟨[], none⟩

def text (s : String) : Draft := ⟨[.text s], none⟩

def bound (v : Value) : Draft := ⟨[.bound v], none⟩

def literal (v : Value) : Draft := ⟨[.literal v], none⟩

def jsonObject : Draft := ⟨[.jsonObject], none⟩

def fail (m : Malformed) : Draft := ⟨[], some m⟩

/-- One draft behind another; nothing follows a fault. -/
def append (a b : Draft) : Draft :=
  match a.fault with
  | some _ => a
  | none => ⟨a.pieces ++ b.pieces, b.fault⟩

instance : Append Draft := ⟨append⟩

instance : Coe String Draft := ⟨text⟩

/-- Drafts with a separator between them. -/
def join (sep : String) : List Draft → Draft
  | [] => empty
  | [d] => d
  | d :: ds => d ++ (text sep ++ join sep ds)

/-- A clause, which is left out when it has no items. -/
def clause (heading : String) (sep : String) (items : List Draft) : Draft :=
  match items with
  | [] => empty
  | items => text heading ++ join sep items

/-- A draft in parentheses. -/
def paren (d : Draft) : Draft := text "(" ++ (d ++ text ")")

/-- The values the draft binds, in order. -/
def params (d : Draft) : List Value := d.pieces.filterMap Piece.value?

end Draft

/-! ## Spelling -/

namespace Piece

/-- What takes the place of the `k`-th bound value. -/
abbrev Spelling := Nat → Value → String

/-- Bound values as placeholders. -/
def placeholders (d : Dialect) : Spelling := fun k _ => d.placeholder k

/-- Bound values as literals. -/
def literals (d : Dialect) : Spelling := fun _ v => v.literal d

/-- The dialect's name for the function that builds JSON objects. -/
def jsonObjectName : Dialect → String
  | .postgres => "json_build_object"
  | .mysql | .sqlite => "json_object"

/-- The texts of the pieces; the first bound value has number `k`. -/
def spell (d : Dialect) (f : Spelling) (k : Nat) : List Piece → List String
  | [] => []
  | text s :: ps => s :: spell d f k ps
  | bound v :: ps => f k v :: spell d f (k + 1) ps
  | literal v :: ps => v.literal d :: spell d f k ps
  | jsonObject :: ps => jsonObjectName d :: spell d f k ps

end Piece

/-! ## Lemmas -/

namespace Draft

theorem append_of_fault {a b : Draft} {m : Malformed} (h : a.fault = some m) :
    a ++ b = a := by
  show append a b = a
  simp [append, h]

theorem append_of_sound {a b : Draft} (h : a.fault = none) :
    a ++ b = ⟨a.pieces ++ b.pieces, b.fault⟩ := by
  show append a b = _
  simp [append, h]

theorem pieces_append_of_sound {a b : Draft} (h : a.fault = none) :
    (a ++ b).pieces = a.pieces ++ b.pieces := by
  rw [append_of_sound h]

theorem append_assoc (a b c : Draft) : a ++ b ++ c = a ++ (b ++ c) := by
  cases ha : a.fault with
  | some m => simp [append_of_fault ha]
  | none =>
    rw [append_of_sound (a := a) (b := b ++ c) ha, append_of_sound (a := a) (b := b) ha]
    cases hb : b.fault with
    | some m =>
      rw [append_of_fault (a := b) hb]
      rw [append_of_fault (m := m) (by rfl)]
      simp [hb]
    | none =>
      rw [append_of_sound (a := b) hb, append_of_sound (by rfl)]
      simp

theorem empty_append (a : Draft) : empty ++ a = a := by
  rw [append_of_sound (by rfl)]; rfl

theorem append_empty (a : Draft) : a ++ empty = a := by
  cases h : a.fault with
  | some m => rw [append_of_fault h]
  | none =>
    rw [append_of_sound h]
    cases a
    simp_all [empty]

theorem params_append_of_sound {a b : Draft} (h : a.fault = none) :
    (a ++ b).params = a.params ++ b.params := by
  simp [params, pieces_append_of_sound h]

end Draft

/-- Spelling goes piece by piece; only the bound values are counted. -/
theorem Piece.spell_append (d : Dialect) (f : Spelling) (k : Nat) (ps qs : List Piece) :
    spell d f k (ps ++ qs) =
      spell d f k ps ++ spell d f (k + (ps.filterMap Piece.value?).length) qs := by
  induction ps generalizing k with
  | nil => simp [spell]
  | cons p ps ih =>
    cases p with
    | text s => simp [spell, ih, List.filterMap_cons, value?]
    | bound v =>
      simp only [List.cons_append, spell, ih, List.filterMap_cons, value?, List.length_cons]
      rw [Nat.add_assoc k 1, Nat.add_comm 1]
    | literal v => simp [spell, ih, List.filterMap_cons, value?]
    | jsonObject => simp [spell, ih, List.filterMap_cons, value?]

end SqlKit
