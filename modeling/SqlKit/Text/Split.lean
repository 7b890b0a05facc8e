/-!
# Splitting text

Cutting a text at a separator: at its first occurrence, or everywhere.

    splitOnce? sep s = some (a, b) → s = a ++ sep :: b ∧ sep ∉ a       (eq_of_splitOnce?)
    sep ∉ a → splitOnce? sep (a ++ sep :: b) = some (a, b)             (splitOnce?_append)
    sep ∉ a → splitOnceAt? cuts a ++ (sep :: seps ++ b) behind a       (splitOnceAt?_append)
    [sep].intercalate (splitAll sep s) = s                             (intercalate_splitAll)
    sep ∉ a → splitAll sep (a ++ sep :: b) = a :: splitAll sep b       (splitAll_append)
-/

namespace SqlKit.Text

/-- Splits at the first `sep`, which is dropped. -/
def splitOnce? (sep : Char) : List Char → Option (List Char × List Char)
  | [] => none
  | c :: cs => if c = sep then some ([], cs) else (splitOnce? sep cs).map fun p => (c :: p.1, p.2)

/-- Splits at the first place where `sep` stands. -/
def splitOnceAt? (sep : List Char) : List Char → Option (List Char × List Char)
  | [] => if sep.isEmpty then some ([], []) else none
  | c :: cs =>
    if sep.isPrefixOf (c :: cs) then some ([], (c :: cs).drop sep.length)
    else (splitOnceAt? sep cs).map fun p => (c :: p.1, p.2)

/-- The pieces between the separators, one more than there are separators. -/
def splitAll (sep : Char) : List Char → List (List Char)
  | [] => [[]]
  | c :: cs =>
    if c = sep then [] :: splitAll sep cs
    else match splitAll sep cs with
      | [] => [[c]]
      | p :: ps => (c :: p) :: ps

/-- Does `part` occur somewhere in `s`? -/
def contains (part : String) (s : String) : Bool := (splitOnceAt? part.toList s.toList).isSome

/-! ## Lemmas -/

/-- The two parts and the separator between them are the whole text. -/
theorem eq_of_splitOnce? {sep : Char} {s a b : List Char} (h : splitOnce? sep s = some (a, b)) :
    s = a ++ sep :: b ∧ sep ∉ a := by
  induction s generalizing a with
  | nil => simp [splitOnce?] at h
  | cons c cs ih =>
    simp only [splitOnce?] at h
    split at h
    · next hc => simp_all
    · next hc =>
      obtain ⟨⟨a', b'⟩, hp, he⟩ := Option.map_eq_some_iff.1 h
      simp only [Prod.mk.injEq] at he
      obtain ⟨rfl, rfl⟩ := he
      obtain ⟨h1, h2⟩ := ih hp
      subst h1
      simp [h2, Ne.symm hc]

theorem splitOnce?_append {sep : Char} {a : List Char} (h : sep ∉ a) (b : List Char) :
    splitOnce? sep (a ++ sep :: b) = some (a, b) := by
  induction a with
  | nil => simp [splitOnce?]
  | cons c cs ih =>
    have hc : c ≠ sep := fun e => h (by simp [e])
    have hcs : sep ∉ cs := fun hm => h (by simp [hm])
    rw [List.cons_append, splitOnce?, if_neg hc, ih hcs]
    rfl

theorem splitOnceAt?_append {sep : Char} {a : List Char} (h : sep ∉ a) (seps b : List Char) :
    splitOnceAt? (sep :: seps) (a ++ (sep :: seps ++ b)) = some (a, b) := by
  induction a with
  | nil =>
    rw [List.nil_append, List.cons_append, splitOnceAt?, if_pos]
    · rw [← List.cons_append, List.drop_left]
    · rw [← List.cons_append]
      simp
  | cons c cs ih =>
    have hc : sep ≠ c := fun e => h (by simp [e])
    have hcs : sep ∉ cs := fun hm => h (by simp [hm])
    rw [List.cons_append, splitOnceAt?, if_neg (by simp [List.isPrefixOf, hc]), ih hcs]
    rfl

theorem splitAll_of_not_mem {sep : Char} {s : List Char} (h : sep ∉ s) : splitAll sep s = [s] := by
  induction s with
  | nil => rfl
  | cons c cs ih =>
    have hc : c ≠ sep := fun e => h (by simp [e])
    have hcs : sep ∉ cs := fun hm => h (by simp [hm])
    rw [splitAll, if_neg hc, ih hcs]

/-- The piece in front of the first separator is split off. -/
theorem splitAll_append {sep : Char} {a : List Char} (h : sep ∉ a) (b : List Char) :
    splitAll sep (a ++ sep :: b) = a :: splitAll sep b := by
  induction a with
  | nil => simp [splitAll]
  | cons c cs ih =>
    have hc : c ≠ sep := fun e => h (by simp [e])
    have hcs : sep ∉ cs := fun hm => h (by simp [hm])
    rw [List.cons_append, splitAll, if_neg hc, ih hcs]

theorem splitAll_ne_nil (sep : Char) (s : List Char) : splitAll sep s ≠ [] := by
  cases s with
  | nil => simp [splitAll]
  | cons c cs =>
    simp only [splitAll]
    split
    · simp
    · split <;> simp

/-- Joining the pieces gives the text back. -/
theorem intercalate_splitAll (sep : Char) (s : List Char) :
    [sep].intercalate (splitAll sep s) = s := by
  induction s with
  | nil => rfl
  | cons c cs ih =>
    have hne := splitAll_ne_nil sep cs
    simp only [splitAll]
    split
    · next h =>
      subst h
      cases hs : splitAll c cs with
      | nil => exact absurd hs hne
      | cons p ps => rw [hs] at ih; simpa [List.intercalate, List.intersperse] using ih
    · cases hs : splitAll sep cs with
      | nil => exact absurd hs hne
      | cons p ps =>
        rw [hs] at ih
        cases ps with
        | nil => simpa [List.intercalate] using ih
        | cons q qs => simpa [List.intercalate] using ih

end SqlKit.Text
