/-!
# Entries in order of their keys

A list of keys with values.  What `insert` builds has its keys in ascending order, each key once; the
value inserted last wins.

    get? k (insert k v m) = some v                                     (get?_insert_self)
    k ≠ k' → get? k (insert k' v m) = get? k m                         (get?_insert_of_ne)
    get? k (ofList (es ++ [(k, v)])) = some v                          (get?_ofList_append)
    IsSorted m → IsSorted (insert k v m)                               (isSorted_insert)
    IsSorted (ofList es)                                               (isSorted_ofList)
-/

namespace SqlKit

/-- Keys with values. -/
abbrev Assoc (α : Type) := List (String × α)

namespace Assoc

variable {α : Type}

/-! ## Algorithm -/

/-- The value under a key. -/
def get? (key : String) : Assoc α → Option α
  | [] => none
  | (k, v) :: es => if k = key then some v else get? key es

/-- Puts a value under a key, in the place of an earlier one or where the order wants it. -/
def insert (key : String) (value : α) : Assoc α → Assoc α
  | [] => [(key, value)]
  | (k, v) :: es =>
    if k = key then (key, value) :: es
    else if key < k then (key, value) :: (k, v) :: es
    else (k, v) :: insert key value es

/-- The entries inserted one after another. -/
def ofList (es : List (String × α)) : Assoc α := es.foldl (fun m e => insert e.1 e.2 m) []

/-- The keys ascend. -/
def IsSorted (m : Assoc α) : Prop := m.Pairwise fun a b => a.1 < b.1

/-! ## Lemmas -/

theorem get?_insert_self (k : String) (v : α) (m : Assoc α) : get? k (insert k v m) = some v := by
  induction m with
  | nil => simp [insert, get?]
  | cons e es ih =>
    obtain ⟨k', v'⟩ := e
    simp only [insert]
    split
    · simp [get?]
    · next hne =>
      split
      · simp [get?]
      · simp [get?, hne, ih]

theorem get?_insert_of_ne {k k' : String} (h : k ≠ k') (v : α) (m : Assoc α) :
    get? k (insert k' v m) = get? k m := by
  induction m with
  | nil => simp [insert, get?, Ne.symm h]
  | cons e es ih =>
    obtain ⟨k₁, v₁⟩ := e
    simp only [insert]
    split
    · next he => subst he; simp [get?, Ne.symm h]
    · split
      · simp [get?, Ne.symm h]
      · simp only [get?, ih]

theorem get?_ofList_append (k : String) (v : α) (es : List (String × α)) :
    get? k (ofList (es ++ [(k, v)])) = some v := by
  rw [ofList, List.foldl_append]
  exact get?_insert_self k v _

/-- What an insertion leaves is what it put in or what was there. -/
theorem mem_insert {k : String} {v : α} {m : Assoc α} {e : String × α} (h : e ∈ insert k v m) :
    e.1 = k ∨ e ∈ m := by
  induction m with
  | nil =>
    simp only [insert, List.mem_singleton] at h
    exact .inl (by rw [h])
  | cons e' es ih =>
    simp only [insert] at h
    split at h
    · next he =>
      rcases List.mem_cons.1 h with rfl | h
      · exact .inl rfl
      · exact .inr (List.mem_cons_of_mem _ h)
    · split at h
      · rcases List.mem_cons.1 h with rfl | h
        · exact .inl rfl
        · exact .inr h
      · rcases List.mem_cons.1 h with rfl | h
        · exact .inr (List.mem_cons_self ..)
        · exact (ih h).imp id (List.mem_cons_of_mem _)

theorem isSorted_insert (k : String) (v : α) {m : Assoc α} (h : IsSorted m) :
    IsSorted (insert k v m) := by
  induction m with
  | nil => exact List.pairwise_singleton ..
  | cons e es ih =>
    obtain ⟨k', v'⟩ := e
    obtain ⟨hlt, hs⟩ := List.pairwise_cons.1 h
    simp only [insert]
    split
    · next he =>
      subst he
      exact List.pairwise_cons.2 ⟨hlt, hs⟩
    · next hne =>
      split
      · next hk =>
        refine List.pairwise_cons.2 ⟨fun e he => ?_, h⟩
        rcases List.mem_cons.1 he with rfl | he
        · exact hk
        · exact String.lt_trans hk (hlt e he)
      · next hk =>
        refine List.pairwise_cons.2 ⟨fun e he => ?_, ih hs⟩
        rcases mem_insert he with rfl | he
        · have hle : k' ≤ e.1 := String.not_lt.1 hk
          exact Std.lt_of_le_of_ne hle hne
        · exact hlt e he

theorem isSorted_ofList (es : List (String × α)) : IsSorted (ofList es) := by
  suffices h : ∀ m : Assoc α, IsSorted m →
      IsSorted (es.foldl (fun m e => insert e.1 e.2 m) m) from h [] .nil
  induction es with
  | nil => exact fun m h => h
  | cons e es ih => exact fun m h => ih _ (isSorted_insert e.1 e.2 h)

end Assoc

end SqlKit
