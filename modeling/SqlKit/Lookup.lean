/-!
# Functions changed at one point

A function from keys serves as a table that has an entry for every key.

    put f k v k = v                                                    (put_self)
    k' ≠ k → put f k v k' = f k'                                       (put_of_ne)
    put (put f k v) k w = put f k w                                    (put_put)
    put f k (f k) = f                                                  (put_same)
    P holds of every entry of put f k v if it holds of v and of all others  (forall_put)
-/

namespace SqlKit.Lookup

variable {κ α : Type} [DecidableEq κ]

/-- The function with another value at `key`. -/
def put (f : κ → α) (key : κ) (value : α) : κ → α := fun k => if k = key then value else f k

@[simp] theorem put_self (f : κ → α) (k : κ) (v : α) : put f k v k = v := if_pos rfl

theorem put_of_ne (f : κ → α) {k k' : κ} (v : α) (h : k' ≠ k) : put f k v k' = f k' := if_neg h

/-- What holds of the new value and of all others holds of every entry. -/
theorem forall_put {f : κ → α} {k : κ} {v : α} {P : κ → α → Prop} (hself : P k v)
    (hrest : ∀ k', k' ≠ k → P k' (f k')) (k' : κ) : P k' (put f k v k') := by
  by_cases h : k' = k
  · rw [h, put_self]
    exact hself
  · rw [put_of_ne f v h]
    exact hrest k' h

/-- The last change at a point counts. -/
theorem put_put (f : κ → α) (k : κ) (v w : α) : put (put f k v) k w = put f k w := by
  funext k'
  by_cases h : k' = k
  · rw [h, put_self, put_self]
  · rw [put_of_ne _ _ h, put_of_ne _ _ h, put_of_ne _ _ h]

/-- Changes at different points may be made in either order. -/
theorem put_comm (f : κ → α) {k k' : κ} (h : k' ≠ k) (v w : α) :
    put (put f k v) k' w = put (put f k' w) k v := by
  funext k''
  unfold put
  by_cases hk : k'' = k
  · subst hk
    simp [h.symm]
  · simp [hk]

/-- Putting what is there changes nothing. -/
@[simp] theorem put_same (f : κ → α) (k : κ) : put f k (f k) = f := by
  funext k'
  by_cases h : k' = k
  · rw [h, put_self]
  · rw [put_of_ne _ _ h]

end SqlKit.Lookup
