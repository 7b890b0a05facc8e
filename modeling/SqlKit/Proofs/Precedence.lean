import SqlKit.Proofs.Reading

/-!
# Precedence

What operands with connectives between them mean when they are read with precedence.  An `OR` divides
the whole into two, however far away the connectives around it are; without an `OR` the whole is the
conjunction of its operands.  A formula with no predicate twice can be made true and made false.

    (ofLinks x (ls ++ (or, y) :: ms)).eval v = (ofLinks x ls).eval v or (ofLinks y ms).eval v
                                                                       (eval_ofLinks_or)
    eval of a join by `AND` without `OR` is the conjunction            (Chain.eval_join_and)
    r.leaves.Nodup → ∃ v, r.eval v = b                                 (exists_eval)
    a join by `AND` with an `OR` can be true when one side is false    (Chain.exists_of_or_join)
-/

namespace SqlKit

/-! ## Truth values -/

namespace Truth

@[simp] theorem true_and (t : Truth) : true.and t = t := by cases t <;> rfl

@[simp] theorem and_true (t : Truth) : t.and true = t := by cases t <;> rfl

@[simp] theorem false_and (t : Truth) : false.and t = false := by cases t <;> rfl

@[simp] theorem and_false (t : Truth) : t.and false = false := by cases t <;> rfl

@[simp] theorem true_or (t : Truth) : true.or t = true := by cases t <;> rfl

@[simp] theorem or_true (t : Truth) : t.or true = true := by cases t <;> rfl

theorem and_assoc (s t u : Truth) : (s.and t).and u = s.and (t.and u) := by
  cases s <;> cases t <;> cases u <;> rfl

theorem or_assoc (s t u : Truth) : (s.or t).or u = s.or (t.or u) := by
  cases s <;> cases t <;> cases u <;> rfl

/-- One of the two definite truth values. -/
def ofBool : Bool → Truth
  | .false => false
  | .true => true

end Truth

namespace Reading

/-! ## Links -/

theorem eval_ofLinks_or (v : String → Truth) (x y : Reading) (ls ms : List (Connective × Reading)) :
    (ofLinks x (ls ++ (.or, y) :: ms)).eval v =
      ((ofLinks x ls).eval v).or ((ofLinks y ms).eval v) := by
  induction ls generalizing x with
  | nil => rfl
  | cons l ls ih =>
    obtain ⟨op, z⟩ := l
    cases op with
    | and => exact ih (and x z)
    | or =>
      have h := ih z
      simp only [List.cons_append, ofLinks, eval] at h ⊢
      rw [h, Truth.or_assoc]

theorem eval_ofLinks_and (v : String → Truth) (x : Reading) {ls : List (Connective × Reading)}
    (h : ∀ l ∈ ls, l.1 = .and) :
    (ofLinks x ls).eval v = (x.eval v).and (Truth.all (ls.map fun l => l.2.eval v)) := by
  induction ls generalizing x with
  | nil => simp [ofLinks, Truth.all]
  | cons l ls ih =>
    obtain ⟨op, y⟩ := l
    obtain rfl : op = .and := h (op, y) (by simp)
    have ih' := ih (and x y) fun m hm => h m (by simp [hm])
    simp only [ofLinks, List.map_cons, Truth.all]
    rw [ih', eval, Truth.and_assoc]

theorem leaves_ofLinks (x : Reading) (ls : List (Connective × Reading)) :
    (ofLinks x ls).leaves = x.leaves ++ ls.flatMap fun l => l.2.leaves := by
  induction ls generalizing x with
  | nil => simp [ofLinks]
  | cons l ls ih =>
    obtain ⟨op, y⟩ := l
    cases op with
    | and => rw [ofLinks, ih, leaves, List.flatMap_cons, List.append_assoc]
    | or => rw [ofLinks, leaves, ih, List.flatMap_cons]

/-! ## Formulas that can be made true and false -/

theorem eval_congr {v w : String → Truth} {r : Reading} (h : ∀ t ∈ r.leaves, v t = w t) :
    r.eval v = r.eval w := by
  induction r with
  | leaf t => exact h t (by simp [leaves])
  | not r ih => rw [eval, eval, ih h]
  | and a b iha ihb =>
    rw [eval, eval, iha fun t ht => h t (by simp [leaves, ht]),
      ihb fun t ht => h t (by simp [leaves, ht])]
  | or a b iha ihb =>
    rw [eval, eval, iha fun t ht => h t (by simp [leaves, ht]),
      ihb fun t ht => h t (by simp [leaves, ht])]

/-- What is said of two lists without a common predicate can be said at once. -/
theorem exists_agree {as bs : List String} (h : (as ++ bs).Nodup) (v w : String → Truth) :
    ∃ u : String → Truth, (∀ t ∈ as, u t = v t) ∧ ∀ t ∈ bs, u t = w t := by
  refine ⟨fun t => if t ∈ as then v t else w t, ?_, ?_⟩
  · intro t ht
    exact if_pos ht
  · intro t ht
    have hdisjoint := (List.nodup_append.mp h).2.2
    refine if_neg ?_
    intro hta
    exact hdisjoint t hta t ht rfl

theorem exists_eval {r : Reading} (h : r.leaves.Nodup) (b : Bool) :
    ∃ v, r.eval v = Truth.ofBool b := by
  induction r generalizing b with
  | leaf t => exact ⟨fun _ => Truth.ofBool b, rfl⟩
  | not r ih =>
    obtain ⟨v, hv⟩ := ih h !b
    refine ⟨v, ?_⟩
    rw [eval, hv]
    cases b <;> rfl
  | and x y ihx ihy =>
    obtain ⟨hx, hy, -⟩ := List.nodup_append.mp h
    obtain ⟨v, hv⟩ := ihx hx b
    obtain ⟨w, hw⟩ := ihy hy b
    obtain ⟨u, hu, hu'⟩ := exists_agree h v w
    refine ⟨u, ?_⟩
    rw [eval, eval_congr hu, eval_congr hu', hv, hw]
    cases b <;> rfl
  | or x y ihx ihy =>
    obtain ⟨hx, hy, -⟩ := List.nodup_append.mp h
    obtain ⟨v, hv⟩ := ihx hx b
    obtain ⟨w, hw⟩ := ihy hy b
    obtain ⟨u, hu, hu'⟩ := exists_agree h v w
    refine ⟨u, ?_⟩
    rw [eval, eval_congr hu, eval_congr hu', hv, hw]
    cases b <;> rfl

/-- Two formulas without a common predicate can have any two truth values at once. -/
theorem exists_eval_both {x y : Reading} {as bs : List String} (h : (as ++ bs).Nodup)
    (hx : x.leaves.Sublist as) (hy : y.leaves.Sublist bs) (b c : Bool) :
    ∃ v, x.eval v = Truth.ofBool b ∧ y.eval v = Truth.ofBool c := by
  obtain ⟨has, hbs, -⟩ := List.nodup_append.mp h
  obtain ⟨v, hv⟩ := exists_eval (hx.nodup has) b
  obtain ⟨w, hw⟩ := exists_eval (hy.nodup hbs) c
  obtain ⟨u, hu, hu'⟩ := exists_agree h v w
  refine ⟨u, ?_, ?_⟩
  · rw [eval_congr fun t ht => hu t (hx.subset ht), hv]
  · rw [eval_congr fun t ht => hu' t (hy.subset ht), hw]

end Reading

/-! ## Chains -/

namespace Chain

/-- One chain behind another. -/
def join (a : Chain) (op : Connective) (b : Chain) : Chain :=
  ⟨a.first, a.links ++ (op, b.first) :: b.links⟩

def leaves (c : Chain) : List String := c.reading.leaves

theorem leaves_join (a b : Chain) (op : Connective) : (a.join op b).leaves = a.leaves ++ b.leaves := by
  simp [leaves, reading, join, Reading.leaves_ofLinks]

theorem hasOr_join (a b : Chain) (op : Connective) :
    (a.join op b).hasOr = (a.hasOr || (op = .or || b.hasOr)) := by
  simp [hasOr, join]

theorem and_of_hasOr_false {c : Chain} (h : c.hasOr = false) : ∀ l ∈ c.links, l.1 = .and := by
  intro l hl
  have hor := List.any_eq_false.mp h l hl
  cases hop : l.1 with
  | and => rfl
  | or => exact absurd hop (by simpa using hor)

/-- Without an `OR` outside of parentheses, joining by `AND` is conjunction. -/
theorem eval_join_and (v : String → Truth) {a b : Chain} (ha : a.hasOr = false)
    (hb : b.hasOr = false) :
    (a.join .and b).reading.eval v = (a.reading.eval v).and (b.reading.eval v) := by
  have hab := and_of_hasOr_false (c := a.join .and b) (by rw [hasOr_join, ha, hb]; rfl)
  have all_append : ∀ ts us : List Truth, Truth.all (ts ++ us) = (Truth.all ts).and (Truth.all us) := by
    intro ts us
    induction ts with
    | nil => simp [Truth.all]
    | cons t ts ih => simp [Truth.all, ih, Truth.and_assoc]
  have h := Reading.eval_ofLinks_and v (a.join .and b).first hab
  have hfirst := Reading.eval_ofLinks_and v a.first (and_of_hasOr_false ha)
  have hsecond := Reading.eval_ofLinks_and v b.first (and_of_hasOr_false hb)
  rw [reading, h, reading, hfirst, reading, hsecond]
  simp only [join, List.map_append, List.map_cons, all_append, Truth.all, Truth.and_assoc]

/-- An `OR` outside of parentheses. -/
theorem exists_or {c : Chain} (h : c.hasOr = true) :
    ∃ ls y ms, c.links = ls ++ (.or, y) :: ms := by
  obtain ⟨l, hl, hor⟩ := List.any_eq_true.mp h
  obtain ⟨ls, ms, hlinks⟩ := List.append_of_mem hl
  obtain ⟨op, y⟩ := l
  obtain rfl : op = .or := by simpa using hor
  exact ⟨ls, y, ms, hlinks⟩

/-- An `OR` in the first of two chains reaches over the `AND` between them: the whole can be true
when the second is false. -/
theorem exists_of_or_first {a b : Chain} (ha : a.hasOr = true)
    (h : (a.join .and b).leaves.Nodup) {r : Reading} (hr : r.leaves.Sublist b.leaves) :
    ∃ v, (a.join .and b).reading.eval v = .true ∧ r.eval v = .false := by
  obtain ⟨ls, y, ms, hlinks⟩ := exists_or ha
  have hjoin : (a.join .and b).links = ls ++ (.or, y) :: (ms ++ (.and, b.first) :: b.links) := by
    simp [join, hlinks]
  have hleaves : (a.join .and b).leaves =
      (Reading.ofLinks a.first ls).leaves ++
        (y.leaves ++ (ms.flatMap fun l => l.2.leaves) ++ b.leaves) := by
    simp [leaves, reading, hlinks, Reading.leaves_ofLinks, join]
  rw [hleaves] at h
  obtain ⟨v, hfirst, hr'⟩ := Reading.exists_eval_both (x := .ofLinks a.first ls) h (.refl _)
    (hr.trans (List.sublist_append_right _ _)) .true .false
  refine ⟨v, ?_, hr'⟩
  have hor := Reading.eval_ofLinks_or v a.first y ls (ms ++ (.and, b.first) :: b.links)
  rw [reading, hjoin]
  show (Reading.ofLinks a.first _).eval v = .true
  rw [hor, hfirst]
  exact Truth.true_or _

/-- An `OR` in the second of two chains reaches over the `AND` between them. -/
theorem exists_of_or_second {a b : Chain} (hb : b.hasOr = true)
    (h : (a.join .and b).leaves.Nodup) {r : Reading} (hr : r.leaves.Sublist a.leaves) :
    ∃ v, (a.join .and b).reading.eval v = .true ∧ r.eval v = .false := by
  obtain ⟨ls, y, ms, hlinks⟩ := exists_or hb
  have hjoin : (a.join .and b).links =
      (a.links ++ (.and, b.first) :: ls) ++ (.or, y) :: ms := by
    simp [join, hlinks]
  have hleaves : (a.join .and b).leaves =
      (a.leaves ++ (b.first.leaves ++ ls.flatMap fun l => l.2.leaves)) ++
        (Reading.ofLinks y ms).leaves := by
    simp [leaves, reading, hlinks, Reading.leaves_ofLinks, join]
  rw [hleaves] at h
  obtain ⟨v, hr', hsecond⟩ := Reading.exists_eval_both (y := .ofLinks y ms) h
    (hr.trans (List.sublist_append_left _ _)) (.refl _) .false .true
  refine ⟨v, ?_, hr'⟩
  have hor := Reading.eval_ofLinks_or v a.first y (a.links ++ (.and, b.first) :: ls) ms
  rw [reading, hjoin]
  show (Reading.ofLinks a.first _).eval v = .true
  rw [hor, hsecond]
  exact Truth.or_true _

/-- Of two chains joined by `AND` one can be false and the whole true, if either of them has an `OR`
outside of parentheses. -/
theorem exists_of_or_join {a b : Chain} (hor : (a.join .and b).hasOr = true)
    (h : (a.join .and b).leaves.Nodup) {r q : Reading} (hr : r.leaves.Sublist a.leaves)
    (hq : q.leaves.Sublist b.leaves) :
    ∃ v, (a.join .and b).reading.eval v = .true ∧ (r.eval v = .false ∨ q.eval v = .false) := by
  cases ha : a.hasOr with
  | true =>
    obtain ⟨v, htrue, hfalse⟩ := exists_of_or_first ha h hq
    exact ⟨v, htrue, Or.inr hfalse⟩
  | false =>
    have hb : b.hasOr = true := by
      rw [hasOr_join, ha] at hor
      simpa using hor
    obtain ⟨v, htrue, hfalse⟩ := exists_of_or_second hb h hr
    exact ⟨v, htrue, Or.inl hfalse⟩

end Chain

end SqlKit
