import SqlKit.Settings.Document

/-!
# Merging by paths

What a merged value holds at a path is settled by what the document has there: a value that is no
object stands as it is, objects are merged in turn, and where the document says nothing the base has
the say, unless the document has something other than an object further up.

    doc has v at p → merge base doc has v merged over the base there   (at?_merge_of_some)
    doc has nothing at p, nor bars it → base has the say               (at?_merge_of_none)
    merge (merge base doc) doc = merge base doc                        (merge_merge)
-/

namespace SqlKit

/-! ## Entries in order -/

namespace Assoc

variable {α : Type}

theorem get?_eq_none_of_not_mem {k : String} {m : Assoc α} (h : ∀ e ∈ m, e.1 ≠ k) :
    get? k m = none := by
  induction m with
  | nil => rfl
  | cons e es ih =>
    obtain ⟨k', v⟩ := e
    have hne : k' ≠ k := h (k', v) (by simp)
    rw [get?, if_neg hne]
    exact ih fun e he => h e (by simp [he])

theorem mem_of_get? {k : String} {v : α} {m : Assoc α} (h : get? k m = some v) : (k, v) ∈ m := by
  induction m with
  | nil => cases h
  | cons e es ih =>
    obtain ⟨k', v'⟩ := e
    rw [get?] at h
    split at h
    · next hk =>
      obtain rfl := Option.some.inj h
      simp [hk]
    · exact List.mem_cons_of_mem _ (ih h)

theorem get?_of_mem {k : String} {v : α} {m : Assoc α} (hm : IsSorted m) (h : (k, v) ∈ m) :
    get? k m = some v := by
  induction m with
  | nil => cases h
  | cons e es ih =>
    obtain ⟨k', v'⟩ := e
    obtain ⟨hlt, hes⟩ := List.pairwise_cons.1 hm
    rw [get?]
    rcases List.mem_cons.1 h with heq | hmem
    · obtain ⟨rfl, rfl⟩ := Prod.mk.inj heq
      exact if_pos rfl
    · have hlt' : k' < k := hlt (k, v) hmem
      have hne : k' ≠ k := by
        rintro rfl
        exact String.lt_irrefl _ hlt'
      rw [if_neg hne, ih hes hmem]

/-- The first key of entries in order is not among the others. -/
theorem IsSorted.get?_tail {k : String} {v : α} {m : Assoc α} (h : IsSorted ((k, v) :: m)) :
    get? k m = none := by
  refine get?_eq_none_of_not_mem fun e he heq => ?_
  have hlt := (List.pairwise_cons.1 h).1 e he
  rw [heq] at hlt
  exact String.lt_irrefl k hlt

/-- Putting in what is there already changes nothing. -/
theorem insert_of_get? {k : String} {v : α} {m : Assoc α} (hm : IsSorted m)
    (h : get? k m = some v) : insert k v m = m := by
  induction m with
  | nil => cases h
  | cons e es ih =>
    obtain ⟨k', v'⟩ := e
    obtain ⟨hlt, hes⟩ := List.pairwise_cons.1 hm
    rw [get?] at h
    rw [insert]
    split at h
    · next hk =>
      obtain rfl := Option.some.inj h
      rw [if_pos hk, hk]
    · next hk =>
      have hk' : ¬ k < k' := String.lt_asymm (hlt _ (mem_of_get? h))
      rw [if_neg hk, if_neg hk', ih hes h]

end Assoc

namespace Json

/-! ## Values in order -/

mutual

/-- All objects in the value have their members in the order of their keys. -/
def Ordered : Json → Prop
  | null => True
  | bool _ => True
  | int _ => True
  | float _ => True
  | string _ => True
  | array items => OrderedItems items
  | object ms => Assoc.IsSorted ms ∧ OrderedMembers ms

def OrderedItems : List Json → Prop
  | [] => True
  | j :: js => Ordered j ∧ OrderedItems js

def OrderedMembers : List (String × Json) → Prop
  | [] => True
  | (_, v) :: ms => Ordered v ∧ OrderedMembers ms

end

theorem orderedMembers_iff {ms : List (String × Json)} :
    OrderedMembers ms ↔ ∀ e ∈ ms, e.2.Ordered := by
  induction ms with
  | nil => simp [OrderedMembers]
  | cons e ms ih =>
    obtain ⟨k, v⟩ := e
    rw [OrderedMembers, ih, List.forall_mem_cons]

theorem OrderedMembers.get? {ms : Assoc Json} (h : OrderedMembers ms) {k : String} {v : Json}
    (hv : Assoc.get? k ms = some v) : v.Ordered :=
  orderedMembers_iff.1 h _ (Assoc.mem_of_get? hv)

/-! ## Paths -/

theorem at?_append (p q : List String) (j : Json) : at? (p ++ q) j = (at? p j).bind (at? q) := by
  induction p generalizing j with
  | nil => rfl
  | cons k p ih =>
    cases j with
    | object ms =>
      rw [List.cons_append, at?_cons_object, at?_cons_object, Option.bind_assoc]
      exact congrArg _ (funext ih)
    | null | bool _ | int _ | float _ | string _ | array _ => rfl

/-- Nothing is below a value that is no object. -/
theorem at?_of_not_isObject {j : Json} (h : j.isObject = false) {p : List String} (hp : p ≠ []) :
    at? p j = none := by
  cases p with
  | nil => exact absurd rfl hp
  | cons k p =>
    cases j with
    | object => cases h
    | null | bool _ | int _ | float _ | string _ | array _ => rfl

/-- The value has something other than an object somewhere above the path. -/
def Bars (p : List String) (j : Json) : Prop :=
  ∃ q r v, p = q ++ r ∧ r ≠ [] ∧ at? q j = some v ∧ v.isObject = false

theorem bars_of_not_isObject {j : Json} (h : j.isObject = false) {p : List String} (hp : p ≠ []) :
    j.Bars p := ⟨[], p, j, rfl, hp, rfl, h⟩

theorem Bars.cons {ms : Assoc Json} {k : String} {v : Json} (hv : Assoc.get? k ms = some v)
    {p : List String} (h : v.Bars p) : (object ms).Bars (k :: p) := by
  obtain ⟨q, r, w, rfl, hr, hw, hobject⟩ := h
  refine ⟨k :: q, r, w, rfl, hr, ?_, hobject⟩
  rw [at?_cons_object, hv]
  exact hw

/-- Nothing is where the value has something other than an object above. -/
theorem at?_eq_none_of_bars {p : List String} {j : Json} (h : j.Bars p) : at? p j = none := by
  obtain ⟨q, r, v, rfl, hr, hv, hobject⟩ := h
  rw [at?_append, hv, Option.bind_some, at?_of_not_isObject hobject hr]

/-! ## Merging objects -/

/-- A value merged over another one, if there is one. -/
def mergeOver (base : Option Json) (v : Json) : Json :=
  match base with
  | some b => merge b v
  | none => v

theorem mergeOver_of_not_isObject {v : Json} (h : v.isObject = false) (base : Option Json) :
    mergeOver base v = v := by
  cases base with
  | some b => exact merge_of_not_isObject h
  | none => rfl

theorem merge_object (base doc : Assoc Json) :
    merge (object base) (object doc) = object (mergeMembers base doc) := by
  rw [merge]

/-- Over what is no object, an object stands as it is. -/
theorem merge_object_of_not_isObject {base : Json} (h : base.isObject = false) (doc : Assoc Json) :
    merge base (object doc) = object doc := by
  cases base with
  | object => cases h
  | null | bool _ | int _ | float _ | string _ | array _ =>
    rw [merge]
    rintro ms ⟨⟩

theorem mergeMembers_cons (base : Assoc Json) (k : String) (v : Json) (doc : List (String × Json)) :
    mergeMembers base ((k, v) :: doc) =
      mergeMembers (base.insert k (mergeOver (base.get? k) v)) doc := by
  rw [mergeMembers]
  rfl

/-- Each member of the merged object, by what base and document have under its key. -/
theorem get?_mergeMembers (k : String) (base : Assoc Json) {doc : Assoc Json}
    (hdoc : Assoc.IsSorted doc) :
    Assoc.get? k (mergeMembers base doc) =
      match Assoc.get? k doc with
      | some v => some (mergeOver (base.get? k) v)
      | none => base.get? k := by
  induction doc generalizing base with
  | nil => rw [mergeMembers]; rfl
  | cons e doc ih =>
    obtain ⟨k', v'⟩ := e
    rw [mergeMembers_cons, ih _ (List.pairwise_cons.1 hdoc).2, Assoc.get?]
    by_cases hk : k' = k
    · subst hk
      rw [if_pos rfl, hdoc.get?_tail, Assoc.get?_insert_self]
    · rw [if_neg hk, Assoc.get?_insert_of_ne (Ne.symm hk)]

theorem isSorted_mergeMembers {base : Assoc Json} (hbase : Assoc.IsSorted base)
    (doc : List (String × Json)) : Assoc.IsSorted (mergeMembers base doc) := by
  induction doc generalizing base with
  | nil => rwa [mergeMembers]
  | cons e doc ih =>
    rw [mergeMembers_cons]
    exact ih (Assoc.isSorted_insert _ _ hbase)

/-! ## Paths into a merged value -/

/-- Where the document has a value, it is merged over what the base has there. -/
theorem at?_merge_of_some {base doc : Json} (hdoc : doc.Ordered) {p : List String} {v : Json}
    (h : at? p doc = some v) : at? p (base.merge doc) = some (mergeOver (at? p base) v) := by
  induction p generalizing base doc with
  | nil =>
    obtain rfl := Option.some.inj h
    rfl
  | cons k p ih =>
    cases doc with
    | null | bool _ | int _ | float _ | string _ | array _ => cases h
    | object ms =>
      obtain ⟨hsorted, hms⟩ := hdoc
      rw [at?_cons_object] at h
      obtain ⟨d, hd, h⟩ := Option.bind_eq_some_iff.1 h
      cases base with
      | object bs =>
        rw [merge_object, at?_cons_object, at?_cons_object, get?_mergeMembers k bs hsorted, hd]
        cases hb : Assoc.get? k bs with
        | none => exact h
        | some b => exact ih (hms.get? hd) h
      | null | bool _ | int _ | float _ | string _ | array _ =>
        rw [merge_object_of_not_isObject rfl, at?_cons_object, hd]
        exact h

/-- Where the document says nothing, and has nothing else above, the base has the say. -/
theorem at?_merge_of_none {base doc : Json} (hdoc : doc.Ordered) {p : List String}
    (h : at? p doc = none) (hbars : ¬ doc.Bars p) : at? p (base.merge doc) = at? p base := by
  induction p generalizing base doc with
  | nil => cases h
  | cons k p ih =>
    cases doc with
    | null | bool _ | int _ | float _ | string _ | array _ =>
      exact absurd (bars_of_not_isObject rfl (List.cons_ne_nil k p)) hbars
    | object ms =>
      obtain ⟨hsorted, hms⟩ := hdoc
      rw [at?_cons_object] at h
      cases base with
      | object bs =>
        rw [merge_object, at?_cons_object, at?_cons_object, get?_mergeMembers k bs hsorted]
        cases hd : Assoc.get? k ms with
        | none => rfl
        | some d =>
          rw [hd, Option.bind_some] at h
          have hbars' : ¬ d.Bars p := fun hd' => hbars (hd'.cons hd)
          cases hb : Assoc.get? k bs with
          | none => exact h
          | some b => exact ih (hms.get? hd) h hbars'
      | null | bool _ | int _ | float _ | string _ | array _ =>
        rw [merge_object_of_not_isObject rfl]
        exact h

/-- The document laid over the base, path by path. -/
structure LaidOver (base doc m : Json) : Prop where
  /-- A value that is no object stands as it is. -/
  value : ∀ {p v}, at? p doc = some v → v.isObject = false → at? p m = some v
  /-- An object stays one. -/
  object : ∀ {p v}, at? p doc = some v → v.isObject = true →
    ∃ w, at? p m = some w ∧ w.isObject = true
  /-- Where the document says nothing, the base has the say. -/
  unsaid : ∀ {p}, at? p doc = none → ¬ doc.Bars p → at? p m = at? p base
  /-- Below a value that is no object nothing is left. -/
  barred : ∀ {p}, doc.Bars p → at? p m = none

theorem isObject_mergeOver {v : Json} (h : v.isObject = true) (base : Option Json) :
    (mergeOver base v).isObject = true := by
  cases v with
  | object ms =>
    cases base with
    | none => rfl
    | some b =>
      by_cases hb : b.isObject = false
      · rw [mergeOver, merge_object_of_not_isObject hb]
        rfl
      · cases b with
        | object bs =>
          rw [mergeOver, merge_object]
          rfl
        | null | bool _ | int _ | float _ | string _ | array _ => exact absurd rfl hb
  | null | bool _ | int _ | float _ | string _ | array _ => cases h

theorem laidOver_merge (base : Json) {doc : Json} (hdoc : doc.Ordered) :
    LaidOver base doc (base.merge doc) where
  value {p v} h hv := by rw [at?_merge_of_some hdoc h, mergeOver_of_not_isObject hv]
  object {p v} h hv := ⟨_, at?_merge_of_some hdoc h, isObject_mergeOver hv _⟩
  unsaid {p} h hbars := at?_merge_of_none hdoc h hbars
  barred {p} h := by
    obtain ⟨q, r, v, hp, hr, hv, hobject⟩ := h
    have hm : at? q (base.merge doc) = some v := by
      rw [at?_merge_of_some hdoc hv, mergeOver_of_not_isObject hobject]
    exact at?_eq_none_of_bars ⟨q, r, v, hp, hr, hm, hobject⟩

/-! ## Merging twice -/

/-- Members that are merged already change nothing. -/
theorem mergeMembers_eq_self {base : Assoc Json} (hbase : Assoc.IsSorted base)
    {doc : List (String × Json)}
    (h : ∀ e ∈ doc, ∃ w, Assoc.get? e.1 base = some w ∧ merge w e.2 = w) :
    mergeMembers base doc = base := by
  induction doc with
  | nil => rw [mergeMembers]
  | cons e doc ih =>
    obtain ⟨k, v⟩ := e
    obtain ⟨w, hw, hmerge⟩ := h (k, v) (by simp)
    have hsame : mergeOver (Assoc.get? k base) v = w := by
      rw [hw]
      exact hmerge
    rw [mergeMembers_cons, hsame, Assoc.insert_of_get? hbase hw]
    exact ih fun e he => h e (by simp [he])

theorem merge_null (v : Json) : merge null v = v := by
  cases v with
  | object ms => exact merge_object_of_not_isObject rfl ms
  | null | bool _ | int _ | float _ | string _ | array _ => exact merge_of_not_isObject rfl

/-- What is merged over something once, may be merged over it again. -/
def Settles (v : Json) : Prop := ∀ base : Json, base.Ordered → merge (merge base v) v = merge base v

theorem Settles.mergeOver {v : Json} (h : Settles v) {base : Option Json}
    (hbase : ∀ b ∈ base, b.Ordered) : merge (mergeOver base v) v = Json.mergeOver base v := by
  cases base with
  | none =>
    have hnull := h null trivial
    rwa [merge_null] at hnull
  | some b => exact h b (hbase b rfl)

/-- An object settles if its members do. -/
theorem settles_object {ms : Assoc Json} (hsorted : Assoc.IsSorted ms)
    (h : ∀ e ∈ ms, Settles e.2) : Settles (object ms) := by
  intro base hbase
  by_cases hobject : base.isObject = false
  · have hnone : ∀ b ∈ (none : Option Json), b.Ordered := by rintro b ⟨⟩
    have hself : mergeMembers ms ms = ms := mergeMembers_eq_self hsorted fun e he =>
      ⟨e.2, Assoc.get?_of_mem hsorted he, (h e he).mergeOver hnone⟩
    rw [merge_object_of_not_isObject hobject, merge_object, hself]
  · cases base with
    | object bs =>
      obtain ⟨hbs, hordered⟩ := hbase
      rw [merge_object, merge_object, mergeMembers_eq_self (isSorted_mergeMembers hbs ms)]
      intro e he
      refine ⟨mergeOver (Assoc.get? e.1 bs) e.2, ?_, (h e he).mergeOver fun b hb => hordered.get? hb⟩
      rw [get?_mergeMembers _ _ hsorted, Assoc.get?_of_mem hsorted he]
    | null | bool _ | int _ | float _ | string _ | array _ => exact absurd rfl hobject

mutual

theorem settles : (v : Json) → v.Ordered → Settles v
  | .object ms, ⟨hsorted, hms⟩ => settles_object hsorted (settles_members ms hms)
  | .null, _ | .bool _, _ | .int _, _ | .float _, _ | .string _, _ | .array _, _ =>
    fun _ _ => merge_of_not_isObject rfl

theorem settles_members : (ms : List (String × Json)) → OrderedMembers ms → ∀ e ∈ ms, Settles e.2
  | [], _ => fun _ he => absurd he List.not_mem_nil
  | (_, v) :: ms, ⟨hv, hms⟩ => List.forall_mem_cons.2 ⟨settles v hv, settles_members ms hms⟩

end

/-- Merging the same document again changes nothing. -/
theorem merge_merge {base doc : Json} (hbase : base.Ordered) (hdoc : doc.Ordered) :
    merge (merge base doc) doc = merge base doc := settles doc hdoc base hbase

end Json

end SqlKit
