import SqlKit.Proofs.Json.Spelled

/-!
# JSON text means the value it was written from

What the text of a value reads as is the value again: the same shape, the same strings and integers,
the members under the same keys, and each double after a few roundings.  Only nesting that is too deep
is refused.

    parse? (text j) = some j' → Near j j'                              (near_of_parse?)
-/

namespace SqlKit.Json

/-! ## The same value up to rounding -/

mutual

/-- The same value, but that doubles may have been rounded. -/
inductive Near : Json → Json → Prop
  | null : Near .null .null
  | bool (b : Bool) : Near (.bool b) (.bool b)
  | int (i : Int) : Near (.int i) (.int i)
  | float {x y : Binary64} (h : x.Near y) : Near (.float x) (.float y)
  | string (s : String) : Near (.string s) (.string s)
  | array {js ks : List Json} (h : NearItems js ks) : Near (.array js) (.array ks)
  | object {ms ns : List (String × Json)} (h : NearMembers ms ns) : Near (.object ms) (.object ns)

/-- Item by item. -/
inductive NearItems : List Json → List Json → Prop
  | nil : NearItems [] []
  | cons {j k : Json} {js ks : List Json} (h : Near j k) (hs : NearItems js ks) :
    NearItems (j :: js) (k :: ks)

/-- Member by member, under the same keys. -/
inductive NearMembers : List (String × Json) → List (String × Json) → Prop
  | nil : NearMembers [] []
  | cons (key : String) {j k : Json} {ms ns : List (String × Json)} (h : Near j k)
      (hs : NearMembers ms ns) : NearMembers ((key, j) :: ms) ((key, k) :: ns)

end

/-! ## Members in order -/

theorem isSorted_iff (m : Assoc Json) :
    Assoc.IsSorted m ↔ (m.map Prod.fst).Pairwise (· < ·) := by
  rw [Assoc.IsSorted, List.pairwise_map]

/-- A key behind all others is put at the end. -/
theorem insert_last {key : String} {v : Json} {m : Assoc Json} (h : ∀ e ∈ m, e.1 < key) :
    Assoc.insert key v m = m ++ [(key, v)] := by
  induction m with
  | nil => rfl
  | cons e es ih =>
    obtain ⟨k, v'⟩ := e
    have hk : k < key := h _ (List.mem_cons_self ..)
    have hne : k ≠ key := by
      rintro rfl
      exact String.lt_irrefl k hk
    rw [Assoc.insert, if_neg hne, if_neg (String.lt_asymm hk),
      ih fun e he => h e (List.mem_cons_of_mem _ he)]
    rfl

/-! ## Meaning -/

/-- Values of so many levels of nesting come back near. -/
def Returns (depth : Nat) : Prop :=
  ∀ j j' : Json, j.Proper → (written j).toJson? depth = some j' → Near j j'

theorem Returns.items {depth : Nat} (h : Returns depth) {js js' : List Json} (hjs : ProperItems js)
    (hread : itemsToJson? depth (itemsWritten js) = some js') : NearItems js js' := by
  induction js generalizing js' with
  | nil =>
    obtain rfl := Option.some.inj hread
    exact .nil
  | cons j js ih =>
    simp only [itemsWritten, itemsToJson?, Option.bind_eq_bind, Option.bind_eq_some_iff] at hread
    obtain ⟨k, hk, ks, hks, hs⟩ := hread
    obtain rfl := Option.some.inj hs
    exact .cons (h j k hjs.1 hk) (ih hjs.2 hks)

theorem Returns.members {depth : Nat} (h : Returns depth) {ms : List (String × Json)}
    {acc acc' : Assoc Json} (hms : ProperMembers ms) (hsorted : Assoc.IsSorted (acc ++ ms))
    (hread : membersToJson? depth acc (membersWritten ms) = some acc') :
    ∃ ns, acc' = acc ++ ns ∧ NearMembers ms ns := by
  induction ms generalizing acc with
  | nil =>
    obtain rfl := Option.some.inj hread
    exact ⟨[], (List.append_nil _).symm, .nil⟩
  | cons m ms ih =>
    obtain ⟨key, v⟩ := m
    simp only [membersWritten, membersToJson?, unitsText?_units, Option.bind_eq_bind,
      Option.bind_some, Option.bind_eq_some_iff] at hread
    obtain ⟨k, hk, hrest⟩ := hread
    have hlt : ∀ e ∈ acc, e.1 < key := by
      intro e he
      exact (List.pairwise_append.1 hsorted).2.2 e he _ (List.mem_cons_self ..)
    rw [insert_last hlt] at hrest
    have hsorted' : Assoc.IsSorted (acc ++ [(key, k)] ++ ms) := by
      rw [isSorted_iff] at hsorted ⊢
      simpa using hsorted
    obtain ⟨ns, rfl, hns⟩ := ih hms.2 hsorted' hrest
    exact ⟨(key, k) :: ns, by simp, .cons key (h v k hms.1 hk) hns⟩

/-- One level more: what is nested comes back as it does one level below. -/
theorem Returns.step {depth : Nat} (below : ∀ d, d + 1 = depth → Returns d) : Returns depth := by
  intro j j' hj hread
  cases j with
  | null =>
    obtain rfl := Option.some.inj hread
    exact .null
  | bool b =>
    obtain rfl := Option.some.inj hread
    exact .bool b
  | int i =>
    obtain rfl := Option.some.inj ((Numeral.toJson?_ofInt hj.1 hj.2).symm.trans hread)
    exact .int i
  | float x =>
    obtain ⟨y, rfl, hy⟩ := near_of_toJson? hj hread
    exact .float hy
  | string s =>
    rw [written, Written.toJson?, unitsText?_units] at hread
    obtain rfl := Option.some.inj hread
    exact .string s
  | array js =>
    cases depth with
    | zero => cases hread
    | succ d =>
      obtain ⟨ks, hks, rfl⟩ := Option.map_eq_some_iff.1 hread
      exact .array ((below d rfl).items hj hks)
  | object ms =>
    cases depth with
    | zero => cases hread
    | succ d =>
      obtain ⟨ns, hns, rfl⟩ := Option.map_eq_some_iff.1 hread
      obtain ⟨ns, rfl, hnear⟩ := (below d rfl).members hj.2 (List.nil_append ms ▸ hj.1) hns
      exact .object hnear

theorem returns (depth : Nat) : Returns depth := by
  induction depth with
  | zero => exact Returns.step fun d h => absurd h (Nat.succ_ne_zero d)
  | succ depth ih =>
    refine Returns.step fun d h => ?_
    obtain rfl := Nat.succ.inj h
    exact ih

/-- The text of a value, if it can be read, is the value up to rounding. -/
theorem near_of_parse? {j j' : Json} (hj : j.Proper) (h : parse? (text j) = some j') : Near j j' := by
  rw [parse?, read?_text hj, Option.bind_some] at h
  exact returns maxDepth j j' hj h

end SqlKit.Json
