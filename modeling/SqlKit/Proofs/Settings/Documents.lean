import SqlKit.Proofs.Json.Merging

/-!
# Documents are read in order

Whatever a document says, its objects are read with their members in the order of their keys and each
key once: members are put in one by one, and so are the entries of a table.

    Json.parse? text = some j → j.Ordered                              (Json.ordered_of_parse?)
    Toml.parse? text = some j → j.Ordered                              (Toml.ordered_of_parse?)
-/

namespace SqlKit

/-- What an insertion leaves is what it put in or what was there. -/
theorem Assoc.eq_or_mem_of_mem_insert {α : Type} {k : String} {v : α} {m : Assoc α}
    {e : String × α} (h : e ∈ insert k v m) : e = (k, v) ∨ e ∈ m := by
  induction m with
  | nil => exact .inl (List.mem_singleton.1 h)
  | cons e' es ih =>
    rw [insert] at h
    split at h
    · rcases List.mem_cons.1 h with h | h
      · exact .inl h
      · exact .inr (List.mem_cons_of_mem _ h)
    · split at h
      · exact List.mem_cons.1 h
      · rcases List.mem_cons.1 h with h | h
        · exact .inr (h ▸ List.mem_cons_self ..)
        · exact (ih h).imp id (List.mem_cons_of_mem _)

/-! ## JSON -/

namespace Json

/-- An integer, a double or null. -/
theorem ordered_of_toJson?_numeral {n : Numeral} {j : Json} (h : n.toJson? = some j) :
    j.Ordered := by
  have hscaled {s : Significand} {e : Int} (h : n.scaled? s e = some j) : j.Ordered := by
    obtain ⟨x, -, rfl⟩ := Option.map_eq_some_iff.1 h
    trivial
  unfold Numeral.toJson? at h
  simp only at h
  split at h
  · split at h
    · cases h
    · split at h
      · exact hscaled h
      · split at h
        · cases h
        · cases h; trivial
  · split at h
    · split at h
      · split at h <;> cases h <;> trivial
      · cases h; trivial
    · exact hscaled h

theorem OrderedMembers.insert {ms : Assoc Json} (h : OrderedMembers ms) {k : String} {v : Json}
    (hv : v.Ordered) : OrderedMembers (Assoc.insert k v ms) := by
  rw [orderedMembers_iff] at h ⊢
  intro e he
  rcases Assoc.eq_or_mem_of_mem_insert he with rfl | he
  · exact hv
  · exact h e he

mutual

theorem Written.ordered : (w : Written) → ∀ {depth : Nat} {j : Json},
    w.toJson? depth = some j → j.Ordered
  | .null, _, _, h | .bool _, _, _, h => by
    cases h
    trivial
  | .number _, _, _, h => ordered_of_toJson?_numeral h
  | .string _, _, _, h => by
    obtain ⟨s, -, rfl⟩ := Option.map_eq_some_iff.1 h
    trivial
  | .array _, 0, _, h | .object _, 0, _, h => by cases h
  | .array items, depth + 1, _, h => by
    obtain ⟨js, hjs, rfl⟩ := Option.map_eq_some_iff.1 h
    exact items_ordered items hjs
  | .object ms, depth + 1, _, h => by
    obtain ⟨acc, hacc, rfl⟩ := Option.map_eq_some_iff.1 h
    exact members_ordered ms ⟨.nil, trivial⟩ hacc

theorem items_ordered : (ws : List Written) → ∀ {depth : Nat} {js : List Json},
    itemsToJson? depth ws = some js → OrderedItems js
  | [], _, _, h => by
    cases h
    trivial
  | w :: ws, depth, _, h => by
    simp only [itemsToJson?, Option.bind_eq_bind, Option.bind_eq_some_iff] at h
    obtain ⟨j, hj, js, hjs, h⟩ := h
    obtain rfl := Option.some.inj h
    exact ⟨w.ordered hj, items_ordered ws hjs⟩

theorem members_ordered : (ms : List (List CodeUnit × Written)) → ∀ {depth : Nat}
    {acc acc' : Assoc Json}, (object acc).Ordered → membersToJson? depth acc ms = some acc' →
      (object acc').Ordered
  | [], _, _, _, hacc, h => by
    cases h
    exact hacc
  | (key, w) :: ms, depth, _, _, hacc, h => by
    simp only [membersToJson?, Option.bind_eq_bind, Option.bind_eq_some_iff] at h
    obtain ⟨k, -, j, hj, h⟩ := h
    exact members_ordered ms
      ⟨Assoc.isSorted_insert k j hacc.1, hacc.2.insert (w.ordered hj)⟩ h

end

/-- A text is read as a value whose objects are in order. -/
theorem ordered_of_parse? {text : String} {j : Json} (h : parse? text = some j) : j.Ordered := by
  obtain ⟨w, -, hw⟩ := Option.bind_eq_some_iff.1 h
  exact w.ordered hw

end Json

/-! ## TOML -/

namespace Toml

/-! ### Scalars -/

theorem ordered_of_integer? {negative : Bool} {n : Nat} {j : Json}
    (h : integer? negative n = some j) : j.Ordered := by
  unfold integer? at h
  extract_lets i at h
  split at h
  · cases h
    trivial
  · cases h

theorem ordered_ofFloat (x : Binary64) : (Json.ofFloat x).Ordered := by
  unfold Json.ofFloat
  split <;> trivial

theorem ordered_of_float? {negative : Bool} {ds : List Char} {scale : Int} {j : Json}
    (h : float? negative ds scale = some j) : j.Ordered := by
  unfold float? at h
  extract_lets x at h
  split at h
  · cases h
  · cases h
    exact ordered_ofFloat x

theorem ordered_of_marked? {base : Nat} {p : Char → Bool} {cs : List Char} {r : Json × List Char}
    (h : marked? base p cs = some r) : r.1.Ordered := by
  simp only [marked?, Option.bind_eq_bind, Option.bind_eq_some_iff] at h
  obtain ⟨_, -, j, hj, h⟩ := h
  obtain rfl := Option.some.inj h
  exact ordered_of_integer? hj

theorem ordered_of_decimal? {cs : List Char} {r : Json × List Char} (h : decimal? cs = some r) :
    r.1.Ordered := by
  simp only [decimal?, Option.bind_eq_bind, Option.bind_eq_some_iff] at h
  obtain ⟨_, -, h⟩ := h
  split at h
  · simp only [Option.bind_eq_some_iff] at h
    obtain ⟨_, -, _, -, j, hj, h⟩ := h
    obtain rfl := Option.some.inj h
    exact ordered_of_float? hj
  · split at h
    · simp only [Option.bind_eq_some_iff] at h
      obtain ⟨_, -, j, hj, h⟩ := h
      obtain rfl := Option.some.inj h
      exact ordered_of_float? hj
    · obtain ⟨j, hj, h⟩ := Option.bind_eq_some_iff.1 h
      obtain rfl := Option.some.inj h
      exact ordered_of_integer? hj
  · obtain ⟨j, hj, h⟩ := Option.bind_eq_some_iff.1 h
    obtain rfl := Option.some.inj h
    exact ordered_of_integer? hj

theorem ordered_of_number? {cs : List Char} {r : Json × List Char} (h : number? cs = some r) :
    r.1.Ordered := by
  unfold number? at h
  split at h
  · exact ordered_of_marked? h
  · exact ordered_of_marked? h
  · exact ordered_of_marked? h
  · simp only at h
    split at h
    · cases h
      trivial
    · exact ordered_of_decimal? h

/-- A scalar has no members. -/
theorem ordered_of_scalar? {cs : List Char} {r : Json × List Char} (h : scalar? cs = some r) :
    r.1.Ordered := by
  unfold scalar? at h
  split at h
  · cases h
  · split at h
    · obtain ⟨_, -, rfl⟩ := Option.map_eq_some_iff.1 h
      trivial
    · split at h
      · obtain ⟨_, -, rfl⟩ := Option.map_eq_some_iff.1 h
        trivial
      · split at h
        · obtain ⟨_, -, rfl⟩ := Option.map_eq_some_iff.1 h
          trivial
        · split at h
          · cases h
            trivial
          · exact ordered_of_number? h

/-! ### Tables -/

/-- The object that a table becomes is in order. -/
def OrderedTable (es : Assoc Node) : Prop := (Json.object (entriesToJson es)).Ordered

theorem entriesToJson_insert (k : String) (n : Node) (es : Assoc Node) :
    entriesToJson (es.insert k n) = Assoc.insert k n.toJson (entriesToJson es) := by
  induction es with
  | nil => rfl
  | cons e es ih =>
    obtain ⟨k', n'⟩ := e
    rw [entriesToJson, Assoc.insert, Assoc.insert]
    split
    · rfl
    · split
      · rfl
      · rw [entriesToJson, ih]

theorem get?_entriesToJson (k : String) (es : Assoc Node) :
    Assoc.get? k (entriesToJson es) = (es.get? k).map Node.toJson := by
  induction es with
  | nil => rfl
  | cons e es ih =>
    obtain ⟨k', n'⟩ := e
    rw [entriesToJson, Assoc.get?, Assoc.get?]
    split
    · rfl
    · exact ih

theorem orderedItems_itemsToJson_iff {items : List (Assoc Node)} :
    Json.OrderedItems (itemsToJson items) ↔ ∀ t ∈ items, OrderedTable t := by
  induction items with
  | nil => simp [itemsToJson, Json.OrderedItems]
  | cons t ts ih =>
    rw [itemsToJson, Json.OrderedItems, ih, List.forall_mem_cons]
    rfl

theorem orderedTable_nil : OrderedTable [] := ⟨.nil, trivial⟩

namespace OrderedTable

variable {es : Assoc Node}

theorem insert (h : OrderedTable es) {k : String} {n : Node} (hn : n.toJson.Ordered) :
    OrderedTable (es.insert k n) := by
  rw [OrderedTable, entriesToJson_insert]
  exact ⟨Assoc.isSorted_insert _ _ h.1, h.2.insert hn⟩

theorem get? (h : OrderedTable es) {k : String} {n : Node} (hn : es.get? k = some n) :
    n.toJson.Ordered := by
  refine h.2.get? (k := k) ?_
  rw [get?_entriesToJson, hn]
  rfl

/-- A change at a path keeps the order if it keeps that of the table it is made in. -/
theorem alter {made : Origin} {f : Origin → Assoc Node → Option (Assoc Node)}
    (hf : ∀ {o t t'}, OrderedTable t → f o t = some t' → OrderedTable t') {path : List String}
    {o : Origin} {es' : Assoc Node} (hes : OrderedTable es)
    (h : alter made f path o es = some es') : OrderedTable es' := by
  induction path generalizing o es es' with
  | nil => exact hf hes h
  | cons k ks ih =>
    rw [Toml.alter] at h
    split at h
    · obtain ⟨t, ht, rfl⟩ := Option.map_eq_some_iff.1 h
      exact hes.insert (ih orderedTable_nil ht)
    · next hk =>
      split at h
      · cases h
      · obtain ⟨t, ht, rfl⟩ := Option.map_eq_some_iff.1 h
        exact hes.insert (ih (hes.get? hk) ht)
    · next items hk =>
      have hitems := orderedItems_itemsToJson_iff.1 (hes.get? hk)
      split at h
      · next t₀ hlast =>
        obtain ⟨t, ht, rfl⟩ := Option.map_eq_some_iff.1 h
        refine hes.insert (orderedItems_itemsToJson_iff.2 fun t' ht' => ?_)
        rcases List.mem_append.1 ht' with ht' | ht'
        · exact hitems t' (List.dropLast_subset items ht')
        · obtain rfl := List.mem_singleton.1 ht'
          exact ih (hitems t₀ (List.mem_of_getLast? hlast)) ht
      · cases h
    · cases h

theorem put (hes : OrderedTable es) {path : List String} {j : Json} (hj : j.Ordered) {o : Origin}
    {es' : Assoc Node} (h : put path j o es = some es') : OrderedTable es' := by
  unfold Toml.put at h
  split at h
  · cases h
  · refine hes.alter (fun ht hf => ?_) h
    split at hf
    · cases hf
    · cases hf
      exact ht.insert hj

theorem atLast (hes : OrderedTable es) {path : List String} {f : Option Node → Option Node}
    (hf : ∀ {n n'}, (∀ m ∈ n, m.toJson.Ordered) → f n = some n' → n'.toJson.Ordered)
    {es' : Assoc Node} (h : atLast path f es = some es') : OrderedTable es' := by
  unfold Toml.atLast at h
  split at h
  · cases h
  · refine hes.alter (fun ht h => ?_) h
    obtain ⟨n, hn, rfl⟩ := Option.map_eq_some_iff.1 h
    exact ht.insert (hf (fun m hm => ht.get? hm) hn)

end OrderedTable

theorem ordered_of_openTable {n : Option Node} {n' : Node} (hn : ∀ m ∈ n, m.toJson.Ordered)
    (h : openTable n = some n') : n'.toJson.Ordered := by
  unfold openTable at h
  split at h
  · cases h
    exact orderedTable_nil
  · next t =>
    cases h
    exact hn (.table .implied t) rfl
  · cases h

theorem ordered_of_addTable {n : Option Node} {n' : Node} (hn : ∀ m ∈ n, m.toJson.Ordered)
    (h : addTable n = some n') : n'.toJson.Ordered := by
  unfold addTable at h
  split at h
  · cases h
    exact orderedItems_itemsToJson_iff.2 (by simp [orderedTable_nil])
  · next items =>
    cases h
    have hitems := orderedItems_itemsToJson_iff.1 (hn (.tables items) rfl)
    refine orderedItems_itemsToJson_iff.2 fun t ht => ?_
    rcases List.mem_append.1 ht with ht | ht
    · exact hitems t ht
    · obtain rfl := List.mem_singleton.1 ht
      exact orderedTable_nil
  · cases h

/-! ### What is written -/

/-- What is written becomes a value in order. -/
def OrderedValue (w : Written) : Prop := ∀ j ∈ w.toJson?, j.Ordered

/-- The entries of an inline table keep a table in order. -/
def KeepOrder (es : List (List String × Written)) : Prop :=
  ∀ {acc acc' : Assoc Node}, OrderedTable acc → inlineTable? acc es = some acc' → OrderedTable acc'

theorem orderedValue_array {ws : List Written} (h : ∀ w ∈ ws, OrderedValue w) :
    OrderedValue (.array ws) := by
  suffices hitems : ∀ js ∈ listToJson? ws, Json.OrderedItems js by
    intro j hj
    obtain ⟨js, hjs, rfl⟩ := Option.map_eq_some_iff.1 hj
    exact hitems js hjs
  induction ws with
  | nil =>
    intro js hjs
    cases hjs
    trivial
  | cons w ws ih =>
    intro js hjs
    simp only [listToJson?, Option.mem_def, Option.bind_eq_bind, Option.bind_eq_some_iff] at hjs
    obtain ⟨j, hj, js', hjs', heq⟩ := hjs
    obtain rfl := Option.some.inj heq
    obtain ⟨hw, hws⟩ := List.forall_mem_cons.1 h
    exact ⟨hw j hj, ih hws js' hjs'⟩

theorem keepOrder_nil : KeepOrder [] := by
  intro acc acc' hacc h
  cases h
  exact hacc

theorem KeepOrder.cons {path : List String} {w : Written} {es : List (List String × Written)}
    (hw : OrderedValue w) (hes : KeepOrder es) : KeepOrder ((path, w) :: es) := by
  intro acc acc' hacc h
  simp only [inlineTable?, Option.bind_eq_bind, Option.bind_eq_some_iff] at h
  obtain ⟨j, hj, acc₁, hput, h⟩ := h
  exact hes (hacc.put (hw j hj) hput) h

theorem orderedValue_table {es : List (List String × Written)} (h : KeepOrder es) :
    OrderedValue (.table es) := by
  intro j hj
  obtain ⟨t, ht, rfl⟩ := Option.map_eq_some_iff.1 hj
  exact h orderedTable_nil ht

/-- All that is read is in order: values, the items of an array, the entries of an inline table. -/
theorem ordered_of_read (fuel : Nat) :
    (∀ {depth cs r}, readValue? fuel depth cs = some r → OrderedValue r.1) ∧
    (∀ {depth cs r}, readItems? fuel depth cs = some r → ∀ w ∈ r.1, OrderedValue w) ∧
    (∀ {depth cs r}, readEntries? fuel depth cs = some r → KeepOrder r.1) := by
  induction fuel with
  | zero =>
    refine ⟨fun h => ?_, fun h => ?_, fun h => ?_⟩
    · cases h
    · cases h
    · cases h
  | succ fuel ih =>
    obtain ⟨hvalue, hitems, hentries⟩ := ih
    refine ⟨fun h => ?_, fun h => ?_, fun h => ?_⟩
    · unfold readValue? at h
      split at h
      · split at h
        · cases h
        · obtain ⟨p, hp, rfl⟩ := Option.map_eq_some_iff.1 h
          exact orderedValue_array (hitems hp)
      · split at h
        · cases h
        · split at h
          · cases h
            exact orderedValue_table keepOrder_nil
          · obtain ⟨p, hp, rfl⟩ := Option.map_eq_some_iff.1 h
            exact orderedValue_table (hentries hp)
      · obtain ⟨p, hp, rfl⟩ := Option.map_eq_some_iff.1 h
        rintro j ⟨⟩
        exact ordered_of_scalar? hp
    · simp only [readItems?, Option.bind_eq_bind, Option.bind_eq_some_iff] at h
      obtain ⟨_, -, h⟩ := h
      split at h
      · cases h
        simp
      · obtain ⟨p, hp, h⟩ := Option.bind_eq_some_iff.1 h
        obtain ⟨_, -, h⟩ := Option.bind_eq_some_iff.1 h
        split at h
        · obtain ⟨q, hq, h⟩ := Option.bind_eq_some_iff.1 h
          cases h
          exact List.forall_mem_cons.2 ⟨hvalue hp, hitems hq⟩
        · cases h
          exact List.forall_mem_cons.2 ⟨hvalue hp, by simp⟩
        · cases h
    · simp only [readEntries?, Option.bind_eq_bind, Option.bind_eq_some_iff] at h
      obtain ⟨_, -, h⟩ := h
      split at h
      · obtain ⟨p, hp, h⟩ := Option.bind_eq_some_iff.1 h
        split at h
        · obtain ⟨q, hq, h⟩ := Option.bind_eq_some_iff.1 h
          cases h
          exact KeepOrder.cons (hvalue hp) (hentries hq)
        · cases h
          exact KeepOrder.cons (hvalue hp) keepOrder_nil
        · cases h
      · cases h

/-! ### Lines -/

/-- What a line assigns is in order. -/
def OrderedLine : Line → Prop
  | .header _ => True
  | .listHeader _ => True
  | .assign _ w => OrderedValue w

theorem orderedLine_of_readLine? {cs : List Char} {r : Line × List Char}
    (h : readLine? cs = some r) : OrderedLine r.1 := by
  unfold readLine? at h
  split at h
  · simp only [Option.bind_eq_bind, Option.bind_eq_some_iff] at h
    obtain ⟨_, -, h⟩ := h
    split at h
    · obtain ⟨_, -, h⟩ := Option.bind_eq_some_iff.1 h
      cases h
      trivial
    · cases h
  · simp only [Option.bind_eq_bind, Option.bind_eq_some_iff] at h
    obtain ⟨_, -, h⟩ := h
    split at h
    · obtain ⟨_, -, h⟩ := Option.bind_eq_some_iff.1 h
      cases h
      trivial
    · cases h
  · simp only [Option.bind_eq_bind, Option.bind_eq_some_iff] at h
    obtain ⟨_, -, h⟩ := h
    split at h
    · obtain ⟨p, hp, h⟩ := Option.bind_eq_some_iff.1 h
      obtain ⟨_, -, h⟩ := Option.bind_eq_some_iff.1 h
      cases h
      exact (ordered_of_read _).1 hp
    · cases h

theorem orderedLine_of_readLines? {fuel : Nat} {cs : List Char} {ls : List Line}
    (h : readLines? fuel cs = some ls) : ∀ l ∈ ls, OrderedLine l := by
  induction fuel generalizing cs ls with
  | zero => cases h
  | succ fuel ih =>
    simp only [readLines?, Option.bind_eq_bind, Option.bind_eq_some_iff] at h
    obtain ⟨_, -, h⟩ := h
    split at h
    · cases h
      simp
    · obtain ⟨p, hp, h⟩ := Option.bind_eq_some_iff.1 h
      obtain ⟨ls', hls, h⟩ := Option.bind_eq_some_iff.1 h
      cases h
      exact List.forall_mem_cons.2 ⟨orderedLine_of_readLine? hp, ih hls⟩

theorem OrderedTable.addTo? {es : Assoc Node} (hes : OrderedTable es) {header : List String}
    {l : Line} (hl : OrderedLine l) {r : List String × Assoc Node}
    (h : l.addTo? header es = some r) : OrderedTable r.2 := by
  cases l with
  | header path =>
    obtain ⟨es', hes', rfl⟩ := Option.map_eq_some_iff.1 h
    exact hes.atLast ordered_of_openTable hes'
  | listHeader path =>
    obtain ⟨es', hes', rfl⟩ := Option.map_eq_some_iff.1 h
    exact hes.atLast ordered_of_addTable hes'
  | assign path w =>
    simp only [Line.addTo?, Option.bind_eq_bind, Option.bind_eq_some_iff] at h
    obtain ⟨j, hj, es', hes', h⟩ := h
    cases h
    exact hes.alter (fun ht hput => ht.put (hl j hj) hput) hes'

theorem orderedTable_of_foldlM {ls : List Line} (hls : ∀ l ∈ ls, OrderedLine l)
    {s s' : List String × Assoc Node} (hs : OrderedTable s.2)
    (h : ls.foldlM (fun s l => Line.addTo? s.1 s.2 l) s = some s') : OrderedTable s'.2 := by
  induction ls generalizing s with
  | nil =>
    cases h
    exact hs
  | cons l ls ih =>
    rw [List.foldlM_cons] at h
    obtain ⟨s₁, hs₁, h⟩ := Option.bind_eq_some_iff.1 h
    obtain ⟨hl, hls⟩ := List.forall_mem_cons.1 hls
    exact ih hls (hs.addTo? hl hs₁) h

/-- A document is read as a table in order. -/
theorem ordered_of_parse? {text : String} {j : Json} (h : parse? text = some j) : j.Ordered := by
  simp only [parse?, Option.bind_eq_bind, Option.bind_eq_some_iff] at h
  obtain ⟨ls, hls, es, hes, h⟩ := h
  obtain ⟨s, hs, rfl⟩ := Option.map_eq_some_iff.1 hes
  cases h
  exact orderedTable_of_foldlM (orderedLine_of_readLines? hls) orderedTable_nil hs

end Toml

end SqlKit
