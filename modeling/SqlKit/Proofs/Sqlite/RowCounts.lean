import Mathlib.Algebra.BigOperators.Group.Finset.Basic
import Mathlib.Data.Finset.Dedup
import SqlKit.Proofs.Sqlite.Counts
import SqlKit.Sqlite.Tables

/-!
# Counts and rows

On tables of keys, the rows that a statement changes are the keys by which the tables differ before
and after it.

    insertions and deletions count the keys by which tables differ     (Tables.counts_language)
    a statement's count is right ↔ it counts, or the last count was zero   (execute_count_iff)
-/

namespace SqlKit.Sqlite

namespace Tables

open scoped BigOperators

/-! ## Differences -/

/-- The keys of a table; none if there is no such table. -/
def keysOf (ts : Tables) (name : String) : List Int64 := ((ts.get? name).map KeyTable.keys).getD []

/-- How many keys are in one list only. -/
def differingKeys (ks ks' : List Int64) : Nat :=
  (ks.filter (· ∉ ks')).length + (ks'.filter (· ∉ ks)).length

/-- How many rows are in one of two contents only. -/
def differing (ts ts' : Tables) : Nat :=
  ∑ name ∈ (ts.map Prod.fst ++ ts'.map Prod.fst).toFinset,
    differingKeys (ts.keysOf name) (ts'.keysOf name)

theorem differingKeys_self (ks : List Int64) : differingKeys ks ks = 0 := by
  have hnone : ks.filter (· ∉ ks) = [] := by simp
  rw [differingKeys, hnone]
  rfl

theorem differing_self (ts : Tables) : differing ts ts = 0 :=
  Finset.sum_eq_zero fun _ _ => differingKeys_self _

theorem keysOf_insert_self (ts : Tables) (name : String) (t : KeyTable) :
    keysOf (ts.insert name t) name = t.keys := by
  rw [keysOf, Assoc.get?_insert_self]
  rfl

theorem keysOf_insert_of_ne (ts : Tables) {name name' : String} (h : name' ≠ name) (t : KeyTable) :
    keysOf (ts.insert name t) name' = ts.keysOf name' := by
  rw [keysOf, Assoc.get?_insert_of_ne h, keysOf]

theorem mem_map_fst_insert (ts : Tables) (name : String) (t : KeyTable) :
    name ∈ (ts.insert name t).map Prod.fst := by
  induction ts with
  | nil => simp [Assoc.insert]
  | cons entry ts ih =>
    rw [Assoc.insert]
    split
    · simp
    · split
      · simp
      · exact List.mem_cons_of_mem _ ih

/-- Contents that differ in one table differ in its keys. -/
theorem differing_insert (ts : Tables) (name : String) (t : KeyTable) :
    differing ts (ts.insert name t) = differingKeys (ts.keysOf name) t.keys := by
  unfold differing
  rw [Finset.sum_eq_single_of_mem name, keysOf_insert_self]
  · simp [mem_map_fst_insert]
  · intro name' _ hne
    rw [keysOf_insert_of_ne ts hne]
    exact differingKeys_self _

theorem place_perm (k : Int64) (ks : List Int64) : (place k ks).Perm (k :: ks) := by
  induction ks with
  | nil => exact .refl _
  | cons x xs ih =>
    unfold place
    split
    · exact .refl _
    · exact (ih.cons x).trans (.swap ..)

/-- What is inserted are keys that were not there. -/
theorem insertAll_perm {name : String} {t t' : KeyTable} {ds : List Datum} {ks : List Int64}
    (h : insertAll name t ds = .ok (ks, t')) :
    t'.keys.Perm (ks ++ t.keys) ∧ ∀ k ∈ ks, k ∉ t.keys := by
  induction ds generalizing t ks with
  | nil =>
    cases h
    exact ⟨.refl _, fun _ hk => absurd hk List.not_mem_nil⟩
  | cons d ds ih =>
    obtain ⟨k, -, h⟩ := exists_of_bind_eq_ok h
    cases hinsert : insertKey? t.keys k with
    | none => rw [hinsert] at h; cases h
    | some keys =>
      rw [hinsert] at h
      obtain ⟨⟨ks', t''⟩, hrest, h⟩ := exists_of_bind_eq_ok h
      cases h
      unfold insertKey? at hinsert
      split at hinsert
      · cases hinsert
      · next hnew =>
        cases hinsert
        obtain ⟨hperm, hfresh⟩ := ih hrest
        refine ⟨hperm.trans ?_, fun x hx => ?_⟩
        · exact ((place_perm k t.keys).append_left ks').trans List.perm_middle
        · rcases List.mem_cons.1 hx with rfl | hx
          · exact hnew
          · exact fun hold => hfresh x hx (mem_place.2 (.inr hold))

/-- Keys that are added are those by which the lists differ. -/
theorem differingKeys_of_perm {ks added ks' : List Int64} (hperm : ks'.Perm (added ++ ks))
    (hnew : ∀ k ∈ added, k ∉ ks) : differingKeys ks ks' = added.length := by
  have hkept : ks.filter (· ∉ ks') = [] := by
    refine List.filter_eq_nil_iff.2 fun k hk => ?_
    simp [hperm.mem_iff, hk]
  have hadded : (ks'.filter (· ∉ ks)).length = added.length := by
    rw [(hperm.filter _).length_eq, List.filter_append, List.filter_eq_self.2 (by simpa using hnew)]
    simp
  rw [differingKeys, hkept, hadded, List.length_nil, Nat.zero_add]

/-- Keys that are deleted are those by which the lists differ. -/
theorem differingKeys_filter (p : Int64 → Bool) (ks : List Int64) :
    differingKeys ks (ks.filter fun k => !p k) = (ks.filter p).length := by
  have hgone : ks.filter (· ∉ ks.filter fun k => !p k) = ks.filter p :=
    List.filter_congr fun k hk => by cases h : p k <;> simp [hk, h]
  have hkept : (ks.filter fun k => !p k).filter (· ∉ ks) = [] := by
    refine List.filter_eq_nil_iff.2 fun k hk => ?_
    simp [(List.mem_filter.1 hk).1]
  rw [differingKeys, hgone, hkept, List.length_nil, Nat.add_zero]

/-! ## The language -/

theorem keysOf_of_table? {ts : Tables} {name : String} {t : KeyTable} (h : table? ts name = .ok t) :
    ts.keysOf name = t.keys := by
  unfold table? at h
  split at h
  · next ht => cases h; rw [keysOf, ht]; rfl
  · cases h

theorem differing_insertRows {name : String} {returning : Bool} {ds : List Datum} {ts : Tables}
    {ch : Change Tables} (h : insertRows name returning ds ts = .ok ch) :
    differing ts ch.content = ch.count := by
  obtain ⟨t, ht, h⟩ := exists_of_bind_eq_ok h
  obtain ⟨⟨ks, t'⟩, hinsert, h⟩ := exists_of_bind_eq_ok h
  cases h
  obtain ⟨hperm, hnew⟩ := insertAll_perm hinsert
  rw [differing_insert, keysOf_of_table? ht]
  exact differingKeys_of_perm hperm hnew

theorem differing_deleteRows {name : String} {filter : Option (Comparison × Term)}
    {args : List Datum} {ts : Tables} {ch : Change Tables}
    (h : deleteRows name filter args ts = .ok ch) : differing ts ch.content = ch.count := by
  obtain ⟨t, ht, h⟩ := exists_of_bind_eq_ok h
  rw [List.partition_eq_filter_filter] at h
  cases h
  rw [differing_insert, keysOf_of_table? ht]
  exact differingKeys_filter _ _

/-- Insertions and deletions count the keys by which the tables differ; making a table adds none. -/
theorem counts_language : language.Counts differing where
  same := differing_self
  change sql ts p hp args isCounted apply heffect ch hch := by
    obtain ⟨s, -, hp⟩ := exists_of_bind_eq_ok hp
    cases s with
    | begin | commit | rollback => cases hp; cases heffect
    | create name column place =>
      unfold prepare at hp
      dsimp only at hp
      split at hp
      · cases hp
      · next hnew =>
        cases hp
        cases heffect
        cases hch
        rw [differing_insert, keysOf, hnew]
        rfl
    | insert name column terms returning =>
      obtain ⟨t, -, hp⟩ := exists_of_bind_eq_ok hp
      obtain ⟨-, -, hp⟩ := exists_of_bind_eq_ok hp
      cases hp
      cases heffect
      exact differing_insertRows hch
    | select name column filter descending =>
      obtain ⟨t, -, hp⟩ := exists_of_bind_eq_ok hp
      obtain ⟨-, -, hp⟩ := exists_of_bind_eq_ok hp
      cases hp
      cases heffect
    | delete name filter =>
      obtain ⟨t, -, hp⟩ := exists_of_bind_eq_ok hp
      cases hp
      cases heffect
      exact differing_deleteRows hch
    | values columns rows => cases hp; cases heffect

end Tables

/-! ## Counts that are given -/

section Sessions

variable {δ : Type} (lang : Language δ) (diff : δ → δ → Nat) (user : String) (c : Nat)

/-- The request that has a compiled statement run. -/
def request (q : Compiled) : Engine.Op := .execute user q.sql q.params

/-- How many rows statements change that a handle has run one after another. -/
def changedBy (v : Vendor (World δ)) : Engine (World δ) → List Compiled → Nat
  | _, [] => 0
  | e, q :: qs =>
    e.world.changed lang diff c q.sql q.params + changedBy v (e.after v (request user q)) qs

/-- The statement counts its rows, or the count that it gives instead is zero. -/
def World.Fair (w : World δ) (sql : String) (params : List Value) : Prop :=
  w.counts lang c sql params = true ∨ (w.sessions c).changes = 0

variable {lang diff user c} (hlang : lang.Counts diff) (name : String) (config : PoolConfig)
  {e : Engine (World δ)}
include hlang

/-- A statement gives its own count, or else the one that its connection has. -/
theorem count_of_execute (hc : e.held? (.handle user) = some c) {sql : String}
    {params : List Value} {n : Nat}
    (h : ((Engine.execute (vendor lang name config) (.handle user) sql params).on e).1 = .ok n) :
    n = if e.world.counts lang c sql params then e.world.changed lang diff c sql params
      else (e.world.sessions c).changes := by
  rw [Engine.on_execute _ hc] at h
  have hlast : n = _ := World.eq_changes_of_execute h
  rw [hlast]
  exact World.changes_execute hlang

/-- It is at least what the statement has changed, and just that if the statement is fair. -/
theorem changed_le_and_iff {sql : String} {params : List Value} {n last : Nat}
    (h : n = if e.world.counts lang c sql params then e.world.changed lang diff c sql params
      else last) :
    e.world.changed lang diff c sql params ≤ n ∧ (n = e.world.changed lang diff c sql params ↔
      e.world.counts lang c sql params = true ∨ last = 0) := by
  cases hcounts : e.world.counts lang c sql params with
  | true =>
    rw [hcounts, if_pos rfl] at h
    simp [h]
  | false =>
    rw [hcounts, if_neg Bool.false_ne_true] at h
    rw [World.changed_eq_zero hlang hcounts, h]
    simp

omit hlang in
/-- What holds of each member of a list with those before it holds of the first, and so on. -/
theorem forall_split_cons {α : Type} {P : List α → α → Prop} {x : α} {xs : List α} :
    (∀ before y after, x :: xs = before ++ y :: after → P before y) ↔
      P [] x ∧ ∀ before y after, xs = before ++ y :: after → P (x :: before) y := by
  constructor
  · intro h
    exact ⟨h [] x xs rfl, fun before y after hxs => h (x :: before) y after (by rw [hxs]; rfl)⟩
  · rintro ⟨hx, hrest⟩ before y after hxs
    cases before with
    | nil => cases hxs; exact hx
    | cons z before =>
      cases hxs
      exact hrest before y after rfl

omit hlang in
theorem held?_request (v : Vendor (World δ)) (hc : e.held? (.handle user) = some c) (q : Compiled) :
    (e.after v (request user q)).held? (.handle user) = some c :=
  ((Engine.stays_execute _ v q.sql q.params e).held?_eq _).trans hc

/-- The sum of counts is at least what was changed, and not more if all statements are fair. -/
theorem total_of_executeMany (hc : e.held? (.handle user) = some c) {qs : List Compiled} {total : Nat}
    (h : (((Engine.session (vendor lang name config) (.handle user)).executeMany qs).on e).1 =
      .ok total) :
    changedBy lang diff user c (vendor lang name config) e qs ≤ total ∧
      (total = changedBy lang diff user c (vendor lang name config) e qs ↔
        ∀ before q after, qs = before ++ q :: after →
          (e.run (vendor lang name config) (before.map (request user))).world.Fair lang c
            q.sql q.params) := by
  induction qs generalizing e total with
  | nil =>
    obtain rfl : 0 = total := Except.ok.inj h
    exact ⟨Nat.le_refl 0, fun _ _ _ _ hqs => by simp at hqs, fun _ => rfl⟩
  | cons q qs ih =>
    obtain ⟨n, m, hn, hm, rfl⟩ := Connection.exists_of_executeMany_cons h
    obtain ⟨hle, hfair⟩ := changed_le_and_iff hlang (count_of_execute hlang name config hc hn)
    obtain ⟨hle', hiff⟩ := ih (held?_request _ hc q) hm
    have hsum : n + m = changedBy lang diff user c (vendor lang name config) e (q :: qs) ↔
        n = e.world.changed lang diff c q.sql q.params ∧
          m = changedBy lang diff user c (vendor lang name config)
            (e.after (vendor lang name config) (request user q)) qs := by
      rw [changedBy]
      omega
    refine ⟨Nat.add_le_add hle hle', ?_⟩
    rw [forall_split_cons, hsum, hfair, hiff]
    rfl

end Sessions

/-- A session on an empty table puts a row into it. -/
def rowPut : List Engine.Op := [.execute "a" "INSERT INTO u (id) VALUES (?)" [.int 1]]

end SqlKit.Sqlite
