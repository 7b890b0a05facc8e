import SqlKit.Proofs.Sqlite.Sessions
import SqlKit.Sqlite.Tables

/-!
# Widths of rows

The rows of a statement have as many data as the statement has columns, so that no row is refused for
its width and any number of rows may be left out without a change to the others.

    (fill terms args).1.length = terms.length                          (length_fill)
    a statement of tables has even rows                                (even_language)
    fetching up to n rows takes the first n of all                     (on_fetch_of_ne_zero)
-/

namespace SqlKit.Sqlite

variable {δ : Type}

/-! ## Rows of a width -/

/-- Each row has so many data. -/
def IsWide (k : Nat) (rows : List (List Datum)) : Prop := ∀ row ∈ rows, row.length = k

/-- Whatever the statement gives are rows of that width. -/
def Effect.Even (k : Nat) : Effect δ → Prop
  | .begin _ | .commit | .rollback => True
  | .give rows => IsWide k rows
  | .read rows => ∀ x, IsWide k (rows x)
  | .change _ apply => ∀ x ch, apply x = .ok ch → IsWide k ch.rows

/-- Every statement gives a datum for each of its columns. -/
def Language.Even (lang : Language δ) : Prop :=
  ∀ sql x p, lang sql x = .ok p → ∀ args, (p.effect args).Even p.columns.length

theorem Language.Even.meaning {lang : Language δ} (even : lang.Even) {x : δ} {sql : String}
    {params : List Value} {columns : List String} {effect : Effect δ}
    (h : lang.meaning x sql params = .ok (columns, effect)) : effect.Even columns.length := by
  obtain ⟨p, hp, rfl, hbind⟩ := Language.exists_prepared h
  obtain ⟨args, rfl⟩ := Prepared.exists_args hbind
  exact even sql x p hp args

namespace World

/-- What is run gives rows of its width. -/
theorem isWide_run {w : World δ} {c k : Nat} {effect : Effect δ} (even : effect.Even k)
    {rows : List (List Datum)} (h : (w.run c effect).1 = .ok rows) : IsWide k rows := by
  have hnone {r : Result Unit} (h : r.map (fun _ => ([] : List (List Datum))) = .ok rows) :
      IsWide k rows := by
    cases r with
    | error e => cases h
    | ok u => cases h; exact fun _ hrow => absurd hrow (List.not_mem_nil)
  cases effect with
  | begin writes => exact hnone h
  | commit => exact hnone h
  | rollback => exact hnone h
  | give rows' => cases h; exact even
  | read rows' => cases h; exact even _
  | change isCounted apply =>
    change (w.change c isCounted apply).1 = .ok rows at h
    unfold change at h
    cases hx : w.writable? c with
    | none => rw [hx] at h; cases h
    | some x =>
      rw [hx] at h
      dsimp only at h
      cases hch : apply x >>= w.checked c with
      | error e => rw [hch] at h; cases h
      | ok ch =>
        rw [hch] at h
        cases h
        obtain ⟨ch', happly, hchecked⟩ := exists_of_bind_eq_ok hch
        unfold checked at hchecked
        split at hchecked
        · cases hchecked
        · cases hchecked
          exact even x _ happly

end World

/-! ## Rows of a query -/

/-- Results that are all there can be had for the first elements alone. -/
theorem mapM_take {ε α β : Type} {f : α → Except ε β} {l : List α} {l' : List β}
    (h : l.mapM f = .ok l') (n : Nat) : (l.take n).mapM f = .ok (l'.take n) := by
  induction l generalizing l' n with
  | nil => cases h; cases n <;> rfl
  | cons a l ih =>
    rw [List.mapM_cons] at h
    cases ha : f a with
    | error e => rw [ha] at h; cases h
    | ok b =>
      rw [ha] at h
      cases hl : l.mapM f with
      | error e => simp only [hl] at h; cases h
      | ok bs =>
        simp only [hl] at h
        cases h
        cases n with
        | zero => rfl
        | succ n =>
          rw [List.take_succ_cons, List.take_succ_cons, List.mapM_cons, ha, ih hl n]
          rfl

/-- Rows that are as wide as the columns are all accepted. -/
theorem exists_mapM_ofLists? (columns : List String) {rows : List (List Datum)}
    (h : IsWide columns.length rows) :
    ∃ rs, rows.mapM (fun row => Row.ofLists? columns (row.map Datum.toValue)) = .ok rs := by
  induction rows with
  | nil => exact ⟨[], rfl⟩
  | cons row rows ih =>
    obtain ⟨rs, hrs⟩ := ih fun row' hrow => h row' (List.mem_cons_of_mem _ hrow)
    have hwidth : columns.length = (row.map Datum.toValue).length := by
      rw [List.length_map, h row (List.mem_cons_self ..)]
    refine ⟨⟨columns, row.map Datum.toValue, hwidth⟩ :: rs, ?_⟩
    rw [List.mapM_cons, Row.ofLists?, dif_pos hwidth, hrs]
    rfl

/-- Up to any number of rows but none, a query gives the first of all its rows and does the same. -/
theorem World.on_fetch_of_ne_zero {lang : Language δ} (even : lang.Even) (c : Nat) (sql : String)
    (params : List Value) {n : Nat} (hn : n ≠ 0) (w : World δ) :
    (fetch lang c sql params (some n)).on w =
      (((fetch lang c sql params none).on w).1.map (List.take n),
        ((fetch lang c sql params none).on w).2) := by
  have hlimit : ¬ some n = some 0 := fun h => hn (Option.some.inj h)
  rw [on_fetch, on_fetch]
  cases hm : lang.meaning (w.view c) sql params with
  | error e => rfl
  | ok m =>
    obtain ⟨columns, effect⟩ := m
    have heffect := even.meaning hm
    simp only [if_neg hlimit, reduceCtorEq, if_false]
    cases hrun : w.run c effect with
    | mk r w' =>
      cases r with
      | error e => rfl
      | ok rows =>
        obtain ⟨rs, hrs⟩ := exists_mapM_ofLists? columns (isWide_run heffect (congrArg Prod.fst hrun))
        simp only [upTo, hrs, mapM_take hrs n]
        rfl

/-! ## Tables -/

/-- Rows that are written out are as wide as the columns that they are given. -/
def Statement.Even : Statement → Prop
  | .values columns rows => ∀ row ∈ rows, row.length = columns.length
  | .begin _ | .commit | .rollback | .create .. | .insert .. | .select .. | .delete .. => True

namespace Statement

theorem even_insert? {table column : String} {ts : List Token} {s : Statement}
    (h : insert? table column ts = some s) : s.Even := by
  unfold insert? at h
  simp only [Option.bind_eq_bind, Option.bind_eq_some_iff] at h
  obtain ⟨⟨rows, rest⟩, -, terms, -, h⟩ := h
  split at h <;> cases h <;> trivial

theorem even_select? {ts : List Token} {s : Statement} (h : select? ts = some s) : s.Even := by
  unfold select? at h
  split at h <;> simp only [Option.bind_eq_bind, Option.bind_eq_some_iff] at h
  · obtain ⟨⟨filter, rest⟩, -, descending, -, h⟩ := h
    cases h
    trivial
  · obtain ⟨⟨filter, rest⟩, -, descending, -, h⟩ := h
    cases h
    trivial
  · obtain ⟨⟨items, rest⟩, -, h⟩ := h
    split at h <;> cases h
    intro row hrow
    obtain rfl := List.mem_singleton.1 hrow
    rw [List.length_map, List.length_map]

theorem even_values? {ts : List Token} {s : Statement} (h : values? ts = some s) : s.Even := by
  unfold values? at h
  simp only [Option.bind_eq_bind, Option.bind_eq_some_iff] at h
  obtain ⟨⟨rows, rest⟩, -, h⟩ := h
  split at h
  · split at h
    · next hall =>
      cases h
      intro row hrow
      rw [List.length_map, List.length_range]
      exact of_decide_eq_true (List.all_eq_true.1 hall row hrow)
    · cases h
  · cases h

theorem even_ofTokens? {place : Nat} {ts : List Token} {s : Statement}
    (h : ofTokens? place ts = some s) : s.Even := by
  unfold ofTokens? at h
  split at h
  case h_1 => split at h <;> cases h <;> trivial
  case h_9 => exact even_insert? h
  case h_10 => exact even_select? h
  case h_11 => exact even_values? h
  case h_12 =>
    simp only [Option.bind_eq_bind, Option.bind_eq_some_iff] at h
    obtain ⟨⟨filter, rest⟩, -, h⟩ := h
    split at h <;> cases h
    trivial
  all_goals
    cases h <;> trivial

end Statement

namespace Tables

theorem length_fill (terms : List Term) (args : List Datum) :
    (fill terms args).1.length = terms.length := by
  induction terms generalizing args with
  | nil => rfl
  | cons t terms ih => cases t <;> exact congrArg (· + 1) (ih _)

theorem isWide_fillRows {rows : List (List Term)} {k : Nat} (h : ∀ row ∈ rows, row.length = k)
    (args : List Datum) : IsWide k (fillRows rows args) := by
  induction rows generalizing args with
  | nil => exact fun _ hrow => absurd hrow List.not_mem_nil
  | cons row rows ih =>
    intro row' hrow'
    rcases List.mem_cons.1 hrow' with rfl | hrest
    · rw [length_fill]
      exact h row (List.mem_cons_self ..)
    · exact ih (fun r hr => h r (List.mem_cons_of_mem _ hr)) _ row' hrest

theorem isWide_rowsOf (keys : List Int64) : IsWide 1 (rowsOf keys) := by
  intro row hrow
  obtain ⟨k, -, rfl⟩ := List.mem_map.1 hrow
  rfl

/-- Inserted rows are given as their keys, if they are asked for. -/
theorem isWide_insertRows {name : String} {returning : Bool} {ds : List Datum} {ts : Tables}
    {ch : Change Tables} (h : insertRows name returning ds ts = .ok ch) (column : String) :
    IsWide (if returning then [column] else []).length ch.rows := by
  obtain ⟨t, -, h⟩ := exists_of_bind_eq_ok h
  obtain ⟨⟨ks, t'⟩, -, h⟩ := exists_of_bind_eq_ok h
  cases h
  cases returning with
  | false => exact fun _ hrow => absurd hrow List.not_mem_nil
  | true => exact isWide_rowsOf ks

theorem even_prepare {sql : String} {ts : Tables} {s : Statement} {p : Prepared Tables}
    (hp : prepare sql ts s = .ok p) (hs : s.Even) (args : List Datum) :
    (p.effect args).Even p.columns.length := by
  cases s with
  | begin | commit | rollback => cases hp; trivial
  | create name column place =>
    unfold prepare at hp
    dsimp only at hp
    split at hp <;> cases hp
    intro x ch hch
    cases hch
    exact fun _ hrow => absurd hrow List.not_mem_nil
  | insert name column terms returning =>
    obtain ⟨t, -, hp⟩ := exists_of_bind_eq_ok hp
    obtain ⟨-, -, hp⟩ := exists_of_bind_eq_ok hp
    cases hp
    exact fun x ch hch => isWide_insertRows hch t.column
  | select name column filter descending =>
    obtain ⟨t, -, hp⟩ := exists_of_bind_eq_ok hp
    obtain ⟨-, -, hp⟩ := exists_of_bind_eq_ok hp
    cases hp
    exact fun x => isWide_rowsOf _
  | delete name filter =>
    obtain ⟨t, -, hp⟩ := exists_of_bind_eq_ok hp
    cases hp
    intro x ch hch
    obtain ⟨t', -, hch⟩ := exists_of_bind_eq_ok hch
    cases hch
    exact fun _ hrow => absurd hrow List.not_mem_nil
  | values columns rows =>
    cases hp
    exact isWide_fillRows hs args

/-- Statements on tables give even rows. -/
theorem even_language : language.Even := by
  intro sql ts p hp args
  unfold language at hp
  cases hs : Statement.ofText? sql with
  | error e => rw [hs] at hp; cases hp
  | ok s =>
    rw [hs] at hp
    refine even_prepare hp ?_ args
    unfold Statement.ofText? at hs
    dsimp only at hs
    split at hs
    · next hs' => cases hs; exact Statement.even_ofTokens? hs'
    · cases hs

end Tables

end SqlKit.Sqlite
