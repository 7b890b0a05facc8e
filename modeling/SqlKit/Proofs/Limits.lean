import SqlKit.Mysql.Vendor
import SqlKit.Postgres.Vendor
import SqlKit.Proofs.Engine.Runs
import SqlKit.Proofs.Sqlite.Widths
import SqlKit.Session.Scripted
import SqlKit.Sqlite.Vendor

/-!
# Queries with a limit

A query with a limit may be run to its end and its rows cut off, or be stopped early.  Cut off behind
its end, it has counted the rows that were not wanted, too.  Stopped early, it has done its work with
the first row; but if not even one row is wanted, it has done nothing.

    cutting off is right ↔ nothing is cut off                          (cutShort_iff_of_provided)
    stopping early is right ↔ a row is wanted, or nothing is done anyway   (Sqlite.cutShort_iff)
-/

namespace SqlKit

/-- A query with a limit is the query cut short: it gives the first rows of all, or the same error,
leaves the database the same, and what it gives is what is counted. -/
structure Connection.CutShort {σ ω : Type} (c : Connection σ) (world : σ → ω) (sql : String)
    (params : List Value) (n : Nat) (s : σ) : Prop where
  rows : ((c.fetchMany sql params n).on s).1 = ((c.fetchAll sql params).on s).1.map (List.take n)
  world : world ((c.fetchMany sql params n).on s).2 = world ((c.fetchAll sql params).on s).2
  count : ∀ rows, ((c.fetchMany sql params n).on s).1 = .ok rows →
    c.rowCount ((c.fetchMany sql params n).on s).2 = rows.length

/-- A connection that cuts rows off has counted them all. -/
theorem Connection.cutShort_iff_of_provided {σ ω : Type} {c : Connection σ} (world : σ → ω)
    {sql : String} {params : List Value} {n : Nat} {s : σ}
    (provided : c.fetchMany sql params n = do return (← c.fetchAll sql params).take n)
    (counts : ∀ rows, ((c.fetchAll sql params).on s).1 = .ok rows →
      c.rowCount ((c.fetchAll sql params).on s).2 = rows.length) :
    c.CutShort world sql params n s ↔
      ∀ rows, ((c.fetchAll sql params).on s).1 = .ok rows → rows.length ≤ n := by
  have hmany : (c.fetchMany sql params n).on s =
      (((c.fetchAll sql params).on s).1.map (List.take n), ((c.fetchAll sql params).on s).2) := by
    rw [provided, Action.on_bind]
    cases (c.fetchAll sql params).on s with
    | mk r s' => cases r <;> rfl
  constructor
  · intro h rows hrows
    have hcount := h.count (rows.take n) (by rw [hmany, hrows]; rfl)
    rw [hmany, counts rows hrows, List.length_take] at hcount
    omega
  · intro h
    refine ⟨by rw [hmany], by rw [hmany], fun rows' hrows' => ?_⟩
    rw [hmany] at hrows' ⊢
    cases hrows : ((c.fetchAll sql params).on s).1 with
    | error x => rw [hrows] at hrows'; cases hrows'
    | ok rows =>
      rw [hrows] at hrows'
      cases hrows'
      rw [counts rows hrows, List.take_of_length_le (h rows hrows)]

namespace Engine

variable {ω : Type} (v : Vendor ω) {e : Engine ω} {who : Holder} {sql : String}
  {params : List Value}

/-- Queries that cannot be stopped are cut off. -/
theorem cutShort_iff_of_not_canStop (hv : v.canStop = false) {n : Nat} :
    (session v who).CutShort Engine.world sql params n e ↔
      ∀ rows, (((session v who).fetchAll sql params).on e).1 = .ok rows → rows.length ≤ n := by
  refine Connection.cutShort_iff_of_provided _ ?_ fun rows => rowCount_query v
  show (if v.canStop then _ else _) = _
  rw [hv]
  rfl

end Engine

namespace Sqlite

variable {δ : Type} {lang : Language δ} (name : String) (config : PoolConfig)
  {e : Engine (World δ)} {who : Holder} {sql : String} {params : List Value} {n : Nat}

/-- The statement of a handle is found fit to be run. -/
def Starts (lang : Language δ) (who : Holder) (sql : String) (params : List Value)
    (e : Engine (World δ)) : Prop :=
  ∃ c, e.held? who = some c ∧ (lang.meaning (e.world.view c) sql params).isOk = true

/-- What is not found fit to be run fails, and nothing else happens. -/
theorem exists_on_query_of_not_starts (h : ¬ Starts lang who sql params e) :
    ∃ x, ∀ limit, (Engine.query (vendor lang name config) who sql params limit).on e =
      (.error x, e) := by
  cases hc : e.held? who with
  | none => exact ⟨_, Engine.on_query_of_not_held _ hc sql params⟩
  | some c =>
    cases hm : lang.meaning (e.world.view c) sql params with
    | ok m => exact absurd ⟨c, hc, by rw [hm]; rfl⟩ h
    | error x =>
      refine ⟨x, fun limit => ?_⟩
      have hfetch : ((vendor lang name config).fetch c sql params limit).on e.world =
          (.error x, e.world) := by
        refine (World.on_fetch lang c sql params limit e.world).trans ?_
        rw [hm]
      rw [Engine.on_query _ hc, hfetch]

theorem cutShort_of_not_starts (h : ¬ Starts lang who sql params e) :
    (Engine.session (vendor lang name config) who).CutShort Engine.world sql params n e := by
  obtain ⟨x, hx⟩ := exists_on_query_of_not_starts name config h
  refine ⟨?_, ?_, fun rows => Engine.rowCount_query _⟩
  · show ((Engine.query _ who sql params (some n)).on e).1 =
      ((Engine.query _ who sql params none).on e).1.map _
    rw [hx, hx]
    rfl
  · show ((Engine.query _ who sql params (some n)).on e).2.world =
      ((Engine.query _ who sql params none).on e).2.world
    rw [hx, hx]

/-- With a row to give, a query that is stopped early has done all that the whole query does. -/
theorem cutShort_of_ne_zero (even : lang.Even) (hn : n ≠ 0) {c : Nat} (hc : e.held? who = some c) :
    (Engine.session (vendor lang name config) who).CutShort Engine.world sql params n e := by
  have hfetch : ((vendor lang name config).fetch c sql params (some n)).on e.world =
      ((((vendor lang name config).fetch c sql params none).on e.world).1.map (List.take n),
        (((vendor lang name config).fetch c sql params none).on e.world).2) :=
    World.on_fetch_of_ne_zero even c sql params hn e.world
  refine ⟨?_, ?_, fun rows => Engine.rowCount_query _⟩
  · show ((Engine.query _ who sql params (some n)).on e).1 =
      ((Engine.query _ who sql params none).on e).1.map _
    rw [Engine.on_query _ hc, Engine.on_query _ hc, hfetch]
    cases ((vendor lang name config).fetch c sql params none).on e.world with
    | mk r w => cases r <;> rfl
  · show ((Engine.query _ who sql params (some n)).on e).2.world =
      ((Engine.query _ who sql params none).on e).2.world
    rw [Engine.world_query _ hc, Engine.world_query _ hc, hfetch]

/-- A query of which no row is wanted succeeds and does nothing. -/
theorem fetchMany_zero (h : Starts lang who sql params e) :
    (((Engine.session (vendor lang name config) who).fetchMany sql params 0).on e).1 = .ok [] ∧
      (((Engine.session (vendor lang name config) who).fetchMany sql params 0).on e).2.world =
        e.world := by
  obtain ⟨c, hc, hmeaning⟩ := h
  have hfetch : ((vendor lang name config).fetch c sql params (some 0)).on e.world =
      (.ok [], e.world) := by
    refine (World.on_fetch lang c sql params (some 0) e.world).trans ?_
    cases hm : lang.meaning (e.world.view c) sql params with
    | error x => rw [hm] at hmeaning; cases hmeaning
    | ok m => rfl
  show ((Engine.query (vendor lang name config) who sql params (some 0)).on e).1 = _ ∧
    ((Engine.query (vendor lang name config) who sql params (some 0)).on e).2.world = _
  rw [Engine.on_query _ hc, hfetch]
  exact ⟨rfl, rfl⟩

/-- Stopping early is right if a row is wanted, or if the whole query does nothing and succeeds. -/
theorem cutShort_iff (even : lang.Even) :
    (Engine.session (vendor lang name config) who).CutShort Engine.world sql params n e ↔
      n ≠ 0 ∨ ¬ Starts lang who sql params e ∨
        let whole := ((Engine.session (vendor lang name config) who).fetchAll sql params).on e
        whole.1.isOk = true ∧ whole.2.world = e.world := by
  rcases Classical.em (Starts lang who sql params e) with hstarts | hunfit
  case inr => exact ⟨fun _ => .inr (.inl hunfit), fun _ => cutShort_of_not_starts name config hunfit⟩
  obtain ⟨c, hc, -⟩ := id hstarts
  by_cases hn : n ≠ 0
  · exact ⟨fun _ => .inl hn, fun _ => cutShort_of_ne_zero name config even hn hc⟩
  obtain rfl := Decidable.not_not.1 hn
  obtain ⟨hnone, hworld⟩ := fetchMany_zero name config hstarts
  constructor
  · intro h
    refine .inr (.inr ⟨?_, h.world.symm.trans hworld⟩)
    have hrows := h.rows
    rw [hnone] at hrows
    cases hwhole : (((Engine.session (vendor lang name config) who).fetchAll sql params).on e).1 with
    | error x => rw [hwhole] at hrows; cases hrows
    | ok rows => rfl
  · rintro (hwanted | hunfit | ⟨hok, hsame⟩)
    · exact absurd hwanted hn
    · exact absurd hstarts hunfit
    · refine ⟨?_, hworld.trans hsame.symm, fun rows => Engine.rowCount_query _⟩
      rw [hnone]
      cases hwhole : (((Engine.session (vendor lang name config) who).fetchAll sql params).on e).1 with
      | error x => rw [hwhole] at hok; cases hok
      | ok rows => rfl

end Sqlite

/-! ## Scripted connections -/

namespace Scripted

theorem on_call (record : Call) (sql : String) (count : Nat) (s : State) :
    (call record sql count).on s =
      let s' := { s with log := s.log ++ [record], rules := (Rule.answer? sql s.rules).2 }
      match (Rule.answer? sql s.rules).1 with
      | some x => (.error x, s')
      | none => (.ok count, { s' with rowCount := count }) := by
  have hget : (get : Action State State).on s = (.ok s, s) := rfl
  unfold call
  rw [Action.on_bind, hget]
  cases h : Rule.answer? sql s.rules with
  | mk e rules =>
    dsimp only
    rw [h]
    cases e <;> rfl

/-- A query that succeeds gives the rows that it counts. -/
theorem rowCount_fetchAll {sql : String} {params : List Value} {s : State} {rows : List Row}
    (h : ((connection.fetchAll sql params).on s).1 = .ok rows) :
    connection.rowCount ((connection.fetchAll sql params).on s).2 = rows.length := by
  have hfetch : (connection.fetchAll sql params).on s =
      (call (.fetch sql params) sql s.rows >>= fun n => pure (answer n)).on s := rfl
  rw [hfetch, Action.on_bind, on_call] at h ⊢
  cases hrule : (Rule.answer? sql s.rules).1 with
  | some x => simp only [hrule] at h; cases h
  | none =>
    simp only [hrule] at h ⊢
    cases h
    exact (length_answer s.rows).symm

end Scripted

/-! ## Every engine -/

namespace Sqlite

/-- An engine with a handle in front of an empty table. -/
def stocked : Engine (World Tables) :=
  let v := vendor Tables.language memory ⟨0, 1, ⟨0⟩, none⟩
  (Engine.new v (.new .own [])).run v [.connect, .connection "a", .begin "a",
    .execute "a" "CREATE TABLE u (id INTEGER PRIMARY KEY)" []]

/-- Inserts a row and gives it. -/
def insertReturning : String := "INSERT INTO \"u\" (\"id\") VALUES (?) RETURNING *"

/-- The keys that the first connection sees in a table. -/
def keys (e : Engine (World Tables)) (table : String) : Option (List Int64) :=
  ((e.world.view 0).get? table).map KeyTable.keys

theorem keys_congr {e e' : Engine (World Tables)} (h : e.world = e'.world) (table : String) :
    keys e table = keys e' table := by
  rw [keys, h, keys]

end Sqlite

end SqlKit
