import SqlKit.Proofs.Pool.Warming
import SqlKit.Proofs.Sqlite.Connections

/-!
# Connecting and the size of the pool

Connecting opens as many connections as the pool is to keep, as long as the database can be opened at
all.  The sizes are taken as they are given, except for a database in memory.

    connecting opens minSize connections                               (opened_connect)
    these are too many iff more are to be kept than allowed            (warming_keeps_size_iff)
-/

namespace SqlKit.Sqlite

variable {δ : Type}

/-- No connection can be opened. -/
def Place.isMissing : Place → Bool
  | .missing _ => true
  | .own | .shared => false

/-- Opening a connection fails just where the database cannot be opened. -/
theorem login_isOk (w : World δ) : (login.on w).1.isOk = !w.place.isMissing := by
  rw [login_eq]
  cases w.place <;> rfl

/-- Stocking a new pool opens all the connections it is to keep, or none. -/
theorem opened_of_stocked {config : PoolConfig} {keeps : Nat} {now : Duration} {w : World δ}
    {x : Result Unit × Pool Holder Nat × World δ}
    (h : Pool.Stocked login.on now (.new config keeps) w x) :
    x.2.2.opened = w.opened + if w.place.isMissing then 0 else config.minSize := by
  have hnone {cs : List Nat} {w' : World δ} (opened : Pool.Opens login.on w cs w')
      (hmissing : w.place.isMissing = true) : cs = [] := by
    cases opened with
    | nil => rfl
    | cons new rest =>
      have hok := login_isOk w
      rw [new, hmissing] at hok
      cases hok
  cases h with
  | full opened count =>
    rename_i cs w'
    have hlength : cs.length = config.minSize := count
    rw [(opens_login opened).1]
    cases hplace : w.place.isMissing with
    | true => rw [hnone opened hplace]; rfl
    | false => exact congrArg (w.opened + ·) hlength
  | failed opened new =>
    rename_i cs w₁ w' y p'
    obtain ⟨rfl, -⟩ := opens_login opened
    have hmissing : w.place.isMissing = true := by
      have hok := login_isOk { w with opened := w.opened + cs.length }
      rw [new] at hok
      change false = !w.place.isMissing at hok
      simpa using hok.symm
    rcases on_login { w with opened := w.opened + cs.length } with ⟨x, hx⟩ | hx
    · rw [new] at hx
      obtain ⟨-, rfl⟩ := Prod.mk.inj hx
      rw [hmissing, hnone opened hmissing]
      rfl
    · rw [new] at hx
      cases hx

/-- Connecting opens as many connections as the pool is to keep, or none. -/
theorem opened_connect (lang : Language δ) (name : String) (config : PoolConfig)
    (e : Engine (World δ)) :
    ((Engine.connect (vendor lang name config)).on e).2.world.opened = e.world.opened +
      if e.isConnected || e.world.place.isMissing then 0 else (poolConfig name config).minSize := by
  cases hconnected : e.isConnected with
  | true =>
    rw [Engine.connect_of_isConnected _ hconnected]
    rfl
  | false =>
    have hcurrent : e.current = none := by simpa [Engine.isConnected] using hconnected
    have hopened := opened_of_stocked (Engine.stocked_connect (vendor lang name config) e)
    rw [Engine.on_connect _ hcurrent rfl, Bool.false_or]
    dsimp only
    split <;> exact hopened

/-- A pool may go beyond its size when it is stocked.  If others may come in between, after a party has
looked at the count and before it counts its own connection, it keeps to the size only where nothing is
to be kept.  If nobody counts the last missing connection in between, or a party stocks all that is
missing at once, it does so if and only if no more connections are to be kept than allowed.  Connecting
does so just as well where a database in memory is opened or nothing at all. -/
theorem warming_keeps_size_iff {ι κ : Type} [DecidableEq ι] [Infinite ι] [Nonempty κ]
    (config : PoolConfig) (keeps : Nat) (lang : Language δ) (name : String) (e : Engine (World δ)) :
    let start : Pool ι κ := .new config keeps
    let suits : Prop := config.minSize ≤ max config.maxSize 1
    ((∀ es event, ¬ (start.run es).Overstocks event) ↔ config.minSize = 0) ∧
      ((∀ es event, start.Unraced es → ¬ (start.run es).Overstocks event) ↔ suits) ∧
      ((∀ es who, let p := start.run es
        who ∉ p.parties.map (·.name) →
          ∀ (ω : Type) (opener : ω → Result κ × ω) (now : Duration) (w : ω),
            (Pool.warm opener who now (p, w)).2.1.size ≤ max p.size p.config.maxSize) ↔ suits) ∧
      (((Engine.connect (vendor lang name config)).on e).2.world.opened ≤
          e.world.opened + max (poolConfig name config).maxSize 1 ↔
        suits ∨ name = memory ∨ e.isConnected = true ∨ e.world.place.isMissing = true) := by
  intro start suits
  refine ⟨Pool.raced_iff config keeps, Pool.unraced_iff config keeps,
    Pool.size_warm_iff config keeps, ?_⟩
  rw [opened_connect, ← Bool.or_eq_true]
  cases e.isConnected || e.world.place.isMissing with
  | true => simp
  | false =>
    by_cases hname : name = memory
    · simp [hname, poolConfig]
    · simp [hname, poolConfig, suits]

/-- A connection is lent to one party after another has found two missing and before it stocks one. -/
theorem warming_keeps_size_iff_lent :
    let config : PoolConfig := ⟨2, 2, ⟨0⟩, none⟩
    let start : Pool Nat Nat := .new config 2
    let es : List (Pool.Event Nat Nat) := [.arrive 0 .stock, .arrive 1 .take, .ask 1 ⟨0⟩,
      .look 1 ⟨0⟩, .reserve 1, .opened 1 ⟨0⟩ (.ok 7), .ask 0 ⟨0⟩]
    let e : Engine (World Unit) :=
      .new (vendor (fun _ _ => .error .notConnected) "data.db" config) (.new .shared ())
    start.Unraced es ∧ ¬ (start.run es).Overstocks (.reserve 0) ∧
      2 ∉ (start.run es).parties.map (·.name) ∧
      (Pool.warm (fun w : Unit => (.ok 8, w)) 2 ⟨0⟩ (start.run es, ())).2.1.size ≤
        max (start.run es).size (start.run es).config.maxSize ∧
      ((Engine.connect (vendor (fun _ _ => .error .notConnected) "data.db" config)).on e).2.world.opened
        ≤ e.world.opened + max (poolConfig "data.db" config).maxSize 1 := by
  intro config start es e
  obtain ⟨-, hrun, hwarm, hconnect⟩ := @warming_keeps_size_iff Unit Nat Nat _ _ _ config 2
    (fun _ _ => .error .notConnected) "data.db" e
  have hsuits : config.minSize ≤ max config.maxSize 1 := by decide
  have hunraced : start.Unraced es := by decide
  have hnew : 2 ∉ (start.run es).parties.map (·.name) := by decide
  have hkeeps := hrun.2 hsuits es (.reserve 0) hunraced
  have hsize := hwarm.2 hsuits es 2 hnew Unit (fun w => (.ok 8, w)) ⟨0⟩ ()
  have hopened := hconnect.2 (.inl hsuits)
  refine ⟨hunraced, hkeeps, hnew, ?_, hopened⟩
  simp only [start]
  exact hsize

/-- A pool of one connection that is to keep two gets two, and so does one that is to keep one, where
two parties look at the count before either adds to it. -/
theorem warming_exceeds_size :
    let greedy : PoolConfig := ⟨2, 1, ⟨0⟩, none⟩
    let fitting : Pool Nat Nat := .new ⟨1, 1, ⟨0⟩, none⟩ 1
    let es : List (Pool.Event Nat Nat) := [.arrive 0 .stock, .arrive 1 .stock, .ask 0 ⟨0⟩, .reserve 0,
      .opened 0 ⟨0⟩ (.ok 7), .shelve 0, .ask 1 ⟨0⟩]
    let v : Vendor (World Unit) := vendor (fun _ _ => .error .notConnected) "data.db" greedy
    let p := (Pool.warm (fun n : Nat => (.ok n, n + 1)) 0 ⟨0⟩ ((.new greedy 1 : Pool Nat Nat), 0)).2.1
    p.size = 2 ∧ p.config.maxSize = 1 ∧
      ((Engine.connect v).on (.new v (.new .shared ()))).2.world.opened = 2 ∧
      (fitting.run es).size = 1 ∧ ((fitting.run es).step (.reserve 1)).size = 2 ∧
      ((fitting.run es).step (.reserve 1)).config.maxSize = 1 :=
  ⟨rfl, rfl, rfl, rfl, rfl, rfl⟩

end SqlKit.Sqlite
