import SqlKit.Proofs.Engine.Runs
import SqlKit.Proofs.Pool.Errands

/-!
# Order

Whatever an engine is asked for, its pools stay at rest, their parties are handles that hold what the
pool lent them, and only the pool of the engine is open.

    every move keeps the engine in order                               (Orderly.move, orderly_run)
    what letting go makes of a pool                                    (Orderly.pool_letGo)
    what a transaction of the engine comes to                          (Orderly.on_transaction)
-/

namespace SqlKit

/-- The vendor with another way to open connections. -/
def Vendor.withLogin {ω : Type} (v : Vendor ω) (opener : Action ω Nat) : Vendor ω :=
  { v with login := opener }

namespace Engine

open Lookup

variable {ω : Type}

/-- An engine in order, as far as the world does not matter. -/
structure Orderly (v : Vendor ω) (e : Engine ω) : Prop where
  resting : ∀ n, (e.pools n).Resting
  config : ∀ n, (e.pools n).config = { v.config with maxSize := max v.config.maxSize 1 }
  keeps : ∀ n, (e.pools n).keeps = v.keeps
  /-- Who is at a pool is a handle on it. -/
  handled : ∀ n, ∀ q ∈ (e.pools n).parties, ∃ h, e.handles q.name = some h ∧ h.pool = n
  known : ∀ who h, e.handles who = some h → h.pool < e.opened
  /-- The only pool that is open is that of the engine. -/
  current : ∀ n, n < e.opened → ((e.pools n).isShut = false ↔ e.current = some n)
  bounded : ∀ n, e.current = some n → n < e.opened
  fresh : ∀ n, e.opened ≤ n → e.pools n = .new v.config v.keeps

section Order

variable {v : Vendor ω} {e e' : Engine ω}

theorem orderly_new (v : Vendor ω) (w : ω) : (new v w).Orderly v where
  resting _ := Pool.resting_new ..
  config _ := rfl
  keeps _ := rfl
  handled _ _ hq := absurd hq List.not_mem_nil
  known _ _ h := nomatch h
  current _ hn := absurd hn (Nat.not_lt_zero _)
  bounded _ h := nomatch h
  fresh _ _ := rfl

/-- Order has nothing to do with how connections are opened. -/
theorem orderly_withLogin (opener : Action ω Nat) :
    e.Orderly (v.withLogin opener) ↔ e.Orderly v :=
  ⟨fun he => ⟨he.resting, he.config, he.keeps, he.handled, he.known, he.current, he.bounded, he.fresh⟩,
    fun he => ⟨he.resting, he.config, he.keeps, he.handled, he.known, he.current, he.bounded, he.fresh⟩⟩

/-- Who is not at the pool of its handle holds nothing. -/
theorem held?_of_not_mem {who : Holder} {h : Handle} (hh : e.handles who = some h)
    (hwho : who ∉ (e.pools h.pool).parties.map (·.name)) : e.held? who = none := by
  have hparty : (e.pools h.pool).party? who = none := Pool.party?_eq_none_iff.2 hwho
  simp [held?, hh, Pool.held?, Pool.phase?, hparty]

/-- Who holds nothing is not at the pool of its handle. -/
theorem Orderly.not_mem_parties (he : e.Orderly v) {who : Holder} {h : Handle}
    (hh : e.handles who = some h) (hc : e.held? who = none) :
    who ∉ (e.pools h.pool).parties.map (·.name) := by
  intro hmem
  obtain ⟨q, hq, rfl⟩ := List.mem_map.1 hmem
  have hresting := he.resting h.pool
  have hparty := Pool.party?_of_mem hresting.balanced.distinct hq
  have hholding := hresting.quiet q hq
  cases hphase : q.phase with
  | holding o =>
    have hheld : e.held? q.name = some o.conn :=
      held?_eq_some_iff.2 ⟨h, o, hh, by simp [Pool.held?, Pool.phase?_eq hparty, hphase], rfl⟩
    rw [hheld] at hc
    cases hc
  | _ => simp [hphase, Pool.Phase.isHolding] at hholding

/-- A handle that holds nothing goes on an errand to its pool. -/
theorem Orderly.taken (he : e.Orderly v) {who : Holder} {h : Handle} (hh : e.handles who = some h)
    (hc : e.held? who = none) :
    Pool.Taken v.login.on who e.now (e.pools h.pool) e.world
      (Pool.take v.login.on who e.now (e.pools h.pool, e.world)) :=
  Pool.taken_take v.login.on e.now e.world (he.resting h.pool).quiet (he.not_mem_parties hh hc)
    (he.resting h.pool).closed

/-- Who holds nothing is at no pool. -/
theorem Orderly.not_mem_of_not_held (he : e.Orderly v) {who : Holder} (hc : e.held? who = none)
    (n : Nat) : who ∉ (e.pools n).parties.map (·.name) := by
  intro hmem
  obtain ⟨q, hq, rfl⟩ := List.mem_map.1 hmem
  obtain ⟨h, hh, rfl⟩ := he.handled n q hq
  exact he.not_mem_parties hh hc hmem

/-- Who has no handle is at no pool. -/
theorem Orderly.not_mem_of_no_handle (he : e.Orderly v) {who : Holder} (hh : e.handles who = none)
    (n : Nat) : who ∉ (e.pools n).parties.map (·.name) :=
  he.not_mem_of_not_held (by simp [held?, hh]) n

/-- Changing what handles remember keeps the order, as long as parties keep handles on their pools. -/
theorem Orderly.of_handles (he : e.Orderly v) {w : ω} {handles : Holder → Option Handle}
    (hhandled : ∀ n, ∀ q ∈ (e.pools n).parties, ∃ h, handles q.name = some h ∧ h.pool = n)
    (hknown : ∀ who h, handles who = some h → h.pool < e.opened) :
    ({ e with world := w, handles := handles } : Engine ω).Orderly v :=
  ⟨he.resting, he.config, he.keeps, hhandled, hknown, he.current, he.bounded, he.fresh⟩

theorem Orderly.remember (he : e.Orderly v) {who : Holder} {h h' : Handle}
    (handle : e.handles who = some h) (pool : h'.pool = h.pool) (w : ω) :
    ({ e with world := w, handles := put e.handles who (some h') } : Engine ω).Orderly v := by
  refine he.of_handles (fun n q hq => ?_)
    (forall_put (f := e.handles) (P := fun _ x => ∀ y, x = some y → y.pool < e.opened) ?_
      fun who' _ => he.known who')
  · obtain ⟨x, hx, hpool⟩ := he.handled n q hq
    by_cases hwho : q.name = who
    · rw [hwho] at hx ⊢
      rw [handle] at hx
      cases hx
      exact ⟨h', put_self .., pool.trans hpool⟩
    · exact ⟨x, (put_of_ne _ _ hwho).trans hx, hpool⟩
  · rintro _ ⟨⟩
    rw [pool]
    exact he.known who h handle

/-- So does giving or taking away a handle of one who is at no pool. -/
theorem Orderly.put_handle (he : e.Orderly v) {who : Holder}
    (hwho : ∀ n, who ∉ (e.pools n).parties.map (·.name)) {x : Option Handle}
    (hx : ∀ h, x = some h → h.pool < e.opened) :
    ({ e with handles := put e.handles who x } : Engine ω).Orderly v := by
  refine he.of_handles (fun n q hq => ?_)
    (forall_put (f := e.handles) (P := fun _ x => ∀ y, x = some y → y.pool < e.opened) hx
      fun who' _ => he.known who')
  obtain ⟨h, hh, hpool⟩ := he.handled n q hq
  have hne : q.name ≠ who := by
    rintro rfl
    exact hwho n (List.mem_map_of_mem hq)
  exact ⟨h, (put_of_ne _ _ hne).trans hh, hpool⟩

/-- So does changing one pool that is not new, if it stays at rest and no open pool is shut. -/
theorem Orderly.of_pool (he : e.Orderly v) {w : ω} {n : Nat} {p : Pool Holder Nat}
    (hn : n < e.opened) (hresting : p.Resting)
    (hhandled : ∀ q ∈ p.parties, ∃ h, e.handles q.name = some h ∧ h.pool = n)
    (halike : (e.pools n).Alike p) :
    ({ e with world := w, pools := put e.pools n p } : Engine ω).Orderly v where
  resting := forall_put (f := e.pools) (P := fun _ p => p.Resting) hresting fun m _ => he.resting m
  config := forall_put (f := e.pools) (P := fun _ p => p.config = _)
    (halike.config.trans (he.config n)) fun m _ => he.config m
  keeps := forall_put (f := e.pools) (P := fun _ p => p.keeps = _)
    (halike.keeps.trans (he.keeps n)) fun m _ => he.keeps m
  handled := forall_put (f := e.pools)
    (P := fun m p => ∀ q ∈ p.parties, ∃ h, e.handles q.name = some h ∧ h.pool = m)
    hhandled fun m _ => he.handled m
  known := he.known
  current := by
    refine forall_put (f := e.pools)
      (P := fun m p => m < e.opened → (p.isShut = false ↔ e.current = some m))
      (fun hm => ?_) fun m _ => he.current m
    rw [halike.isShut]
    exact he.current n hm
  bounded := he.bounded
  fresh m hm := by
    have hmn : m ≠ n := fun h => absurd hn (h ▸ Nat.not_lt.2 hm)
    exact (put_of_ne _ _ hmn).trans (he.fresh m hm)

/-- So does a new pool that nobody is at, if the engine has no other open one. -/
theorem Orderly.of_new_pool (he : e.Orderly v) (unconnected : e.current = none) {w : ω}
    {p : Pool Holder Nat} (hresting : p.Resting)
    (hconfig : p.config = { v.config with maxSize := max v.config.maxSize 1 })
    (hkeeps : p.keeps = v.keeps) (hparties : p.parties = []) (hopen : p.isShut = false) :
    ({ e with
      world := w
      pools := put e.pools e.opened p
      opened := e.opened + 1
      current := some e.opened } : Engine ω).Orderly v where
  resting := forall_put (f := e.pools) (P := fun _ p => p.Resting) hresting fun n _ => he.resting n
  config := forall_put (f := e.pools) (P := fun _ p => p.config = _) hconfig fun n _ => he.config n
  keeps := forall_put (f := e.pools) (P := fun _ p => p.keeps = _) hkeeps fun n _ => he.keeps n
  handled := forall_put (f := e.pools)
    (P := fun n p => ∀ q ∈ p.parties, ∃ h, e.handles q.name = some h ∧ h.pool = n)
    (by simp [hparties]) fun n _ => he.handled n
  known who h hh := Nat.lt_succ_of_lt (he.known who h hh)
  current := by
    refine forall_put (f := e.pools)
      (P := fun n p => n < e.opened + 1 → (p.isShut = false ↔ some e.opened = some n))
      (fun _ => by simp [hopen]) fun n hne hn => ?_
    rw [he.current n (by omega), unconnected]
    simp [Ne.symm hne]
  bounded n hn := by
    cases hn
    exact Nat.lt_succ_self _
  fresh n hn := by
    have hlt : e.opened < n := hn
    exact (put_of_ne _ _ (by omega)).trans (he.fresh n (by omega))

/-- Connecting stocks a new pool. -/
theorem stocked_connect (v : Vendor ω) (e : Engine ω) :
    Pool.Stocked v.login.on e.now (Pool.new v.config v.keeps) e.world
      (Pool.warm v.login.on Holder.engine e.now (Pool.new v.config v.keeps, e.world)) :=
  Pool.stocked_warm v.login.on e.now e.world Holder.engine rfl rfl rfl
    (Nat.lt_of_lt_of_le Nat.zero_lt_one (Nat.le_max_right ..))

/-- Disconnecting closes the pool of the engine and no other. -/
theorem pools_disconnect (e : Engine ω) (n : Nat) :
    ((e.onPool n .close).onPool n .shut).pools =
      put e.pools n (((e.pools n).step .close).step .shut) := by
  simp [onPool, put_put]

/-- Who is at a pool stays there. -/
theorem Orderly.parties_disconnect (he : e.Orderly v) (n m : Nat) :
    (((e.onPool n .close).onPool n .shut).pools m).parties = (e.pools m).parties := by
  rw [pools_disconnect]
  exact forall_put (f := e.pools) (P := fun m p => p.parties = (e.pools m).parties)
    (he.resting n).quiet.parties_end (fun _ _ => rfl) m

/-! ## Moves -/

/-- A connection that is let go leaves the pool in order. -/
theorem Orderly.of_letGo (he : e.Orderly v) {who : Holder} {c : Nat} (held : e.held? who = some c)
    (tidy : Nat → Bool → ω → Bool × ω) : (e.letGo tidy who).Orderly v := by
  obtain ⟨h, o, hh, -, -⟩ := held?_eq_some_iff.1 held
  have hpool : ({ e with
      world := (tidy c h.inTransaction e.world).2
      pools := put e.pools h.pool ((e.pools h.pool).step
        (.release who (tidy c h.inTransaction e.world).1 e.now)) } : Engine ω).Orderly v :=
    he.of_pool (he.known who h hh) ((he.resting h.pool).release _)
      (fun q hq => he.handled h.pool q (Pool.parties_release_subset _ _ q hq))
      (Pool.alike_release ..)
  rw [letGo_of_held hh held]
  simp only [onHandle, onPool, hh, Option.map_some]
  exact hpool.remember hh (show ({ h with inTransaction := false } : Handle).pool = h.pool from rfl) _

/-- So does an errand for a connection, whatever comes of it. -/
theorem Orderly.of_taken (he : e.Orderly v) {who : Holder} {h : Handle}
    (handle : e.handles who = some h) (unheld : e.held? who = none)
    {x : Result Unit × Pool Holder Nat × ω}
    (htaken : Pool.Taken v.login.on who e.now (e.pools h.pool) e.world x) :
    ({ e with world := x.2.2, pools := put e.pools h.pool x.2.1 } : Engine ω).Orderly v := by
  refine he.of_pool (he.known who h handle)
    (htaken.resting (he.resting h.pool) (he.not_mem_parties handle unheld)) (fun q hq => ?_)
    htaken.alike
  rcases htaken.parties_eq with ⟨-, hparties⟩ | ⟨-, o, hparties, -⟩
  · exact he.handled h.pool q (hparties ▸ hq)
  · rw [hparties, List.mem_append, List.mem_singleton] at hq
    rcases hq with hq | rfl
    · exact he.handled h.pool q hq
    · exact ⟨h, handle, rfl⟩

/-- Without its pool, the engine has no open one. -/
theorem Orderly.of_disconnect (he : e.Orderly v) {n : Nat} (current : e.current = some n) :
    ({ (e.onPool n .close).onPool n .shut with current := none } : Engine ω).Orderly v where
  resting := by
    dsimp only
    rw [pools_disconnect]
    exact forall_put (f := e.pools) (P := fun _ p => p.Resting) (he.resting n).end
      fun m _ => he.resting m
  config := by
    dsimp only
    rw [pools_disconnect]
    exact forall_put (f := e.pools) (P := fun _ p => p.config = _) (he.config n)
      fun m _ => he.config m
  keeps := by
    dsimp only
    rw [pools_disconnect]
    exact forall_put (f := e.pools) (P := fun _ p => p.keeps = _) (he.keeps n)
      fun m _ => he.keeps m
  handled m q hq := he.handled m q (he.parties_disconnect n m ▸ hq)
  known := he.known
  current := by
    dsimp only
    rw [pools_disconnect]
    refine forall_put (f := e.pools)
      (P := fun m p => m < e.opened → (p.isShut = false ↔ none = some m))
      (fun _ => by simp [Pool.step]) fun m hne hm => ?_
    rw [he.current m hm, current]
    simp [Ne.symm hne]
  bounded _ hm := nomatch hm
  fresh m hm := by
    have hn := he.bounded n current
    have hm' : e.opened ≤ m := hm
    dsimp only
    rw [pools_disconnect]
    exact (put_of_ne _ _ (by omega)).trans (he.fresh m hm')

/-- Every move keeps the order. -/
theorem Orderly.move (he : e.Orderly v) (h : Move v e e') : e'.Orderly v := by
  cases h with
  | pass now | fail unconnected result =>
    exact ⟨he.resting, he.config, he.keeps, he.handled, he.known, he.current, he.bounded, he.fresh⟩
  | work handle held works pool => exact he.remember handle pool _
  | letGo held tidies => exact he.of_letGo held _
  | forget unheld => exact he.put_handle (he.not_mem_of_not_held unheld) (by simp)
  | make current none =>
    refine he.put_handle (he.not_mem_of_no_handle none) ?_
    rintro _ ⟨⟩
    exact he.bounded _ current
  | take handle unheld result => exact he.of_taken handle unheld (result ▸ he.taken handle unheld)
  | connect unconnected result =>
    have hstocked := stocked_connect v e
    rw [result] at hstocked
    obtain ⟨cs, -, -, rfl⟩ := hstocked.exists_opened
    refine he.of_new_pool unconnected ?_ rfl rfl rfl rfl
    simpa using Pool.resting_stocked v.config v.keeps (cs.map fun c => ⟨c, e.now⟩)
  | disconnect current => exact he.of_disconnect current

theorem orderly_reaches (he : e.Orderly v) (h : Reaches v e e') : e'.Orderly v := by
  induction h with
  | refl => exact he
  | tail _ move ih => exact ih.move move

/-- Whatever it is asked for, an engine stays in order. -/
theorem orderly_run (he : e.Orderly v) (ops : List Op) : (e.run v ops).Orderly v :=
  orderly_reaches he (reaches_run e ops)

/-- Who holds a connection of a pool is a handle on it. -/
theorem Orderly.handle_of_held (he : e.Orderly v) {who : Holder} {n : Nat} {o : Pool.Opened Nat}
    (ho : (e.pools n).held? who = some o) :
    e.held? who = some o.conn ∧ ∃ h, e.handles who = some h ∧ h.pool = n := by
  obtain ⟨q, hq, rfl, -⟩ := Pool.exists_party_of_held ho
  obtain ⟨h, hh, hpool⟩ := he.handled n q hq
  exact ⟨held?_eq_some_iff.2 ⟨h, o, hh, hpool ▸ ho, rfl⟩, h, hh, hpool⟩

/-- What it makes of a pool that a handle lets its connection go. -/
theorem Orderly.pool_letGo (he : e.Orderly v) (tidy : Nat → Bool → ω → Bool × ω) (who : Holder)
    (n : Nat) :
    (e.letGo tidy who).pools n =
      match (e.pools n).held? who with
      | some o =>
        (e.pools n).step (.release who (tidy o.conn (e.isFlagged who) e.world).1 e.now)
      | none => e.pools n := by
  cases ho : (e.pools n).held? who with
  | some o =>
    obtain ⟨hheld, h, hh, rfl⟩ := he.handle_of_held ho
    rw [pools_letGo hh hheld, put_self]
  | none =>
    cases hheld : e.held? who with
    | none => rw [letGo_of_not_held hheld]
    | some c =>
      obtain ⟨h, o, hh, ho', -⟩ := held?_eq_some_iff.1 hheld
      have hne : n ≠ h.pool := by
        rintro rfl
        rw [ho'] at ho
        cases ho
      rw [pools_letGo hh hheld, put_of_ne _ _ hne]

/-- A handle that begins has come to the pool of the engine and holds what it was lent there. -/
theorem Orderly.begun (he : e.Orderly v) {who : Holder}
    (hok : ((begin v who).on e).1.isOk = true) :
    ∃ h x o, e.handles who = some h ∧ e.current = some h.pool ∧ e.held? who = none ∧
      Pool.Taken v.login.on who e.now (e.pools h.pool) e.world x ∧ x.2.1.held? who = some o ∧
      (o ∈ (e.pools h.pool).idle ∨ v.login.on e.world = (.ok o.conn, x.2.2)) ∧
      ((begin v who).on e).2 = { e with world := x.2.2, pools := put e.pools h.pool x.2.1 } := by
  rcases begin_cases v who e with ⟨-, y, hon⟩ | ⟨h, hh, hc⟩
  · rw [hon] at hok
    cases hok
  · have htaken := he.taken hh hc
    have hon := on_begin_of_unheld v hh hc
    generalize Pool.take v.login.on who e.now (e.pools h.pool, e.world) = x at htaken hon
    obtain ⟨r, p, w⟩ := x
    cases r with
    | error y =>
      rw [hon] at hok
      cases hok
    | ok _ =>
      have hcurrent := (he.current h.pool (he.known who h hh)).1 (htaken.unshut rfl)
      obtain ⟨o, ho, hsource⟩ := htaken.exists_held (he.not_mem_parties hh hc) rfl
      exact ⟨h, _, o, hh, hcurrent, hc, htaken, ho, hsource, congrArg Prod.snd hon⟩

theorem Orderly.on_begin (he : e.Orderly v) {who : Holder} {n : Nat} (hn : e.current = some n)
    (hok : ((begin v who).on e).1.isOk = true) :
    ∃ h x o, e.handles who = some h ∧ h.pool = n ∧ e.held? who = none ∧
      Pool.Taken v.login.on who e.now (e.pools n) e.world x ∧ x.2.1.held? who = some o ∧
      (o ∈ (e.pools n).idle ∨ v.login.on e.world = (.ok o.conn, x.2.2)) ∧
      ((begin v who).on e).2 = { e with world := x.2.2, pools := put e.pools n x.2.1 } := by
  obtain ⟨h, x, o, hh, hcurrent, hrest⟩ := he.begun hok
  obtain rfl : h.pool = n := Option.some.inj (hcurrent.symm.trans hn)
  exact ⟨h, x, o, hh, rfl, hrest⟩

/-- What a transaction comes to on an engine that is connected: its handle takes no connection, or takes
one, runs the transaction on it and gives it back. -/
theorem Orderly.on_transaction (he : e.Orderly v) (hfree : e.handles .engine = none) {n : Nat}
    (hn : e.current = some n) (t : Transaction) :
    ∃ x, Pool.Taken v.login.on .engine e.now (e.pools n) e.world x ∧
      let y := (transaction v t).on e
      (y.1.isOk = false ∧ y.2.world = x.2.2 ∧ y.2.pools = put e.pools n x.2.1 ∨
        ∃ o, x.2.1.held? .engine = some o ∧
          (o ∈ (e.pools n).idle ∨ v.login.on e.world = (.ok o.conn, x.2.2)) ∧
          let z := ((v.bare o.conn).transact t).on x.2.2
          ∃ flag, y.1 = z.1 ∧ y.2.world = (v.giveBack o.conn flag z.2).2 ∧
            y.2.pools = put e.pools n
              (x.2.1.step (.release .engine (v.giveBack o.conn flag z.2).1 e.now))) := by
  -- The engine with the new handle, which takes a connection.
  let e₁ : Engine ω := { e with handles := put e.handles .engine (some { pool := n }) }
  have hhandle : e₁.handles .engine = some { pool := n } := put_self e.handles Holder.engine _
  have hwho := he.not_mem_of_no_handle hfree n
  have hunheld : e₁.held? .engine = none := held?_of_not_mem hhandle hwho
  have hresting := he.resting n
  have htaken := Pool.taken_take v.login.on e.now e.world hresting.quiet hwho hresting.closed
  have hbegin := on_begin_of_unheld v hhandle hunheld
  have hx : Pool.take v.login.on .engine e₁.now (e₁.pools n, e₁.world) =
      Pool.take v.login.on .engine e.now (e.pools n, e.world) := rfl
  dsimp only at hbegin
  rw [hx] at hbegin
  rw [Engine.on_transaction hn hfree t]
  generalize Pool.take v.login.on .engine e.now (e.pools n, e.world) = x at htaken hbegin
  refine ⟨x, htaken, ?_⟩
  obtain ⟨r, p, w⟩ := x
  let e₂ : Engine ω := { e₁ with world := w, pools := put e₁.pools n p }
  have hpool : e₂.pools n = p := put_self ..
  cases r with
  | error y =>
    left
    have hunheld : e₂.held? .engine = none := by
      refine held?_of_not_mem hhandle ?_
      rcases htaken.parties_eq with ⟨-, hparties⟩ | ⟨hok, -⟩
      · rw [hpool, hparties]
        exact hwho
      · cases hok
    -- Waiting in vain takes time, but changes nothing else.
    have hwaited (r : Result Unit) : (e₂.waited r).drop v .engine =
        { e₂.waited r with handles := put (e₂.waited r).handles .engine none } := by
      refine drop_of_not_held v ?_
      unfold waited
      split <;> exact hunheld
    rw [on_transactAlone_of_error hbegin]
    refine ⟨rfl, ?_, ?_⟩ <;> dsimp only [Prod.map] <;> rw [hwaited] <;> unfold waited <;> split <;> rfl
  | ok _ =>
    right
    obtain ⟨o, ho, hidle⟩ := htaken.exists_held hwho rfl
    have hheld : e₂.held? .engine = some o.conn :=
      held?_eq_some_iff.2 ⟨_, o, hhandle, hpool ▸ ho, rfl⟩
    obtain ⟨hresult, hworld, hstays⟩ := mirrors_transact .engine o.conn v t e₂ hheld
    have hbegin : (begin v .engine).on e₁ = (.ok (), e₂) := hbegin
    rw [on_transactAlone_of_ok hbegin hheld]
    -- The engine when the transaction is over.
    generalize ((session v .engine).transact t).on e₂ = y at hresult hworld hstays
    obtain ⟨r, e₃⟩ := y
    dsimp only at hresult hworld hstays
    have hheld₃ := (hstays.held?_eq .engine).trans hheld
    obtain ⟨h, -, hhandle₃, -, -⟩ := held?_eq_some_iff.1 hheld₃
    have hn₃ : h.pool = n := by
      have hpools := hstays.pool
      rw [hhandle₃, hhandle] at hpools
      exact Option.some.inj hpools
    have hdrop : (e₃.letGo v.giveBack .engine).drop v .engine = _ :=
      drop_of_not_held v (held?_letGo ..)
    refine ⟨o, ho, hidle, e₃.isFlagged .engine, hresult, ?_, ?_⟩ <;> dsimp only [Prod.map] <;>
      rw [hdrop]
    · rw [world_letGo hheld₃, hworld]
    · rw [pools_letGo hhandle₃ hheld₃, hn₃, hstays.pools, hstays.now, hworld]
      show put (put e.pools n p) n _ = _
      rw [put_put, hpool]

end Order

end Engine

end SqlKit
