import Mathlib.Data.Fintype.EquivFin
import SqlKit.Proofs.Pool.Closing

/-!
# Stocking and the size of a pool

A party that stocks connections looks at the count first and adds to it later, when it has a permit.
What it has found is true still unless another party has counted the last missing connection in the
meantime.  So it keeps to the size of the pool where no more connections are to be kept than allowed
and nobody comes in between.  If more are to be kept, it goes beyond by itself, and if somebody comes in
between, there is no bound: parties that turn up together stock a connection each.

    only counting a connection raises the count                        (exists_reserve_of_size_lt)
    Informed is kept by every step that is no race                     (Informed.step)
    without races: stocking keeps to the size iff that is what is asked for  (unraced_iff)
    with races: only where nothing is to be kept                       (raced_iff)
    a whole errand: as without races                                   (size_warm_iff)
-/

namespace SqlKit

namespace Pool

variable {ι κ : Type}

/-! ## Looking and counting -/

/-- A party that stocks connections has found one missing and has not counted its own yet. -/
def Party.hasLooked (q : Party ι κ) : Bool :=
  q.purpose = .stock && q.phase.isBusy && !q.phase.isOpening

/-- Where a party has found a connection missing, one is missing still. -/
def Informed (p : Pool ι κ) : Prop :=
  ∀ q ∈ p.parties, q.hasLooked = true → p.size < p.config.minSize

/-- A party that has found a connection missing has found it before. -/
theorem Turn.hasLooked {p p' : Pool ι κ} {q : Party ι κ} {phase : Phase κ} {os cs : List κ}
    (h : Turn p p' q (some phase) os cs)
    (hlooked : ({ q with phase } : Party ι κ).hasLooked = true) : q.hasLooked = true := by
  obtain ⟨name, purpose, before⟩ := q
  -- A turn ends where connections are looked for only if it starts there.
  have hstart : before.isBusy && !before.isOpening ∨ (phase.isBusy && !phase.isOpening) = false := by
    cases h with
    | wait phase => exact .inl (by simp [show before = _ from phase, Phase.isBusy, Phase.isOpening])
    | enroll phase =>
      left
      rcases phase with h | ⟨t, h⟩ <;>
        simp [show before = _ from h, Phase.isBusy, Phase.isOpening]
    | miss _ phase | retire phase | uncount phase =>
      exact .inl (by simp [show before = _ from phase, Phase.isBusy, Phase.isOpening])
    | fail | lend | reserve => exact .inr rfl
    | quit _ after | unopened _ after =>
      right
      rcases after with h | ⟨e, h⟩ <;> cases h
      rfl
    | opened _ after => rcases after with rfl | rfl <;> exact .inr rfl
  simp only [Party.hasLooked, Bool.and_eq_true, Bool.and_assoc] at hlooked ⊢
  rcases hstart with h | h
  · exact ⟨hlooked.1, by simpa using h⟩
  · rw [hlooked.2.1, hlooked.2.2] at h
    cases h

variable [DecidableEq ι]

/-- Another party counts the last connection that is missing, while one has found it missing. -/
def Races (p : Pool ι κ) (e : Event ι κ) : Prop :=
  (p.size < p.config.minSize ∧ p.config.minSize ≤ (p.step e).size) ∧
    ∃ q ∈ p.parties, q.hasLooked = true ∧ e.who? ≠ some q.name

instance (p : Pool ι κ) (e : Event ι κ) : Decidable (p.Races e) :=
  inferInstanceAs (Decidable (_ ∧ ∃ q ∈ p.parties, _))

/-- No event of a run is a race. -/
def Unraced (p : Pool ι κ) : List (Event ι κ) → Prop
  | [] => True
  | e :: es => ¬ p.Races e ∧ (p.step e).Unraced es

instance decidableUnraced : ∀ (es : List (Event ι κ)) (p : Pool ι κ), Decidable (p.Unraced es)
  | [], _ => inferInstanceAs (Decidable True)
  | e :: es, p => @instDecidableAnd _ _ _ (decidableUnraced es (p.step e))

/-- A step of a party that stocks connections brings the count above the size of the pool, or further
above. -/
def Overstocks (p : Pool ι κ) (e : Event ι κ) : Prop :=
  max p.size p.config.maxSize < (p.step e).size ∧
    ∃ q ∈ p.parties, q.purpose = .stock ∧ e.who? = some q.name

section Steps

variable {p p' : Pool ι κ} {e : Event ι κ}

/-- Only a party that counts a connection it is to open raises the count. -/
theorem exists_reserve_of_size_lt (h : p.size < (p.step e).size) :
    ∃ who q, e = .reserve who ∧ p.party? who = some q ∧
      (q.purpose = .take ∧ q.phase = .unserved ∨ q.purpose = .stock ∧ q.phase = .admitted) ∧
      p.step e = { p with size := p.size + 1 }.move who .opening := by
  cases e with
  | reserve who =>
    simp only [step] at h ⊢
    split at h
    case h_3 => exact absurd h (Nat.lt_irrefl _)
    case h_1 name hq =>
      split at h
      · exact absurd h (Nat.lt_irrefl _)
      · next hopen => exact ⟨who, _, rfl, hq, .inl ⟨rfl, rfl⟩, if_neg hopen⟩
    case h_2 name hq =>
      split at h
      · exact absurd h (Nat.lt_irrefl _)
      · next hopen => exact ⟨who, _, rfl, hq, .inr ⟨rfl, rfl⟩, if_neg hopen⟩
  | _ =>
    exfalso
    revert h
    simp only [step, lookStep]
    repeat' split
    all_goals simp [move, remove, enter, putPermit]

/-- Whoever has found a connection missing after a step has found it before or turns up just now. -/
theorem Steps.missing {os cs : List κ} (h : p.Steps p' os cs) (hp : p.Informed) {q : Party ι κ}
    (hq : q ∈ p'.parties) (hlooked : q.hasLooked = true) : p.size < p.config.minSize := by
  cases h with
  | stay => exact hp q hq hlooked
  | arrive new missing =>
    rcases List.mem_append.1 hq with hq | hq
    · exact hp q hq hlooked
    · rw [List.mem_singleton] at hq
      subst hq
      simp only [Party.hasLooked, Bool.and_eq_true, decide_eq_true_eq] at hlooked
      exact missing hlooked.1.1
  | turn before after config does =>
    rename_i mover a rest
    rcases List.mem_append.1 (after.mem_iff.1 hq) with hq | hq
    · obtain ⟨phase, rfl, rfl⟩ : ∃ phase, a = some phase ∧ q = { mover with phase } := by
        cases a with
        | none => cases hq
        | some phase => exact ⟨phase, rfl, List.mem_singleton.1 hq⟩
      exact hp mover (before.mem_iff.2 (List.mem_cons_self ..)) (does.hasLooked hlooked)
    · exact hp q (before.mem_iff.2 (List.mem_cons_of_mem _ hq)) hlooked
  | close => exact hp q hq hlooked
  | shut =>
    obtain ⟨x, hx, rfl⟩ := List.mem_map.1 hq
    split at hlooked
    · simp [Party.hasLooked, Phase.isBusy] at hlooked
    · exact hp x hx hlooked

/-- What parties have found stays true unless another one counts the last missing connection. -/
theorem Informed.step (h : p.Informed) (hp : p.Distinct) (hrace : ¬ p.Races e) :
    (p.step e).Informed := by
  intro q hq hlooked
  have hmissing := (steps hp e).missing h hq hlooked
  rw [config_step]
  by_contra hfull
  rw [Nat.not_lt] at hfull
  obtain ⟨who, -, rfl, -, -, hstep⟩ := exists_reserve_of_size_lt (Nat.lt_of_lt_of_le hmissing hfull)
  rw [hstep] at hq
  obtain ⟨x, hx, rfl⟩ := List.mem_map.1 hq
  by_cases hname : x.name = who
  · rw [if_pos hname] at hlooked
    simp [Party.hasLooked, Phase.isOpening] at hlooked
  · rw [if_neg hname] at hlooked
    exact hrace ⟨⟨hmissing, hfull⟩, x, hx, hlooked, fun hwho => hname (Option.some.inj hwho).symm⟩

/-- Who counts a connection that is missing keeps to the size of the pool. -/
theorem Informed.not_overstocks (h : p.Informed) (hp : p.Distinct)
    (hmin : p.config.minSize ≤ p.config.maxSize) : ¬ p.Overstocks e := by
  rintro ⟨hover, q, hq, hpurpose, hwho⟩
  obtain ⟨who, q', rfl, hq', hready, hstep⟩ :=
    exists_reserve_of_size_lt (Nat.lt_of_le_of_lt (Nat.le_max_left ..) hover)
  obtain rfl : who = q.name := Option.some.inj hwho
  obtain rfl : q = q' := Option.some.inj ((party?_of_mem hp hq).symm.trans hq')
  have hlooked : q.hasLooked = true := by
    rcases hready with ⟨htake, -⟩ | ⟨-, hphase⟩
    · rw [hpurpose] at htake
      cases htake
    · simp [Party.hasLooked, hpurpose, hphase, Phase.isBusy, Phase.isOpening]
  have hmissing := h q hq hlooked
  rw [hstep] at hover
  change max p.size p.config.maxSize < p.size + 1 at hover
  omega

end Steps

/-! ## Runs without races -/

omit [DecidableEq ι] in
theorem informed_new (config : PoolConfig) (keeps : Nat) : (new config keeps : Pool ι κ).Informed :=
  fun _ hq => absurd hq List.not_mem_nil

theorem informed_run {p : Pool ι κ} (h : p.Informed) (hp : p.Balanced) {es : List (Event ι κ)}
    (hes : p.Unraced es) : (p.run es).Informed := by
  induction es generalizing p with
  | nil => exact h
  | cons e es ih =>
    exact ih (h.step hp.distinct hes.1) ((steps hp.distinct e).balanced hp) hes.2

/-- Where nothing is to be kept, there is nothing to race for. -/
theorem unraced_of_minSize_eq_zero {p : Pool ι κ} (hmin : p.config.minSize = 0)
    (es : List (Event ι κ)) : p.Unraced es := by
  induction es generalizing p with
  | nil => trivial
  | cons e es ih =>
    refine ⟨fun hrace => ?_, ih (by rw [config_step, hmin])⟩
    have hmissing := hrace.1.1
    omega

/-- Who is alone races nobody. -/
theorem unraced_of_alone {p : Pool ι κ} (who : ι) {es : List (Event ι κ)}
    (halone : ∀ q ∈ p.parties, q.name = who) (hes : ∀ e ∈ es, e.who? = some who) :
    p.Unraced es := by
  induction es generalizing p with
  | nil => trivial
  | cons e es ih =>
    obtain ⟨he, hes⟩ := List.forall_mem_cons.1 hes
    refine ⟨?_, ih (fun q hq => ?_) hes⟩
    · rintro ⟨-, q, hq, -, hother⟩
      exact hother (he.trans (congrArg some (halone q hq).symm))
    · by_contra hne
      have hnobody : q.name ∉ p.parties.map (·.name) := by
        intro hmem
        obtain ⟨x, hx, hname⟩ := List.mem_map.1 hmem
        exact hne (hname.symm.trans (halone x hx))
      have hsame := phase?_step_of_ne (p := p) he (Ne.symm hne)
      rw [phase?, phase?, party?_eq_none_iff.2 hnobody, Option.map_none, Option.map_eq_none_iff,
        party?_eq_none_iff] at hsame
      exact hsame (List.mem_map_of_mem hq)

/-! ## One connection after another -/

section Rounds

variable {p : Pool ι κ} {who : ι}

/-- The steps of a party that stocks a connection, from the moment it asks for a permit. -/
def round (who : ι) (c : κ) : List (Event ι κ) :=
  [.ask who ⟨0⟩, .reserve who, .opened who ⟨0⟩ (.ok c), .shelve who]

/-- A party that has turned up to stock a connection does so, however many connections there are by
then. -/
theorem run_round (hwho : who ∉ p.parties.map (·.name)) (hqueue : p.queue = [])
    (hopen : p.isClosed = false) (hshut : p.isShut = false) (hfree : 0 < p.free) (c : κ) :
    (p.enter who .stock .arriving).run (round who c) =
      { p with idle := p.idle ++ [⟨c, ⟨0⟩⟩], size := p.size + 1 } := by
  have hback : p.free - 1 + 1 = p.free := by omega
  let permitted : Pool ι κ := { p with free := p.free - 1 }
  let counted : Pool ι κ := { p with free := p.free - 1, size := p.size + 1 }
  have hask : (p.enter who .stock .arriving).step (.ask who ⟨0⟩) =
      permitted.enter who .stock .admitted := by
    rw [step_ask_enter hwho .stock hqueue, if_neg (by simp [hshut]), if_pos hfree]
  have hreserve : (permitted.enter who .stock .admitted).step (.reserve who) =
      counted.enter who .stock .opening :=
    step_reserve_enter (p := permitted) hwho .stock .admitted hopen (.inr ⟨rfl, rfl⟩)
  have hopened : (counted.enter who .stock .opening).step (.opened who ⟨0⟩ (.ok c)) =
      counted.enter who .stock (.stocking ⟨c, ⟨0⟩⟩) :=
    step_opened_enter (p := counted) hwho .stock ⟨0⟩ c
  have hshelve := step_shelve_enter (p := counted) hwho .stock ⟨c, ⟨0⟩⟩
  rw [round, run, List.foldl_cons, hask, List.foldl_cons, hreserve, List.foldl_cons, hopened,
    List.foldl_cons, hshelve, List.foldl_nil]
  simp [counted, hback]

/-- A party that has turned up to stock a connection does so even where the pool is full by then. -/
theorem overstocks_of_full (hwho : who ∉ p.parties.map (·.name)) (hqueue : p.queue = [])
    (hopen : p.isClosed = false) (hshut : p.isShut = false) (hfree : 0 < p.free)
    (hfull : p.config.maxSize = p.size) :
    ((p.enter who .stock .arriving).step (.ask who ⟨0⟩)).Overstocks (.reserve who) := by
  rw [step_ask_enter hwho .stock hqueue, if_neg (by simp [hshut]), if_pos hfree]
  let permitted : Pool ι κ := { p with free := p.free - 1 }
  refine ⟨?_, ⟨who, .stock, .admitted⟩, List.mem_append_right _ (List.mem_singleton_self _), rfl, rfl⟩
  rw [step_reserve_enter (p := permitted) hwho .stock .admitted hopen (.inr ⟨rfl, rfl⟩)]
  show max p.size p.config.maxSize < p.size + 1
  omega

end Rounds

section New

variable (config : PoolConfig) (keeps : Nat)

/-- A new pool has a permit to give, whatever it is told. -/
theorem permits_pos : 0 < max config.maxSize 1 :=
  Nat.lt_of_lt_of_le Nat.zero_lt_one (Nat.le_max_right ..)

/-- One party can stock a new pool by itself, up to the number of connections that it is to keep. -/
theorem exists_run_alone (who : ι) (c : κ) {k : Nat} (hk : k ≤ config.minSize) :
    ∃ es idle, (∀ e ∈ es, e.who? = some who) ∧
      (new config keeps : Pool ι κ).run es =
        { (new config keeps : Pool ι κ) with idle := idle, size := k } := by
  induction k with
  | zero => exact ⟨[], [], by simp, rfl⟩
  | succ k ih =>
    obtain ⟨es, idle, hes, hrun⟩ := ih (by omega)
    let stocked : Pool ι κ := { (new config keeps : Pool ι κ) with idle := idle, size := k }
    have hwho : who ∉ stocked.parties.map (·.name) := List.not_mem_nil
    have harrive := step_arrive_enter (p := stocked) hwho .stock fun _ => hk
    refine ⟨es ++ .arrive who .stock :: round who c, idle ++ [⟨c, ⟨0⟩⟩], ?_, ?_⟩
    · intro e he
      rcases List.mem_append.1 he with he | he
      · exact hes e he
      · simp only [round, List.mem_cons, List.not_mem_nil, or_false] at he
        rcases he with rfl | rfl | rfl | rfl | rfl <;> rfl
    · rw [run_append, hrun]
      show (stocked.step (.arrive who .stock)).run (round who c) = _
      rw [harrive]
      exact run_round hwho rfl rfl rfl (permits_pos config) c

/-- Without races, stocking keeps to the size of a pool if and only if no more connections are to be
kept than allowed. -/
theorem unraced_iff [Nonempty ι] [Nonempty κ] :
    (∀ es e, (new config keeps : Pool ι κ).Unraced es →
        ¬ ((new config keeps : Pool ι κ).run es).Overstocks e) ↔
      config.minSize ≤ max config.maxSize 1 := by
  constructor
  · intro hall
    by_contra hmin
    obtain ⟨who⟩ := ‹Nonempty ι›
    obtain ⟨c⟩ := ‹Nonempty κ›
    obtain ⟨es, idle, hes, hrun⟩ := exists_run_alone config keeps who c
      (show max config.maxSize 1 ≤ config.minSize by omega)
    let full : Pool ι κ :=
      { (new config keeps : Pool ι κ) with idle := idle, size := max config.maxSize 1 }
    have hwho : who ∉ full.parties.map (·.name) := List.not_mem_nil
    have harrive := step_arrive_enter (p := full) hwho .stock fun _ => Nat.lt_of_not_le hmin
    refine hall (es ++ [.arrive who .stock, .ask who ⟨0⟩]) (.reserve who) ?_ ?_
    · refine unraced_of_alone who (fun q hq => absurd hq List.not_mem_nil) fun e he => ?_
      rcases List.mem_append.1 he with he | he
      · exact hes e he
      · simp only [List.mem_cons, List.not_mem_nil, or_false] at he
        rcases he with rfl | rfl <;> rfl
    · rw [run_append, hrun]
      show ((full.step (.arrive who .stock)).step (.ask who ⟨0⟩)).Overstocks (.reserve who)
      rw [harrive]
      exact overstocks_of_full hwho rfl rfl rfl (permits_pos config) rfl
  · intro hmin es e hes
    have hnew : (new config keeps : Pool ι κ).Balanced := balanced_new config keeps
    refine (informed_run (informed_new config keeps) hnew hes).not_overstocks
      (balanced_run hnew es).distinct ?_
    rw [config_run]
    exact hmin

/-! ## Races

Parties that turn up together all find the same connection missing. -/

/-- Parties that have turned up to stock connections. -/
def crowd (names : Nat → ι) (m : Nat) : List (Party ι κ) :=
  (List.range m).map fun i => ⟨names i, .stock, .arriving⟩

omit [DecidableEq ι] in
theorem crowd_succ (names : Nat → ι) (m : Nat) :
    (crowd names (m + 1) : List (Party ι κ)) = crowd names m ++ [⟨names m, .stock, .arriving⟩] := by
  simp [crowd, List.range_succ]

omit [DecidableEq ι] in
theorem not_mem_crowd {names : Nat → ι} (hnames : names.Injective) (m : Nat) :
    names m ∉ (crowd names m : List (Party ι κ)).map (·.name) := by
  simp only [crowd, List.map_map, List.mem_map, List.mem_range, Function.comp]
  rintro ⟨i, hi, heq⟩
  exact Nat.ne_of_lt hi (hnames heq)

omit [DecidableEq ι] in
theorem queue_crowd {p : Pool ι κ} {names : Nat → ι} {m : Nat} (h : p.parties = crowd names m) :
    p.queue = [] := by
  have hnone : (crowd names m : List (Party ι κ)).filter (·.phase.isWaiting) = [] := by
    refine List.filter_eq_nil_iff.2 fun q hq => ?_
    obtain ⟨i, -, rfl⟩ := List.mem_map.1 hq
    simp [Phase.isWaiting]
  rw [queue, h, hnone]
  rfl

/-- Where a connection is missing, any number of parties may turn up, and then one after another stocks
a connection. -/
theorem exists_run_crowd (hmin : 0 < config.minSize) {names : Nat → ι} (hnames : names.Injective)
    (c : κ) (k m : Nat) :
    ∃ es idle, (new config keeps : Pool ι κ).run es =
      { (new config keeps : Pool ι κ) with idle := idle, size := k, parties := crowd names m } := by
  induction k generalizing m with
  | zero =>
    induction m with
    | zero => exact ⟨[], [], rfl⟩
    | succ m ih =>
      obtain ⟨es, idle, hrun⟩ := ih
      refine ⟨es ++ [.arrive (names m) .stock], idle, ?_⟩
      let waiting : Pool ι κ :=
        { (new config keeps : Pool ι κ) with idle := idle, size := 0, parties := crowd names m }
      rw [run_append, hrun]
      show waiting.step (.arrive (names m) .stock) = _
      rw [step_arrive_enter (p := waiting) (not_mem_crowd hnames m) .stock fun _ => hmin]
      simp [enter, waiting, crowd_succ]
  | succ k ih =>
    obtain ⟨es, idle, hrun⟩ := ih (m + 1)
    let stocked : Pool ι κ :=
      { (new config keeps : Pool ι κ) with idle := idle, size := k, parties := crowd names m }
    have henter : (new config keeps : Pool ι κ).run es =
        stocked.enter (names m) .stock .arriving := by
      rw [hrun, crowd_succ]
      rfl
    refine ⟨es ++ round (names m) c, idle ++ [⟨c, ⟨0⟩⟩], ?_⟩
    rw [run_append, henter]
    exact run_round (p := stocked) (not_mem_crowd hnames m) (queue_crowd rfl) rfl rfl
      (permits_pos config) c

/-- Whatever the parties do, stocking keeps to the size of a pool if and only if nothing is to be
kept. -/
theorem raced_iff [Infinite ι] [Nonempty κ] :
    (∀ es e, ¬ ((new config keeps : Pool ι κ).run es).Overstocks e) ↔ config.minSize = 0 := by
  constructor
  · intro hall
    by_contra hmin
    obtain ⟨c⟩ := ‹Nonempty κ›
    let names := Infinite.natEmbedding ι
    obtain ⟨es, idle, hrun⟩ := exists_run_crowd config keeps (by omega) names.injective c
      (max config.maxSize 1) 1
    let full : Pool ι κ :=
      { (new config keeps : Pool ι κ) with idle := idle, size := max config.maxSize 1 }
    refine hall (es ++ [.ask (names 0) ⟨0⟩]) (.reserve (names 0)) ?_
    rw [run_append, hrun]
    exact overstocks_of_full (p := full) List.not_mem_nil rfl rfl rfl (permits_pos config) rfl
  · intro hmin es e
    exact (unraced_iff config keeps).2 (by omega) es e (unraced_of_minSize_eq_zero hmin es)

end New

/-! ## Whole errands

A party that comes to stock connections looks again after each one. -/

section Errands

variable {ω : Type} {p : Pool ι κ} {who : ι} (opener : ω → Result κ × ω) (now : Duration) (w : ω)

/-- Who cannot get a permit at once waits for one. -/
theorem step_ask_enter_of_not_free (hwho : who ∉ p.parties.map (·.name)) (hshut : p.isShut = false)
    (hnone : ¬ (0 < p.free ∧ p.queue = [])) (purpose : Purpose) :
    (p.enter who purpose .arriving).step (.ask who now) = p.enter who purpose (.waiting now) := by
  have hqueue : (p.enter who purpose .arriving).queue = p.queue := by
    simp [queue, enter, List.filter_append, Phase.isWaiting]
  simp only [step, party?_enter hwho, hqueue, List.isEmpty_iff]
  show (if p.isShut = true then _ else if 0 < p.free ∧ p.queue = [] then _ else _) = _
  rw [if_neg (by simp [hshut]), if_neg hnone, remove_enter hwho]

/-- Nothing is counted any more in a pool that is closed, even if permits are still given. -/
theorem step_reserve_enter_of_isClosed (hwho : who ∉ p.parties.map (·.name))
    (hclosed : p.isClosed = true) :
    (p.enter who .stock .admitted).step (.reserve who) =
      p.putPermit.enter who .stock (.failed .poolClosed) := by
  simp only [step, party?_enter hwho]
  rw [if_pos (show (p.enter who .stock .admitted).isClosed = true from hclosed)]
  exact move_enter (p := p.putPermit) hwho ..

/-- A party that stocks a connection leaves the pool with one more that is idle, or fails and leaves it
as it was. -/
theorem settle_start_stock_cases (hwho : who ∉ p.parties.map (·.name))
    (hmissing : p.size < p.config.minSize) :
    (∃ c, (start opener who .stock now (p, w)).1.settle who =
        (.ok (), { p with idle := p.idle ++ [⟨c, now⟩], size := p.size + 1 })) ∨
      ∃ x, (start opener who .stock now (p, w)).1.settle who = (.error x, p) := by
  by_cases hshut : p.isShut = true
  · exact .inr ⟨_, (settle_start_of_shut opener now w hshut hwho .stock fun _ => hmissing).1⟩
  rw [Bool.not_eq_true] at hshut
  have harrive := step_arrive_enter hwho .stock fun _ => hmissing
  have hstart : start opener who .stock now (p, w) =
      proceed opener who now (2 * p.idle.length + 4 + 2)
        ((p.enter who .stock .arriving).step (.ask who now), w) := by
    unfold start
    rw [harrive]
    exact proceed_next opener now w (phase?_enter hwho ..) (by simp) (next?_enter now hwho ..) _
  by_cases hadmitted : 0 < p.free ∧ p.queue = []
  · obtain ⟨hfree, hnobody⟩ := hadmitted
    by_cases hclosed : p.isClosed = true
    · let permitted : Pool ι κ := { p with free := p.free - 1 }
      have hback : permitted.putPermit = p := by
        have hfree' : p.free - 1 + 1 = p.free := by omega
        simp [permitted, putPermit, hfree']
      rw [hstart, step_ask_enter hwho .stock hnobody, if_neg (by simp [hshut]), if_pos hfree,
        proceed_next opener now w (phase?_enter (p := permitted) hwho ..) (by simp)
          (next?_enter (p := permitted) now hwho ..),
        step_reserve_enter_of_isClosed (p := permitted) hwho hclosed, hback,
        proceed_stop opener now w (phase?_enter hwho ..) (by simp) (next?_enter now hwho ..),
        settle_enter hwho]
      exact .inr ⟨_, rfl⟩
    · rw [Bool.not_eq_true] at hclosed
      have hsettle := settle_start_stock opener now w hwho hnobody hclosed hshut hfree hmissing
      cases hnew : opener w with
      | mk r w' =>
        rw [hnew] at hsettle
        cases r with
        | ok c => exact .inl ⟨c, congrArg Prod.fst hsettle⟩
        | error x => exact .inr ⟨x, congrArg Prod.fst hsettle⟩
  · rw [hstart, step_ask_enter_of_not_free now hwho hshut hadmitted,
      proceed_stop opener now w (phase?_enter hwho ..) (by simp) (next?_enter now hwho ..),
      settle_enter hwho]
    exact .inr ⟨_, rfl⟩

/-- Connections are stocked only as long as one is missing. -/
theorem size_stockUp_le (hwho : who ∉ p.parties.map (·.name)) (missing : Nat) :
    (stockUp opener who now missing (p, w)).2.1.size ≤ max p.size p.config.minSize := by
  induction missing generalizing p w with
  | zero => exact Nat.le_max_left ..
  | succ missing ih =>
    unfold stockUp
    split
    · exact Nat.le_max_left ..
    next hmissing =>
      rw [Nat.not_le] at hmissing
      dsimp only
      rcases settle_start_stock_cases opener now w hwho hmissing with ⟨c, hsettle⟩ | ⟨x, hsettle⟩
      · rw [hsettle]
        have hrest := ih (start opener who .stock now (p, w)).2
          (p := { p with idle := p.idle ++ [⟨c, now⟩], size := p.size + 1 }) hwho
        dsimp only at hrest ⊢
        omega
      · rw [hsettle]
        exact Nat.le_max_left ..

/-- Whatever has happened before, a whole errand keeps to the size of a pool if and only if no more
connections are to be kept than allowed. -/
theorem size_warm_iff [Nonempty ι] [Nonempty κ] (config : PoolConfig) (keeps : Nat) :
    (∀ (es : List (Event ι κ)) (who : ι), let p := (new config keeps : Pool ι κ).run es
      who ∉ p.parties.map (·.name) →
        ∀ (ω : Type) (opener : ω → Result κ × ω) (now : Duration) (w : ω),
          (warm opener who now (p, w)).2.1.size ≤ max p.size p.config.maxSize) ↔
      config.minSize ≤ max config.maxSize 1 := by
  constructor
  · intro hall
    obtain ⟨who⟩ := ‹Nonempty ι›
    obtain ⟨c⟩ := ‹Nonempty κ›
    have hsize := hall [] who List.not_mem_nil Unit (fun w => (.ok c, w)) ⟨0⟩ ()
    have hstocked := stocked_warm (p := new config keeps) (fun w : Unit => (.ok c, w)) ⟨0⟩ () who rfl
      rfl rfl (permits_pos config)
    change (warm _ who ⟨0⟩ (new config keeps, ())).2.1.size ≤ max 0 (max config.maxSize 1) at hsize
    generalize warm (fun w : Unit => (.ok c, w)) who ⟨0⟩ (new config keeps, ()) = x at hsize hstocked
    cases hstocked with
    | full opened count =>
      change 0 + _ ≤ _ at hsize
      change _ = config.minSize - 0 at count
      omega
    | failed opened failing => cases failing
  · intro hmin es who p hwho ω opener now w
    have hconfig : p.config = (new config keeps : Pool ι κ).config := config_run _ es
    have hsize := size_stockUp_le opener now w hwho p.config.minSize
    have hallowed : p.config.minSize ≤ p.config.maxSize := by rw [hconfig]; exact hmin
    unfold warm
    dsimp only
    omega

end Errands

end Pool

end SqlKit
