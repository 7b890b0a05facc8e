import SqlKit.Proofs.Pool.Accounts

/-!
# Errands

What comes of it when a party goes to a pool by itself, while all the others just hold what they have.

    a party takes a connection, or is told why it gets none            (taken_take)
    stocking a new pool opens as many connections as it is to keep     (stocked_warm)
    errands go along with a map of worlds                              (take_map, warm_map)
-/

namespace SqlKit

namespace Pool

variable {ι κ ω : Type}

/-- Nobody is on the way: every party holds a connection. -/
def Quiet (p : Pool ι κ) : Prop := ∀ q ∈ p.parties, q.phase.isHolding = true

theorem Quiet.queue_eq {p : Pool ι κ} (h : p.Quiet) : p.queue = [] := by
  have hnone : p.parties.filter (·.phase.isWaiting) = [] := by
    refine List.filter_eq_nil_iff.2 fun q hq => ?_
    have hholding := h q hq
    obtain ⟨name, purpose, phase⟩ := q
    cases phase <;> simp [Phase.isHolding] at hholding
    simp [Phase.isWaiting]
  rw [queue, hnone]
  rfl

variable [DecidableEq ι]

/-! ## A party at the end of the line -/

section Last

variable {p : Pool ι κ} {who : ι} (hwho : who ∉ p.parties.map (·.name)) (purpose : Purpose)
  (phase phase' : Phase κ)
include hwho

theorem party?_enter : (p.enter who purpose phase).party? who = some ⟨who, purpose, phase⟩ := by
  have hnone : p.parties.find? (·.name = who) = none := party?_eq_none_iff.2 hwho
  simp [party?, enter, List.find?_append, hnone]

theorem phase?_enter : (p.enter who purpose phase).phase? who = some phase := by
  rw [phase?, party?_enter hwho]
  rfl

theorem move_enter : (p.enter who purpose phase).move who phase' = p.enter who purpose phase' := by
  have hrest : p.parties.map (fun q => if q.name = who then { q with phase := phase' } else q) =
      p.parties := by
    refine (List.map_congr_left fun q hq => ?_).trans (List.map_id _)
    refine if_neg ?_
    rintro rfl
    exact hwho (List.mem_map_of_mem hq)
  simp [move, enter, hrest]

theorem remove_enter : (p.enter who purpose phase).remove who = p := by
  have hrest : p.parties.filter (·.name ≠ who) = p.parties := by
    refine List.filter_eq_self.2 fun q hq => decide_eq_true ?_
    rintro rfl
    exact hwho (List.mem_map_of_mem hq)
  simp only [remove, enter, List.filter_append, hrest]
  simp

/-! What the events of its errand make of it. -/

theorem step_arrive_enter (hmissing : purpose = .stock → p.size < p.config.minSize) :
    p.step (.arrive who purpose) = p.enter who purpose .arriving := by
  have hnone : p.party? who = none := party?_eq_none_iff.2 hwho
  cases purpose with
  | take => simp [step, hnone]
  | stock => simp [step, hnone, hmissing rfl]

theorem step_ask_enter (hqueue : p.queue = []) (now : Duration) :
    (p.enter who purpose .arriving).step (.ask who now) =
      if p.isShut then p.enter who purpose (.failed .poolClosed)
      else if 0 < p.free then { p with free := p.free - 1 }.enter who purpose .admitted
      else p.enter who purpose (.waiting now) := by
  have hqueue' : (p.enter who purpose .arriving).queue = [] := by
    rw [queue] at hqueue ⊢
    simpa [enter, List.filter_append, Phase.isWaiting] using hqueue
  simp only [step, party?_enter hwho, hqueue', List.isEmpty_nil, and_true]
  show (if p.isShut = true then _ else if 0 < p.free then _ else _) = _
  by_cases hshut : p.isShut = true
  · rw [if_pos hshut, if_pos hshut]
    exact move_enter hwho ..
  · rw [if_neg hshut, if_neg hshut]
    by_cases hfree : 0 < p.free
    · rw [if_pos hfree, if_pos hfree]
      exact move_enter (p := { p with free := p.free - 1 }) hwho ..
    · rw [if_neg hfree, if_neg hfree, remove_enter hwho]

theorem step_look_enter (hopen : p.isClosed = false) (now : Duration) :
    (p.enter who .take .admitted).step (.look who now) =
      match p.idle with
      | [] => p.enter who .take .unserved
      | o :: rest => { p with idle := rest }.enter who .take
          (if p.isExpired o now then .retiring else .holding o) := by
  simp only [step, party?_enter hwho, lookStep]
  rw [if_neg (by simp [enter, hopen])]
  show (match p.idle with | [] => _ | o :: rest => _) = _
  cases p.idle with
  | nil => exact move_enter hwho ..
  | cons o rest => exact move_enter (p := { p with idle := rest }) hwho ..

theorem step_uncount_enter :
    (p.enter who purpose .retiring).step (.uncount who) =
      { p with size := p.size - 1 }.enter who purpose .admitted := by
  simp only [step, phase?_enter hwho]
  exact move_enter (p := { p with size := p.size - 1 }) hwho ..

theorem step_reserve_enter (hopen : p.isClosed = false)
    (hready : purpose = .take ∧ phase = .unserved ∨ purpose = .stock ∧ phase = .admitted) :
    (p.enter who purpose phase).step (.reserve who) =
      { p with size := p.size + 1 }.enter who purpose .opening := by
  rcases hready with ⟨rfl, rfl⟩ | ⟨rfl, rfl⟩ <;> simp only [step, party?_enter hwho] <;>
    rw [if_neg (by simp [enter, hopen])] <;>
    exact move_enter (p := { p with size := p.size + 1 }) hwho ..

theorem step_opened_enter (now : Duration) (c : κ) :
    (p.enter who purpose .opening).step (.opened who now (.ok c)) =
      p.enter who purpose (match purpose with
        | .take => .holding ⟨c, now⟩
        | .stock => .stocking ⟨c, now⟩) := by
  cases purpose <;> simp only [step, party?_enter hwho] <;> exact move_enter hwho ..

theorem step_unopened_enter (now : Duration) (x : Error) :
    (p.enter who purpose .opening).step (.opened who now (.error x)) =
      { p with size := p.size - 1, free := p.free + 1 }.enter who purpose (.failed x) := by
  cases purpose <;> simp only [step, party?_enter hwho] <;>
    exact move_enter (p := { p with size := p.size - 1, free := p.free + 1 }) hwho ..

theorem step_shelve_enter (o : Opened κ) :
    (p.enter who purpose (.stocking o)).step (.shelve who) =
      { p with free := p.free + 1, idle := p.idle ++ [o] } := by
  simp only [step, phase?_enter hwho]
  exact remove_enter (p := { p with free := p.free + 1, idle := p.idle ++ [o] }) hwho ..

/-- A party that has failed, or has to wait while nobody else acts, leaves with an error; others stay. -/
theorem settle_enter :
    (p.enter who purpose phase).settle who =
      match phase with
      | .failed x => (.error x, p)
      | .waiting _ => (.error (.poolTimeout p.config.timeout), p)
      | phase => (.ok (), p.enter who purpose phase) := by
  have hforget (x : Error) : (p.enter who purpose (.failed x)).step (.forget who) = p := by
    simp only [step, phase?_enter hwho]
    exact remove_enter hwho ..
  have hexpire (t : Duration) : (p.enter who purpose (.waiting t)).step (.expire who) =
      p.enter who purpose (.failed (.poolTimeout p.config.timeout)) := by
    simp only [step, phase?_enter hwho]
    exact move_enter hwho ..
  have hstay (h : ∀ t, phase ≠ .waiting t) :
      (p.enter who purpose phase).step (.expire who) = p.enter who purpose phase := by
    simp only [step, phase?_enter hwho]
    cases phase with
    | waiting t => exact absurd rfl (h t)
    | _ => rfl
  rw [settle]
  cases phase with
  | waiting t =>
    rw [hexpire]
    simp [phase?_enter hwho, hforget]
  | _ =>
    rw [hstay (by simp)]
    simp [phase?_enter hwho, hforget]

end Last

/-! ## Going on -/

section Proceeding

variable {p : Pool ι κ} {who : ι} (opener : ω → Result κ × ω) (now : Duration) (w : ω)

theorem proceed_next {e : Event ι κ} {phase : Phase κ} (hphase : p.phase? who = some phase)
    (hopening : phase ≠ .opening) (hnext : p.next? who now = some e) (fuel : Nat) :
    proceed opener who now (fuel + 1) (p, w) = proceed opener who now fuel (p.step e, w) := by
  cases phase <;> simp_all [proceed]

theorem proceed_stop {phase : Phase κ} (hphase : p.phase? who = some phase)
    (hopening : phase ≠ .opening) (hnext : p.next? who now = none) (fuel : Nat) :
    proceed opener who now fuel (p, w) = (p, w) := by
  cases fuel <;> cases phase <;> simp_all [proceed]

theorem proceed_gone (hphase : p.phase? who = none) (fuel : Nat) :
    proceed opener who now fuel (p, w) = (p, w) := by
  have hnone : p.party? who = none := by simpa [phase?] using hphase
  cases fuel <;> simp [proceed, hphase, next?, hnone]

theorem proceed_opening (hphase : p.phase? who = some .opening) (fuel : Nat) :
    proceed opener who now (fuel + 1) (p, w) =
      proceed opener who now fuel (p.step (.opened who now (opener w).1), (opener w).2) := by
  simp [proceed, hphase]

end Proceeding

/-! ## Taking a connection -/

/-- What comes of an errand to take a connection.  Those that are too old are closed on the way. -/
inductive Taken (opener : ω → Result κ × ω) (who : ι) (now : Duration) (p : Pool ι κ) (w : ω) :
    Result Unit × Pool ι κ × ω → Prop where
  | shut (shut : p.isShut = true) : Taken opener who now p w (.error .poolClosed, p, w)
  | late (unshut : p.isShut = false) (none : p.free = 0) :
      Taken opener who now p w (.error (.poolTimeout p.config.timeout), p, w)
  | lent {aged rest : List (Opened κ)} {o : Opened κ} (unshut : p.isShut = false)
      (free : 0 < p.free) (idle : p.idle = aged ++ o :: rest)
      (old : ∀ x ∈ aged, p.isExpired x now = true) (young : p.isExpired o now = false) :
      Taken opener who now p w (.ok (), { p with
        idle := rest
        size := p.size - aged.length
        free := p.free - 1 }.enter who .take (.holding o), w)
  | opened {c : κ} {w' : ω} (unshut : p.isShut = false) (free : 0 < p.free)
      (old : ∀ x ∈ p.idle, p.isExpired x now = true) (new : opener w = (.ok c, w')) :
      Taken opener who now p w (.ok (), { p with
        idle := []
        size := p.size - p.idle.length + 1
        free := p.free - 1 }.enter who .take (.holding ⟨c, now⟩), w')
  | failed {x : Error} {w' : ω} (unshut : p.isShut = false) (free : 0 < p.free)
      (old : ∀ x ∈ p.idle, p.isExpired x now = true) (new : opener w = (.error x, w')) :
      Taken opener who now p w
        (.error x, { p with idle := [], size := p.size - p.idle.length }, w')

section Taking

variable {p : Pool ι κ} {who : ι} (opener : ω → Result κ × ω) (now : Duration) (w : ω)

theorem next?_enter (hwho : who ∉ p.parties.map (·.name)) (purpose : Purpose) (phase : Phase κ) :
    (p.enter who purpose phase).next? who now =
      match purpose, phase with
      | _, .arriving => some (.ask who now)
      | .take, .admitted => some (.look who now)
      | .stock, .admitted | _, .unserved => some (.reserve who)
      | _, .retiring => some (.uncount who)
      | _, .stocking _ => some (.shelve who)
      | _, _ => none := by
  rw [next?, party?_enter hwho]
  cases purpose <;> cases phase <;> rfl

/-- Where nothing is idle, a party with a permit opens a connection. -/
theorem proceed_unserved (hwho : who ∉ p.parties.map (·.name)) (hopen : p.isClosed = false)
    (fuel : Nat) :
    proceed opener who now (fuel + 2) (p.enter who .take .unserved, w) =
      match opener w with
      | (.ok c, w') => ({ p with size := p.size + 1 }.enter who .take (.holding ⟨c, now⟩), w')
      | (.error x, w') => ({ p with free := p.free + 1 }.enter who .take (.failed x), w') := by
  rw [proceed_next opener now w (phase?_enter hwho ..) (by simp) (next?_enter now hwho ..),
    step_reserve_enter hwho .take .unserved hopen (.inl ⟨rfl, rfl⟩),
    proceed_opening opener now w (phase?_enter (p := { p with size := p.size + 1 }) hwho ..)]
  cases hnew : opener w with
  | mk r w' =>
    cases r with
    | ok c =>
      rw [step_opened_enter (p := { p with size := p.size + 1 }) hwho]
      exact proceed_stop opener now w' (phase?_enter (p := { p with size := p.size + 1 }) hwho ..)
        (by simp) (next?_enter (p := { p with size := p.size + 1 }) now hwho ..) _
    | error x =>
      rw [step_unopened_enter (p := { p with size := p.size + 1 }) hwho]
      exact proceed_stop opener now w' (phase?_enter (p := { p with free := p.free + 1 }) hwho ..)
        (by simp) (next?_enter (p := { p with free := p.free + 1 }) now hwho ..) _

/-- A party with a permit looks at one idle connection after another, until one is not too old, and
opens one if there is none. -/
theorem proceed_admitted (hwho : who ∉ p.parties.map (·.name)) (hopen : p.isClosed = false)
    {fuel : Nat} (hfuel : 2 * p.idle.length + 3 ≤ fuel) :
    (∃ aged o rest, p.idle = aged ++ o :: rest ∧ (∀ x ∈ aged, p.isExpired x now = true) ∧
      p.isExpired o now = false ∧
      proceed opener who now fuel (p.enter who .take .admitted, w) =
        ({ p with idle := rest, size := p.size - aged.length }.enter who .take (.holding o), w)) ∨
    (∀ x ∈ p.idle, p.isExpired x now = true) ∧
      proceed opener who now fuel (p.enter who .take .admitted, w) =
        match opener w with
        | (.ok c, w') => ({ p with
            idle := []
            size := p.size - p.idle.length + 1 }.enter who .take (.holding ⟨c, now⟩), w')
        | (.error x, w') => ({ p with
            idle := []
            size := p.size - p.idle.length
            free := p.free + 1 }.enter who .take (.failed x), w') := by
  -- Each idle connection takes two steps: it is taken out, and then not counted any more.
  induction hidle : p.idle generalizing p fuel with
  | nil =>
    right
    obtain ⟨n, rfl⟩ : ∃ n, fuel = n + 3 := ⟨fuel - 3, by simp [hidle] at hfuel; omega⟩
    refine ⟨by simp, ?_⟩
    rw [proceed_next opener now w (phase?_enter hwho ..) (by simp) (next?_enter now hwho ..),
      step_look_enter hwho hopen, hidle]
    dsimp only
    rw [proceed_unserved opener now w hwho hopen, List.length_nil, Nat.sub_zero, ← hidle]
  | cons o rest ih =>
    rw [hidle, List.length_cons] at hfuel
    obtain ⟨n, rfl⟩ : ∃ n, fuel = n + 2 := ⟨fuel - 2, by omega⟩
    rw [proceed_next opener now w (phase?_enter hwho ..) (by simp) (next?_enter now hwho ..),
      step_look_enter hwho hopen, hidle]
    dsimp only
    cases hage : p.isExpired o now with
    | false =>
      left
      refine ⟨[], o, rest, rfl, by simp, hage, ?_⟩
      rw [if_neg (by simp), List.length_nil, Nat.sub_zero]
      exact proceed_stop opener now w (phase?_enter (p := { p with idle := rest }) hwho ..)
        (by simp) (next?_enter (p := { p with idle := rest }) now hwho ..) _
    | true =>
      rw [if_pos rfl,
        proceed_next opener now w (phase?_enter (p := { p with idle := rest }) hwho ..) (by simp)
          (next?_enter (p := { p with idle := rest }) now hwho ..),
        step_uncount_enter (p := { p with idle := rest }) hwho]
      rcases ih (p := { p with idle := rest, size := p.size - 1 }) hwho hopen
        (show 2 * rest.length + 3 ≤ n by omega) rfl
        with ⟨aged, o', rest', hrest, hold, hyoung, hgo⟩ | ⟨hold, hgo⟩
      · left
        refine ⟨o :: aged, o', rest', by simp [hrest], ?_, hyoung, ?_⟩
        · exact List.forall_mem_cons.2 ⟨hage, hold⟩
        · rw [hgo, List.length_cons, Nat.add_comm aged.length, ← Nat.sub_sub]
      · right
        refine ⟨List.forall_mem_cons.2 ⟨hage, hold⟩, ?_⟩
        rw [hgo, List.length_cons, Nat.add_comm rest.length, ← Nat.sub_sub]

theorem taken_take (hquiet : p.Quiet) (hwho : who ∉ p.parties.map (·.name))
    (hclosed : p.isClosed = p.isShut) :
    Taken opener who now p w (take opener who now (p, w)) := by
  have harrive := step_arrive_enter hwho .take (by simp)
  have hask := step_ask_enter hwho .take hquiet.queue_eq now
  have hstart (fuel : Nat) := proceed_next opener now w (phase?_enter hwho .take .arriving) (by simp)
    (next?_enter now hwho ..) fuel
  have hfuel : p.fuel = (2 * p.idle.length + 6) + 1 := rfl
  unfold take start
  dsimp only
  rw [harrive, hfuel, hstart, hask]
  by_cases hshut : p.isShut = true
  · rw [if_pos hshut, proceed_stop opener now w (phase?_enter hwho ..) (by simp)
      (next?_enter now hwho ..), settle_enter hwho]
    exact .shut hshut
  · rw [if_neg hshut]
    rw [Bool.not_eq_true] at hshut
    by_cases hfree : 0 < p.free
    · rw [if_pos hfree]
      rcases proceed_admitted (p := { p with free := p.free - 1 }) opener now w hwho
        (hclosed.trans hshut) (show 2 * p.idle.length + 3 ≤ 2 * p.idle.length + 6 by omega)
        with ⟨aged, o, rest, hidle, hold, hyoung, hgo⟩ | ⟨hold, hgo⟩
      · rw [hgo, settle_enter]
        · exact .lent hshut hfree hidle hold hyoung
        · exact hwho
      · rw [hgo]
        cases hnew : opener w with
        | mk r w' =>
          cases r with
          | ok c =>
            dsimp only
            rw [settle_enter]
            · exact .opened hshut hfree hold hnew
            · exact hwho
          | error x =>
            dsimp only
            rw [settle_enter]
            · have hback : p.free - 1 + 1 = p.free := by omega
              dsimp only
              rw [hback]
              exact .failed hshut hfree hold hnew
            · exact hwho
    · rw [if_neg hfree, proceed_stop opener now w (phase?_enter hwho ..) (by simp)
        (next?_enter now hwho ..), settle_enter hwho]
      exact .late hshut (by omega)

end Taking

/-! ## Stocking -/

/-- Opening one connection after another. -/
inductive Opens (opener : ω → Result κ × ω) : ω → List κ → ω → Prop where
  | nil (w : ω) : Opens opener w [] w
  | cons {w w' w'' : ω} {c : κ} {cs : List κ} (new : opener w = (.ok c, w'))
      (rest : Opens opener w' cs w'') : Opens opener w (c :: cs) w''

/-- What comes of stocking connections: all that are missing are opened, or opening one fails. -/
inductive Stocked (opener : ω → Result κ × ω) (now : Duration) (p : Pool ι κ) (w : ω) :
    Result Unit × Pool ι κ × ω → Prop where
  | full {cs : List κ} {w' : ω} (opened : Opens opener w cs w')
      (count : cs.length = p.config.minSize - p.size) :
      Stocked opener now p w (.ok (), { p with
        idle := p.idle ++ cs.map fun c => ⟨c, now⟩
        size := p.size + cs.length }, w')
  | failed {cs : List κ} {w₁ w' : ω} {x : Error} {p' : Pool ι κ} (opened : Opens opener w cs w₁)
      (new : opener w₁ = (.error x, w')) : Stocked opener now p w (.error x, p', w')

section Stocking

variable {p : Pool ι κ} {who : ι} (opener : ω → Result κ × ω) (now : Duration) (w : ω)

/-- A party that stocks a connection leaves the pool as it was, but for the connection. -/
theorem settle_start_stock (hwho : who ∉ p.parties.map (·.name)) (hqueue : p.queue = [])
    (hopen : p.isClosed = false) (hshut : p.isShut = false) (hfree : 0 < p.free)
    (hmissing : p.size < p.config.minSize) :
    ((start opener who .stock now (p, w)).1.settle who, (start opener who .stock now (p, w)).2) =
      match opener w with
      | (.ok c, w') => ((.ok (), { p with idle := p.idle ++ [⟨c, now⟩], size := p.size + 1 }), w')
      | (.error x, w') => ((.error x, p), w') := by
  have harrive := step_arrive_enter hwho .stock fun _ => hmissing
  have hback : p.free - 1 + 1 = p.free := by omega
  have hgone : p.phase? who = none := by
    have hnone : p.party? who = none := party?_eq_none_iff.2 hwho
    simp [phase?, hnone]
  have hfuel : p.fuel = (2 * p.idle.length + 3) + 1 + 1 + 1 + 1 := rfl
  -- The pool when the party has its permit, and when its connection counts.
  let permitted : Pool ι κ := { p with free := p.free - 1 }
  let counted : Pool ι κ := { p with free := p.free - 1, size := p.size + 1 }
  unfold start
  dsimp only
  rw [harrive, hfuel,
    proceed_next opener now w (phase?_enter hwho ..) (by simp) (next?_enter now hwho ..),
    step_ask_enter hwho .stock hqueue, if_neg (by simp [hshut]), if_pos hfree,
    proceed_next opener now w (phase?_enter (p := permitted) hwho ..) (by simp)
      (next?_enter (p := permitted) now hwho ..),
    step_reserve_enter (p := permitted) hwho .stock .admitted hopen (.inr ⟨rfl, rfl⟩),
    proceed_opening opener now w (phase?_enter (p := counted) hwho ..)]
  cases hnew : opener w with
  | mk r w' =>
    cases r with
    | ok c =>
      let stocked : Pool ι κ := { p with idle := p.idle ++ [⟨c, now⟩], size := p.size + 1 }
      have hshelve : (counted.enter who .stock (.stocking ⟨c, now⟩)).step (.shelve who) = stocked :=
        (step_shelve_enter (p := counted) hwho .stock _).trans (by simp [counted, stocked, hback])
      have hgone' : stocked.phase? who = none := hgone
      dsimp only
      rw [step_opened_enter (p := counted) hwho,
        proceed_next opener now w' (phase?_enter (p := counted) hwho ..) (by simp)
          (next?_enter (p := counted) now hwho ..), hshelve, proceed_gone opener now w' hgone']
      simp only [settle, step, hgone']
      rfl
    | error x =>
      have hleft : (counted.enter who .stock .opening).step (.opened who now (.error x)) =
          p.enter who .stock (.failed x) :=
        (step_unopened_enter (p := counted) hwho .stock now x).trans (by simp [counted, hback])
      dsimp only
      rw [hleft, proceed_stop opener now w' (phase?_enter hwho ..) (by simp)
        (next?_enter now hwho ..), settle_enter hwho]

omit [DecidableEq ι] in
/-- Nothing is missing. -/
theorem Stocked.none {opener : ω → Result κ × ω} {now : Duration} {w : ω}
    (enough : p.config.minSize ≤ p.size) : Stocked opener now p w (.ok (), p, w) := by
  have h : Stocked opener now p w (.ok (), { p with
      idle := p.idle ++ List.map _ []
      size := p.size + 0 }, w) :=
    .full (.nil w) (show 0 = p.config.minSize - p.size by omega)
  simpa using h

omit [DecidableEq ι] in
theorem Stocked.cons {opener : ω → Result κ × ω} {now : Duration} {w w' : ω} {c : κ}
    {x : Result Unit × Pool ι κ × ω} (missing : p.size < p.config.minSize)
    (new : opener w = (.ok c, w'))
    (h : Stocked opener now { p with idle := p.idle ++ [⟨c, now⟩], size := p.size + 1 } w' x) :
    Stocked opener now p w x := by
  cases h with
  | full opened count =>
    rename_i cs w''
    have hcount : (c :: cs).length = p.config.minSize - p.size := by
      simp only [List.length_cons] at count ⊢
      omega
    have h : Stocked opener now p w (.ok (), { p with
        idle := p.idle ++ (c :: cs).map _
        size := p.size + (c :: cs).length }, w'') := .full (.cons new opened) hcount
    simpa [Nat.add_comm, Nat.add_left_comm, Nat.add_assoc] using h
  | failed opened failing => exact .failed (.cons new opened) failing

/-- Stocking a pool that nobody uses. -/
theorem stocked_stockUp (hnobody : p.parties = []) (hopen : p.isClosed = false)
    (hshut : p.isShut = false) (hfree : 0 < p.free) {missing : Nat}
    (hmissing : p.config.minSize - p.size ≤ missing) :
    Stocked opener now p w (stockUp opener who now missing (p, w)) := by
  induction missing generalizing p w with
  | zero => exact .none (by omega)
  | succ missing ih =>
    have hwho : who ∉ p.parties.map (·.name) := by simp [hnobody]
    have hqueue : p.queue = [] := by simp [queue, hnobody]
    unfold stockUp
    by_cases hsize : p.config.minSize ≤ p.size
    · rw [if_pos hsize]
      exact .none hsize
    · rw [if_neg hsize]
      have hlt : p.size < p.config.minSize := by omega
      have hstock := settle_start_stock opener now w hwho hqueue hopen hshut hfree hlt
      cases hnew : opener w with
      | mk r w' =>
        rw [hnew] at hstock
        obtain ⟨hsettle, hworld⟩ := Prod.mk.inj hstock
        cases r with
        | ok c =>
          dsimp only
          rw [hsettle, hworld]
          refine .cons hlt hnew (ih w' hnobody hopen hshut hfree ?_)
          dsimp only
          omega
        | error x =>
          dsimp only
          rw [hsettle, hworld]
          exact .failed (.nil w) hnew

/-- Stocking a pool that nobody uses yet. -/
theorem stocked_warm (who : ι) (hnobody : p.parties = []) (hopen : p.isClosed = false)
    (hshut : p.isShut = false) (hfree : 0 < p.free) :
    Stocked opener now p w (warm opener who now (p, w)) :=
  stocked_stockUp opener now w hnobody hopen hshut hfree (Nat.sub_le ..)

end Stocking

/-! ## Pools at rest -/

/-- Two pools allow the same. -/
structure Alike (p p' : Pool ι κ) : Prop where
  config : p'.config = p.config
  keeps : p'.keeps = p.keeps
  isClosed : p'.isClosed = p.isClosed
  isShut : p'.isShut = p.isShut

/-- Between errands a pool is balanced and nobody is on the way; it lends connections as long as it
gives permits. -/
structure Resting (p : Pool ι κ) : Prop where
  balanced : p.Balanced
  quiet : p.Quiet
  closed : p.isClosed = p.isShut

omit [DecidableEq ι] in
theorem resting_new (config : PoolConfig) (keeps : Nat) : (new config keeps : Pool ι κ).Resting :=
  ⟨balanced_new config keeps, by simp [Quiet, new], rfl⟩

section Resting

variable {p : Pool ι κ} {who : ι} {now : Duration}

/-- What a party holds is a connection of the pool. -/
theorem mem_conns_of_held {o : Opened κ} (h : p.held? who = some o) : o.conn ∈ p.conns := by
  obtain ⟨q, hq, -, hholding⟩ := exists_party_of_held h
  refine List.mem_append_right _ (List.mem_filterMap.2 ⟨q, hq, ?_⟩)
  rw [hholding]
  rfl

/-- A connection that the pool does not take back it has no more. -/
theorem not_mem_conns_release (hp : p.Balanced) (hconns : p.conns.Nodup) {o : Opened κ}
    (ho : p.held? who = some o) {reusable : Bool} (hrefuses : p.refuses o reusable now = true) :
    o.conn ∉ (p.step (.release who reusable now)).conns := by
  have hcloses : p.closes (.release who reusable now) = [o.conn] := by
    simp [closes, phase?_of_held ho, hrefuses]
  have hperm := (steps hp.distinct (.release who reusable now)).perm
  rw [hcloses] at hperm
  simp only [opens, List.append_nil] at hperm
  have hnodup := hperm.nodup_iff.2 hconns
  exact fun hmem => (List.nodup_append.1 hnodup).2.2 _ hmem _ (List.mem_singleton_self _) rfl

theorem parties_release_subset (p : Pool ι κ) (reusable : Bool) :
    ∀ q ∈ (p.step (.release who reusable now)).parties, q ∈ p.parties := by
  intro q hq
  unfold step at hq
  dsimp only at hq
  split at hq
  · split at hq <;> exact (List.mem_filter.1 hq).1
  · exact hq

/-- The others stay. -/
theorem mem_parties_release {q : Party ι κ} (hq : q ∈ p.parties) (hne : q.name ≠ who)
    (reusable : Bool) : q ∈ (p.step (.release who reusable now)).parties := by
  have hmem : q ∈ (p.remove who).parties := List.mem_filter.2 ⟨hq, by simpa using hne⟩
  unfold step
  dsimp only
  split
  · split <;> exact hmem
  · exact hq

/-- Giving a connection back changes nothing about what a pool allows. -/
theorem alike_release (p : Pool ι κ) (who : ι) (now : Duration) (reusable : Bool) :
    p.Alike (p.step (.release who reusable now)) := by
  unfold step
  dsimp only
  split
  · split <;> exact ⟨rfl, rfl, rfl, rfl⟩
  · exact ⟨rfl, rfl, rfl, rfl⟩

theorem Resting.release (hp : p.Resting) (reusable : Bool) :
    (p.step (.release who reusable now)).Resting := by
  have halike := p.alike_release who now reusable
  refine ⟨(steps hp.balanced.distinct _).balanced hp.balanced, ?_, ?_⟩
  · exact fun q hq => hp.quiet q (parties_release_subset p reusable q hq)
  · rw [halike.isClosed, halike.isShut]
    exact hp.closed

/-- Where nobody waits, nobody notices that a pool is closed. -/
theorem Quiet.parties_end (hp : p.Quiet) : ((p.step .close).step .shut).parties = p.parties := by
  refine (List.map_congr_left fun q hq => ?_).trans (List.map_id _)
  have hholding := hp q hq
  obtain ⟨name, purpose, phase⟩ := q
  cases phase <;> simp [Phase.isHolding] at hholding
  rfl

theorem Resting.end (hp : p.Resting) : ((p.step .close).step .shut).Resting := by
  have hclose := (steps hp.balanced.distinct .close).balanced hp.balanced
  refine ⟨(steps hclose.distinct .shut).balanced hclose, fun q hq => ?_, rfl⟩
  rw [hp.quiet.parties_end] at hq
  exact hp.quiet q hq

/-- Closing a pool leaves the connections that parties have. -/
theorem Resting.conns_end (hp : p.Resting) :
    ((p.step .close).step .shut).conns = p.parties.filterMap (·.phase.conn?) := by
  rw [conns, hp.quiet.parties_end]
  rfl

end Resting

section Errands

variable {p : Pool ι κ} {who : ι} {now : Duration} {opener : ω → Result κ × ω} {w : ω}
  {x : Result Unit × Pool ι κ × ω}
omit [DecidableEq ι]

theorem Balanced.enter (hp : p.Distinct) (hwho : who ∉ p.parties.map (·.name)) {o : Opened κ}
    (hsize : p.size = p.idle.length + p.tally (·.phase.counts) + 1)
    (hfree : p.free + p.tally (·.phase.hasPermit) + 1 = p.config.maxSize) :
    (p.enter who .take (.holding o)).Balanced := by
  refine ⟨?_, ?_, ?_⟩
  · unfold Distinct at hp ⊢
    simp only [Pool.enter, List.map_append, List.map_cons, List.map_nil]
    rw [List.nodup_append]
    refine ⟨hp, by simp, ?_⟩
    rintro a ha b hb rfl
    rw [List.mem_singleton] at hb
    exact hwho (hb ▸ ha)
  · rw [tally_enter]
    exact hsize
  · rw [tally_enter]
    exact hfree

/-- Who is at a pool after an errand: perhaps the party too, with a connection that was idle or is
new. -/
theorem Taken.parties_eq (h : Taken opener who now p w x) :
    x.1.isOk = false ∧ x.2.1.parties = p.parties ∨
      x.1.isOk = true ∧ ∃ o, x.2.1.parties = p.parties ++ [⟨who, .take, .holding o⟩] ∧
        (o ∈ p.idle ∨ opener w = (.ok o.conn, x.2.2)) := by
  cases h with
  | shut | late | failed => exact .inl ⟨rfl, rfl⟩
  | lent unshut free idle old young =>
    refine .inr ⟨rfl, _, rfl, .inl ?_⟩
    rw [idle]
    exact List.mem_append_right _ (List.mem_cons_self ..)
  | opened unshut free old new => exact .inr ⟨rfl, _, rfl, .inr new⟩

/-- Who has taken a connection holds one that was idle or is new. -/
theorem Taken.exists_held [DecidableEq ι] (h : Taken opener who now p w x)
    (hwho : who ∉ p.parties.map (·.name)) (hok : x.1.isOk = true) :
    ∃ o, x.2.1.held? who = some o ∧ (o ∈ p.idle ∨ opener w = (.ok o.conn, x.2.2)) := by
  rcases h.parties_eq with ⟨hfails, -⟩ | ⟨-, o, hparties, ho⟩
  · rw [hfails] at hok
    cases hok
  · have hphase : x.2.1.phase? who = some (.holding o) := by
      rw [phase?, party?, hparties]
      exact phase?_enter hwho .take (.holding o)
    exact ⟨o, by rw [held?, hphase], ho⟩

/-- The others hold what they held. -/
theorem Taken.held?_of_ne [DecidableEq ι] (h : Taken opener who now p w x) {who' : ι}
    (hne : who' ≠ who) : x.2.1.held? who' = p.held? who' := by
  have hparty : x.2.1.party? who' = p.party? who' := by
    unfold party?
    rcases h.parties_eq with ⟨-, hparties⟩ | ⟨-, o, hparties, -⟩ <;> rw [hparties]
    simp [List.find?_append, hne.symm]
  simp only [held?, phase?, hparty]

/-- Nothing happens to the world but that a connection may be opened. -/
theorem Taken.world_eq (h : Taken opener who now p w x) :
    x.2.2 = w ∨ ∃ r, opener w = (r, x.2.2) := by
  cases h with
  | shut | late | lent => exact .inl rfl
  | opened unshut free old new | failed unshut free old new => exact .inr ⟨_, new⟩

/-- Only a pool that is open lends anything. -/
theorem Taken.unshut (h : Taken opener who now p w x) (hok : x.1.isOk = true) : p.isShut = false := by
  cases h with
  | shut => cases hok
  | late unshut | lent unshut | opened unshut | failed unshut => exact unshut

theorem Taken.alike (h : Taken opener who now p w x) : p.Alike x.2.1 := by
  cases h <;> exact ⟨rfl, rfl, rfl, rfl⟩

theorem Taken.resting (h : Taken opener who now p w x) (hp : p.Resting)
    (hwho : who ∉ p.parties.map (·.name)) : x.2.1.Resting := by
  have hsize := hp.balanced.size_eq
  have hfree := hp.balanced.free_eq
  refine ⟨?_, ?_, ?_⟩
  · cases h with
    | shut | late => exact hp.balanced
    | lent unshut free idle old young =>
      rename_i aged rest o
      rw [idle, List.length_append, List.length_cons] at hsize
      refine Balanced.enter
        (p := { p with idle := rest, size := p.size - aged.length, free := p.free - 1 })
        hp.balanced.distinct hwho ?_ ?_ <;> simp only [tally] at * <;> omega
    | opened unshut free old new =>
      refine Balanced.enter
        (p := { p with idle := [], size := p.size - p.idle.length + 1, free := p.free - 1 })
        hp.balanced.distinct hwho ?_ ?_ <;> simp only [tally, List.length_nil] at * <;> omega
    | failed unshut free old new =>
      refine ⟨hp.balanced.distinct, ?_, hfree⟩
      simp only [tally] at *
      simp
      omega
  · intro q hq
    rcases h.parties_eq with ⟨-, hparties⟩ | ⟨-, o, hparties, -⟩
    · exact hp.quiet q (hparties ▸ hq)
    · rw [hparties, List.mem_append, List.mem_singleton] at hq
      rcases hq with hq | rfl
      · exact hp.quiet q hq
      · rfl
  · cases h <;> exact hp.closed

/-- An errand closes idle connections only, and opens one connection at most. -/
theorem Taken.perm (h : Taken opener who now p w x) :
    ∃ closed new, (x.2.1.conns ++ closed).Perm (p.conns ++ new) ∧
      (∀ c ∈ closed, c ∈ p.idle.map (·.conn)) ∧
      (new = [] ∨ ∃ c, new = [c] ∧ opener w = (.ok c, x.2.2)) := by
  classical
  cases h with
  | shut | late => exact ⟨[], [], .rfl, by simp, .inl rfl⟩
  | lent unshut free idle old young =>
    rename_i aged rest o
    refine ⟨aged.map (·.conn), [], ?_, fun c hc => ?_, .inl rfl⟩
    · refine List.perm_iff_count.2 fun c => ?_
      simp only [conns, Pool.enter, idle, Phase.conn?, List.map_append, List.map_cons,
        List.filterMap_append, List.filterMap_cons, List.filterMap_nil, List.count_append,
        List.count_cons, List.count_nil]
      omega
    · rw [idle, List.map_append]
      exact List.mem_append_left _ hc
  | opened unshut free old new =>
    refine ⟨p.idle.map (·.conn), [_], ?_, fun _ hc => hc, .inr ⟨_, rfl, new⟩⟩
    refine List.perm_iff_count.2 fun c => ?_
    simp only [conns, Pool.enter, Phase.conn?, List.map_nil, List.filterMap_append,
      List.filterMap_cons, List.filterMap_nil, List.count_append, List.count_cons, List.count_nil]
    omega
  | failed unshut free old new =>
    refine ⟨p.idle.map (·.conn), [], ?_, fun _ hc => hc, .inl rfl⟩
    refine List.perm_iff_count.2 fun c => ?_
    simp only [conns, List.map_nil, List.count_append, List.count_nil]
    omega

/-- A new pool that is stocked has what was opened, and nobody is there. -/
theorem Stocked.exists_opened {config : PoolConfig} {keeps : Nat} {pool : Pool ι κ} {w' : ω}
    (h : Stocked opener now (new config keeps) w (.ok (), pool, w')) :
    ∃ cs : List κ, Opens opener w cs w' ∧ cs.length = config.minSize ∧
      pool = { (new config keeps : Pool ι κ) with
        idle := cs.map fun c => ⟨c, now⟩
        size := cs.length } := by
  cases h with
  | full opened count =>
    refine ⟨_, opened, by simpa [new] using count, ?_⟩
    simp [new]

theorem resting_stocked (config : PoolConfig) (keeps : Nat) (idle : List (Opened κ)) :
    ({ (new config keeps : Pool ι κ) with idle := idle, size := idle.length }).Resting :=
  ⟨⟨List.nodup_nil, rfl, rfl⟩, by simp [Quiet, new], rfl⟩

end Errands

/-! ## Errands in another world

A map of worlds that opening a connection goes along with, whole errands go along with. -/

section Elsewhere

variable {opener : ω → Result κ × ω} {f : ω → ω}
  (hf : ∀ w, opener (f w) = (opener w).map id f)
include hf

theorem proceed_map (who : ι) (now : Duration) (fuel : Nat) (p : Pool ι κ) (w : ω) :
    proceed opener who now fuel (p, f w) = (proceed opener who now fuel (p, w)).map id f := by
  induction fuel generalizing p w with
  | zero => rfl
  | succ fuel ih =>
    unfold proceed
    dsimp only
    split
    · rw [hf]
      exact ih _ _
    · split
      · exact ih _ _
      · rfl

theorem take_map (who : ι) (now : Duration) (p : Pool ι κ) (w : ω) :
    take opener who now (p, f w) = (take opener who now (p, w)).map id (Prod.map id f) := by
  unfold take start
  dsimp only
  rw [proceed_map hf]
  rfl

theorem stockUp_map (who : ι) (now : Duration) (missing : Nat) (p : Pool ι κ) (w : ω) :
    stockUp opener who now missing (p, f w) =
      (stockUp opener who now missing (p, w)).map id (Prod.map id f) := by
  induction missing generalizing p w with
  | zero => rfl
  | succ missing ih =>
    unfold stockUp start
    dsimp only
    rw [proceed_map hf]
    split
    · rfl
    · dsimp only [Prod.map, id]
      split
      · exact ih _ _
      · rfl

theorem warm_map (who : ι) (now : Duration) (p : Pool ι κ) (w : ω) :
    warm opener who now (p, f w) = (warm opener who now (p, w)).map id (Prod.map id f) :=
  stockUp_map hf who now _ p w

end Elsewhere

end Pool

end SqlKit
