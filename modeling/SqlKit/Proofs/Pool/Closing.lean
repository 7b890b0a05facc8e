import SqlKit.Proofs.Pool.Errands

/-!
# Closing a pool

A pool that is closed stays closed.  It lends nothing and lets nobody open anything any more: who turns
up gets an error as soon as it asks for a permit, and who was waiting has it already.  What was lent is
closed when it is given back.  Only a party that was opening a connection to stock it when the pool was
closed puts it with the idle ones nevertheless.

    events of other parties leave a party where it is                  (phase?_step_of_ne)
    nothing becomes idle in a closed pool but what a party stocks      (idle_step)
    who turns up too late is refused                                   (phase?_run_of_arriving, take_of_shut)
-/

namespace SqlKit

namespace Pool

variable {ι κ : Type} [DecidableEq ι]

/-! ## Bystanders -/

/-- The party whose step an event is. -/
def Event.who? : Event ι κ → Option ι
  | .arrive who _ | .ask who _ | .permit who | .expire who | .look who _ | .uncount who | .reserve who
  | .opened who _ _ | .shelve who | .release who _ _ | .discard who | .cancel who | .forget who =>
    some who
  | .close | .shut => none

section Others

variable {p : Pool ι κ} {who who' : ι}

theorem party?_move (p : Pool ι κ) (who who' : ι) (phase : Phase κ) :
    (p.move who' phase).party? who =
      (p.party? who).map fun q => if q.name = who' then { q with phase } else q := by
  unfold party? move
  rw [List.find?_map]
  congr 2
  funext q
  by_cases hq : q.name = who' <;> simp [hq]

theorem phase?_move_of_ne (h : who' ≠ who) (phase : Phase κ) :
    (p.move who' phase).phase? who = p.phase? who := by
  unfold phase?
  rw [party?_move]
  cases hq : p.party? who with
  | none => rfl
  | some q =>
    have hne : q.name ≠ who' := fun hname => h (hname.symm.trans (name_of_party? hq))
    simp [hne]

theorem phase?_move_self {q : Party ι κ} (h : p.party? who = some q) (phase : Phase κ) :
    (p.move who phase).phase? who = some phase := by
  unfold phase?
  rw [party?_move, h]
  simp [name_of_party? h]

theorem phase?_remove_of_ne (h : who' ≠ who) : (p.remove who').phase? who = p.phase? who := by
  unfold phase? party? remove
  rw [List.find?_filter]
  congr 2
  funext q
  by_cases hq : q.name = who <;> simp [hq, h.symm]

theorem phase?_enter_of_ne (h : who' ≠ who) (purpose : Purpose) (phase : Phase κ) :
    (p.enter who' purpose phase).phase? who = p.phase? who := by
  simp [phase?, party?, enter, List.find?_append, h]

/-- Events of other parties leave a party where it is. -/
theorem phase?_step_of_ne {e : Event ι κ} (hwho' : e.who? = some who') (h : who' ≠ who) :
    (p.step e).phase? who = p.phase? who := by
  have hmove (p : Pool ι κ) (phase : Phase κ) := phase?_move_of_ne (p := p) h phase
  have hremove (p : Pool ι κ) := phase?_remove_of_ne (p := p) h
  have henter (p : Pool ι κ) := phase?_enter_of_ne (p := p) h
  cases e <;> cases hwho' <;> simp only [step, lookStep] <;> repeat' split
  all_goals
    first
    | rfl
    | exact hmove _ _
    | exact hremove _
    | exact (henter _ _ _)
    | exact (henter _ _ _).trans (hremove _)

end Others

/-! ## The idle connections of a closed pool -/

/-- Does an event put a connection that was opened to be stocked with the idle ones? -/
def shelves (p : Pool ι κ) : Event ι κ → Bool
  | .shelve who =>
    match p.phase? who with
    | some (.stocking _) => true
    | _ => false
  | _ => false

/-- No event of a run puts a stocked connection with the idle ones. -/
def NoneShelved (p : Pool ι κ) : List (Event ι κ) → Prop
  | [] => True
  | e :: es => p.shelves e = false ∧ (p.step e).NoneShelved es

instance decidableNoneShelved : ∀ (es : List (Event ι κ)) (p : Pool ι κ), Decidable (p.NoneShelved es)
  | [], _ => inferInstanceAs (Decidable True)
  | e :: es, p => @instDecidableAnd _ _ _ (decidableNoneShelved es (p.step e))

section Closed

variable {p : Pool ι κ}

theorem isClosed_step (h : p.isClosed = true) (e : Event ι κ) : (p.step e).isClosed = true := by
  cases e <;> simp only [step, lookStep] <;> repeat' split
  all_goals exact h

theorem isShut_step (h : p.isShut = true) (e : Event ι κ) : (p.step e).isShut = true := by
  cases e <;> simp only [step, lookStep] <;> repeat' split
  all_goals exact h

theorem isShut_run (h : p.isShut = true) (es : List (Event ι κ)) : (p.run es).isShut = true := by
  induction es generalizing p with
  | nil => exact h
  | cons e es ih => exact ih (isShut_step h e)

theorem isShut_run_of_mem {es : List (Event ι κ)} (h : .shut ∈ es) : (p.run es).isShut = true := by
  obtain ⟨before, after, rfl⟩ := List.append_of_mem h
  rw [run_append]
  exact isShut_run (p := (p.run before).step .shut) rfl after

/-- Nothing becomes idle in a closed pool but what a party has opened to stock it. -/
theorem idle_step (h : p.isClosed = true) (hidle : p.idle = []) (e : Event ι κ) :
    (p.step e).idle = [] ↔ p.shelves e = false := by
  have hrefuses (o : Opened κ) (reusable : Bool) (now : Duration) :
      p.refuses o reusable now = true := by simp [refuses, h]
  cases e with
  | shelve who =>
    cases hphase : p.phase? who with
    | none => simp [step, shelves, hphase, hidle]
    | some phase => cases phase <;> simp [step, shelves, hphase, hidle, remove]
  | release who reusable now =>
    refine ⟨fun _ => rfl, fun _ => ?_⟩
    unfold step
    dsimp only
    split
    · rw [if_pos (hrefuses ..)]
      exact hidle
    · exact hidle
  | _ =>
    refine ⟨fun _ => rfl, fun _ => ?_⟩
    simp only [step, lookStep]
    repeat' split
    all_goals exact hidle

/-- A closed pool has no idle connection at any time of a run if and only if none is stocked. -/
theorem noneShelved_iff (h : p.isClosed = true) (hidle : p.idle = []) (es : List (Event ι κ)) :
    p.NoneShelved es ↔ ∀ l, l <+: es → (p.run l).idle = [] := by
  induction es generalizing p with
  | nil =>
    refine ⟨fun _ l hl => ?_, fun _ => trivial⟩
    rw [List.prefix_nil.1 hl]
    exact hidle
  | cons e es ih =>
    constructor
    · rintro ⟨he, hes⟩ l hl
      have hnext : (p.step e).idle = [] := (idle_step h hidle e).2 he
      rcases List.prefix_cons_iff.1 hl with rfl | ⟨l, hcons, hl⟩
      · exact hidle
      · rw [hcons]
        exact (ih (isClosed_step h e) hnext).1 hes l hl
    · intro hall
      have hnext : (p.step e).idle = [] := hall [e] (by simp)
      refine ⟨(idle_step h hidle e).1 hnext, (ih (isClosed_step h e) hnext).2 fun l hl => ?_⟩
      exact hall (e :: l) (List.cons_prefix_cons.2 ⟨rfl, hl⟩)

end Closed

/-! ## Who turns up too late -/

section Late

variable {p : Pool ι κ} {who : ι}

theorem step_ask_of_shut (hshut : p.isShut = true) (h : p.phase? who = some .arriving)
    (now : Duration) : (p.step (.ask who now)).phase? who = some (.failed .poolClosed) := by
  obtain ⟨⟨name, purpose, phase⟩, hq, rfl⟩ := exists_party?_of_phase? h
  simp only [step, hq, hshut, if_true]
  exact phase?_move_self hq _

/-- Who does not wait is not in the queue. -/
theorem queue_head_ne (hp : p.Distinct) {phase : Phase κ} (h : p.phase? who = some phase)
    (hphase : phase.isWaiting = false) : p.queue.head? ≠ some who := by
  intro hhead
  obtain ⟨q, t, hq, hwaiting⟩ := exists_waiting_of_queue hp hhead
  rw [phase?_eq hq, hwaiting] at h
  cases h
  cases hphase

/-- Events that are nobody's change nothing for a party that does not wait. -/
theorem phase?_step_of_nobody {e : Event ι κ} (he : e.who? = none) {phase : Phase κ}
    (h : p.phase? who = some phase) (hphase : phase.isWaiting = false) :
    (p.step e).phase? who = some phase := by
  cases e with
  | close => exact h
  | shut =>
    obtain ⟨q, hq, rfl⟩ := exists_party?_of_phase? h
    unfold party? at hq
    have hname : ((fun x : Party ι κ => decide (x.name = who)) ∘ fun x : Party ι κ =>
        if x.phase.isWaiting then { x with phase := .failed .poolClosed } else x) =
          fun x => decide (x.name = who) := by
      funext x
      by_cases hx : x.phase.isWaiting = true <;> simp [hx]
    simp only [step, phase?, party?]
    rw [List.find?_map, hname, hq]
    simp [hphase]
  | _ => cases he

/-- Nothing but its own question moves a party that has just turned up. -/
theorem phase?_step_of_arriving (hp : p.Distinct) (h : p.phase? who = some .arriving)
    {e : Event ι κ} (hask : ∀ now, e ≠ .ask who now) : (p.step e).phase? who = some .arriving := by
  cases hwho : e.who? with
  | none => exact phase?_step_of_nobody hwho h rfl
  | some who' =>
    by_cases hne : who' = who
    · subst hne
      have hqueue := queue_head_ne hp h rfl
      obtain ⟨⟨name, purpose, phase⟩, hq, rfl⟩ := exists_party?_of_phase? h
      cases e <;> cases hwho <;> simp [step, hq, h, hqueue]
      exact absurd rfl (hask _)
    · exact (phase?_step_of_ne hwho hne).trans h

/-- Who has failed stays so until it leaves. -/
theorem phase?_step_of_failed (hp : p.Distinct) {x : Error} (h : p.phase? who = some (.failed x))
    {e : Event ι κ} (hforget : e ≠ .forget who) : (p.step e).phase? who = some (.failed x) := by
  cases hwho : e.who? with
  | none => exact phase?_step_of_nobody hwho h rfl
  | some who' =>
    by_cases hne : who' = who
    · subst hne
      have hqueue := queue_head_ne hp h rfl
      obtain ⟨⟨name, purpose, phase⟩, hq, rfl⟩ := exists_party?_of_phase? h
      cases e <;> cases hwho <;> simp [step, hq, h, hqueue]
      exact absurd rfl hforget
    · exact (phase?_step_of_ne hwho hne).trans h

theorem phase?_run_of_failed (hp : p.Balanced) {x : Error} (h : p.phase? who = some (.failed x))
    {es : List (Event ι κ)} (hforget : .forget who ∉ es) :
    (p.run es).phase? who = some (.failed x) := by
  induction es generalizing p with
  | nil => exact h
  | cons e es ih =>
    rw [List.mem_cons, not_or] at hforget
    exact ih ((steps hp.distinct e).balanced hp)
      (phase?_step_of_failed hp.distinct h (Ne.symm hforget.1)) hforget.2

/-- Who turns up when no permits are given any more gets an error as soon as it asks for one, whatever
the others do. -/
theorem phase?_run_of_arriving (hp : p.Balanced) (hshut : p.isShut = true)
    (h : p.phase? who = some .arriving) {es : List (Event ι κ)} (hforget : .forget who ∉ es) :
    (∀ now, .ask who now ∉ es) ∧ (p.run es).phase? who = some .arriving ∨
      (∃ now, .ask who now ∈ es) ∧ (p.run es).phase? who = some (.failed .poolClosed) := by
  induction es generalizing p with
  | nil => exact .inl ⟨by simp, h⟩
  | cons e es ih =>
    rw [List.mem_cons, not_or] at hforget
    have hbalanced := (steps hp.distinct e).balanced hp
    by_cases hask : ∃ now, e = .ask who now
    · obtain ⟨now, rfl⟩ := hask
      right
      refine ⟨⟨now, by simp⟩, ?_⟩
      exact phase?_run_of_failed hbalanced (step_ask_of_shut hshut h now) hforget.2
    · have hne : ∀ now, e ≠ .ask who now := fun now he => hask ⟨now, he⟩
      rcases ih hbalanced (isShut_step hshut e) (phase?_step_of_arriving hp.distinct h hne)
        hforget.2 with ⟨hnone, hphase⟩ | ⟨⟨now, hmem⟩, hphase⟩
      · left
        refine ⟨fun now hmem => ?_, hphase⟩
        rcases List.mem_cons.1 hmem with he | hmem
        · exact hne now he.symm
        · exact hnone now hmem
      · exact .inr ⟨⟨now, List.mem_cons_of_mem _ hmem⟩, hphase⟩

end Late

/-! Whole errands are refused without anything being opened. -/

section Errands

variable {ω : Type} {p : Pool ι κ} {who : ι} (opener : ω → Result κ × ω) (now : Duration) (w : ω)

theorem settle_start_of_shut (hshut : p.isShut = true) (hwho : who ∉ p.parties.map (·.name))
    (purpose : Purpose) (hmissing : purpose = .stock → p.size < p.config.minSize) :
    (start opener who purpose now (p, w)).1.settle who = (.error .poolClosed, p) ∧
      (start opener who purpose now (p, w)).2 = w := by
  have harrive := step_arrive_enter hwho purpose hmissing
  have hask : (p.enter who purpose .arriving).step (.ask who now) =
      p.enter who purpose (.failed .poolClosed) := by
    simp only [step, party?_enter hwho]
    rw [if_pos (show (p.enter who purpose .arriving).isShut = true from hshut)]
    exact move_enter hwho ..
  have hstart : start opener who purpose now (p, w) =
      (p.enter who purpose (.failed .poolClosed), w) := by
    unfold start
    rw [harrive]
    show proceed opener who now (2 * p.idle.length + 6 + 1) _ = _
    rw [proceed_next opener now w (phase?_enter hwho ..) (by simp) (next?_enter now hwho ..), hask]
    exact proceed_stop opener now w (phase?_enter hwho ..) (by simp)
      (by cases purpose <;> exact next?_enter now hwho ..) _
  rw [hstart, settle_enter hwho]
  exact ⟨rfl, rfl⟩

theorem take_of_shut (hshut : p.isShut = true) (hwho : who ∉ p.parties.map (·.name)) :
    take opener who now (p, w) = (.error .poolClosed, p, w) := by
  obtain ⟨hsettle, hworld⟩ := settle_start_of_shut opener now w hshut hwho .take (by simp)
  unfold take
  dsimp only
  rw [hsettle, hworld]

theorem warm_of_shut (hshut : p.isShut = true) (hwho : who ∉ p.parties.map (·.name)) :
    warm opener who now (p, w) =
      if p.size < p.config.minSize then (.error .poolClosed, p, w) else (.ok (), p, w) := by
  unfold warm
  dsimp only
  split
  next hmissing =>
    obtain ⟨hsettle, hworld⟩ :=
      settle_start_of_shut opener now w hshut hwho .stock fun _ => hmissing
    obtain ⟨missing, hmin⟩ : ∃ missing, p.config.minSize = missing + 1 :=
      ⟨p.config.minSize - 1, by omega⟩
    rw [hmin, stockUp, if_neg (by omega)]
    dsimp only
    rw [hsettle, hworld]
  next hfull =>
    cases hmin : p.config.minSize with
    | zero => rfl
    | succ missing => rw [stockUp, if_pos (by omega)]

end Errands

/-! ## The whole run -/

/-- From the moment a pool is closed, after whatever events: no connection is ever idle if and only if
no party puts one there that it has opened to stock it; where none is idle, the count is that of the
connections that are held, being opened or taken out to be closed, so it is zero when nobody is on the
way and nobody holds any.  Once no permits are given any more, who turns up to take a connection is
refused as soon as it asks, whatever the others do, and so is who turns up to stock one where
connections are missing; where none is missing, there is nothing to stock. -/
theorem run_closed (config : PoolConfig) (keeps : Nat) (es rest : List (Event ι κ)) :
    let closed : Pool ι κ := (new config keeps).run (es ++ [.close])
    let p := closed.run rest
    (closed.NoneShelved rest ↔ ∀ l, l <+: rest → (closed.run l).idle = []) ∧
      (p.idle = [] ↔ p.size = p.tally (·.phase.isHolding) + p.tally (·.phase.isOpening) +
        p.tally (·.phase.isRetiring)) ∧
      (p.idle = [] → p.tally (·.phase.isBusy) = 0 → p.tally (·.phase.isHolding) = 0 → p.size = 0) ∧
      (.shut ∈ rest → ∀ who, who ∉ p.parties.map (·.name) →
        (∀ purpose, (purpose = .stock → p.size < p.config.minSize) → ∀ fs, .forget who ∉ fs →
          let later := (p.step (.arrive who purpose)).run fs
          (∀ now, .ask who now ∉ fs) ∧ later.phase? who = some .arriving ∨
            (∃ now, .ask who now ∈ fs) ∧ later.phase? who = some (.failed .poolClosed)) ∧
        ∀ (ω : Type) (opener : ω → Result κ × ω) (now : Duration) (w : ω),
          take opener who now (p, w) = (.error .poolClosed, p, w) ∧
            warm opener who now (p, w) =
              if p.size < p.config.minSize then (.error .poolClosed, p, w) else (.ok (), p, w)) := by
  intro closed p
  have hstart : (new config keeps : Pool ι κ).Balanced := balanced_new config keeps
  have hclosed : closed = ((new config keeps).run es).step .close := run_append ..
  have hp : p.Balanced := balanced_run (balanced_run hstart _) rest
  have hsize : p.size = p.idle.length + (p.tally (·.phase.isHolding) +
      p.tally (·.phase.isOpening) + p.tally (·.phase.isRetiring)) := by
    rw [hp.size_eq, tally_counts]
  refine ⟨?_, ?_, ?_, ?_⟩
  · exact noneShelved_iff (by rw [hclosed, isClosed_close]) (by rw [hclosed, idle_close]) rest
  · rw [← List.length_eq_zero_iff]
    omega
  · intro hidle hbusy hholding
    rw [hp.size_eq, hidle, List.length_nil, Nat.zero_add]
    refine List.countP_eq_zero.2 fun q hq hcounts => ?_
    have hq := And.intro (List.countP_eq_zero.1 hbusy q hq) (List.countP_eq_zero.1 hholding q hq)
    obtain ⟨name, purpose, phase⟩ := q
    cases phase <;> simp [Phase.isBusy, Phase.isHolding, Phase.counts] at hq hcounts
  · intro hmem who hwho
    have hshut : p.isShut = true := isShut_run_of_mem hmem
    have hnone : p.party? who = none := party?_eq_none_iff.2 hwho
    refine ⟨fun purpose hmissing fs hforget => ?_, fun ω opener now w => ?_⟩
    · have harrive : p.step (.arrive who purpose) = p.enter who purpose .arriving := by
        cases purpose with
        | take => simp [step, hnone]
        | stock => simp [step, hnone, hmissing rfl]
      have hbalanced := (steps hp.distinct (.arrive who purpose)).balanced hp
      rw [harrive] at hbalanced ⊢
      exact phase?_run_of_arriving hbalanced hshut (phase?_enter hwho ..) hforget
    · exact ⟨take_of_shut opener now w hshut hwho, warm_of_shut opener now w hshut hwho⟩

/-- A connection is lent, the pool is closed, and the connection is closed when it comes back.  Others
turn up too late. -/
theorem run_closed_lent :
    let closed : Pool Nat Nat := (new ⟨1, 1, ⟨0⟩, none⟩ 1).run
      ([.arrive 0 .take, .ask 0 ⟨0⟩, .look 0 ⟨0⟩, .reserve 0, .opened 0 ⟨0⟩ (.ok 7)] ++ [.close])
    let rest : List (Event Nat Nat) := [.shut, .release 0 true ⟨0⟩]
    let fs : List (Event Nat Nat) := [.ask 1 ⟨0⟩, .look 1 ⟨0⟩]
    let p := closed.run rest
    closed.NoneShelved rest ∧ closed.idle = [] ∧ p.tally (·.phase.isBusy) = 0 ∧
      p.tally (·.phase.isHolding) = 0 ∧ p.size = 0 ∧ p.size < p.config.minSize ∧
      ((p.step (.arrive 1 .stock)).run fs).phase? 1 = some (.failed .poolClosed) ∧
      (take (fun w : Unit => (.ok 8, w)) 1 ⟨0⟩ (p, ())).1 = .error .poolClosed := by
  intro closed rest fs p
  obtain ⟨hnone, -, hzero, hlate⟩ := @run_closed Nat Nat _ ⟨1, 1, ⟨0⟩, none⟩ 1
    [.arrive 0 .take, .ask 0 ⟨0⟩, .look 0 ⟨0⟩, .reserve 0, .opened 0 ⟨0⟩ (.ok 7)] rest
  have hshelved : closed.NoneShelved rest := by decide
  have hidle := hnone.1 hshelved
  have hbusy : p.tally (·.phase.isBusy) = 0 := by decide
  have hholding : p.tally (·.phase.isHolding) = 0 := by decide
  have hmissing : p.size < p.config.minSize := by decide
  obtain ⟨hrefused, herrand⟩ := hlate (by simp [rest]) 1 (by decide)
  refine ⟨hshelved, hidle [] (List.nil_prefix ..), hbusy, hholding,
    hzero (hidle rest (List.prefix_refl _)) hbusy hholding, hmissing, ?_, ?_⟩
  · rcases hrefused .stock (fun _ => hmissing) fs (by simp [fs]) with ⟨hask, -⟩ | ⟨-, hphase⟩
    · exact absurd (List.mem_cons_self ..) (hask ⟨0⟩)
    · exact hphase
  · rw [(herrand Unit _ ⟨0⟩ ()).1]

/-- A party opens a connection to stock it, the pool is closed, and the party puts it with the idle ones
of the closed pool, where it counts.  Who comes to stock connections then is not refused, nor is it
while a connection that was lent before still counts. -/
theorem run_closed_stocked :
    let start : Pool Nat Nat := new ⟨1, 1, ⟨0⟩, none⟩ 1
    let stocked := start.run
      [.arrive 0 .stock, .ask 0 ⟨0⟩, .reserve 0, .close, .shut, .opened 0 ⟨0⟩ (.ok 7), .shelve 0]
    let lent := start.run [.arrive 0 .take, .ask 0 ⟨0⟩, .look 0 ⟨0⟩, .reserve 0,
      .opened 0 ⟨0⟩ (.ok 7), .close, .shut]
    stocked.isClosed = true ∧ stocked.isShut = true ∧ stocked.parties = [] ∧ stocked.idle ≠ [] ∧
      stocked.size = 1 ∧ (warm (fun w : Unit => (.ok 8, w)) 1 ⟨0⟩ (stocked, ())).1 = .ok () ∧
      lent.isClosed = true ∧ lent.isShut = true ∧
      (warm (fun w : Unit => (.ok 8, w)) 1 ⟨0⟩ (lent, ())).1 = .ok () := by
  refine ⟨rfl, rfl, rfl, ?_, rfl, rfl, rfl, rfl, rfl⟩
  decide

end Pool

end SqlKit
