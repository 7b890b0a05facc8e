import SqlKit.Proofs.Pool.Steps

/-!
# The accounts of a pool

A pool counts connections and hands out permits.  Connections and permits are nowhere lost, whatever
the parties do and in whatever order they do it: the number of open connections is that of the idle
ones and of those that parties have, free permits and those of the parties make up the size of the
pool, and what was opened is in one place or closed.

    p.Balanced → (p.step e).Balanced                                   (Steps.balanced)
    the connections at their places and the closed ones are those opened     (conns_run)
    e takes no more off the count than there is                        (takes_le)
    stocking alone, parties keep the count within the size             (Steps.bounded)
-/

namespace SqlKit

namespace Pool

variable {ι κ : Type}

/-! ## One turn -/

section Turns

variable {p p' : Pool ι κ} {q : Party ι κ} {a : Option (Phase κ)} {os cs : List κ}

/-- A party has its permit from the free ones and gives it back to them. -/
theorem Turn.free_eq (h : Turn p p' q a os cs) :
    p'.free + (a.any (·.hasPermit)).toNat = p.free + q.phase.hasPermit.toNat := by
  cases h with
  | wait phase _ _ free => simp [phase, free, Phase.hasPermit]
  | fail phase _ _ free => rcases phase with phase | ⟨_, phase⟩ <;> simp [phase, free, Phase.hasPermit]
  | leave phase _ _ free =>
    rcases phase with ⟨_, phase⟩ | ⟨_, phase⟩ <;> simp [phase, free, Phase.hasPermit]
  | enroll phase _ _ free =>
    rcases phase with phase | ⟨_, phase⟩ <;> simp [phase, free, Phase.hasPermit]
  | quit phase after _ _ free =>
    rcases phase with phase | phase <;> rcases after with rfl | ⟨e, rfl⟩ <;>
      simp [phase, free, Phase.hasPermit]
  | miss _ phase _ _ _ free => simp [phase, free, Phase.hasPermit]
  | lend phase _ _ free | retire phase _ _ free | uncount phase _ _ free
  | close phase _ _ free => simp [phase, free, Phase.hasPermit]
  | reserve ready _ _ free =>
    rcases ready with ⟨-, phase⟩ | ⟨-, phase⟩ <;> simp [phase, free, Phase.hasPermit]
  | opened phase after _ _ free =>
    rcases after with rfl | rfl <;> simp [phase, free, Phase.hasPermit]
  | unopened phase after _ _ free =>
    rcases after with rfl | ⟨e, rfl⟩ <;> simp [phase, free, Phase.hasPermit]
  | giveBack phase _ _ free =>
    rcases phase with phase | phase <;> simp [phase, free, Phase.hasPermit]

/-- The count goes along with the idle connections and that of the party. -/
theorem Turn.size_eq (h : Turn p p' q a os cs) (hsize : q.phase.counts.toNat ≤ p.size) :
    p'.size + p.idle.length + q.phase.counts.toNat =
      p.size + p'.idle.length + (a.any (·.counts)).toNat := by
  cases h with
  | wait phase idle size => simp [phase, idle, size, Phase.counts]
  | fail phase idle size =>
    rcases phase with phase | ⟨_, phase⟩ <;> simp [phase, idle, size, Phase.counts]
  | leave phase idle size =>
    rcases phase with ⟨_, phase⟩ | ⟨_, phase⟩ <;> simp [phase, idle, size, Phase.counts]
  | enroll phase idle size =>
    rcases phase with phase | ⟨_, phase⟩ <;> simp [phase, idle, size, Phase.counts]
  | quit phase after idle size =>
    rcases phase with phase | phase <;> rcases after with rfl | ⟨e, rfl⟩ <;>
      simp [phase, idle, size, Phase.counts]
  | miss _ phase none idle size => simp [phase, none, idle, size, Phase.counts]
  | lend phase idle size | retire phase idle size =>
    simp [phase, idle, size, Phase.counts]
    omega
  | uncount phase idle size | close phase idle size =>
    simp [phase, Phase.counts] at hsize
    simp [phase, idle, size, Phase.counts]
    omega
  | reserve ready idle size =>
    rcases ready with ⟨-, phase⟩ | ⟨-, phase⟩ <;> simp [phase, idle, size, Phase.counts] <;> omega
  | opened phase after idle size =>
    rcases after with rfl | rfl <;> simp [phase, idle, size, Phase.counts]
  | unopened phase after idle size =>
    simp [phase, Phase.counts] at hsize
    rcases after with rfl | ⟨e, rfl⟩ <;> simp [phase, idle, size, Phase.counts] <;> omega
  | giveBack phase idle size =>
    rcases phase with phase | phase <;> simp [phase, idle, size, Phase.counts] <;> omega

/-- A connection that a party takes or gives was in one place and is in one place, unless it has just
been opened or closed. -/
theorem Turn.perm (h : Turn p p' q a os cs) :
    (p'.idle.map (·.conn) ++ (a.bind (·.conn?)).toList ++ cs).Perm
      (p.idle.map (·.conn) ++ q.phase.conn?.toList ++ os) := by
  cases h with
  | wait phase idle => simp [phase, idle, Phase.conn?]
  | fail phase idle =>
    rcases phase with phase | ⟨_, phase⟩ <;> simp [phase, idle, Phase.conn?]
  | leave phase idle =>
    rcases phase with ⟨_, phase⟩ | ⟨_, phase⟩ <;> simp [phase, idle, Phase.conn?]
  | enroll phase idle =>
    rcases phase with phase | ⟨_, phase⟩ <;> simp [phase, idle, Phase.conn?]
  | quit phase after idle =>
    rcases phase with phase | phase <;> rcases after with rfl | ⟨e, rfl⟩ <;>
      simp [phase, idle, Phase.conn?]
  | miss _ phase none idle => simp [phase, none, idle, Phase.conn?]
  | lend phase idle | retire phase idle | uncount phase idle | close phase idle =>
    simp [phase, idle, Phase.conn?]
  | reserve ready idle =>
    rcases ready with ⟨-, phase⟩ | ⟨-, phase⟩ <;> simp [phase, idle, Phase.conn?]
  | opened phase after idle =>
    rcases after with rfl | rfl <;> simp [phase, idle, Phase.conn?]
  | unopened phase after idle =>
    rcases after with rfl | ⟨e, rfl⟩ <;> simp [phase, idle, Phase.conn?]
  | giveBack phase idle =>
    rcases phase with phase | phase <;> simp [phase, idle, Phase.conn?]

end Turns

/-! ## Balance -/

/-- No two parties have one name, and the pool's numbers are those of its connections and permits. -/
structure Balanced (p : Pool ι κ) : Prop where
  distinct : p.Distinct
  size_eq : p.size = p.idle.length + p.tally (·.phase.counts)
  free_eq : p.free + p.tally (·.phase.hasPermit) = p.config.maxSize

/-- The open connections: idle ones and those that parties have. -/
def conns (p : Pool ι κ) : List κ := p.idle.map (·.conn) ++ p.parties.filterMap (·.phase.conn?)

theorem balanced_new (config : PoolConfig) (keeps : Nat) :
    (new config keeps : Pool ι κ).Balanced :=
  ⟨List.nodup_nil, rfl, rfl⟩

variable {p p' : Pool ι κ} {os cs : List κ}

theorem tally_enter (who : ι) (purpose : Purpose) (phase : Phase κ) (f : Party ι κ → Bool) :
    (p.enter who purpose phase).tally f = p.tally f + (f ⟨who, purpose, phase⟩).toNat := by
  rw [tally, enter, List.countP_append, List.countP_singleton]
  cases f ⟨who, purpose, phase⟩ <;> rfl

variable [DecidableEq ι]

/-- Nothing changes for those who do not wait when nobody waits any longer. -/
theorem tally_shut {f : Party ι κ → Bool}
    (hf : ∀ q, q.phase.isWaiting → f { q with phase := .failed .poolClosed } = f q) :
    (p.step .shut).tally f = p.tally f := by
  simp only [tally, step, List.countP_map]
  refine List.countP_congr fun q _ => ?_
  simp only [Function.comp]
  split
  next h => rw [hf q h]
  next => rfl

theorem Phase.counts_of_isWaiting {phase : Phase κ} (h : phase.isWaiting) : phase.counts = false := by
  cases phase <;> first | rfl | cases h

theorem Phase.hasPermit_of_isWaiting {phase : Phase κ} (h : phase.isWaiting) :
    phase.hasPermit = false := by
  cases phase <;> first | rfl | cases h

theorem Phase.conn?_of_isWaiting {phase : Phase κ} (h : phase.isWaiting) : phase.conn? = none := by
  cases phase <;> first | rfl | cases h

/-- Every step keeps the balance. -/
theorem Steps.balanced (h : p.Steps p' os cs) (hp : p.Balanced) : p'.Balanced := by
  have hdistinct := h.distinct hp.distinct
  obtain ⟨-, hsize, hfree⟩ := hp
  cases h with
  | stay => exact ⟨hdistinct, hsize, hfree⟩
  | arrive new missing =>
    refine ⟨hdistinct, ?_, ?_⟩
    · rw [tally_enter]
      exact hsize
    · rw [tally_enter]
      exact hfree
  | turn before after config does =>
    rename_i q a rest
    have hcounts := tally_of_perm before (·.phase.counts)
    have hcounts' := tally_of_perm_append after (·.phase.counts)
    have hpermits := tally_of_perm before (·.phase.hasPermit)
    have hpermits' := tally_of_perm_append after (·.phase.hasPermit)
    simp only [Option.any_map] at hcounts' hpermits'
    have hsize' := does.size_eq (by omega)
    have hfree' := does.free_eq
    refine ⟨hdistinct, ?_, ?_⟩
    · omega
    · rw [config]
      omega
  | close =>
    refine ⟨hdistinct, ?_, hfree⟩
    show p.size - p.idle.length = 0 + p.tally _
    omega
  | shut =>
    refine ⟨hdistinct, ?_, ?_⟩
    · rw [tally_shut fun q hq => (Phase.counts_of_isWaiting hq).symm]
      exact hsize
    · rw [tally_shut fun q hq => (Phase.hasPermit_of_isWaiting hq).symm]
      exact hfree

/-- Every step keeps connections at their places, but for those it opens and closes. -/
theorem Steps.perm (h : p.Steps p' os cs) : (p'.conns ++ cs).Perm (p.conns ++ os) := by
  cases h with
  | stay => exact .rfl
  | arrive new missing => simp [conns, enter, Phase.conn?]
  | turn before after config does =>
    rename_i q a rest
    have hbefore : p.conns.Perm
        (rest.filterMap (·.phase.conn?) ++ (p.idle.map (·.conn) ++ q.phase.conn?.toList)) := by
      refine (((before.filterMap (·.phase.conn?)).append_left _).trans ?_).trans List.perm_append_comm
      rw [List.append_assoc]
      cases h : q.phase.conn? <;> simp [h]
    have hafter : p'.conns.Perm
        (rest.filterMap (·.phase.conn?) ++ (p'.idle.map (·.conn) ++ (a.bind (·.conn?)).toList)) := by
      refine (((after.filterMap (·.phase.conn?)).append_left _).trans ?_).trans List.perm_append_comm
      rw [List.append_assoc]
      cases a with
      | none => simp
      | some phase => cases h : phase.conn? <;> simp [h]
    refine (hafter.append_right cs).trans (.trans ?_ (hbefore.append_right os).symm)
    simpa only [List.append_assoc] using does.perm.append_left (rest.filterMap (·.phase.conn?))
  | close => simpa [conns, step] using List.perm_append_comm
  | shut =>
    have hconns : (p.step .shut).conns = p.conns := by
      have hconn : ∀ q : Party ι κ, (if q.phase.isWaiting then
          { q with phase := .failed .poolClosed } else q).phase.conn? = q.phase.conn? := by
        intro q
        split
        next h => exact (Phase.conn?_of_isWaiting h).symm
        next => rfl
      simp only [conns, step, List.filterMap_map, Function.comp_def, hconn]
    rw [hconns]

/-! ## The count -/

/-- What a step takes off the count. -/
def takes (p : Pool ι κ) : Event ι κ → Nat
  | .uncount who =>
    match p.phase? who with
    | some .retiring => 1
    | _ => 0
  | .opened who _ (.error _) | .cancel who =>
    match p.phase? who with
    | some .opening => 1
    | _ => 0
  | .release who reusable now => (p.closes (.release who reusable now)).length
  | .discard who => (p.closes (.discard who)).length
  | .close => p.idle.length
  | _ => 0

/-- A step takes something off the count, leaves it or adds one. -/
theorem size_step (p : Pool ι κ) (e : Event ι κ) :
    (p.step e).size = p.size - p.takes e ∨ p.takes e = 0 ∧ (p.step e).size = p.size + 1 := by
  cases e with
  | reserve who =>
    simp only [step, takes]
    split
    case h_1 | h_2 => split <;> simp [putPermit, move]
    case h_3 => simp
  | arrive who purpose =>
    simp only [step, takes]
    split
    · simp
    · cases purpose with
      | take => simp [enter]
      | stock =>
        left
        show (if p.size < p.config.minSize then _ else _ : Pool ι κ).size = p.size
        split <;> rfl
  | ask who now =>
    simp only [step, takes]
    split
    case h_1 => split <;> (try split) <;> simp [move, remove, enter]
    case h_2 => simp
  | permit who =>
    simp only [step, takes]
    split <;> simp [move]
  | expire who | shelve who | forget who =>
    simp only [step, takes]
    split <;> simp [move, remove, putPermit]
  | look who now =>
    simp only [step, takes, lookStep]
    split
    · split
      · simp [move, putPermit]
      · split <;> simp [move]
    · simp
  | uncount who =>
    left
    simp only [step, takes]
    split <;> simp [move, *]
  | opened who now r =>
    left
    cases hq : p.party? who with
    | none => cases r <;> simp [step, takes, phase?, hq]
    | some q =>
      obtain ⟨name, purpose, phase⟩ := q
      cases r <;> cases purpose <;> cases phase <;>
        simp [step, takes, phase?, hq, move, putPermit]
  | release who reusable now =>
    left
    cases hphase : p.phase? who with
    | none => simp [step, takes, closes, hphase]
    | some phase =>
      cases phase with
      | holding o =>
        cases hr : p.refuses o reusable now <;>
          simp [step, takes, closes, hphase, hr, remove, putPermit]
      | _ => simp [step, takes, closes, hphase]
  | discard who =>
    left
    simp only [step, takes, closes]
    split <;> simp [remove, putPermit, *]
  | cancel who =>
    left
    simp only [step, takes]
    split <;> simp [remove, putPermit, *]
  | close => exact .inl rfl
  | shut => exact .inl rfl

theorem Balanced.one_le_size (hp : p.Balanced) {who : ι} {phase : Phase κ}
    (h : p.phase? who = some phase) (hcounts : phase.counts) : 1 ≤ p.size := by
  obtain ⟨q, hq, rfl⟩ := exists_party?_of_phase? h
  have hpos : 0 < p.tally (·.phase.counts) :=
    List.countP_pos_iff.2 ⟨q, List.mem_of_find?_eq_some hq, hcounts⟩
  rw [hp.size_eq]
  omega

/-- No more is ever taken off the count than there is. -/
theorem Balanced.takes_le (hp : p.Balanced) (e : Event ι κ) : p.takes e ≤ p.size := by
  cases e with
  | close =>
    show p.idle.length ≤ p.size
    rw [hp.size_eq]
    omega
  | uncount who | cancel who =>
    simp only [takes]
    split
    next h => exact hp.one_le_size h rfl
    next => exact Nat.zero_le _
  | opened who now r =>
    cases r with
    | ok c => exact Nat.zero_le _
    | error e =>
      simp only [takes]
      split
      next h => exact hp.one_le_size h rfl
      next => exact Nat.zero_le _
  | release who reusable now =>
    simp only [takes, closes]
    split
    next o h =>
      have hsize := hp.one_le_size h rfl
      split
      next => exact hsize
      next => exact Nat.zero_le _
    next => exact Nat.zero_le _
  | discard who =>
    simp only [takes, closes]
    split
    next o h => exact hp.one_le_size h rfl
    next => exact Nat.zero_le _
  | _ => exact Nat.zero_le _

/-! ## The bound -/

/-- Will open one more connection without looking again whether one is idle. -/
def Party.willOpen : Party ι κ → Bool
  | ⟨_, .take, .unserved⟩ | ⟨_, .stock, .arriving⟩ | ⟨_, .stock, .waiting _⟩
  | ⟨_, .stock, .admitted⟩ => true
  | _ => false

omit [DecidableEq ι] in
theorem Party.isBusy_of_willOpen {q : Party ι κ} (h : q.willOpen) : q.phase.isBusy := by
  obtain ⟨name, purpose, phase⟩ := q
  cases purpose <;> cases phase <;> first | rfl | cases h

/-- While a party is stocking connections, no other is on its way. -/
def Undisturbed (p : Pool ι κ) : Prop :=
  ∀ q ∈ p.parties, q.purpose = .stock → q.phase.isBusy → p.tally (·.phase.isBusy) ≤ 1

/-- There is room for the connections that are open and for those that are sure to be opened. -/
def Bounded (p : Pool ι κ) : Prop := p.size + p.tally Party.willOpen ≤ p.config.maxSize

omit [DecidableEq ι] in
/-- But for one that finds nothing idle, a party in its turn needs no more room than before. -/
theorem Turn.room {q : Party ι κ} {a : Option (Phase κ)} (h : Turn p p' q a os cs)
    (ha : a ≠ some .unserved) (hsize : q.phase.counts.toNat ≤ p.size) :
    p'.size + ((a.map fun phase => { q with phase }).any Party.willOpen).toNat ≤
      p.size + q.willOpen.toNat := by
  obtain ⟨name, purpose, phase⟩ := q
  cases h with
  | wait phase idle size =>
    cases phase
    cases purpose <;> simp [size, Party.willOpen]
  | fail phase idle size => cases purpose <;> simp [size, Party.willOpen]
  | leave phase idle size => simp [size]
  | enroll phase idle size =>
    rcases phase with phase | ⟨t, phase⟩ <;> cases phase <;> cases purpose <;>
      simp [size, Party.willOpen]
  | quit phase after idle size =>
    rcases after with rfl | ⟨e, rfl⟩ <;> cases purpose <;> simp [size, Party.willOpen]
  | miss => exact absurd rfl ha
  | lend phase idle size | retire phase idle size =>
    cases purpose <;> simp [size, Party.willOpen]
  | uncount phase idle size =>
    cases phase
    simp [Phase.counts] at hsize
    cases purpose <;> simp [size, Party.willOpen]
    omega
  | reserve ready idle size =>
    rcases ready with ⟨hpurpose, hphase⟩ | ⟨hpurpose, hphase⟩ <;> cases hpurpose <;>
      cases hphase <;> simp [size, Party.willOpen]
  | opened phase after idle size =>
    rcases after with rfl | rfl <;> cases purpose <;> simp [size, Party.willOpen]
  | unopened phase after idle size =>
    rcases after with rfl | ⟨e, rfl⟩ <;> cases purpose <;> simp [size, Party.willOpen] <;> omega
  | giveBack phase idle size => simp [size]
  | close phase idle size =>
    simp [size]
    omega

omit [DecidableEq ι] in
theorem countP_add_countP_le {f g h : Party ι κ → Bool} {l : List (Party ι κ)}
    (hl : ∀ q ∈ l, (f q).toNat + (g q).toNat ≤ (h q).toNat) :
    l.countP f + l.countP g ≤ l.countP h := by
  induction l with
  | nil => simp
  | cons q l ih =>
    have hq := hl q (by simp)
    have hrest := ih fun x hx => hl x (by simp [hx])
    rw [List.countP_cons, List.countP_cons, List.countP_cons]
    cases hf : f q <;> cases hg : g q <;> cases hh : h q <;> simp [hf, hg, hh] at hq ⊢ <;> omega

omit [DecidableEq ι] in
/-- Who opens a connection has a permit, and permits are bounded. -/
theorem Balanced.bounded_of_take (hp : p.Balanced) (hidle : p.idle = [])
    (htake : ∀ q ∈ p.parties, q.phase.isBusy → q.purpose = .take) : p.Bounded := by
  have hsum : p.tally (·.phase.counts) + p.tally Party.willOpen ≤ p.tally (·.phase.hasPermit) := by
    refine countP_add_countP_le fun q hq => ?_
    have hpurpose := htake q hq
    obtain ⟨name, purpose, phase⟩ := q
    cases phase <;> simp [Phase.isBusy] at hpurpose <;>
      simp [hpurpose, Phase.counts, Party.willOpen, Phase.hasPermit]
  have hsize := hp.size_eq
  have hfree := hp.free_eq
  rw [hidle, List.length_nil] at hsize
  unfold Bounded
  omega

/-- Undisturbed, a pool stays within its bound. -/
theorem Steps.bounded (h : p.Steps p' os cs) (hp : p.Balanced) (hbound : p.Bounded)
    (hmin : p.config.minSize ≤ p.config.maxSize) (hquiet : p'.Undisturbed) : p'.Bounded := by
  have hbalanced := h.balanced hp
  unfold Bounded at hbound
  cases h with
  | stay => exact hbound
  | arrive new missing =>
    rename_i who purpose
    unfold Bounded
    rw [tally_enter]
    cases purpose with
    | take => exact hbound
    | stock =>
      have hbusy := hquiet ⟨who, .stock, .arriving⟩ (by simp [enter]) rfl rfl
      rw [tally_enter] at hbusy
      have hle : p.tally Party.willOpen ≤ p.tally (·.phase.isBusy) :=
        List.countP_mono_left fun q _ => Party.isBusy_of_willOpen
      have hmissing := missing rfl
      change p.tally (·.phase.isBusy) + 1 ≤ 1 at hbusy
      show p.size + (p.tally Party.willOpen + 1) ≤ p.config.maxSize
      omega
  | turn before after config does =>
    rename_i q a rest
    by_cases ha : a = some .unserved
    · subst ha
      cases does with
      | miss purpose phase _ idle size free =>
        refine hbalanced.bounded_of_take idle fun x hx hxbusy => ?_
        cases hpurpose : x.purpose with
        | take => rfl
        | stock =>
          have hbusy := hquiet x hx hpurpose hxbusy
          rw [tally_of_perm after] at hbusy
          rcases List.mem_cons.1 (after.mem_iff.1 hx) with rfl | hx
          · exact hpurpose.symm.trans purpose
          · have hpos : 0 < rest.countP (·.phase.isBusy) :=
              List.countP_pos_iff.2 ⟨x, hx, hxbusy⟩
            change rest.countP (·.phase.isBusy) + 1 ≤ 1 at hbusy
            omega
      | quit _ after => rcases after with h | ⟨e, h⟩ <;> cases h
      | unopened _ after => rcases after with h | ⟨e, h⟩ <;> cases h
      | opened _ after => rcases after with h | h <;> cases h
    · have hcounts := tally_of_perm before (·.phase.counts)
      have hwill := tally_of_perm before Party.willOpen
      have hwill' := tally_of_perm_append after Party.willOpen
      have hsize := hp.size_eq
      have hroom := does.room ha (by omega)
      unfold Bounded
      rw [config]
      omega
  | close =>
    show p.size - p.idle.length + p.tally _ ≤ p.config.maxSize
    omega
  | shut =>
    have hle : (p.step .shut).tally Party.willOpen ≤ p.tally Party.willOpen := by
      simp only [tally, step, List.countP_map]
      refine List.countP_mono_left fun q _ => ?_
      simp only [Function.comp]
      split
      · obtain ⟨name, purpose, phase⟩ := q
        cases purpose <;> simp [Party.willOpen]
      · exact id
    show p.size + _ ≤ p.config.maxSize
    omega

/-! ## Runs -/

/-- The connections that a run opens. -/
def openedBy (p : Pool ι κ) : List (Event ι κ) → List κ
  | [] => []
  | e :: es => p.opens e ++ (p.step e).openedBy es

/-- The connections that a run closes. -/
def closedBy (p : Pool ι κ) : List (Event ι κ) → List κ
  | [] => []
  | e :: es => p.closes e ++ (p.step e).closedBy es

theorem balanced_run (hp : p.Balanced) (es : List (Event ι κ)) : (p.run es).Balanced := by
  induction es generalizing p with
  | nil => exact hp
  | cons e es ih => exact ih ((steps hp.distinct e).balanced hp)

theorem perm_append_swap (l r s : List κ) : (l ++ r ++ s).Perm (l ++ s ++ r) := by
  rw [List.append_assoc, List.append_assoc]
  exact List.perm_append_comm.append_left l

/-- What a run opens is in its place or closed in the end, and nothing is in two places. -/
theorem conns_run (hp : p.Balanced) (es : List (Event ι κ)) :
    ((p.run es).conns ++ p.closedBy es).Perm (p.conns ++ p.openedBy es) := by
  induction es generalizing p with
  | nil => exact .rfl
  | cons e es ih =>
    have hstep := (steps hp.distinct e).perm
    have hrun := ih ((steps hp.distinct e).balanced hp)
    calc (p.run (e :: es)).conns ++ p.closedBy (e :: es)
      _ = ((p.step e).run es).conns ++ p.closes e ++ (p.step e).closedBy es :=
        (List.append_assoc ..).symm
      List.Perm _ (((p.step e).run es).conns ++ (p.step e).closedBy es ++ p.closes e) :=
        perm_append_swap ..
      List.Perm _ ((p.step e).conns ++ (p.step e).openedBy es ++ p.closes e) :=
        hrun.append_right _
      List.Perm _ ((p.step e).conns ++ p.closes e ++ (p.step e).openedBy es) :=
        perm_append_swap ..
      List.Perm _ (p.conns ++ p.opens e ++ (p.step e).openedBy es) := hstep.append_right _
      _ = p.conns ++ p.openedBy (e :: es) := List.append_assoc ..

/-- A run that is undisturbed from its start to its end. -/
def UndisturbedThrough (p : Pool ι κ) : List (Event ι κ) → Prop
  | [] => p.Undisturbed
  | e :: es => p.Undisturbed ∧ (p.step e).UndisturbedThrough es

instance (p : Pool ι κ) : Decidable p.Undisturbed :=
  inferInstanceAs (Decidable (∀ q ∈ p.parties, _ → _ → _))

instance decidableUndisturbedThrough :
    ∀ (es : List (Event ι κ)) (p : Pool ι κ), Decidable (p.UndisturbedThrough es)
  | [], p => inferInstanceAs (Decidable p.Undisturbed)
  | e :: es, p => @instDecidableAnd _ _ _ (decidableUndisturbedThrough es (p.step e))

theorem UndisturbedThrough.start {es : List (Event ι κ)} (h : p.UndisturbedThrough es) :
    p.Undisturbed := by
  cases es with
  | nil => exact h
  | cons e es => exact h.1

theorem bounded_run (hp : p.Balanced) (hbound : p.Bounded)
    (hmin : p.config.minSize ≤ p.config.maxSize) {es : List (Event ι κ)}
    (hquiet : p.UndisturbedThrough es) : (p.run es).Bounded := by
  induction es generalizing p with
  | nil => exact hbound
  | cons e es ih =>
    have h := steps hp.distinct e
    exact ih (h.balanced hp) (h.bounded hp hbound hmin hquiet.2.start) (p.config_step e ▸ hmin) hquiet.2

theorem closedBy_append (p : Pool ι κ) (es fs : List (Event ι κ)) :
    p.closedBy (es ++ fs) = p.closedBy es ++ (p.run es).closedBy fs := by
  induction es generalizing p with
  | nil => rfl
  | cons e es ih =>
    show p.closes e ++ (p.step e).closedBy (es ++ fs) = _
    rw [ih]
    exact (List.append_assoc ..).symm

theorem openedBy_append (p : Pool ι κ) (es fs : List (Event ι κ)) :
    p.openedBy (es ++ fs) = p.openedBy es ++ (p.run es).openedBy fs := by
  induction es generalizing p with
  | nil => rfl
  | cons e es ih =>
    show p.opens e ++ (p.step e).openedBy (es ++ fs) = _
    rw [ih]
    exact (List.append_assoc ..).symm

/-! ## Kinds of parties -/

omit [DecidableEq ι] in
theorem tally_counts (p : Pool ι κ) :
    p.tally (·.phase.counts) = p.tally (·.phase.isHolding) + p.tally (·.phase.isOpening) +
      p.tally (·.phase.isRetiring) := by
  unfold tally
  induction p.parties with
  | nil => rfl
  | cons q l ih =>
    obtain ⟨name, purpose, phase⟩ := q
    cases phase <;>
      simp [Phase.counts, Phase.isHolding, Phase.isOpening, Phase.isRetiring] at ih ⊢ <;> omega

omit [DecidableEq ι] in
theorem tally_isHolding_le (p : Pool ι κ) :
    p.tally (·.phase.isHolding) ≤ p.tally (·.phase.hasPermit) := by
  refine List.countP_mono_left fun q _ => ?_
  obtain ⟨name, purpose, phase⟩ := q
  cases phase <;> simp [Phase.isHolding, Phase.hasPermit]

omit [DecidableEq ι] in
/-- When nobody is on the way, those who hold a connection are those who have a permit. -/
theorem tally_hasPermit (h : p.tally (·.phase.isBusy) = 0) :
    p.tally (·.phase.hasPermit) = p.tally (·.phase.isHolding) := by
  refine List.countP_congr fun q hq => ?_
  have hidle := List.countP_eq_zero.1 h q hq
  obtain ⟨name, purpose, phase⟩ := q
  cases phase <;> simp [Phase.isBusy] at hidle <;> simp [Phase.isHolding, Phase.hasPermit]

/-! ## Whatever happens -/

/-- After any events, in any order: the count is that of the connections that are idle, held, being
opened or taken out to be closed, and no step takes more off it than there is; if no connection is
opened twice, each is in one place at most, and none that was closed is ever idle or held again; at most
as many connections are held as allowed; when nobody is on the way, every permit is free or belongs to
a connection that is held; and a pool that is to keep no more connections than it allows never has more
than it allows, as long as nobody stocks connections while another party is on its way. -/
theorem run_accounts (config : PoolConfig) (keeps : Nat) (es fs : List (Event ι κ)) :
    let start : Pool ι κ := new config keeps
    let p := start.run es
    (p.size = p.idle.length + p.tally (·.phase.isHolding) + p.tally (·.phase.isOpening) +
        p.tally (·.phase.isRetiring)) ∧
      (∀ e, (p.step e).size + p.takes e = p.size ∨
        p.takes e = 0 ∧ (p.step e).size = p.size + 1) ∧
      ((start.openedBy (es ++ fs)).Nodup →
        p.conns.Nodup ∧ ∀ c ∈ start.closedBy es, c ∉ (start.run (es ++ fs)).conns) ∧
      p.tally (·.phase.isHolding) ≤ max config.maxSize 1 ∧
      (p.tally (·.phase.isBusy) = 0 →
        p.free + p.tally (·.phase.isHolding) = max config.maxSize 1) ∧
      (config.minSize ≤ max config.maxSize 1 → start.UndisturbedThrough es →
        p.size ≤ max config.maxSize 1) := by
  intro start p
  have hstart : start.Balanced := balanced_new config keeps
  have hp : p.Balanced := balanced_run hstart es
  have hmax : p.config.maxSize = max config.maxSize 1 :=
    congrArg PoolConfig.maxSize (config_run start es)
  have hfree := hp.free_eq
  rw [hmax] at hfree
  have hheld := tally_isHolding_le p
  refine ⟨?_, ?_, ?_, ?_, ?_, ?_⟩
  · rw [hp.size_eq, tally_counts]
    omega
  · intro e
    have htakes := hp.takes_le e
    rcases size_step p e with h | h
    · left
      omega
    · exact .inr h
  · intro hnodup
    have hall := (conns_run hstart (es ++ fs)).nodup_iff.2 hnodup
    have hnow : (p.conns ++ start.closedBy es).Nodup := by
      rw [openedBy_append] at hnodup
      exact (conns_run hstart es).nodup_iff.2 (List.nodup_append.1 hnodup).1
    refine ⟨(List.nodup_append.1 hnow).1, fun c hc hplace => ?_⟩
    refine (List.nodup_append.1 hall).2.2 c hplace c ?_ rfl
    rw [closedBy_append]
    exact List.mem_append_left _ hc
  · omega
  · intro hbusy
    rw [tally_hasPermit hbusy] at hfree
    exact hfree
  · intro hmin hquiet
    have hbound : p.Bounded := bounded_run hstart (Nat.zero_le _) hmin hquiet
    unfold Bounded at hbound
    omega

/-- A connection is stocked, lent, refused and not lent again; then another one is opened. -/
theorem run_accounts_refused :
    let start : Pool Nat Nat := new ⟨1, 2, ⟨0⟩, none⟩ 2
    let es : List (Event Nat Nat) :=
      [.arrive 0 .stock, .ask 0 ⟨0⟩, .reserve 0, .opened 0 ⟨0⟩ (.ok 7), .shelve 0,
        .arrive 1 .take, .ask 1 ⟨0⟩, .look 1 ⟨0⟩, .release 1 false ⟨0⟩]
    let fs : List (Event Nat Nat) :=
      [.arrive 2 .take, .ask 2 ⟨0⟩, .look 2 ⟨0⟩, .reserve 2, .opened 2 ⟨0⟩ (.ok 8)]
    (start.openedBy (es ++ fs)).Nodup ∧ start.UndisturbedThrough es ∧
      (start.run es).tally (·.phase.isBusy) = 0 ∧
      (start.run es).free + (start.run es).tally (·.phase.isHolding) = max 2 1 ∧
      (start.run es).size ≤ max 2 1 ∧ 7 ∉ (start.run (es ++ fs)).conns := by
  intro start es fs
  have hopened : (start.openedBy (es ++ fs)).Nodup := by decide
  have hquiet : start.UndisturbedThrough es := by decide
  have hbusy : (start.run es).tally (·.phase.isBusy) = 0 := by decide
  have hclosed : 7 ∈ start.closedBy es := by decide
  obtain ⟨-, -, hconns, -, hfree, hsize⟩ := run_accounts ⟨1, 2, ⟨0⟩, none⟩ 2 es fs
  exact ⟨hopened, hquiet, hbusy, hfree hbusy, hsize (by decide) hquiet,
    (hconns hopened).2 7 hclosed⟩

end Pool

end SqlKit
