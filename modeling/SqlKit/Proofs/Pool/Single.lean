import SqlKit.Proofs.Pool.Errands

/-!
# Pools of one connection

A pool with room for one connection has it idle or lends it to somebody.  It is the same one for as long
as it may be lent again whenever it is given back, and is not too old whenever it is taken or given
back.  Otherwise the pool closes it, and the next party gets another.

    the connection is idle, or somebody holds it                       (Alone.cases)
    an errand that wears nothing out leaves it                         (Errand.alone)
    any other closes it                                                (Errand.not_mem_conns)
-/

namespace SqlKit

namespace Pool

variable {ι κ ω : Type}

/-- An idle connection is too old. -/
def isStale (p : Pool ι κ) (now : Duration) : Bool := p.idle.any (p.isExpired · now)

/-- A pool that is open and at rest has room for one connection, and has the connection `c`. -/
structure Alone (p : Pool ι κ) (c : κ) : Prop where
  resting : p.Resting
  maxSize : p.config.maxSize = 1
  keeps : p.keeps = 1
  unshut : p.isShut = false
  conns : p.conns = [c]

variable [DecidableEq ι] {p p' : Pool ι κ} {c : κ} {who : ι} {o : Opened κ} {now : Duration}
  {opener : ω → Result κ × ω} {w : ω} {x : Result Unit × Pool ι κ × ω}

namespace Alone

omit [DecidableEq ι]

theorem of_alike (h : p.Alone c) (halike : p.Alike p') (hresting : p'.Resting)
    (hconns : p'.conns = [c]) : p'.Alone c :=
  ⟨hresting, halike.config ▸ h.maxSize, halike.keeps ▸ h.keeps, halike.isShut ▸ h.unshut, hconns⟩

theorem cases (h : p.Alone c) :
    (∃ o, p.idle = [o] ∧ o.conn = c ∧ p.parties = []) ∨
      ∃ who purpose o, p.idle = [] ∧ o.conn = c ∧ p.parties = [⟨who, purpose, .holding o⟩] := by
  have hholding (q : Party ι κ) (hq : q ∈ p.parties) : ∃ o, q.phase = .holding o := by
    have hq := h.resting.quiet q hq
    cases hphase : q.phase with
    | holding o => exact ⟨o, rfl⟩
    | _ => simp [hphase, Phase.isHolding] at hq
  have hconns := h.conns
  rcases List.append_eq_singleton_iff.1 hconns with ⟨hidle, hlent⟩ | ⟨hidle, hlent⟩
  · right
    obtain ⟨before, q, after, hparties, hbefore, hq, hafter⟩ := List.filterMap_eq_cons_iff.1 hlent
    obtain ⟨who, purpose, phase⟩ := q
    -- Each of the others would have a connection too.
    have hnobody (q : Party ι κ) (hmem : q ∈ p.parties) : q.phase.conn? ≠ none := by
      obtain ⟨o, ho⟩ := hholding q hmem
      simp [ho, Phase.conn?]
    have hnil : before = [] := List.eq_nil_iff_forall_not_mem.2 fun q hmem =>
      hnobody q (by simp [hparties, hmem]) (hbefore q hmem)
    have hnil' : after = [] := List.eq_nil_iff_forall_not_mem.2 fun q hmem =>
      hnobody q (by simp [hparties, hmem]) (List.filterMap_eq_nil_iff.1 hafter q hmem)
    obtain ⟨o, rfl⟩ : ∃ o, phase = .holding o := hholding ⟨who, purpose, phase⟩ (by simp [hparties])
    refine ⟨who, purpose, o, List.map_eq_nil_iff.1 hidle, Option.some.inj hq, ?_⟩
    rw [hparties, hnil, hnil', List.nil_append]
  · left
    obtain ⟨o, hidle, ho⟩ := List.map_eq_singleton_iff.1 hidle
    refine ⟨o, hidle, ho, List.eq_nil_iff_forall_not_mem.2 fun q hmem => ?_⟩
    obtain ⟨o', ho'⟩ := hholding q hmem
    have hnone := List.filterMap_eq_nil_iff.1 hlent q hmem
    simp [ho', Phase.conn?] at hnone

/-- If it is idle, there is a permit for it. -/
theorem free_eq (h : p.Alone c) (hparties : p.parties = []) : p.free = 1 := by
  have hfree := h.resting.balanced.free_eq
  rw [h.maxSize, tally, hparties] at hfree
  exact hfree

/-- If it is not, there is none. -/
theorem free_eq_zero (h : p.Alone c) (hidle : p.idle = []) : p.free = 0 := by
  have hfree := h.resting.balanced.free_eq
  rcases h.cases with ⟨o, hsome, -, -⟩ | ⟨who, purpose, o, -, -, hparties⟩
  · rw [hidle] at hsome
    cases hsome
  · rw [h.maxSize, tally, hparties] at hfree
    simpa [Phase.hasPermit] using hfree

/-- While it is not too old, it is the connection that is taken. -/
theorem taken (h : p.Alone c) (ht : Taken opener who now p w x) (hwho : who ∉ p.parties.map (·.name))
    (hyoung : p.isStale now = false) : x.2.1.Alone c := by
  have hnone : ∀ o ∈ p.idle, p.isExpired o now = false := by simpa [isStale] using hyoung
  refine h.of_alike ht.alike (ht.resting h.resting hwho) ?_
  -- A connection is opened only if none is idle; then somebody has the permit.
  have hlent (old : ∀ o ∈ p.idle, p.isExpired o now = true) : p.free = 0 := by
    refine h.free_eq_zero (List.eq_nil_iff_forall_not_mem.2 fun o ho => ?_)
    have hyoung := hnone o ho
    rw [old o ho] at hyoung
    cases hyoung
  cases ht with
  | shut | late => exact h.conns
  | lent unshut free idle old young =>
    rename_i aged rest o
    rcases h.cases with ⟨o', hidle, ho', hparties⟩ | ⟨_, _, _, hidle, -, -⟩
    · obtain ⟨rfl, hcons⟩ | ⟨-, hcons⟩ := List.append_eq_singleton_iff.1 (idle.symm.trans hidle)
      · obtain ⟨rfl, rfl⟩ := List.cons.inj hcons
        simp [Pool.conns, Pool.enter, hparties, Phase.conn?, ho']
      · cases hcons
    · rw [hidle] at idle
      simp at idle
  | opened unshut free old new | failed unshut free old new =>
    have hzero := hlent old
    omega

/-- Once it is too old, whoever wants it gets another or none. -/
theorem not_mem_taken (h : p.Alone c) (ht : Taken opener who now p w x) (hstale : p.isStale now = true)
    (hnew : ∀ w', opener w ≠ (.ok c, w')) : c ∉ x.2.1.conns := by
  rcases h.cases with ⟨o, hidle, -, hparties⟩ | ⟨_, _, _, hidle, -, -⟩
  · have hold : p.isExpired o now = true := by simpa [isStale, hidle] using hstale
    have hfree := h.free_eq hparties
    cases ht with
    | shut hshut =>
      rw [h.unshut] at hshut
      cases hshut
    | late unshut none => omega
    | lent unshut free idle old young =>
      obtain ⟨-, hcons⟩ | ⟨-, hcons⟩ := List.append_eq_singleton_iff.1 (idle.symm.trans hidle)
      · rw [(List.cons.inj hcons).1, hold] at young
        cases young
      · cases hcons
    | opened unshut free old new =>
      rename_i c' w'
      have hne : c ≠ c' := by
        rintro rfl
        exact hnew w' new
      simpa [Pool.conns, Pool.enter, hparties, Phase.conn?] using hne
    | failed unshut free old new => simp [Pool.conns, hparties]
  · simp [isStale, hidle] at hstale

variable [DecidableEq ι]

/-- Who holds it is the only party. -/
theorem of_held (h : p.Alone c) (ho : p.held? who = some o) :
    o.conn = c ∧ p.idle = [] ∧ ∃ purpose, p.parties = [⟨who, purpose, .holding o⟩] := by
  rcases h.cases with ⟨_, -, -, hparties⟩ | ⟨who', purpose, o', hidle, ho', hparties⟩
  · simp [held?, phase?, party?, hparties] at ho
  · by_cases hwho : who' = who
    · subst hwho
      simp only [held?, phase?, party?, hparties, List.find?_cons, decide_true, Option.map_some,
        Option.some.injEq] at ho
      subst ho
      exact ⟨ho', hidle, purpose, hparties⟩
    · simp [held?, phase?, party?, hparties, hwho] at ho

theorem conns_release (h : p.Alone c) (ho : p.held? who = some o) (reusable : Bool) :
    (p.step (.release who reusable now)).conns =
      if !reusable || p.isExpired o now then [] else [c] := by
  obtain ⟨hc, hidle, purpose, hparties⟩ := h.of_held ho
  have hrefuses : p.refuses o reusable now = (!reusable || p.isExpired o now) := by
    simp [refuses, h.resting.closed, h.unshut, h.keeps, hidle]
  have hphase := phase?_of_held ho
  have hgone : (p.putPermit.remove who).parties = [] := by simp [putPermit, remove, hparties]
  have hidle' : (p.putPermit.remove who).idle = [] := hidle
  simp only [step, hphase, hrefuses]
  split <;> simp [Pool.conns, hgone, hidle, hidle', hc]

theorem release (h : p.Alone c) (ho : p.held? who = some o) (hyoung : p.isExpired o now = false) :
    (p.step (.release who true now)).Alone c := by
  refine h.of_alike (p.alike_release who now true) (h.resting.release true) ?_
  rw [h.conns_release ho, hyoung]
  rfl

end Alone

/-! ## Errands of a session -/

/-- What a request of one party makes of a pool, and whether it wears a connection out: finds it unfit
to be lent again, or too old. -/
inductive Errand (opener : ω → Result κ × ω) (who : ι) (now : Duration) (p : Pool ι κ) (w : ω) :
    Bool → Pool ι κ → Prop where
  | none : Errand opener who now p w false p
  | release {o : Opened κ} (held : p.held? who = some o) (reusable : Bool) :
      Errand opener who now p w (!reusable || p.isExpired o now) (p.step (.release who reusable now))
  | take {x : Result Unit × Pool ι κ × ω} (new : who ∉ p.parties.map (·.name))
      (taken : Taken opener who now p w x) : Errand opener who now p w (p.isStale now) x.2.1
  /-- The connection is taken and given back at once. -/
  | takeRelease {x : Result Unit × Pool ι κ × ω} {o : Opened κ} (new : who ∉ p.parties.map (·.name))
      (taken : Taken opener who now p w x) (held : x.2.1.held? who = some o)
      (source : o ∈ p.idle ∨ opener w = (.ok o.conn, x.2.2)) :
      Errand opener who now p w (p.isStale now) (x.2.1.step (.release who true now))

variable {b : Bool}

theorem Errand.alone (h : Errand opener who now p w false p') (hp : p.Alone c)
    (hnew : ∀ w', opener w ≠ (.ok c, w')) : p'.Alone c := by
  generalize hb : false = b at h
  cases h with
  | none => exact hp
  | release held reusable =>
    obtain ⟨hreusable, hyoung⟩ := Bool.or_eq_false_iff.1 hb.symm
    obtain rfl : reusable = true := by simpa using hreusable
    exact hp.release held hyoung
  | take new taken => exact hp.taken taken new hb.symm
  | takeRelease new taken held source =>
    rename_i x o
    have halone := hp.taken taken new hb.symm
    have hidle : o ∈ p.idle := by
      rcases source with hidle | hopened
      · exact hidle
      · rw [(halone.of_held held).1] at hopened
        exact absurd hopened (hnew _)
    have hyoung : p.isExpired o now = false := by
      have hnone : ∀ o ∈ p.idle, p.isExpired o now = false := by simpa [isStale] using hb.symm
      exact hnone o hidle
    refine halone.release held ?_
    rw [isExpired, taken.alike.config]
    exact hyoung

theorem Errand.not_mem_conns (h : Errand opener who now p w true p') (hp : p.Alone c)
    (hnew : ∀ w', opener w ≠ (.ok c, w')) : c ∉ p'.conns := by
  generalize hb : true = b at h
  cases h with
  | none => cases hb
  | release held reusable =>
    rw [hp.conns_release held, ← hb, if_pos rfl]
    exact List.not_mem_nil
  | take new taken => exact hp.not_mem_taken taken hb.symm hnew
  | takeRelease new taken held source =>
    rename_i x o
    have hgone := hp.not_mem_taken taken hb.symm hnew
    have hdistinct := (taken.resting hp.resting new).balanced.distinct
    have hperm := (steps hdistinct (.release who true now)).perm
    simp only [opens, List.append_nil] at hperm
    exact fun hmem => hgone (hperm.subset (List.mem_append_left _ hmem))

end Pool

end SqlKit
