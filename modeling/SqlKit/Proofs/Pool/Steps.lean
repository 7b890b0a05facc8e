import SqlKit.Pool

/-!
# What a step of a pool can do

A step is the turn of one party, an arrival, or a step of the pool as a whole.  A turn says how far the
party has come and where it comes to, what this does to the idle connections, the count and the free
permits, and which connections it opens or closes.  Everything that holds of all states of a pool is
proved over these few cases.

    p.Distinct → p.Steps (p.step e) (p.opens e) (p.closes e)           (steps)
    the number of parties of a kind changes by the party that moves    (tally_of_perm)
-/

namespace SqlKit

namespace Pool

variable {ι κ : Type}

/-! ## Kinds of phases -/

namespace Phase

def hasPermit : Phase κ → Bool
  | arriving | waiting _ | failed _ => false
  | _ => true

/-- Has a connection that counts, or counts one that is being opened. -/
def counts : Phase κ → Bool
  | retiring | opening | stocking _ | holding _ => true
  | _ => false

def isHolding : Phase κ → Bool
  | holding _ => true
  | _ => false

/-- Opens a connection, or has opened it and not put it with the idle ones yet. -/
def isOpening : Phase κ → Bool
  | opening | stocking _ => true
  | _ => false

/-- Has taken out a connection that is too old and still counts. -/
def isRetiring : Phase κ → Bool
  | retiring => true
  | _ => false

/-- Is on its way: neither has it got what it wants nor has it failed. -/
def isBusy : Phase κ → Bool
  | holding _ | failed _ => false
  | _ => true

/-- The open connection at hand. -/
def conn? : Phase κ → Option κ
  | stocking o | holding o => some o.conn
  | _ => none

end Phase

/-! ## Names and numbers of parties -/

/-- No two parties have one name. -/
def Distinct (p : Pool ι κ) : Prop := (p.parties.map (·.name)).Nodup

/-- How many parties are of a kind. -/
def tally (p : Pool ι κ) (f : Party ι κ → Bool) : Nat := p.parties.countP f

theorem tally_of_perm {p : Pool ι κ} {q : Party ι κ} {rest : List (Party ι κ)}
    (h : p.parties.Perm (q :: rest)) (f : Party ι κ → Bool) :
    p.tally f = rest.countP f + (f q).toNat := by
  rw [tally, h.countP_eq, List.countP_cons]
  cases f q <;> rfl

theorem tally_of_perm_append {p : Pool ι κ} {a : Option (Party ι κ)} {rest : List (Party ι κ)}
    (h : p.parties.Perm (a.toList ++ rest)) (f : Party ι κ → Bool) :
    p.tally f = rest.countP f + (a.any f).toNat := by
  cases a with
  | none => rw [tally, h.countP_eq]; rfl
  | some q => exact tally_of_perm h f

variable [DecidableEq ι]

section Lists

variable {p : Pool ι κ} {who : ι} {q : Party ι κ}

theorem name_of_party? (h : p.party? who = some q) : q.name = who := by
  simpa using List.find?_some h

theorem party?_eq_none_iff : p.party? who = none ↔ who ∉ p.parties.map (·.name) := by
  simp [party?, List.find?_eq_none]

/-- A party stands among others, none of which has its name. -/
theorem exists_split (hp : p.Distinct) (h : p.party? who = some q) :
    ∃ l r, p.parties = l ++ q :: r ∧ ∀ x ∈ l ++ r, x.name ≠ who := by
  obtain ⟨-, l, r, hlr, hl⟩ := List.find?_eq_some_iff_append.1 h
  refine ⟨l, r, hlr, ?_⟩
  intro x hx
  rcases List.mem_append.1 hx with hx | hx
  · simpa using hl x hx
  · have hnodup := hp
    rw [Distinct, hlr, List.map_append, List.map_cons, List.nodup_append] at hnodup
    have hq := (List.nodup_cons.1 hnodup.2.1).1
    rw [name_of_party? h] at hq
    rintro rfl
    exact hq (List.mem_map_of_mem hx)

/-- Moving a party on changes nothing about the others. -/
theorem exists_perm_move (hp : p.Distinct) (h : p.party? who = some q) (phase : Phase κ) :
    ∃ rest, p.parties.Perm (q :: rest) ∧ (p.remove who).parties = rest ∧
      (p.move who phase).parties.Perm ({ q with phase } :: rest) := by
  obtain ⟨l, r, hlr, hne⟩ := exists_split hp h
  have hq := name_of_party? h
  have keep : ∀ xs : List (Party ι κ), (∀ x ∈ xs, x.name ≠ who) →
      xs.map (fun x => if x.name = who then { x with phase } else x) = xs ∧
        xs.filter (fun x => x.name ≠ who) = xs := by
    intro xs hxs
    refine ⟨(List.map_congr_left fun x hx => if_neg (hxs x hx)).trans (List.map_id _), ?_⟩
    exact List.filter_eq_self.2 fun x hx => by simpa using hxs x hx
  obtain ⟨hml, hfl⟩ := keep l fun x hx => hne x (List.mem_append_left r hx)
  obtain ⟨hmr, hfr⟩ := keep r fun x hx => hne x (List.mem_append_right l hx)
  refine ⟨l ++ r, hlr ▸ List.perm_middle, ?_, ?_⟩
  · rw [remove, hlr, List.filter_append, List.filter_cons_of_neg (by simp [hq]), hfl, hfr]
  · have hmove : (p.move who phase).parties = l ++ { q with phase } :: r := by
      rw [move, hlr, List.map_append, List.map_cons, hml, hmr, if_pos hq]
    exact hmove ▸ List.perm_middle

end Lists

/-! ## Connections that come and go -/

/-- The connection that a step opens, if any. -/
def opens (p : Pool ι κ) : Event ι κ → List κ
  | .opened who _ (.ok c) =>
    match p.phase? who with
    | some .opening => [c]
    | _ => []
  | _ => []

/-- The connections that a step closes: too old when taken out, refused when given back, discarded, or
idle when the pool closes. -/
def closes (p : Pool ι κ) : Event ι κ → List κ
  | .look who now =>
    match p.party? who with
    | some ⟨_, .take, .admitted⟩ =>
      if p.isClosed then []
      else match p.idle with
        | [] => []
        | o :: _ => if p.isExpired o now then [o.conn] else []
    | _ => []
  | .release who reusable now =>
    match p.phase? who with
    | some (.holding o) => if p.refuses o reusable now then [o.conn] else []
    | _ => []
  | .discard who =>
    match p.phase? who with
    | some (.holding o) => [o.conn]
    | _ => []
  | .close => p.idle.map (·.conn)
  | _ => []

/-! ## Turns -/

/-- The turn of a party `q`: where it comes to, if it stays, and what it does to the numbers of the
pool.  The last two lists are the connections it opens and closes. -/
inductive Turn (p p' : Pool ι κ) (q : Party ι κ) : Option (Phase κ) → List κ → List κ → Prop where
  | wait {now : Duration} (phase : q.phase = .arriving) (idle : p'.idle = p.idle)
      (size : p'.size = p.size) (free : p'.free = p.free) :
      Turn p p' q (some (.waiting now)) [] []
  | fail {e : Error} (phase : q.phase = .arriving ∨ ∃ t, q.phase = .waiting t)
      (idle : p'.idle = p.idle) (size : p'.size = p.size) (free : p'.free = p.free) :
      Turn p p' q (some (.failed e)) [] []
  | leave (phase : (∃ t, q.phase = .waiting t) ∨ ∃ e, q.phase = .failed e)
      (idle : p'.idle = p.idle) (size : p'.size = p.size) (free : p'.free = p.free) :
      Turn p p' q none [] []
  | enroll (phase : q.phase = .arriving ∨ ∃ t, q.phase = .waiting t) (idle : p'.idle = p.idle)
      (size : p'.size = p.size) (free : p.free = p'.free + 1) :
      Turn p p' q (some .admitted) [] []
  | quit {a : Option (Phase κ)} (phase : q.phase = .admitted ∨ q.phase = .unserved)
      (after : a = none ∨ ∃ e, a = some (.failed e)) (idle : p'.idle = p.idle)
      (size : p'.size = p.size) (free : p'.free = p.free + 1) : Turn p p' q a [] []
  | miss (purpose : q.purpose = .take) (phase : q.phase = .admitted) (none : p.idle = [])
      (idle : p'.idle = []) (size : p'.size = p.size) (free : p'.free = p.free) :
      Turn p p' q (some .unserved) [] []
  | lend {o : Opened κ} (phase : q.phase = .admitted) (idle : p.idle = o :: p'.idle)
      (size : p'.size = p.size) (free : p'.free = p.free) : Turn p p' q (some (.holding o)) [] []
  | retire {o : Opened κ} (phase : q.phase = .admitted) (idle : p.idle = o :: p'.idle)
      (size : p'.size = p.size) (free : p'.free = p.free) :
      Turn p p' q (some .retiring) [] [o.conn]
  | uncount (phase : q.phase = .retiring) (idle : p'.idle = p.idle) (size : p'.size = p.size - 1)
      (free : p'.free = p.free) : Turn p p' q (some .admitted) [] []
  | reserve (ready : q.purpose = .take ∧ q.phase = .unserved ∨
        q.purpose = .stock ∧ q.phase = .admitted) (idle : p'.idle = p.idle)
      (size : p'.size = p.size + 1) (free : p'.free = p.free) : Turn p p' q (some .opening) [] []
  | opened {o : Opened κ} {ph : Phase κ} (phase : q.phase = .opening)
      (after : ph = .holding o ∨ ph = .stocking o) (idle : p'.idle = p.idle)
      (size : p'.size = p.size) (free : p'.free = p.free) : Turn p p' q (some ph) [o.conn] []
  | unopened {a : Option (Phase κ)} (phase : q.phase = .opening)
      (after : a = none ∨ ∃ e, a = some (.failed e)) (idle : p'.idle = p.idle)
      (size : p'.size = p.size - 1) (free : p'.free = p.free + 1) : Turn p p' q a [] []
  | giveBack {o : Opened κ} (phase : q.phase = .holding o ∨ q.phase = .stocking o)
      (idle : p'.idle = p.idle ++ [o]) (size : p'.size = p.size) (free : p'.free = p.free + 1) :
      Turn p p' q none [] []
  | close {o : Opened κ} (phase : q.phase = .holding o) (idle : p'.idle = p.idle)
      (size : p'.size = p.size - 1) (free : p'.free = p.free + 1) : Turn p p' q none [] [o.conn]

/-- The steps of a pool, with the connections they open and close. -/
inductive Steps (p : Pool ι κ) : Pool ι κ → List κ → List κ → Prop where
  | stay : Steps p p [] []
  | arrive {who : ι} {purpose : Purpose} (new : who ∉ p.parties.map (·.name))
      (missing : purpose = .stock → p.size < p.config.minSize) :
      Steps p (p.enter who purpose .arriving) [] []
  | turn {p' : Pool ι κ} {q : Party ι κ} {a : Option (Phase κ)} {rest : List (Party ι κ)}
      {os cs : List κ} (before : p.parties.Perm (q :: rest))
      (after : p'.parties.Perm ((a.map fun phase => { q with phase }).toList ++ rest))
      (config : p'.config = p.config) (does : Turn p p' q a os cs) : Steps p p' os cs
  | close : Steps p (p.step .close) [] (p.idle.map (·.conn))
  | shut : Steps p (p.step .shut) [] []

section Inversion

variable {p : Pool ι κ} {who : ι} {q : Party ι κ}

/-- A turn after which the party is still there. -/
theorem Steps.of_move (hp : p.Distinct) (h : p.party? who = some q) {p' : Pool ι κ}
    {phase : Phase κ} {os cs : List κ} (hparties : p'.parties = (p.move who phase).parties)
    (hconfig : p'.config = p.config) (does : Turn p p' q (some phase) os cs) :
    p.Steps p' os cs := by
  obtain ⟨rest, before, -, after⟩ := exists_perm_move hp h phase
  exact .turn before (hparties ▸ after) hconfig does

/-- A turn after which the party is gone. -/
theorem Steps.of_remove (hp : p.Distinct) (h : p.party? who = some q) {p' : Pool ι κ}
    {os cs : List κ} (hparties : p'.parties = (p.remove who).parties)
    (hconfig : p'.config = p.config) (does : Turn p p' q none os cs) : p.Steps p' os cs := by
  obtain ⟨rest, before, hrest, -⟩ := exists_perm_move hp h .admitted
  exact .turn before (by simp [hparties, hrest]) hconfig does

theorem phase?_eq (h : p.party? who = some q) : p.phase? who = some q.phase := by
  simp [phase?, h]

theorem exists_party?_of_phase? {phase : Phase κ} (h : p.phase? who = some phase) :
    ∃ q, p.party? who = some q ∧ q.phase = phase := by
  simpa [phase?] using h

theorem phase?_of_held {o : Opened κ} (h : p.held? who = some o) : p.phase? who = some (.holding o) := by
  unfold held? at h
  split at h
  · next hphase =>
    cases h
    exact hphase
  · cases h

/-- Who holds a connection is a party that does. -/
theorem exists_party_of_held {o : Opened κ} (h : p.held? who = some o) :
    ∃ q ∈ p.parties, q.name = who ∧ q.phase = .holding o := by
  obtain ⟨q, hq, hholding⟩ := exists_party?_of_phase? (phase?_of_held h)
  exact ⟨q, List.mem_of_find?_eq_some hq, by simpa using List.find?_some hq, hholding⟩

theorem party?_of_mem (hp : p.Distinct) (h : q ∈ p.parties) : p.party? q.name = some q := by
  cases hfind : p.party? q.name with
  | none => exact absurd (List.mem_map_of_mem h) (party?_eq_none_iff.1 hfind)
  | some q' =>
    obtain ⟨l, r, hlr, hne⟩ := exists_split hp hfind
    rw [hlr, List.mem_append, List.mem_cons] at h
    rcases h with h | h | h
    · exact absurd rfl (hne q (List.mem_append_left r h))
    · rw [h]
    · exact absurd rfl (hne q (List.mem_append_right l h))

/-- Who is first in the queue waits. -/
theorem exists_waiting_of_queue (hp : p.Distinct) (h : p.queue.head? = some who) :
    ∃ q t, p.party? who = some q ∧ q.phase = .waiting t := by
  have hmem : who ∈ p.queue := List.mem_of_mem_head? h
  obtain ⟨q, hq, rfl⟩ := List.mem_map.1 hmem
  obtain ⟨hmem, hwaiting⟩ := List.mem_filter.1 hq
  cases hphase : q.phase with
  | waiting t => exact ⟨q, t, party?_of_mem hp hmem, hphase⟩
  | _ => simp [hphase, Phase.isWaiting] at hwaiting

theorem steps_ask (hp : p.Distinct) (now : Duration) : p.Steps (p.step (.ask who now)) [] [] := by
  simp only [step]
  split
  case h_2 => exact .stay
  case h_1 name purpose h =>
    split
    · exact .of_move hp h rfl rfl (.fail (.inl rfl) rfl rfl rfl)
    · split
      next hfree =>
        refine .of_move hp h rfl rfl (.enroll (.inl rfl) rfl rfl ?_)
        exact (Nat.sub_add_cancel hfree.1).symm
      next =>
        obtain ⟨rest, before, hrest, -⟩ := exists_perm_move hp h .admitted
        refine .turn (a := some (.waiting now)) before ?_ rfl (.wait rfl rfl rfl rfl)
        rw [enter, hrest, ← name_of_party? h]
        exact List.perm_append_singleton ..

theorem steps_permit (hp : p.Distinct) : p.Steps (p.step (.permit who)) [] [] := by
  simp only [step]
  split
  next h =>
    obtain ⟨q, t, hq, hphase⟩ := exists_waiting_of_queue hp h.2
    refine .of_move hp hq rfl rfl (.enroll (.inr ⟨t, hphase⟩) rfl rfl ?_)
    exact (Nat.sub_add_cancel h.1).symm
  next => exact .stay

theorem steps_expire (hp : p.Distinct) : p.Steps (p.step (.expire who)) [] [] := by
  simp only [step]
  split
  next h =>
    obtain ⟨q, hq, hphase⟩ := exists_party?_of_phase? h
    exact .of_move hp hq rfl rfl (.fail (.inr ⟨_, hphase⟩) rfl rfl rfl)
  next => exact .stay

theorem steps_look (hp : p.Distinct) (now : Duration) :
    p.Steps (p.step (.look who now)) [] (p.closes (.look who now)) := by
  cases hq : p.party? who with
  | none => simpa only [step, closes, hq] using .stay
  | some q =>
    obtain ⟨name, purpose, phase⟩ := q
    cases purpose with
    | stock => simpa only [step, closes, hq] using .stay
    | take =>
      cases phase with
      | admitted =>
        simp only [step, closes, hq, lookStep]
        split
        · exact .of_move hp hq rfl rfl (.quit (.inl rfl) (.inr ⟨_, rfl⟩) rfl rfl rfl)
        · cases hidle : p.idle with
          | nil => exact .of_move hp hq rfl rfl (.miss rfl rfl hidle hidle rfl rfl)
          | cons o idle =>
            cases hold : p.isExpired o now with
            | true =>
              simp only [hold, if_true]
              exact .of_move hp hq rfl rfl (.retire rfl hidle rfl rfl)
            | false =>
              simp only [hold, Bool.false_eq_true, if_false]
              exact .of_move hp hq rfl rfl (.lend rfl hidle rfl rfl)
      | _ => simpa only [step, closes, hq] using .stay

theorem steps_uncount (hp : p.Distinct) : p.Steps (p.step (.uncount who)) [] [] := by
  simp only [step]
  split
  next h =>
    obtain ⟨q, hq, hphase⟩ := exists_party?_of_phase? h
    exact .of_move hp hq rfl rfl (.uncount hphase rfl rfl rfl)
  next => exact .stay

theorem steps_reserve (hp : p.Distinct) : p.Steps (p.step (.reserve who)) [] [] := by
  simp only [step]
  split
  case h_3 => exact .stay
  case h_1 name h =>
    split
    · exact .of_move hp h rfl rfl (.quit (.inr rfl) (.inr ⟨_, rfl⟩) rfl rfl rfl)
    · exact .of_move hp h rfl rfl (.reserve (.inl ⟨rfl, rfl⟩) rfl rfl rfl)
  case h_2 name h =>
    split
    · exact .of_move hp h rfl rfl (.quit (.inl rfl) (.inr ⟨_, rfl⟩) rfl rfl rfl)
    · exact .of_move hp h rfl rfl (.reserve (.inr ⟨rfl, rfl⟩) rfl rfl rfl)

theorem steps_opened (hp : p.Distinct) (now : Duration) (r : Result κ) :
    p.Steps (p.step (.opened who now r)) (p.opens (.opened who now r)) [] := by
  cases hq : p.party? who with
  | none => cases r <;> simpa only [step, opens, phase?, hq] using .stay
  | some q =>
    obtain ⟨name, purpose, phase⟩ := q
    cases phase with
    | opening =>
      cases r with
      | ok c =>
        simp only [opens, phase?_eq hq]
        cases purpose with
        | take =>
          simp only [step, hq]
          exact .of_move hp hq rfl rfl (.opened (o := ⟨c, now⟩) rfl (.inl rfl) rfl rfl rfl)
        | stock =>
          simp only [step, hq]
          exact .of_move hp hq rfl rfl (.opened (o := ⟨c, now⟩) rfl (.inr rfl) rfl rfl rfl)
      | error e =>
        simp only [step, opens, hq]
        exact .of_move hp hq rfl rfl (.unopened rfl (.inr ⟨_, rfl⟩) rfl rfl rfl)
    | _ => cases r <;> cases purpose <;> simpa only [step, opens, phase?_eq hq, hq] using .stay

theorem steps_shelve (hp : p.Distinct) : p.Steps (p.step (.shelve who)) [] [] := by
  simp only [step]
  split
  next o h =>
    obtain ⟨q, hq, hphase⟩ := exists_party?_of_phase? h
    exact .of_remove hp hq rfl rfl (.giveBack (.inr hphase) rfl rfl rfl)
  next => exact .stay

theorem steps_release (hp : p.Distinct) (reusable : Bool) (now : Duration) :
    p.Steps (p.step (.release who reusable now)) [] (p.closes (.release who reusable now)) := by
  cases h : p.phase? who with
  | none => simpa only [step, closes, h] using .stay
  | some phase =>
    obtain ⟨q, hq, hphase⟩ := exists_party?_of_phase? h
    cases phase with
    | holding o =>
      simp only [step, closes, h]
      cases p.refuses o reusable now with
      | true => exact .of_remove hp hq rfl rfl (.close hphase rfl rfl rfl)
      | false => exact .of_remove hp hq rfl rfl (.giveBack (.inl hphase) rfl rfl rfl)
    | _ => simpa only [step, closes, h] using .stay

theorem steps_discard (hp : p.Distinct) :
    p.Steps (p.step (.discard who)) [] (p.closes (.discard who)) := by
  cases h : p.phase? who with
  | none => simpa only [step, closes, h] using .stay
  | some phase =>
    obtain ⟨q, hq, hphase⟩ := exists_party?_of_phase? h
    cases phase with
    | holding o =>
      simp only [step, closes, h]
      exact .of_remove hp hq rfl rfl (.close hphase rfl rfl rfl)
    | _ => simpa only [step, closes, h] using .stay

theorem steps_cancel (hp : p.Distinct) : p.Steps (p.step (.cancel who)) [] [] := by
  simp only [step]
  split
  case h_4 => exact .stay
  case h_1 since h =>
    obtain ⟨q, hq, hphase⟩ := exists_party?_of_phase? h
    exact .of_remove hp hq rfl rfl (.leave (.inl ⟨_, hphase⟩) rfl rfl rfl)
  case h_2 h =>
    obtain ⟨q, hq, hphase⟩ := exists_party?_of_phase? h
    exact .of_remove hp hq rfl rfl (.quit (.inl hphase) (.inl rfl) rfl rfl rfl)
  case h_3 h =>
    obtain ⟨q, hq, hphase⟩ := exists_party?_of_phase? h
    exact .of_remove hp hq rfl rfl (.unopened hphase (.inl rfl) rfl rfl rfl)

theorem steps_forget (hp : p.Distinct) : p.Steps (p.step (.forget who)) [] [] := by
  simp only [step]
  split
  next e h =>
    obtain ⟨q, hq, hphase⟩ := exists_party?_of_phase? h
    exact .of_remove hp hq rfl rfl (.leave (.inr ⟨_, hphase⟩) rfl rfl rfl)
  next => exact .stay

theorem steps_arrive (purpose : Purpose) : p.Steps (p.step (.arrive who purpose)) [] [] := by
  simp only [step]
  split
  next => exact .stay
  next h =>
    have hnew : who ∉ p.parties.map (·.name) := party?_eq_none_iff.1 (by simpa using h)
    cases purpose with
    | take => exact .arrive hnew (by simp)
    | stock =>
      show p.Steps (if p.size < p.config.minSize then _ else _) [] []
      split
      next hmissing => exact .arrive hnew fun _ => hmissing
      next => exact .stay

/-- What a step can do. -/
theorem steps (hp : p.Distinct) (e : Event ι κ) : p.Steps (p.step e) (p.opens e) (p.closes e) := by
  cases e with
  | arrive who purpose => exact steps_arrive purpose
  | ask who now => exact steps_ask hp now
  | permit who => exact steps_permit hp
  | expire who => exact steps_expire hp
  | look who now => exact steps_look hp now
  | uncount who => exact steps_uncount hp
  | reserve who => exact steps_reserve hp
  | opened who now r => exact steps_opened hp now r
  | shelve who => exact steps_shelve hp
  | release who reusable now => exact steps_release hp reusable now
  | discard who => exact steps_discard hp
  | cancel who => exact steps_cancel hp
  | forget who => exact steps_forget hp
  | close => exact .close
  | shut => exact .shut

/-- Names stay different. -/
theorem Steps.distinct {p' : Pool ι κ} {os cs : List κ} (h : p.Steps p' os cs) (hp : p.Distinct) :
    p'.Distinct := by
  cases h with
  | stay | close => exact hp
  | arrive new missing =>
    rw [Distinct, enter, List.map_append]
    refine List.nodup_append.2 ⟨hp, List.pairwise_singleton .., ?_⟩
    intro x hx y hy heq
    rw [heq, List.mem_singleton.1 hy] at hx
    exact new hx
  | turn before after config does =>
    rename_i q a rest
    have hbefore := (before.map Party.name).nodup_iff.1 hp
    refine (after.map Party.name).nodup_iff.2 ?_
    cases a with
    | none => exact (List.nodup_cons.1 hbefore).2
    | some phase => exact hbefore
  | shut =>
    have hnames : (p.step .shut).parties.map (·.name) = p.parties.map (·.name) := by
      simp only [step, List.map_map]
      refine List.map_congr_left fun q _ => ?_
      simp only [Function.comp]
      split <;> rfl
    rw [Distinct, hnames]
    exact hp

end Inversion

end Pool

end SqlKit
