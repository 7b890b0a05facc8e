import SqlKit.Proofs.Engine.Order

/-!
# The life of an engine and its handles

Whether an engine is connected, and of each handle whether it holds a session and whether the pool it was
made for is still open: this much of an engine follows from what it was asked for and what of it
succeeded, and it says which requests are refused.

    a request changes the life as it says by itself                    (life_after)
    a handle keeps what it holds, whatever others are asked for        (held?_after_of_ne)
    refused is what the life says, and nothing else                    (result_of_refusal, result_ne)
-/

namespace SqlKit

namespace Engine

open Lookup

variable {ω : Type}

/-! ## Lives -/

/-- What there is to know of a handle. -/
structure Tenure where
  /-- The pool that it was made for has not been disconnected. -/
  isOpen : Bool
  /-- It holds a session. -/
  isHeld : Bool
deriving DecidableEq

/-- What there is to know of an engine and of its handles, by name. -/
structure Life where
  isOn : Bool := false
  handles : String → Option Tenure := fun _ => none

namespace Life

/-- Does the handle hold a session? -/
def holds (l : Life) (name : String) : Bool := (l.handles name).any (·.isHeld)

/-- Is the pool of the handle open? -/
def isOpen (l : Life) (name : String) : Bool := (l.handles name).any (·.isOpen)

/-- Why a request is refused, if it is. -/
def refusal (l : Life) : Op → Option Error
  | .connect => if l.isOn then some .alreadyConnected else none
  | .disconnect | .connection _ | .transaction _ => if l.isOn then none else some .notConnected
  | .begin name =>
    match l.handles name with
    | none => some .notConnected
    | some t =>
      if t.isHeld then some .alreadyConnected
      else if t.isOpen then none
      else some .poolClosed
  | .done name | .execute name .. | .fetchAll name .. | .fetchMany name .. =>
    if l.holds name then none else some .notConnected
  | .drop _ | .pass _ => none

/-- Changes what there is to know of a handle. -/
def onHandle (l : Life) (name : String) (f : Option Tenure → Option Tenure) : Life :=
  { l with handles := put l.handles name (f (l.handles name)) }

/-- What a request changes that has succeeded. -/
def grant (l : Life) : Op → Life
  | .connect => { l with isOn := true }
  | .disconnect =>
    { isOn := false, handles := fun name => (l.handles name).map fun t => { t with isOpen := false } }
  | .connection name => l.onHandle name fun _ => some { isOpen := true, isHeld := false }
  | .drop name => l.onHandle name fun _ => none
  | .begin name => l.onHandle name (Option.map fun t => { t with isHeld := true })
  | .done name => l.onHandle name (Option.map fun t => { t with isHeld := false })
  | _ => l

/-- A request that has failed changes nothing. -/
def follow (l : Life) (op : Op) (succeeded : Bool) : Life := if succeeded then l.grant op else l

end Life

/-- The errors that tell of a life. -/
def lapses : List Error := [.alreadyConnected, .notConnected, .poolClosed]

/-- What there is to know of an engine and its handles at this time. -/
def life (e : Engine ω) : Life where
  isOn := e.isConnected
  handles name := (e.handles (.handle name)).map fun h =>
    { isOpen := e.current = some h.pool, isHeld := (e.held? (.handle name)).isSome }

/-- Does a request succeed, and what is its error if not? -/
def Answer.result : Answer → Result Unit
  | .done r => r
  | .count r => r.map fun _ => ()
  | .rows r => r.map fun _ => ()
  | .outcomes r => r.map fun _ => ()

/-- Whether a request succeeds, or else its error. -/
def result (v : Vendor ω) (e : Engine ω) (op : Op) : Result Unit := (e.answer v op).result

section Lives

variable {v : Vendor ω} {e e' : Engine ω}

theorem holds_life (e : Engine ω) (name : String) :
    e.life.holds name = (e.held? (.handle name)).isSome := by
  unfold Life.holds life
  cases hh : e.handles (.handle name) with
  | none => simp [hh, held?]
  | some h => simp [hh]

theorem isOpen_life {name : String} {h : Handle} (hh : e.handles (.handle name) = some h) :
    e.life.isOpen name = true ↔ e.current = some h.pool := by
  simp [Life.isOpen, life, hh]

/-- A life is what the engine, its handles and their sessions make of it. -/
theorem life_eq {l : Life} (hon : e.isConnected = l.isOn)
    (hhandles : ∀ name, ((e.handles (.handle name)).map fun h =>
      (⟨e.current = some h.pool, (e.held? (.handle name)).isSome⟩ : Tenure)) = l.handles name) :
    e.life = l := by
  obtain ⟨isOn, handles⟩ := l
  obtain rfl : e.isConnected = isOn := hon
  obtain rfl : _ = handles := funext hhandles
  rfl

/-! ## Sessions of others -/

theorem held?_connection_of_ne (e : Engine ω) {who who' : Holder} (hne : who' ≠ who) :
    ((connection v who).on e).2.held? who' = e.held? who' := by
  cases hn : e.current with
  | none => rw [connection_of_not_isConnected v who hn]
  | some n =>
    rw [on_connection v hn]
    exact (held?_put_of_ne _ hne _).trans (held?_drop_of_ne v e hne)

theorem Orderly.held?_begin_of_ne (he : e.Orderly v) {who who' : Holder} (hne : who' ≠ who) :
    ((begin v who).on e).2.held? who' = e.held? who' := by
  rcases begin_cases v who e with ⟨-, x, hon⟩ | ⟨h, hh, hc⟩
  · rw [hon]
  · have htaken := he.taken hh hc
    rw [on_begin_of_unheld v hh hc]
    generalize Pool.take v.login.on who e.now (e.pools h.pool, e.world) = x at htaken ⊢
    dsimp only
    rw [waited_eq]
    unfold held?
    dsimp only
    cases e.handles who' with
    | none => rfl
    | some h' =>
      by_cases hpool : h'.pool = h.pool
      · simp [hpool, htaken.held?_of_ne hne]
      · simp [put_of_ne _ _ hpool]

theorem held?_done_of_ne (e : Engine ω) {who who' : Holder} (hne : who' ≠ who) :
    ((done v who).on e).2.held? who' = e.held? who' := by
  rw [done_snd]
  exact held?_letGo_of_ne v.giveBack e hne

/-- Connecting makes a new pool, on which there is no handle yet. -/
theorem Orderly.held?_connect (he : e.Orderly v) (who : Holder) :
    ((connect v).on e).2.held? who = e.held? who := by
  rcases connect_cases v e with ⟨x, hon⟩ | ⟨-, r, pool, w, -, hon⟩
  · rw [hon]
  · rw [hon]
    cases r with
    | error x => rfl
    | ok _ =>
      unfold held?
      dsimp only
      cases hh : e.handles who with
      | none => rfl
      | some h =>
        have hlt := he.known who h hh
        simp [put_of_ne _ _ (Nat.ne_of_lt hlt)]

/-- Disconnecting takes nothing away from anybody. -/
theorem Orderly.held?_disconnect (he : e.Orderly v) (who : Holder) :
    (disconnect.on e).2.held? who = e.held? who := by
  cases hn : e.current with
  | none => rw [disconnect_of_not_isConnected hn]
  | some n =>
    rw [on_disconnect hn]
    unfold held?
    dsimp only
    show (do
      let h ← e.handles who
      let o ← (((e.onPool n .close).onPool n .shut).pools h.pool).held? who
      return o.conn) = _
    cases e.handles who with
    | none => rfl
    | some h =>
      have hparties := Pool.held?_congr (he.parties_disconnect n h.pool) who
      simp [hparties]

/-- What is kept to by an action that leaves the sessions of others alone. -/
def Spare (v : Vendor ω) (who : Holder) (e e' : Engine ω) : Prop :=
  e.Orderly v → e'.Orderly v ∧ ∀ who', who' ≠ who → e'.held? who' = e.held? who'

instance (who : Holder) : IsPreorder (Engine ω) (Spare v who) where
  refl _ he := ⟨he, fun _ _ => rfl⟩
  trans _ _ _ h h' he := by
    obtain ⟨he', hheld⟩ := h he
    obtain ⟨he'', hheld'⟩ := h' he'
    exact ⟨he'', fun who' hne => (hheld' who' hne).trans (hheld who' hne)⟩

theorem spare_transaction (t : Transaction) (e : Engine ω) :
    Spare v .engine e ((transaction v t).on e).2 :=
  within_transaction (P := Spare v .engine)
    (fun e he => ⟨orderly_reaches he (moving_connection .engine e),
      fun _ hne => held?_connection_of_ne e hne⟩)
    (fun e he => ⟨orderly_reaches he (moving_begin .engine e), fun _ hne => he.held?_begin_of_ne hne⟩)
    (fun e he => ⟨orderly_reaches he (moving_done .engine e), fun _ hne => held?_done_of_ne e hne⟩)
    (fun sql params e he => ⟨orderly_reaches he (moving_execute .engine sql params e),
      fun who' _ => (stays_execute .engine v sql params e).held?_eq who'⟩)
    (fun sql params e he => ⟨orderly_reaches he (moving_query .engine sql params none e),
      fun who' _ => (stays_query .engine v sql params none e).held?_eq who'⟩)
    (fun e he => ⟨orderly_reaches he (reaches_drop .engine e), fun _ hne => held?_drop_of_ne v e hne⟩)
    t e

/-- A handle keeps what it holds, whatever others are asked for. -/
theorem Orderly.held?_after_of_ne (he : e.Orderly v) {op : Op} {who : Holder}
    (hop : op.who? ≠ some who) : (e.after v op).held? who = e.held? who := by
  have hne {name : String} (h : op.who? = some (.handle name)) : who ≠ .handle name := by
    rintro rfl
    exact hop h
  cases op with
  | connect => exact he.held?_connect who
  | disconnect => exact he.held?_disconnect who
  | connection name => exact held?_connection_of_ne e (hne rfl)
  | drop name => exact held?_drop_of_ne v e (hne rfl)
  | begin name => exact he.held?_begin_of_ne (hne rfl)
  | done name => exact held?_done_of_ne e (hne rfl)
  | execute name sql params => exact (stays_execute _ v sql params e).held?_eq who
  | fetchAll name sql params => exact (stays_query _ v sql params none e).held?_eq who
  | fetchMany name sql params limit => exact (stays_fetchMany _ v sql params limit e).held?_eq who
  | transaction t =>
    refine (spare_transaction t e he).2 who ?_
    rintro rfl
    exact hop rfl
  | pass d => rfl

/-! ## Sessions of their own -/

/-- A new handle holds nothing. -/
theorem Orderly.held?_connection (he : e.Orderly v) {who : Holder} {n : Nat} (hn : e.current = some n) :
    ((connection v who).on e).2.held? who = none := by
  have hdropped : (e.drop v who).Orderly v := orderly_reaches he (reaches_drop who e)
  have hgone : (e.drop v who).handles who = none := put_self ..
  rw [on_connection v hn]
  exact held?_of_not_mem (put_self ..) (hdropped.not_mem_of_no_handle hgone n)

/-- Who begins holds a session if and only if that succeeds. -/
theorem Orderly.held?_begin (he : e.Orderly v) {who : Holder} (hc : e.held? who = none) :
    (((begin v who).on e).2.held? who).isSome = ((begin v who).on e).1.isOk := by
  rcases begin_cases v who e with ⟨-, x, hon⟩ | ⟨h, hh, -⟩
  · rw [hon, hc]
    rfl
  · have htaken := he.taken hh hc
    have hwho := he.not_mem_parties hh hc
    rw [on_begin_of_unheld v hh hc]
    generalize Pool.take v.login.on who e.now (e.pools h.pool, e.world) = x at htaken ⊢
    dsimp only
    rw [waited_eq]
    rcases htaken.parties_eq with ⟨hfails, hparties⟩ | ⟨hok, -⟩
    · have hnone : ({ e with world := x.2.2, pools := put e.pools h.pool x.2.1 } : Engine ω).held? who =
          none := held?_of_not_mem hh (by simpa [hparties] using hwho)
      show (Engine.held? { e with world := x.2.2, pools := put e.pools h.pool x.2.1 } who).isSome = _
      rw [hnone]
      cases hx : x.1 with
      | ok _ => simp [hx, Except.isOk, Except.toBool] at hfails
      | error y => rfl
    · obtain ⟨o, ho, -⟩ := htaken.exists_held hwho hok
      have hsome : ({ e with world := x.2.2, pools := put e.pools h.pool x.2.1 } : Engine ω).held? who =
          some o.conn := held?_eq_some_iff.2 ⟨h, o, hh, by simpa using ho, rfl⟩
      show (Engine.held? { e with world := x.2.2, pools := put e.pools h.pool x.2.1 } who).isSome = _
      rw [hsome]
      cases hx : x.1 with
      | ok _ => rfl
      | error y => simp [hx, Except.isOk, Except.toBool] at hok

/-! ## One request -/

theorem handles_life (e : Engine ω) (name : String) :
    e.life.handles name = (e.handles (.handle name)).map fun h =>
      { isOpen := e.current = some h.pool, isHeld := (e.held? (.handle name)).isSome } := rfl

/-- Who is not asked keeps its tenure. -/
theorem Orderly.handles_life_of_ne (he : e.Orderly v) {op : Op} {who : Holder}
    (hop : op.who? = some who) {name : String} (hne : .handle name ≠ who) :
    (e.after v op).life.handles name = e.life.handles name := by
  have hminds : Minds who e (e.after v op) := minds_after hop e
  have hheld : (e.after v op).held? (.handle name) = e.held? (.handle name) := by
    refine he.held?_after_of_ne ?_
    rw [hop]
    exact fun h => hne (Option.some.inj h).symm
  rw [handles_life, handles_life, hminds.handles _ hne, hminds.current, hheld]

/-- A request to a handle changes the life of the handle at most. -/
theorem Orderly.life_of_handle (he : e.Orderly v) (op : Op) {name : String}
    (hop : op.who? = some (.handle name)) {f : Option Tenure → Option Tenure}
    (hself : (e.after v op).life.handles name = f (e.life.handles name)) :
    (e.after v op).life = e.life.onHandle name f := by
  have hminds : Minds _ e (e.after v op) := minds_after hop e
  refine life_eq ?_ fun name' => ?_
  · show (e.after v op).current.isSome = e.current.isSome
    rw [hminds.current]
  · show (e.after v op).life.handles name' = put e.life.handles name (f (e.life.handles name)) name'
    by_cases hname : name' = name
    · rw [hname, put_self]
      exact hself
    · rw [put_of_ne _ _ hname]
      exact he.handles_life_of_ne hop fun h => hname (Holder.handle.inj h)

theorem onHandle_id (l : Life) (name : String) : l.onHandle name id = l := by
  have hput : put l.handles name (l.handles name) = l.handles := by
    funext name'
    by_cases hname : name' = name
    · rw [hname, put_self]
    · rw [put_of_ne _ _ hname]
  unfold Life.onHandle
  rw [id, hput]

/-- Statements leave lives as they are. -/
theorem life_of_stays {who : Holder} (h : Stays who e e') : e'.life = e.life := by
  refine life_eq ?_ fun name => ?_
  · show e'.current.isSome = e.current.isSome
    rw [h.current]
  · have hpool : (e'.handles (.handle name)).map (·.pool) = (e.handles (.handle name)).map (·.pool) := by
      by_cases hwho : .handle name = who
      · rw [hwho]
        exact h.pool
      · rw [h.handles _ hwho]
    rw [handles_life, h.current, h.held?_eq]
    cases hh : e.handles (.handle name) <;> cases hh' : e'.handles (.handle name) <;>
      simp [hh, hh'] at hpool ⊢
    rw [hpool]

theorem Orderly.life_connect (he : e.Orderly v) :
    (e.after v .connect).life = e.life.follow .connect (e.result v .connect).isOk := by
  have hheld := he.held?_connect
  unfold after result answer
  rcases connect_cases v e with ⟨x, hon⟩ | ⟨hcurrent, r, pool, w, -, hon⟩
  · rw [hon]
    rfl
  · rw [hon] at hheld ⊢
    cases r with
    | error x => rfl
    | ok _ =>
      refine life_eq rfl fun name => ?_
      show _ = e.life.handles name
      rw [handles_life, hheld, hcurrent]
      cases hh : e.handles (.handle name) with
      | none => rfl
      | some h =>
        have hlt := he.known _ h hh
        simp [Nat.ne_of_gt hlt]

theorem Orderly.life_disconnect (he : e.Orderly v) :
    (e.after v .disconnect).life = e.life.follow .disconnect (e.result v .disconnect).isOk := by
  have hheld := he.held?_disconnect
  unfold after result answer
  cases hn : e.current with
  | none =>
    rw [disconnect_of_not_isConnected hn]
    rfl
  | some n =>
    rw [on_disconnect hn] at hheld ⊢
    refine life_eq rfl fun name => ?_
    show _ = (e.life.handles name).map _
    rw [handles_life, hheld, Option.map_map]
    rfl

theorem Orderly.life_connection (he : e.Orderly v) (name : String) :
    (e.after v (.connection name)).life =
      e.life.follow (.connection name) (e.result v (.connection name)).isOk := by
  cases hn : e.current with
  | none =>
    have hon := connection_of_not_isConnected v (.handle name) hn
    have hafter : e.after v (.connection name) = e := congrArg Prod.snd hon
    have hresult : e.result v (.connection name) = .error .notConnected := congrArg Prod.fst hon
    rw [hafter, hresult]
    rfl
  | some n =>
    have hresult : e.result v (.connection name) = .ok () := congrArg Prod.fst (on_connection v hn)
    rw [hresult]
    refine he.life_of_handle (.connection name)
      (f := fun _ => some { isOpen := true, isHeld := false }) rfl ?_
    have hnone : (e.after v (.connection name)).held? (.handle name) = none := he.held?_connection hn
    rw [handles_life, hnone, after_connection v hn]
    dsimp only
    rw [put_self]
    simp [current_letGo, drop, hn]

theorem Orderly.life_drop (he : e.Orderly v) (name : String) :
    (e.after v (.drop name)).life = e.life.follow (.drop name) (e.result v (.drop name)).isOk := by
  refine he.life_of_handle (.drop name) (f := fun _ => none) rfl ?_
  have hgone : (e.after v (.drop name)).handles (.handle name) = none := put_self ..
  rw [handles_life, hgone]
  rfl

theorem Orderly.life_begin (he : e.Orderly v) (name : String) :
    (e.after v (.begin name)).life = e.life.follow (.begin name) (e.result v (.begin name)).isOk := by
  have hhandles : (e.after v (.begin name)).handles = e.handles := by
    rcases after_begin v e name with ⟨-, h⟩ | ⟨h, x, now, -, -, -, hafter⟩
    · rw [h]
    · rw [hafter]
  have hcurrent := (minds_after rfl e : Minds (.handle name) e (e.after v (.begin name))).current
  cases hc : e.held? (.handle name) with
  | some c =>
    have hon := on_begin_of_held v hc
    have hafter : e.after v (.begin name) = e := congrArg Prod.snd hon
    have hresult : e.result v (.begin name) = .error .alreadyConnected := congrArg Prod.fst hon
    rw [hafter, hresult]
    rfl
  | none =>
    have hheld : ((e.after v (.begin name)).held? (.handle name)).isSome =
        (e.result v (.begin name)).isOk := he.held?_begin hc
    unfold Life.follow
    split
    next hok =>
      refine he.life_of_handle (.begin name) rfl ?_
      rw [handles_life, handles_life, hhandles, hcurrent, hheld, hok, Option.map_map]
      rfl
    next hfails =>
      rw [← onHandle_id e.life name]
      refine he.life_of_handle (.begin name) rfl ?_
      rw [Bool.not_eq_true] at hfails
      rw [handles_life, handles_life, hhandles, hcurrent, hheld, hfails, hc]
      rfl

theorem Orderly.life_done (he : e.Orderly v) (name : String) :
    (e.after v (.done name)).life = e.life.follow (.done name) (e.result v (.done name)).isOk := by
  unfold Life.follow
  cases hc : e.held? (.handle name) with
  | none =>
    have hon := done_of_not_held v hc
    have hafter : e.after v (.done name) = e := congrArg Prod.snd hon
    have hresult : e.result v (.done name) = .error .notConnected := congrArg Prod.fst hon
    rw [hafter, hresult]
    rfl
  | some c =>
    have hresult : e.result v (.done name) = .ok () := congrArg Prod.fst (on_done v hc)
    obtain ⟨h, -, hh, -, -⟩ := held?_eq_some_iff.1 hc
    have hcurrent := (minds_after rfl e : Minds (.handle name) e (e.after v (.done name))).current
    have hnone : (e.after v (.done name)).held? (.handle name) = none := by
      rw [after_done]
      exact held?_letGo ..
    have hhandles : (e.after v (.done name)).handles (.handle name) =
        some { h with inTransaction := false } := by
      rw [after_done, letGo_of_held hh hc]
      simp [onHandle, onPool, hh]
    rw [hresult]
    refine he.life_of_handle (.done name) rfl ?_
    rw [handles_life, handles_life, hhandles, hcurrent, hnone, hh]
    rfl

/-- **Lives.**  What a request changes in a life follows from the request and from whether it
succeeded. -/
theorem Orderly.life_after (he : e.Orderly v) (op : Op) :
    (e.after v op).life = e.life.follow op (e.result v op).isOk := by
  have hsame {op : Op} (h : (e.after v op).life = e.life) (hgrant : ∀ l : Life, l.grant op = l) :
      (e.after v op).life = e.life.follow op (e.result v op).isOk := by
    unfold Life.follow
    rw [hgrant, ite_self]
    exact h
  cases op with
  | connect => exact he.life_connect
  | disconnect => exact he.life_disconnect
  | connection name => exact he.life_connection name
  | drop name => exact he.life_drop name
  | begin name => exact he.life_begin name
  | done name => exact he.life_done name
  | execute name sql params =>
    exact hsame (life_of_stays (stays_execute _ v sql params e)) fun _ => rfl
  | fetchAll name sql params =>
    exact hsame (life_of_stays (stays_query _ v sql params none e)) fun _ => rfl
  | fetchMany name sql params limit =>
    exact hsame (life_of_stays (stays_fetchMany _ v sql params limit e)) fun _ => rfl
  | transaction t =>
    refine hsame (life_eq ?_ fun name => ?_) fun _ => rfl
    · show (e.after v (.transaction t)).current.isSome = e.current.isSome
      rw [(minds_after rfl e).current]
    · exact he.handles_life_of_ne rfl Holder.noConfusion
  | pass d => exact hsame rfl fun _ => rfl

/-! ## Refusals -/

/-- A vendor does not speak of connections in its errors, but for a pool that is closed. -/
structure Candid (v : Vendor ω) (w : ω) : Prop where
  fault : ∀ x, v.fault = some x → x.kind ≠ .pool
  closedFault : v.closedFault = .poolClosed
  login : ∀ w x w', v.login.on w = (.error x, w') → x.kind ≠ .pool
  execute : ∀ c sql params x w', (v.execute c sql params).on w = (.error x, w') → x.kind ≠ .pool
  fetch : ∀ c sql params limit x w',
    (v.fetch c sql params limit).on w = (.error x, w') → x.kind ≠ .pool

theorem kind_of_mem_lapses {x : Error} (h : x ∈ lapses) : x.kind = .pool := by
  simp only [lapses, List.mem_cons, List.not_mem_nil, or_false] at h
  rcases h with rfl | rfl | rfl <;> rfl

/-- What a handle's pool answers who wants a session. -/
theorem Orderly.result_begin (he : e.Orderly v) (hv : Candid v e.world) {name : String} {h : Handle}
    (hh : e.handles (.handle name) = some h) (hc : e.held? (.handle name) = none) :
    e.current ≠ some h.pool ∧ e.result v (.begin name) = .error .poolClosed ∨
      e.current = some h.pool ∧ ∀ x ∈ lapses, e.result v (.begin name) ≠ .error x := by
  have hcurrent := he.current h.pool (he.known _ h hh)
  have htaken := he.taken hh hc
  have hon : e.result v (.begin name) = _ := congrArg Prod.fst (on_begin_of_unheld v hh hc)
  rw [hon]
  generalize Pool.take v.login.on (.handle name) e.now (e.pools h.pool, e.world) = x at htaken
  cases htaken with
  | shut shut =>
    left
    refine ⟨fun hopen => ?_, ?_⟩
    · rw [hcurrent.2 hopen] at shut
      cases shut
    · exact congrArg Except.error ((if_pos rfl).trans hv.closedFault)
  | late unshut none =>
    refine .inr ⟨hcurrent.1 unshut, fun x hx hresult => ?_⟩
    obtain rfl : Error.poolTimeout _ = x := Except.error.inj hresult
    simp [lapses] at hx
  | lent unshut | opened unshut =>
    exact .inr ⟨hcurrent.1 unshut, fun x hx hresult => (by cases hresult)⟩
  | failed unshut free old new =>
    refine .inr ⟨hcurrent.1 unshut, fun x hx hresult => ?_⟩
    have hkind := hv.login _ _ _ new
    have hresult := Except.error.inj hresult
    dsimp only at hresult
    split at hresult
    next hclosed =>
      rw [hclosed] at hkind
      exact hkind rfl
    next =>
      subst hresult
      exact hkind (kind_of_mem_lapses hx)

theorem current_of_refusal {x : Error}
    (h : (if e.isConnected then none else some Error.notConnected) = some x) :
    e.current = none ∧ Error.notConnected = x := by
  split at h
  next => cases h
  next hoff => exact ⟨by simpa [isConnected] using hoff, Option.some.inj h⟩

theorem held?_of_refusal {name : String} {x : Error}
    (h : (if e.life.holds name then none else some Error.notConnected) = some x) :
    e.held? (.handle name) = none ∧ Error.notConnected = x := by
  split at h
  next => cases h
  next hnone =>
    rw [holds_life] at hnone
    exact ⟨by simpa using hnone, Option.some.inj h⟩

/-- A handle that is refused a session fails with the error that the life tells. -/
theorem Orderly.result_begin_of_refusal (he : e.Orderly v) (hv : Candid v e.world) {name : String}
    {x : Error} (h : e.life.refusal (.begin name) = some x) :
    e.result v (.begin name) = .error x := by
  simp only [Life.refusal, handles_life] at h
  cases hh : e.handles (.handle name) with
  | none =>
    rw [hh] at h
    cases h
    exact congrArg Prod.fst (on_begin_of_no_handle v hh)
  | some handle =>
    cases hc : e.held? (.handle name) with
    | some c =>
      simp only [hh, hc, Option.map_some, Option.isSome_some, if_true, Option.some.injEq] at h
      rw [← h]
      exact congrArg Prod.fst (on_begin_of_held v hc)
    | none =>
      rcases he.result_begin hv hh hc with ⟨-, hresult⟩ | ⟨hopen, -⟩
      · have hx : Error.poolClosed = x := by
          simp only [hh, hc, Option.map_some] at h
          split at h
          · contradiction
          · split at h
            · cases h
            · exact Option.some.inj h
        rw [← hx]
        exact hresult
      · simp [hh, hc, hopen] at h

/-- What is refused fails with the error that the life tells. -/
theorem Orderly.result_of_refusal (he : e.Orderly v) (hv : Candid v e.world) {op : Op} {x : Error}
    (h : e.life.refusal op = some x) : e.result v op = .error x := by
  cases op with
  | connect =>
    have h : (if e.isConnected then some Error.alreadyConnected else none) = some x := h
    split at h
    next hon =>
      cases h
      exact congrArg Prod.fst (connect_of_isConnected v hon)
    next => cases h
  | disconnect =>
    obtain ⟨hoff, rfl⟩ := current_of_refusal h
    exact congrArg Prod.fst (disconnect_of_not_isConnected hoff)
  | connection name =>
    obtain ⟨hoff, rfl⟩ := current_of_refusal h
    exact congrArg Prod.fst (connection_of_not_isConnected v _ hoff)
  | transaction t =>
    obtain ⟨hoff, rfl⟩ := current_of_refusal h
    unfold result answer
    dsimp only
    rw [transaction, Action.on_bind, connection_of_not_isConnected v _ hoff]
    rfl
  | drop name | pass d => cases h
  | begin name => exact he.result_begin_of_refusal hv h
  | done name =>
    obtain ⟨hnone, rfl⟩ := held?_of_refusal h
    exact congrArg Prod.fst (done_of_not_held v hnone)
  | execute name sql params =>
    obtain ⟨hnone, rfl⟩ := held?_of_refusal h
    exact congrArg (Except.map _ ∘ Prod.fst) (execute_of_not_held v _ sql params hnone)
  | fetchAll name sql params =>
    obtain ⟨hnone, rfl⟩ := held?_of_refusal h
    exact congrArg (Except.map _ ∘ Prod.fst) (on_query_of_not_held v hnone sql params none)
  | fetchMany name sql params limit =>
    obtain ⟨hnone, rfl⟩ := held?_of_refusal h
    unfold result answer session
    dsimp only
    split
    · rw [on_query_of_not_held v hnone]
      rfl
    · rw [Action.on_bind, on_query_of_not_held v hnone]
      rfl

theorem exists_current_of_refusal
    (h : (if e.isConnected then none else some Error.notConnected) = none) :
    ∃ n, e.current = some n := by
  split at h
  next hon => exact Option.isSome_iff_exists.1 hon
  next => cases h

theorem exists_held_of_refusal {name : String}
    (h : (if e.life.holds name then none else some Error.notConnected) = none) :
    ∃ c, e.held? (.handle name) = some c := by
  split at h
  next hsome =>
    rw [holds_life] at hsome
    exact Option.isSome_iff_exists.1 hsome
  next => cases h

theorem error_of_map {α β : Type} {r : Result α} {f : α → β} {x : Error}
    (h : r.map f = .error x) : r = .error x := by
  cases r with
  | error y => exact congrArg Except.error (Except.error.inj h)
  | ok a => cases h

/-- The error of connecting is that of the settings or of a login. -/
theorem Candid.kind_of_connect (hv : Candid v e.world) (hoff : e.current = none) {x : Error}
    (h : e.result v .connect = .error x) : x.kind ≠ .pool := by
  cases hfault : v.fault with
  | some y =>
    have hfails : e.result v .connect = .error y := by
      unfold result answer connect
      rw [Action.on_of, hfault]
      simp [isConnected, hoff, Answer.result]
    rw [hfails] at h
    cases h
    exact hv.fault x hfault
  | none =>
    have hstocked := stocked_connect v e
    have hon := on_connect v hoff hfault
    generalize Pool.warm v.login.on Holder.engine e.now (Pool.new v.config v.keeps, e.world) = y
      at hstocked hon
    obtain ⟨r, pool, w⟩ := y
    have hfails : e.result v .connect = r := by
      refine (congrArg Prod.fst hon).trans ?_
      cases r <;> rfl
    rw [hfails] at h
    subst h
    cases hstocked with
    | failed opened new => exact hv.login _ _ _ new

/-- The error of a query is that of the database. -/
theorem Candid.kind_of_query (hv : Candid v e.world) {who : Holder} {c : Nat}
    (hc : e.held? who = some c) {sql : String} {params : List Value} {limit : Option Nat} {x : Error}
    (h : ((query v who sql params limit).on e).1 = .error x) : x.kind ≠ .pool := by
  rw [on_query v hc] at h
  cases hfetch : (v.fetch c sql params limit).on e.world with
  | mk r w =>
    rw [hfetch] at h
    cases r with
    | error y =>
      cases h
      exact hv.fetch _ _ _ _ _ _ hfetch
    | ok rows => cases h

/-- What is not refused does not fail with such an error, but for transactions, which have errors of
their own. -/
theorem Orderly.result_ne (he : e.Orderly v) (hv : Candid v e.world) {op : Op}
    (hop : ∀ t, op ≠ .transaction t) (h : e.life.refusal op = none) {x : Error} (hx : x ∈ lapses) :
    e.result v op ≠ .error x := by
  intro hresult
  have hkind := kind_of_mem_lapses hx
  cases op with
  | connect =>
    have hoff : e.current = none := by
      have h : (if e.isConnected then some Error.alreadyConnected else none) = none := h
      split at h
      next => cases h
      next hoff => simpa [isConnected] using hoff
    exact hv.kind_of_connect hoff hresult hkind
  | disconnect =>
    obtain ⟨n, hn⟩ := exists_current_of_refusal h
    cases (congrArg Prod.fst (on_disconnect hn)).symm.trans hresult
  | connection name =>
    obtain ⟨n, hn⟩ := exists_current_of_refusal h
    cases (congrArg Prod.fst (on_connection v hn)).symm.trans hresult
  | drop name | pass d => cases hresult
  | begin name =>
    simp only [Life.refusal, handles_life] at h
    cases hh : e.handles (.handle name) with
    | none => simp [hh] at h
    | some handle =>
      cases hc : e.held? (.handle name) with
      | some c => simp [hh, hc] at h
      | none =>
        rcases he.result_begin hv hh hc with ⟨hshut, -⟩ | ⟨-, hnone⟩
        · simp [hh, hc, hshut] at h
        · exact hnone x hx hresult
  | done name =>
    obtain ⟨c, hc⟩ := exists_held_of_refusal h
    cases (congrArg Prod.fst (on_done v hc)).symm.trans hresult
  | execute name sql params =>
    obtain ⟨c, hc⟩ := exists_held_of_refusal h
    have hon : ((session v (.handle name)).execute sql params).on e = _ := on_execute v hc sql params
    have hfails := error_of_map hresult
    rw [hon] at hfails
    exact hv.execute c sql params x _ (Prod.ext hfails rfl) hkind
  | fetchAll name sql params =>
    obtain ⟨c, hc⟩ := exists_held_of_refusal h
    exact hv.kind_of_query hc (error_of_map hresult) hkind
  | fetchMany name sql params limit =>
    obtain ⟨c, hc⟩ := exists_held_of_refusal h
    have hfails := error_of_map hresult
    unfold session at hfails
    dsimp only at hfails
    split at hfails
    · exact hv.kind_of_query hc hfails hkind
    · rw [Action.on_bind] at hfails
      cases hquery : (query v (.handle name) sql params none).on e with
      | mk r e' =>
        rw [hquery] at hfails
        cases r with
        | error y =>
          have hy : y = x := Except.error.inj hfails
          exact hv.kind_of_query hc (congrArg Prod.fst hquery) (hy ▸ hkind)
        | ok rows => cases hfails
  | transaction t => exact hop t rfl

/-- **Refusals.**  A request fails with an error that tells of a life if and only if the life says so. -/
theorem Orderly.result_eq_iff (he : e.Orderly v) (hv : Candid v e.world) {op : Op}
    (hop : ∀ t, op ≠ .transaction t) {x : Error} (hx : x ∈ lapses) :
    e.result v op = .error x ↔ e.life.refusal op = some x := by
  constructor
  · intro hresult
    cases hrefusal : e.life.refusal op with
    | none => exact absurd hresult (he.result_ne hv hop hrefusal hx)
    | some y =>
      rw [he.result_of_refusal hv hrefusal] at hresult
      rw [Except.error.inj hresult]
  · exact he.result_of_refusal hv

end Lives

/-! ## Requests

Connections may be opened in another way at every request: opening one succeeds today and fails
tomorrow. -/

/-- A request, and how connections are opened while it is dealt with. -/
structure Request (ω : Type) where
  opener : Action ω Nat
  op : Op

section Requests

variable (v : Vendor ω)

def serve (e : Engine ω) (r : Request ω) : Engine ω := e.after (v.withLogin r.opener) r.op

def serveAll (e : Engine ω) (rs : List (Request ω)) : Engine ω := rs.foldl (serve v) e

/-- What was asked for, and whether it succeeded. -/
def log (e : Engine ω) : List (Request ω) → List (Op × Bool)
  | [] => []
  | r :: rs => (r.op, (e.result (v.withLogin r.opener) r.op).isOk) :: log (e.serve v r) rs

/-- A life as it goes on by a log. -/
def Life.replay (l : Life) (log : List (Op × Bool)) : Life :=
  log.foldl (fun l x => l.follow x.1 x.2) l

variable {v} {e : Engine ω}

theorem Orderly.serve (he : e.Orderly v) (r : Request ω) : (e.serve v r).Orderly v :=
  (orderly_withLogin r.opener).1
    (orderly_reaches ((orderly_withLogin r.opener).2 he) (reaches_after e r.op))

theorem Orderly.serveAll (he : e.Orderly v) (rs : List (Request ω)) : (e.serveAll v rs).Orderly v := by
  induction rs generalizing e with
  | nil => exact he
  | cons r rs ih => exact ih (he.serve r)

/-- **The reference.**  The life of an engine after any requests follows from the requests and from
which of them succeeded. -/
theorem Orderly.life_serveAll (he : e.Orderly v) (rs : List (Request ω)) :
    (e.serveAll v rs).life = e.life.replay (e.log v rs) := by
  induction rs generalizing e with
  | nil => rfl
  | cons r rs ih =>
    have hstep : (e.serve v r).life = e.life.follow r.op (e.result (v.withLogin r.opener) r.op).isOk :=
      ((orderly_withLogin r.opener).2 he).life_after r.op
    show ((e.serve v r).serveAll v rs).life = (e.life.follow _ _).replay _
    rw [ih (he.serve r), hstep]

/-- Requests after which a handle does not hold what it held: giving it back, dropping the handle, or
making another of its name. -/
def Op.releases (name : String) : Op → Bool
  | .done name' | .drop name' | .connection name' => name' = name
  | _ => false

/-- A handle keeps what it holds whatever anybody is asked for, until it is to give it back. -/
theorem Orderly.held?_after (he : e.Orderly v) {name : String} {c : Nat}
    (hc : e.held? (.handle name) = some c) {op : Op} (hop : op.releases name = false) :
    (e.after v op).held? (.handle name) = some c := by
  by_cases hwho : op.who? = some (.handle name)
  · cases op with
    | connect | disconnect | transaction t | pass d => cases hwho
    | connection name' | drop name' | done name' =>
      cases hwho
      simp [Op.releases] at hop
    | begin name' =>
      cases hwho
      have hafter : e.after v (.begin name) = e := congrArg Prod.snd (on_begin_of_held v hc)
      rw [hafter, hc]
    | execute name' sql params => exact ((stays_execute _ v sql params e).held?_eq _).trans hc
    | fetchAll name' sql params => exact ((stays_query _ v sql params none e).held?_eq _).trans hc
    | fetchMany name' sql params limit =>
      exact ((stays_fetchMany _ v sql params limit e).held?_eq _).trans hc
  · exact (he.held?_after_of_ne hwho).trans hc

theorem Orderly.held?_serveAll (he : e.Orderly v) {name : String} {c : Nat}
    (hc : e.held? (.handle name) = some c) {rs : List (Request ω)}
    (hrs : ∀ r ∈ rs, r.op.releases name = false) :
    (e.serveAll v rs).held? (.handle name) = some c := by
  induction rs generalizing e with
  | nil => exact hc
  | cons r rs ih =>
    have hstep : (e.serve v r).held? (.handle name) = some c :=
      ((orderly_withLogin r.opener).2 he).held?_after hc (hrs r (by simp))
    exact ih (he.serve r) hstep fun r' hr' => hrs r' (by simp [hr'])

end Requests

end Engine

end SqlKit
