import SqlKit.Postgres.Vendor
import SqlKit.Proofs.Engine.Working

/-!
# Transactions on PostgreSQL connections

A server knows on which connections a transaction is open.  A handle does not: it guesses from the
first words of the statements that it executes, and from their success.  Here a server that keeps
account of transactions is put under the handle, and the guess is compared with the account.

    a statement's end and what the account then says                   (execute_tracked, fetch_tracked)
    the guess of a handle after a call                                 (call_spec)
    the guess holds until a call slips                                 (standing_of_not_isFlagged)
-/

namespace SqlKit.Postgres

open Lookup

/-! ## The rules of the server -/

/-- How things are with the transaction of a connection. -/
inductive Standing where
  /-- There is none. -/
  | idle
  | running
  /-- It is open, but a statement has failed. -/
  | aborted
deriving DecidableEq, Repr

/-- What a statement that succeeds does to the transaction of its connection. -/
inductive Control where
  /-- Opens one, unless one is open. -/
  | opens
  /-- Ends it. -/
  | ends
  /-- Ends it and opens the next one. -/
  | chains
  /-- Goes back to a savepoint within it. -/
  | resumes
  | keeps
deriving DecidableEq, Repr

/-- What comes of a statement. -/
inductive Verdict where
  /-- It was not sent. -/
  | unsent
  | refused
  /-- The server has closed the connection instead. -/
  | lost
  | accepted
deriving DecidableEq, Repr

/-- How things are after a statement. -/
def Standing.after (t : Standing) (k : Control) : Verdict → Standing
  | .unsent => t
  | .lost => idle
  | .refused => if t = idle then idle else aborted
  | .accepted =>
    match t, k with
    | idle, .opens => running
    | idle, _ => idle
    | _, .ends => idle
    | _, .chains | _, .resumes => running
    | t, .opens | t, .keeps => t

theorem Standing.idle_after_iff (k : Control) (v : Verdict) :
    idle.after k v = idle ↔ ¬(k = .opens ∧ v = .accepted) := by
  cases v <;> cases k <;> simp [after]

/-- What comes of a statement that the server has got. -/
def Reply.verdict (r : Reply) : Verdict :=
  if r.hangsUp then .lost else if r.fault.isSome then .refused else .accepted

/-- A server with an account of the transactions on its connections. -/
structure Tracked (τ : Type) where
  server : τ
  /-- The answer to the statement at hand. -/
  reply : Reply := {}
  standing : Nat → Standing := fun _ => .idle

variable {τ : Type}

/-- Enters what has come of a statement into the account. -/
def Tracked.note (t : Tracked τ) (c : Nat) (k : Control) (v : Verdict) : Tracked τ :=
  { t with standing := put t.standing c ((t.standing c).after k v) }

/-- The server with its account; `reads` says what its statements do. -/
def tracked (reads : String → Control) (s : Server τ Reply Parameter Fault) :
    Server (Tracked τ) Reply Parameter Fault where
  login fields t :=
    let (r, server) := s.login fields t.server
    (r, { t with server })
  answer c sql t :=
    let (reply, server) := s.answer c sql t.server
    (reply, { t with server, reply })
  receive c m t :=
    let t := { t with server := s.receive c m t.server }
    match m with
    | .startup _ => t
    | .prepare sql => t.note c (reads sql) .refused
    | .text sql | .prepared sql _ => t.note c (reads sql) t.reply.verdict

/-- What comes of a statement that is sent as a text or, with parameters, prepared first. -/
def verdict (s : Server τ Reply Parameter Fault) (c : Nat) (sql : String)
    (params : Option (List Value)) (w : Wire τ) : Verdict :=
  if w.isLost c then .unsent else
    let r := (s.answer c sql w.server).1
    match params with
    | none => r.verdict
    | some params =>
      if r.prepareFault.isSome then .refused
      else if r.params.length ≠ params.length then .unsent
      else match encodeAll 0 (r.params.zip params) with
        | .error _ => .unsent
        | .ok _ => r.verdict

/-! ## One statement -/

theorem run_checkOpen (c : Nat) (w : Wire τ) :
    (checkOpen c).run.run w = (if w.isLost c then .error .closed else .ok (), w) := by
  show (if w.isLost c = true then _ else _ : Exchange Fault τ Unit) w = _
  split <;> rfl

/-- An answer is taken without a fault if the server has accepted the statement, and only then. -/
theorem accept_spec (c : Nat) (r : Reply) (w : Wire τ) :
    (((accept c r).run.run w).1.isOk = true ↔ r.verdict = .accepted) ∧
      ((accept c r).run.run w).2.server = w.server := by
  unfold Reply.verdict
  cases hhang : r.hangsUp with
  | true =>
    have h : (accept c r).run.run w = (.error .closed, w.lose c) := by
      simp only [accept, hhang]
      rfl
    simp [h, Except.isOk, Except.toBool, Wire.lose]
  | false =>
    cases hfault : r.fault with
    | some e =>
      have h : (accept c r).run.run w = (.error (.server e), w) := by
        simp only [accept, hhang, hfault]
        rfl
      simp [h, Except.isOk, Except.toBool]
    | none =>
      have h : (accept c r).run.run w = (.ok r, w) := by
        simp only [accept, hhang, hfault]
        rfl
      simp [h, Except.isOk, Except.toBool]

section Statements

variable (reads : String → Control) (s : Server τ Reply Parameter Fault)

/-- The result of a statement tells whether the server has accepted it, and the account has what came
of it. -/
def Settled {ε α : Type} (c : Nat) (k : Control) (v : Verdict) (w : Wire (Tracked τ))
    (x : Except ε α × Wire (Tracked τ)) : Prop :=
  (x.1.isOk = true ↔ v = .accepted) ∧
    x.2.server.standing c = (w.server.standing c).after k v

theorem Settled.map {ε α β : Type} {c : Nat} {k : Control} {v : Verdict} {w w' : Wire (Tracked τ)}
    {x : Exchange ε (Tracked τ) α} (h : Settled c k v w (x.run.run w')) (f : α → β) :
    Settled c k v w ((f <$> x).run.run w') := by
  rw [← bind_pure_comp, Exchange.run_bind]
  cases hx : x.run.run w' with
  | mk r w'' =>
    rw [hx] at h
    cases r <;> exact h

/-- The wire when the server has answered a statement and got a message. -/
def noted (c : Nat) (sql : String) (m : Message Parameter) (w : Wire (Tracked τ)) :
    Wire (Tracked τ) :=
  { w with server :=
      (tracked reads s).receive c m ((tracked reads s).answer c sql w.server).2 }

theorem settled_accept (c : Nat) (sql : String) {m : Message Parameter}
    (hm : m = .text sql ∨ ∃ params, m = .prepared sql params) (w : Wire (Tracked τ)) :
    let r := ((tracked reads s).answer c sql w.server).1
    Settled c (reads sql) r.verdict w ((accept c r).run.run (noted reads s c sql m w)) := by
  intro r
  obtain ⟨hok, hserver⟩ := accept_spec c r (noted reads s c sql m w)
  refine ⟨hok, ?_⟩
  rw [hserver]
  rcases hm with rfl | ⟨params, rfl⟩ <;> exact put_self ..

theorem settled_error {ε α : Type} {c : Nat} {k : Control} {v : Verdict} {w w' : Wire (Tracked τ)}
    (e : ε) (hv : v ≠ .accepted) (h : w'.server.standing c = (w.server.standing c).after k v) :
    Settled c k v w ((.error e, w') : Except ε α × Wire (Tracked τ)) :=
  ⟨by simp [Except.isOk, Except.toBool, hv], h⟩

theorem settled_text (c : Nat) (sql : String) (w : Wire (Tracked τ)) :
    Settled c (reads sql) (verdict (tracked reads s) c sql none w) w
      ((text (tracked reads s) c sql).run.run w) := by
  unfold text verdict
  rw [Exchange.run_bind, run_checkOpen]
  by_cases hlost : w.isLost c = true
  · simp only [if_pos hlost]
    exact settled_error _ (by decide) rfl
  · simp only [if_neg hlost]
    exact (settled_accept reads s c sql (.inl rfl) w).map _

theorem settled_prepared (c : Nat) (sql : String) (params : List Value) (w : Wire (Tracked τ)) :
    Settled c (reads sql) (verdict (tracked reads s) c sql (some params) w) w
      ((prepared (tracked reads s) c sql params).run.run w) := by
  unfold prepared verdict
  rw [Exchange.run_bind, run_checkOpen]
  by_cases hlost : w.isLost c = true
  · simp only [if_pos hlost]
    exact settled_error _ (by decide) rfl
  · simp only [if_neg hlost]
    rw [Exchange.run_bind]
    have hask : ((tracked reads s).ask c sql).run.run w =
      (.ok ((tracked reads s).answer c sql w.server).1,
        { w with server := ((tracked reads s).answer c sql w.server).2 }) := rfl
    rw [hask]
    cases hfault : ((tracked reads s).answer c sql w.server).1.prepareFault with
    | some e =>
      simp only [hfault]
      show Settled c (reads sql) .refused w 
        (.error (Fault.server e), noted reads s c sql (.prepare sql) w)
      exact settled_error _ (by decide) (put_self ..)
    | none =>
      simp only [hfault, Option.isSome_none, Bool.false_eq_true, if_false]
      by_cases hcount : ((tracked reads s).answer c sql w.server).1.params.length ≠ params.length
      · simp only [if_pos hcount]
        exact settled_error _ (by decide) rfl
      · simp only [if_neg hcount]
        cases encodeAll 0 (((tracked reads s).answer c sql w.server).1.params.zip params) with
        | error k => exact settled_error _ Verdict.noConfusion rfl
        | ok bytes => exact settled_accept reads s c sql (.inr ⟨bytes, rfl⟩) w

theorem Settled.act {α : Type} {c : Nat} {k : Control} {v : Verdict} {w : Wire (Tracked τ)}
    {x : Exchange Fault (Tracked τ) α} (h : Settled c k v w (x.run.run w)) :
    Settled c k v w ((act x).on w) := by
  have hact : (Postgres.act x).on w =
      ((x.run.run w).1.mapError Fault.toError, (x.run.run w).2) := rfl
  rw [hact]
  cases hx : x.run.run w with
  | mk r w' =>
    rw [hx] at h
    cases r <;> exact h

/-- How the parameters of a statement to be executed are sent. -/
def sent (params : List Value) : Option (List Value) := if params.isEmpty then none else some params

/-- Executing a statement succeeds if the server accepts it, and only then. -/
theorem execute_tracked (c : Nat) (sql : String) (params : List Value) (w : Wire (Tracked τ)) :
    Settled c (reads sql) (verdict (tracked reads s) c sql (sent params) w) w
      ((execute (tracked reads s) c sql params).on w) := by
  unfold execute sent
  split
  · exact (settled_text reads s c sql w).act
  · exact ((settled_prepared reads s c sql params w).map _).act

/-- A query may fail although the server has accepted it: when its rows cannot be read. -/
theorem fetch_tracked (c : Nat) (sql : String) (params : List Value) (w : Wire (Tracked τ)) :
    ((fetch (tracked reads s) c sql params).on w).2.server.standing c =
      (w.server.standing c).after (reads sql)
        (verdict (tracked reads s) c sql (some params) w) := by
  have h := (settled_prepared reads s c sql params w).act.2
  unfold fetch
  rw [Action.on_bind]
  cases hx : (act (prepared (tracked reads s) c sql params)).on w with
  | mk r w' =>
    rw [hx] at h
    cases r with
    | error e => exact h
    | ok r =>
      show (StateT.run (ExceptT.run (r.rows.mapM fun cells => Action.ofResult (row r.columns cells)))
        w').2.server.standing c = _
      have hrows := Action.on_mapM_ofResult (row r.columns) r.rows w'
      unfold Action.on at hrows
      rw [hrows]
      exact h

end Statements

/-! ## The guess of a handle -/

/-- A call on a handle. -/
inductive Call where
  | execute (sql : String) (params : List Value)
  | fetchAll (sql : String) (params : List Value)

/-- How its parameters are sent. -/
def Call.sent : Call → Option (List Value)
  | execute _ params => Postgres.sent params
  | fetchAll _ params => some params

def Call.sql : Call → String
  | execute sql _ | fetchAll sql _ => sql

section Handles

variable (reads : String → Control) (s : Server τ Reply Parameter Fault)
  (settings : DatabaseSettings) (who : Holder) (c : Nat)

/-- The engine after a call. -/
def Call.on (e : Engine (Wire (Tracked τ))) : Call → Engine (Wire (Tracked τ))
  | execute sql params =>
    (((Engine.session (vendor (tracked reads s) settings) who).execute sql params).on e).2
  | fetchAll sql params =>
    (((Engine.session (vendor (tracked reads s) settings) who).fetchAll sql params).on e).2

/-- What comes of a call for the server. -/
def Call.verdict (call : Call) (e : Engine (Wire (Tracked τ))) : Verdict :=
  Postgres.verdict (tracked reads s) c call.sql call.sent e.world

/-- A call slips from the handle: by its first word a statement executed opens a transaction, but it
fails where one is open; by its first word it ends one, but leaves one open; or a statement whose
first word is not looked at, or does not show it, opens one. -/
def Call.slips (call : Call) (e : Engine (Wire (Tracked τ))) : Bool :=
  let v := call.verdict reads s c e
  let after := (e.world.server.standing c).after (reads call.sql) v
  let unseen : Bool := !e.isFlagged who && reads call.sql = .opens && v = .accepted
  match call with
  | .execute sql _ =>
    match opensTransaction? sql with
    | some true => v ≠ .accepted && after ≠ .idle
    | some false => after ≠ .idle
    | none => unseen
  | .fetchAll _ _ => unseen

/-- The engine after some calls. -/
def runCalls (e : Engine (Wire (Tracked τ))) (calls : List Call) : Engine (Wire (Tracked τ)) :=
  calls.foldl (Call.on reads s settings who) e

/-- None of the calls slips. -/
def Smooth (e : Engine (Wire (Tracked τ))) : List Call → Prop
  | [] => True
  | call :: calls =>
    call.slips reads s who c e = false ∧ Smooth (call.on reads s settings who e) calls

instance decidableSmooth : ∀ (calls : List Call) (e : Engine (Wire (Tracked τ))),
    Decidable (Smooth reads s settings who c e calls)
  | [], _ => .isTrue trivial
  | call :: calls, e =>
    @instDecidableAnd _ _ _ (decidableSmooth calls (call.on reads s settings who e))

/-- Where the handle takes no transaction for open, none is open. -/
def Sees (e : Engine (Wire (Tracked τ))) : Prop :=
  e.isFlagged who = false → e.world.server.standing c = .idle

variable {who c} {e : Engine (Wire (Tracked τ))}

/-- What a call leaves: the connection is still held, the account has what came of the statement, and
the handle has looked at the first word of a statement that was executed. -/
theorem call_spec (call : Call) (hc : e.held? who = some c) :
    let e' := call.on reads s settings who e
    let v := call.verdict reads s c e
    e'.held? who = some c ∧
      e'.world.server.standing c = (e.world.server.standing c).after (reads call.sql) v ∧
      e'.isFlagged who = match call with
        | .execute sql _ => match opensTransaction? sql with
          | some opens => opens && v = .accepted
          | none => e.isFlagged who
        | .fetchAll _ _ => e.isFlagged who := by
  cases call with
  | execute sql params =>
    obtain ⟨hok, hstanding⟩ := execute_tracked reads s c sql params e.world
    refine ⟨?_, ?_, ?_⟩
    · exact ((Engine.stays_execute who _ sql params e).held?_eq who).trans hc
    · have hworld := Engine.world_execute (vendor (tracked reads s) settings) hc sql params
      exact (congrArg (·.server.standing c) hworld).trans hstanding
    · refine (Engine.isFlagged_execute (vendor (tracked reads s) settings) hc sql params).trans ?_
      dsimp only
      cases opensTransaction? sql with
      | none => rfl
      | some opens =>
        exact congrArg (opens && ·) (Bool.eq_iff_iff.2 (hok.trans decide_eq_true_iff.symm))
  | fetchAll sql params =>
    have hstanding := fetch_tracked reads s c sql params e.world
    have hfetch : ((vendor (tracked reads s) settings).fetch c sql params none).on e.world =
        (fetch (tracked reads s) c sql params).on e.world := by
      show ((fetch (tracked reads s) c sql params) >>= pure).on e.world = _
      rw [bind_pure]
    refine ⟨?_, ?_, ?_⟩
    · exact ((Engine.stays_query who _ sql params none e).held?_eq who).trans hc
    · have hworld := Engine.world_query (vendor (tracked reads s) settings) hc sql params none
      rw [hfetch] at hworld
      exact (congrArg (·.server.standing c) hworld).trans hstanding
    · exact Engine.isFlagged_query (vendor (tracked reads s) settings) hc sql params none

/-- After a call that does not slip the handle still sees what is open; after one that slips it does
not. -/
theorem sees_call_iff (call : Call) (hc : e.held? who = some c) (h : Sees who c e) :
    Sees who c (call.on reads s settings who e) ↔ call.slips reads s who c e = false := by
  obtain ⟨-, hstanding, hflag⟩ := call_spec reads s settings call hc
  -- Where the handle does not look at the first word, only an opening may escape it.
  have hunseen : (e.isFlagged who = false →
      (e.world.server.standing c).after (reads call.sql) (call.verdict reads s c e) = .idle) ↔
      (!e.isFlagged who && reads call.sql = .opens && call.verdict reads s c e = .accepted) =
        false := by
    cases hf : e.isFlagged who with
    | true => simp
    | false =>
      rw [h hf, Standing.idle_after_iff]
      simp
  unfold Sees
  rw [hstanding, hflag]
  cases call with
  | fetchAll sql params => exact hunseen
  | execute sql params =>
    unfold Call.slips
    dsimp only
    cases opensTransaction? sql with
    | none => exact hunseen
    | some opens =>
      cases opens with
      | true => simp
      | false => simp

/-- The handle sees what is open after each of its calls, up to any of them, if and only if none of
them slips. -/
theorem sees_iff_smooth (hc : e.held? who = some c) (h : Sees who c e) (calls : List Call) :
    (∀ before, before <+: calls → Sees who c (runCalls reads s settings who e before)) ↔
      Smooth reads s settings who c e calls := by
  induction calls generalizing e with
  | nil =>
    refine ⟨fun _ => trivial, fun _ before hbefore => ?_⟩
    rw [List.prefix_nil.1 hbefore]
    exact h
  | cons call calls ih =>
    have hcall := sees_call_iff reads s settings call hc h
    have hheld := (call_spec reads s settings call hc).1
    constructor
    · intro hall
      have hnext : Sees who c (call.on reads s settings who e) :=
        hall [call] ⟨calls, rfl⟩
      refine ⟨hcall.1 hnext, (ih hheld hnext).1 fun before hbefore => ?_⟩
      exact hall (call :: before) ((List.prefix_cons_inj call).2 hbefore)
    · intro hsmooth before hbefore
      have hnext := hcall.2 hsmooth.1
      cases before with
      | nil => exact h
      | cons call' before =>
        obtain ⟨rfl, hrest⟩ := List.cons_prefix_cons.1 hbefore
        exact (ih hheld hnext).2 hsmooth.2 before hrest

theorem held?_runCalls (hc : e.held? who = some c) (calls : List Call) :
    (runCalls reads s settings who e calls).held? who = some c := by
  induction calls generalizing e with
  | nil => exact hc
  | cons call calls ih => exact ih (call_spec reads s settings call hc).1

/-! ## Giving back -/

/-- A handle that sees what is open gives its connection back outside of a transaction. -/
theorem idle_of_done (hrollback : reads "ROLLBACK" = .ends) (hc : e.held? who = some c)
    (h : Sees who c e) :
    let e' := ((Engine.done (vendor (tracked reads s) settings) who).on e).2
    Engine.Lends c e e' → e'.world.server.standing c = .idle := by
  intro e' hlends
  have he' : e' = e.letGo (giveBack (tracked reads s)) who := Engine.done_snd ..
  rw [he'] at hlends ⊢
  have hreusable := Engine.reusable_of_lends hc _ hlends
  rw [Engine.world_letGo hc]
  cases hf : e.isFlagged who with
  | false => exact h hf
  | true =>
    rw [hf] at hreusable
    obtain ⟨hok, hstanding⟩ := (settled_text reads s c "ROLLBACK" e.world).act
    unfold giveBack at hreusable ⊢
    simp only [if_true, Bool.and_eq_true] at hreusable ⊢
    rw [hstanding, hok.1 hreusable.1, hrollback]
    cases e.world.server.standing c <;> rfl

/-- So does one that is dropped, if its connection is lent again at all. -/
theorem idle_of_drop (hc : e.held? who = some c) (h : Sees who c e) :
    let e' := e.drop (vendor (tracked reads s) settings) who
    Engine.Lends c e e' → e'.world.server.standing c = .idle := by
  intro e' hlends
  have hreusable := Engine.reusable_of_lends hc abandon hlends
  have hworld : e'.world = _ := Engine.world_letGo hc abandon
  rw [hworld]
  cases hf : e.isFlagged who with
  | false => exact h hf
  | true =>
    rw [hf] at hreusable
    simp [abandon] at hreusable

/-- On a connection that is outside of a transaction at first: a handle knows after each of its calls
whether a transaction may be open if and only if none of the calls slips; and as long as none does, it
gives the connection back, or leaves it to be lent again, outside of a transaction only. -/
theorem standing_of_not_isFlagged (hrollback : reads "ROLLBACK" = .ends)
    (hc : e.held? who = some c) (hidle : e.world.server.standing c = .idle) (calls : List Call) :
    ((∀ before, before <+: calls → Sees who c (runCalls reads s settings who e before)) ↔
        Smooth reads s settings who c e calls) ∧
      (Smooth reads s settings who c e calls → ∀ before, before <+: calls →
        let e' := runCalls reads s settings who e before
        let given := ((Engine.done (vendor (tracked reads s) settings) who).on e').2
        let dropped := e'.drop (vendor (tracked reads s) settings) who
        (Engine.Lends c e' given → given.world.server.standing c = .idle) ∧
          (Engine.Lends c e' dropped → dropped.world.server.standing c = .idle)) := by
  have hstart : Sees who c e := fun _ => hidle
  refine ⟨sees_iff_smooth reads s settings hc hstart calls, fun hsmooth before hbefore => ?_⟩
  have hsees := (sees_iff_smooth reads s settings hc hstart calls).2 hsmooth before hbefore
  have hheld := held?_runCalls reads s settings hc before
  exact ⟨idle_of_done reads s settings hrollback hheld hsees, idle_of_drop reads s settings hheld hsees⟩

end Handles

/-! ## A server that accepts everything -/

/-- The words of a text in upper case, without the semicolon at its end. -/
def upperWords (sql : String) : List String :=
  let text := (Text.trimStart sql.toList.reverse).dropWhile (· = ';')
  let words := Text.splitAll ' ' (Text.upperAscii text.reverse)
  (words.filter (· ≠ [])).map String.ofList

/-- What statements do to a transaction, as far as their words are separated by spaces. -/
def Control.ofText (sql : String) : Control :=
  match upperWords sql with
  | "BEGIN" :: _ | "START" :: "TRANSACTION" :: _ => opens
  | "PREPARE" :: "TRANSACTION" :: _ => ends
  | word :: rest =>
    if word ∈ ["COMMIT", "END", "ROLLBACK", "ABORT"] then
      match rest.filter (· ∉ ["WORK", "TRANSACTION"]) with
      | "TO" :: _ => resumes
      | "PREPARED" :: _ => keeps
      | ["AND", "CHAIN"] => chains
      | _ => ends
    else keeps
  | [] => keeps

namespace Obliging

abbrev server : Server (Tracked (Playbook Reply Parameter Fault)) Reply Parameter Fault :=
  tracked Control.ofText (Playbook.server Reply Parameter Fault)

abbrev settings : DatabaseSettings := .postgres "localhost" 5432 "db" "" ""

abbrev Served : Type := Engine (Wire (Tracked (Playbook Reply Parameter Fault)))

/-- The engine when a handle has taken a connection. -/
def begun : Served :=
  let v := vendor server settings
  let start := Engine.new v { server := { server := { otherwise := {} } } }
  ((do
    Engine.connect v
    Engine.connection v (.handle "a")
    Engine.begin v (.handle "a")).on start).2

/-- The engine after texts that the handle has executed. -/
def executed (texts : List String) : Served :=
  runCalls Control.ofText (Playbook.server Reply Parameter Fault) settings (.handle "a") begun
    (texts.map fun sql => .execute sql [])

/-- The engine when the handle has given its connection back. -/
def given (e : Served) : Served := ((Engine.done (vendor server settings) (.handle "a")).on e).2

/-- The engine when the handle has been dropped. -/
def dropped (e : Served) : Served := e.drop (vendor server settings) (.handle "a")

end Obliging

open Obliging

/-- A transaction that is committed: the connection is lent again outside of it. -/
theorem standing_of_not_isFlagged_commit :
    Control.ofText "ROLLBACK" = .ends ∧ begun.held? (.handle "a") = some 0 ∧
      begun.world.server.standing 0 = .idle ∧
      (let e := executed ["BEGIN", "SAVEPOINT s", "RELEASE s", "COMMIT"]
       Engine.Lends 0 e (given e) ∧ (given e).world.server.standing 0 = .idle) := by
  have hrollback : Control.ofText "ROLLBACK" = .ends := by decide +kernel
  have hheld : begun.held? (.handle "a") = some 0 := by decide +kernel
  have hidle : begun.world.server.standing 0 = .idle := by decide +kernel
  have hsmooth : Smooth Control.ofText (Playbook.server Reply Parameter Fault) settings
      (.handle "a") 0 begun
      (["BEGIN", "SAVEPOINT s", "RELEASE s", "COMMIT"].map fun sql => .execute sql []) := by
    decide +kernel
  have hlends : let e := executed ["BEGIN", "SAVEPOINT s", "RELEASE s", "COMMIT"]
      Engine.Lends 0 e (given e) := ⟨0, by decide +kernel, by decide +kernel⟩
  have h := (standing_of_not_isFlagged _ _ _ hrollback hheld hidle _).2 hsmooth _ (List.prefix_refl _)
  exact ⟨hrollback, hheld, hidle, hlends, h.1 hlends⟩

/-- Going back to a savepoint slips: the handle takes the transaction for ended, and given back or
dropped it leaves the connection to be lent again inside of it. -/
theorem running_of_rollback_to :
    let e := executed ["BEGIN", "SAVEPOINT s", "ROLLBACK TO SAVEPOINT s"]
    e.isFlagged (.handle "a") = false ∧ e.world.server.standing 0 = .running ∧
      (Engine.Lends 0 e (given e) ∧ (given e).world.server.standing 0 = .running) ∧
      Engine.Lends 0 e (dropped e) ∧ (dropped e).world.server.standing 0 = .running := by
  refine ⟨?_, ?_, ⟨⟨0, ?_, ?_⟩, ?_⟩, ⟨0, ?_, ?_⟩, ?_⟩ <;> decide +kernel

end SqlKit.Postgres
