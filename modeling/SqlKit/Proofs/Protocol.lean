import SqlKit.Proofs.Engine.Working
import SqlKit.Proofs.Leading
import SqlKit.Session.Scripted

/-!
# The protocol of transactions

What a transaction sends over a connection, and how what it comes to depends on the answers.  The
connection may be any: it is watched by one that does the same and keeps a record of all statements
with their answers.

    watching changes nothing                                           (watched_records)
    statements are sent one after another, up to the first that fails  (performAll_answered)
    a transaction keeps to the protocol, whatever is answered          (transact_conducted)
-/

namespace SqlKit

/-! ## Records of statements -/

/-- What is asked of a connection: to run a statement for its count or for its rows. -/
inductive Request where
  | execute (statement : Compiled)
  | fetch (statement : Compiled)

namespace Request

def statement : Request → Compiled
  | execute q | fetch q => q

/-- What a statement of a transaction asks for. -/
def ofScript (s : Script) (q : Compiled) : Request :=
  if s.last.returnsRows then fetch q else execute q

theorem statement_ofScript (s : Script) (q : Compiled) : (ofScript s q).statement = q := by
  unfold ofScript
  split <;> rfl

end Request

/-- The error of a result. -/
def Result.fault? {α : Type} : Result α → Option Error
  | .ok _ => none
  | .error e => some e

/-- The requests of a transaction, whose statements are compiled. -/
def Transaction.requests (t : Transaction) (compiled : List Compiled) : List Request :=
  List.zipWith Request.ofScript t.body compiled

/-- A statement that was sent, with its answer. -/
inductive Sent where
  | executed (statement : Compiled) (answer : Result Nat)
  | fetched (statement : Compiled) (answer : Result (List Row))

namespace Sent

/-- A statement without parameters that was executed. -/
def plain (sql : String) (answer : Result Nat) : Sent := executed ⟨sql, []⟩ answer

def request : Sent → Request
  | executed q _ => .execute q
  | fetched q _ => .fetch q

def answer : Sent → Result Outcome
  | executed _ r => r.map .affected
  | fetched _ r => r.map .rows

/-- The error of a statement that failed. -/
def fault? (x : Sent) : Option Error := Result.fault? x.answer

end Sent

variable {σ : Type}

/-- A step that is put on record. -/
def Action.watched {α : Type} (entry : Result α → Sent) (a : Action σ α) :
    Action (σ × List Sent) α :=
  .of fun s => ((a.on s.1).1, (a.on s.1).2, s.2 ++ [entry (a.on s.1).1])

/-- A step that is no statement. -/
def Action.unwatched {α : Type} (a : Action σ α) : Action (σ × List Sent) α :=
  .of fun s => ((a.on s.1).1, (a.on s.1).2, s.2)

/-- The connection under watch. -/
def Connection.watched (c : Connection σ) : Connection (σ × List Sent) where
  isActive s := c.isActive s.1
  rowCount s := c.rowCount s.1
  begin := c.begin.unwatched
  done := c.done.unwatched
  execute sql params := (c.execute sql params).watched (.executed ⟨sql, params⟩)
  fetchAll sql params := (c.fetchAll sql params).watched (.fetched ⟨sql, params⟩)
  fetchMany sql params limit := (c.fetchMany sql params limit).watched (.fetched ⟨sql, params⟩)

/-! ## Rules -/

/-- Requests are sent in their order, each once, up to the first that fails. -/
inductive Answered : List Request → List Sent → Result (List Outcome) → Prop where
  | nil : Answered [] [] (.ok [])
  | failed {x : Sent} {e : Error} (h : x.answer = .error e) (rest : List Request) :
      Answered (x.request :: rest) [x] (.error e)
  | cons {x : Sent} {o : Outcome} {rest : List Request} {sent : List Sent}
      {r : Result (List Outcome)} (h : x.answer = .ok o) (hrest : Answered rest sent r) :
      Answered (x.request :: rest) (x :: sent) (r.map (o :: ·))

/-- What is sent to end a transaction, and what comes of it. -/
inductive Concluded : Ending → List Sent → Result Unit → Prop where
  | committed (n : Nat) : Concluded .commit [.plain "COMMIT" (.ok n)] (.ok ())
  /-- A commit that fails is rolled back, and its error stays whatever comes of the rollback. -/
  | uncommitted (e : Error) (back : Result Nat) :
      Concluded .commit [.plain "COMMIT" (.error e), .plain "ROLLBACK" back] (.error e)
  /-- A rollback that was asked for is not repeated. -/
  | rolledBack (back : Result Nat) :
      Concluded .rollback [.plain "ROLLBACK" back] (back.map fun _ => ())

/-- What is sent for a transaction with these requests and this ending, and what comes of it. -/
inductive Protocol (ending : Ending) (requests : List Request) :
    List Sent → Result (List Outcome) → Prop where
  /-- Without a beginning there is nothing more. -/
  | unopened (e : Error) : Protocol ending requests [.plain "BEGIN" (.error e)] (.error e)
  /-- A statement that fails is rolled back likewise. -/
  | failed {sent : List Sent} {e : Error} (n : Nat) (h : Answered requests sent (.error e))
      (back : Result Nat) :
      Protocol ending requests
        (.plain "BEGIN" (.ok n) :: (sent ++ [.plain "ROLLBACK" back])) (.error e)
  | concluded {sent last : List Sent} {os : List Outcome} {r : Result Unit} (n : Nat)
      (h : Answered requests sent (.ok os)) (hlast : Concluded ending last r) :
      Protocol ending requests
        (.plain "BEGIN" (.ok n) :: (sent ++ last)) (r.map fun _ => os)

/-- How a transaction has gone whose session is held and whose statements compile. -/
structure Conducted (t : Transaction) (compiled : List Compiled) (sent : List Sent)
    (r : Result (List Outcome)) : Prop where
  protocol : Protocol t.ending (t.requests compiled) sent r
  /-- There is a request for each statement. -/
  statements : (t.requests compiled).map Request.statement = compiled
  /-- It succeeds exactly if every call has succeeded. -/
  isOk_iff : r.isOk = true ↔ ∀ x ∈ sent, x.answer.isOk = true
  /-- It fails exactly with the error of the first call that failed. -/
  error_iff : ∀ e, r = .error e ↔ sent.findSome? Sent.fault? = some e
  /-- If it succeeds, it gives one outcome for each statement. -/
  outcomes : ∀ os, r = .ok os → os.length = t.body.length

/-- No statement lets go of the session. -/
structure Connection.KeepsSession (c : Connection σ) : Prop where
  execute : ∀ sql params s, c.isActive ((c.execute sql params).on s).2 = c.isActive s
  fetchAll : ∀ sql params s, c.isActive ((c.fetchAll sql params).on s).2 = c.isActive s

/-! ## Watching -/

/-- The two give the same result and leave the same state, whatever the record. -/
def Records (α : Type) (a : Action σ α) (b : Action (σ × List Sent) α) : Prop :=
  ∀ s sent, (b.on (s, sent)).1 = (a.on s).1 ∧ (b.on (s, sent)).2.1 = (a.on s).2

theorem Records.bind {α β : Type} {a : Action σ α} {b : Action (σ × List Sent) α}
    {f : α → Action σ β} {g : α → Action (σ × List Sent) β} (h : Records α a b)
    (hfg : ∀ x, Records β (f x) (g x)) : Records β (a >>= f) (b >>= g) := by
  intro s sent
  obtain ⟨hresult, hstate⟩ := h s sent
  rw [Action.on_bind, Action.on_bind]
  cases ha : a.on s with
  | mk r s' =>
    cases hb : b.on (s, sent) with
    | mk r' y =>
      obtain ⟨s'', sent'⟩ := y
      rw [ha, hb] at hresult hstate
      obtain rfl : r' = r := hresult
      obtain rfl : s'' = s' := hstate
      cases r' with
      | error e => exact ⟨rfl, rfl⟩
      | ok x => exact hfg x s'' sent'

theorem congruent_records : Congruent (Records (σ := σ)) where
  ofResult _ _ _ := ⟨rfl, rfl⟩
  bind := Records.bind
  attempt h s sent := ⟨congrArg Except.ok (h s sent).1, (h s sent).2⟩

theorem related_watched (c : Connection σ) : Connection.Related Records c c.watched :=
  ⟨fun _ _ => ⟨rfl, rfl⟩, fun _ _ _ _ => ⟨rfl, rfl⟩, fun _ _ _ _ => ⟨rfl, rfl⟩⟩

/-- A transaction under watch is the transaction. -/
theorem watched_records (c : Connection σ) (t : Transaction) :
    Records _ (c.transact t) (c.watched.transact t) :=
  Connection.related_transact congruent_records (related_watched c) t

/-! ## What the rules entail -/

theorem Result.fault?_map {α β : Type} (f : α → β) (r : Result α) :
    fault? (r.map f) = fault? r := by
  cases r <;> rfl

/-- The first fault among the answers is that of the whole. -/
theorem Answered.fault?_eq {requests : List Request} {sent : List Sent} {r : Result (List Outcome)}
    (h : Answered requests sent r) : sent.findSome? Sent.fault? = Result.fault? r := by
  induction h with
  | nil => rfl
  | failed h rest => simp [Sent.fault?, h, Result.fault?]
  | cons h hrest ih =>
    rw [List.findSome?_cons, ih, Result.fault?_map]
    simp [Sent.fault?, h, Result.fault?]

theorem Answered.length_eq {requests : List Request} {sent : List Sent} {r : Result (List Outcome)}
    (h : Answered requests sent r) : ∀ os, r = .ok os → os.length = requests.length := by
  induction h with
  | nil =>
    rintro os ⟨⟩
    rfl
  | failed h rest => rintro os ⟨⟩
  | @cons x o rest sent r h hrest ih =>
    intro os hos
    cases r with
    | error e => cases hos
    | ok os' =>
      obtain rfl : o :: os' = os := Except.ok.inj hos
      rw [List.length_cons, List.length_cons, ih os' rfl]

theorem Concluded.fault?_eq {ending : Ending} {last : List Sent} {r : Result Unit}
    (h : Concluded ending last r) : last.findSome? Sent.fault? = Result.fault? r := by
  cases h with
  | committed n => rfl
  | uncommitted e back => rfl
  | rolledBack back => cases back <;> rfl

theorem Protocol.fault?_eq {ending : Ending} {requests : List Request} {sent : List Sent}
    {r : Result (List Outcome)} (h : Protocol ending requests sent r) :
    sent.findSome? Sent.fault? = Result.fault? r := by
  have hbegin : ∀ n, (Sent.plain "BEGIN" (.ok n)).fault? = none := fun _ => rfl
  cases h with
  | unopened e => rfl
  | failed n h back =>
    rw [List.findSome?_cons, hbegin, List.findSome?_append, h.fault?_eq]
    rfl
  | concluded n h hlast =>
    rw [List.findSome?_cons, hbegin, List.findSome?_append, h.fault?_eq, hlast.fault?_eq,
      Result.fault?_map]
    rfl

theorem Protocol.length_eq {ending : Ending} {requests : List Request} {sent : List Sent}
    {r : Result (List Outcome)} (h : Protocol ending requests sent r) :
    ∀ os, r = .ok os → os.length = requests.length := by
  cases h with
  | unopened e => rintro os ⟨⟩
  | failed n h back => rintro os ⟨⟩
  | @concluded _ _ os' r n h hlast =>
    intro os hos
    cases r with
    | error e => cases hos
    | ok u =>
      obtain rfl : os' = os := Except.ok.inj hos
      exact h.length_eq os' rfl

/-! ## What a transaction sends -/

section Sending

variable (c : Connection σ) (s : σ) (sent : List Sent)

theorem execute_watched (sql : String) :
    (c.watched.execute sql []).on (s, sent) = (((c.execute sql []).on s).1,
      ((c.execute sql []).on s).2, sent ++ [.plain sql ((c.execute sql []).on s).1]) := rfl

theorem perform_watched (script : Script) (q : Compiled) :
    ∃ x s', x.request = Request.ofScript script q ∧
      (c.watched.perform script q).on (s, sent) = (x.answer, s', sent ++ [x]) := by
  unfold Connection.perform Request.ofScript
  split
  · refine ⟨.fetched q ((c.fetch q).on s).1, ((c.fetch q).on s).2, rfl, ?_⟩
    have hfetch : (c.watched.fetch q).on (s, sent) = (((c.fetch q).on s).1, ((c.fetch q).on s).2,
      sent ++ [.fetched q ((c.fetch q).on s).1]) := rfl
    rw [← bind_pure_comp, Action.on_bind, hfetch]
    cases ((c.fetch q).on s).1 <;> rfl
  · refine ⟨.executed q ((c.run q).on s).1, ((c.run q).on s).2, rfl, ?_⟩
    have hrun : (c.watched.run q).on (s, sent) = (((c.run q).on s).1, ((c.run q).on s).2,
      sent ++ [.executed q ((c.run q).on s).1]) := rfl
    rw [← bind_pure_comp, Action.on_bind, hrun]
    cases ((c.run q).on s).1 <;> rfl

/-- By induction on the statements: after each that succeeds the rest goes on behind it. -/
theorem performAll_answered (l : List (Script × Compiled)) :
    ∃ s' more r, (c.watched.performAll l).on (s, sent) = (r, s', sent ++ more) ∧
      Answered (l.map fun p => Request.ofScript p.1 p.2) more r := by
  induction l generalizing s sent with
  | nil => exact ⟨s, [], .ok [], by rw [List.append_nil]; rfl, .nil⟩
  | cons p l ih =>
    obtain ⟨script, q⟩ := p
    obtain ⟨x, s', hrequest, hx⟩ := perform_watched c s sent script q
    rw [Connection.performAll, Action.on_bind, hx, List.map_cons, ← hrequest]
    cases ha : x.answer with
    | error e => exact ⟨s', [x], .error e, rfl, .failed ha _⟩
    | ok o =>
      obtain ⟨s'', more, r, hrest, hanswered⟩ := ih s' (sent ++ [x])
      refine ⟨s'', x :: more, r.map (o :: ·), ?_, .cons ha hanswered⟩
      dsimp only
      rw [Action.on_bind, hrest, List.append_assoc, List.singleton_append]
      cases r <;> rfl

theorem rollBack_watched :
    ∃ s' back, c.watched.rollBack.on (s, sent) = (.ok (), s', sent ++ [.plain "ROLLBACK" back]) :=
  ⟨_, _, rfl⟩

theorem finish_concluded (ending : Ending) :
    ∃ s' last r, (c.watched.finish ending).on (s, sent) = (r, s', sent ++ last) ∧
      Concluded ending last r := by
  cases ending with
  | rollback =>
    refine ⟨((c.execute "ROLLBACK" []).on s).2, _, _, ?_,
      .rolledBack ((c.execute "ROLLBACK" []).on s).1⟩
    rw [Connection.finish, Action.on_bind, execute_watched]
    cases ((c.execute "ROLLBACK" []).on s).1 <;> rfl
  | commit =>
    have hcommit := execute_watched c s sent "COMMIT"
    rw [Connection.finish, Action.on_bind]
    cases hr : ((c.execute "COMMIT" []).on s).1 with
    | ok n =>
      rw [hr] at hcommit
      rw [Connection.orRollback_of_ok _ hcommit]
      exact ⟨_, _, _, rfl, .committed n⟩
    | error e =>
      rw [hr] at hcommit
      obtain ⟨s', back, hback⟩ := rollBack_watched c ((c.execute "COMMIT" []).on s).2
        (sent ++ [.plain "COMMIT" (.error e)])
      rw [Connection.orRollback_of_error _ hcommit hback, List.append_assoc]
      exact ⟨_, _, _, rfl, .uncommitted e back⟩

/-- A transaction on a session that is held goes by the rules. -/
theorem transactHeld_protocol (t : Transaction) {compiled : List Compiled}
    (h : t.statements = .ok compiled) :
    ∃ s' more r, (c.watched.transactHeld t).on (s, sent) = (r, s', sent ++ more) ∧
      Protocol t.ending (t.requests compiled) more r := by
  rw [Connection.transactHeld, h, Action.on_bind, Action.on_ofResult]
  dsimp only
  rw [Action.on_bind, execute_watched]
  generalize ((c.execute "BEGIN" []).on s).2 = s₁
  cases ((c.execute "BEGIN" []).on s).1 with
  | error e => exact ⟨_, _, _, rfl, .unopened e⟩
  | ok n =>
    obtain ⟨s₂, body, r, hbody, hanswered⟩ := performAll_answered c s₁
      (sent ++ [.plain "BEGIN" (.ok n)]) (t.body.zip compiled)
    rw [List.map_zip_eq_zipWith] at hanswered
    dsimp only
    rw [Action.on_bind]
    cases r with
    | error e =>
      obtain ⟨s₃, back, hback⟩ := rollBack_watched c s₂ (sent ++ [.plain "BEGIN" (.ok n)] ++ body)
      rw [Connection.orRollback_of_error _ hbody hback]
      refine ⟨s₃, .plain "BEGIN" (.ok n) :: (body ++ [.plain "ROLLBACK" back]), .error e, ?_,
        .failed n hanswered back⟩
      simp
    | ok os =>
      obtain ⟨s₃, last, r, hlast, hconcluded⟩ := finish_concluded c s₂
        (sent ++ [.plain "BEGIN" (.ok n)] ++ body) t.ending
      rw [Connection.orRollback_of_ok _ hbody]
      dsimp only
      rw [Action.on_bind, hlast]
      refine ⟨s₃, .plain "BEGIN" (.ok n) :: (body ++ last), r.map fun _ => os, ?_,
        .concluded n hanswered hconcluded⟩
      cases r with
      | error e => simp [Except.map]
      | ok u => simp [Except.map]; rfl

end Sending

/-! ## Whole transactions -/

/-- Of statements that compile there is one request for each. -/
theorem Transaction.statement_requests {t : Transaction} {compiled : List Compiled}
    (h : t.statements = .ok compiled) :
    (t.requests compiled).map Request.statement = compiled := by
  have hcompiled := Transaction.forall₂_statements h
  unfold requests
  clear h
  generalize t.body = body at hcompiled ⊢
  induction hcompiled with
  | nil => rfl
  | @cons s q body compiled hs hrest ih =>
    rw [List.zipWith_cons_cons, List.map_cons, Request.statement_ofScript, ih]

theorem Protocol.conducted {t : Transaction} {compiled : List Compiled} {sent : List Sent}
    {r : Result (List Outcome)} (h : t.statements = .ok compiled)
    (hp : Protocol t.ending (t.requests compiled) sent r) : Conducted t compiled sent r := by
  refine ⟨hp, Transaction.statement_requests h, ?_, fun e => ?_, fun os hos => ?_⟩
  · have hnone : r.isOk = true ↔ Result.fault? r = none := by
      cases r <;> simp [Result.fault?, Except.isOk, Except.toBool]
    have hfault : ∀ x : Sent, x.fault? = none ↔ x.answer.isOk = true := fun x => by
      unfold Sent.fault?
      cases x.answer <;> simp [Result.fault?, Except.isOk, Except.toBool]
    rw [hnone, ← hp.fault?_eq, List.findSome?_eq_none_iff]
    simp only [hfault]
  · rw [hp.fault?_eq]
    cases r <;> simp [Result.fault?]
  · rw [hp.length_eq os hos, Transaction.requests, List.length_zipWith,
      (Transaction.forall₂_statements h).length_eq, Nat.min_self]

/-- What no statement lets go of, no transaction lets go of. -/
theorem Connection.KeepsSession.within_transact {c : Connection σ} (h : c.KeepsSession)
    (t : Transaction) :
    Action.Within (fun s s' => c.isActive s' = c.isActive s) (c.transact t) := by
  have horder : IsPreorder σ fun s s' => c.isActive s' = c.isActive s :=
    { refl := fun _ => rfl, trans := fun _ _ _ h h' => h'.trans h }
  have hrelated := related_within (P := fun s s' => c.isActive s' = c.isActive s)
    h.execute h.fetchAll
  exact related_transact (Action.congruent_within _) hrelated t

/-- So it is with the session of a handle, whatever the engine. -/
theorem Engine.keepsSession {ω : Type} (v : Vendor ω) (who : Holder) :
    (Engine.session v who).KeepsSession where
  execute sql params e :=
    congrArg Option.isSome ((Engine.stays_execute who v sql params e).held?_eq who)
  fetchAll sql params e :=
    congrArg Option.isSome ((Engine.stays_query who v sql params none e).held?_eq who)

/-- So it is with a scripted connection. -/
theorem Scripted.keepsSession : Scripted.connection.KeepsSession := by
  have hcall : ∀ record sql count (s : Scripted.State),
      ((Scripted.call record sql count).on s).2.active = s.active := by
    intro record sql count s
    have hget : (get : Action Scripted.State Scripted.State).on s = (.ok s, s) := rfl
    rw [Scripted.call, Action.on_bind, hget]
    dsimp only
    cases Rule.answer? sql s.rules with
    | mk e rules => cases e <;> rfl
  constructor
  · intro sql params s
    exact hcall ..
  · intro sql params s
    have h := hcall (.fetch sql params) sql s.rows s
    show ((Scripted.call (.fetch sql params) sql s.rows >>= fun n =>
      pure (Scripted.answer n)).on s).2.active = s.active
    rw [Action.on_bind]
    cases hr : (Scripted.call (.fetch sql params) sql s.rows).on s with
    | mk r s' =>
      rw [hr] at h
      cases r <;> exact h

/-- **Transactions keep to the protocol.**  Over any connection, watched or not, a transaction sends
nothing without a session or when a statement does not compile; else it goes by the rules, whatever
the answers.  It does not let go of the session. -/
theorem transact_conducted (c : Connection σ) (t : Transaction) (s : σ) :
    let x := (c.watched.transact t).on (s, [])
    (c.transact t).on s = (x.1, x.2.1) ∧
      (match c.isActive s, t.statements with
        | false, _ => x = (.error .notConnected, s, [])
        | true, .error e => x = (.error e, s, [])
        | true, .ok compiled => Conducted t compiled x.2.2 x.1) ∧
      (c.KeepsSession → c.isActive x.2.1 = c.isActive s) := by
  intro x
  obtain ⟨hresult, hstate⟩ := watched_records c t s []
  have hx : (c.transact t).on s = (x.1, x.2.1) := Prod.ext hresult.symm hstate.symm
  refine ⟨hx, ?_, fun hkeeps => ?_⟩
  · cases hactive : c.isActive s with
    | false =>
      have hnone : x = (.error .notConnected, s, []) :=
        c.watched.transact_of_inactive t hactive
      exact hnone
    | true =>
      have hheld : x = (c.watched.transactHeld t).on (s, []) := by
        show (c.watched.transact t).on (s, []) = _
        rw [Connection.transact_eq, Action.on_bind]
        show ((if c.isActive s = true then _ else _ : Action _ _).on (s, [])) = _
        rw [if_pos hactive]
      cases hstatements : t.statements with
      | error e =>
        show x = (.error e, s, [])
        rw [hheld, Connection.transactHeld, hstatements, Action.on_bind, Action.on_ofResult]
      | ok compiled =>
        obtain ⟨s', sent, r, hon, hp⟩ := transactHeld_protocol c s [] t hstatements
        show Conducted t compiled x.2.2 x.1
        rw [hheld, hon]
        exact hp.conducted hstatements
  · have hstays := hkeeps.within_transact t s
    rw [hx] at hstays
    exact hstays

/-- A scripted session is held after an empty transaction. -/
theorem transact_conducted_empty :
    Scripted.connection.KeepsSession ∧
      ((Scripted.connection.watched.transact ⟨.sqlite, [], .commit⟩).on
        ({ active := true }, [])).2.1.active = true :=
  ⟨Scripted.keepsSession, (transact_conducted Scripted.connection ⟨.sqlite, [], .commit⟩
    { active := true }).2.2 Scripted.keepsSession⟩

/-- The second statement is refused. -/
example :
    let delete (table : String) : Script :=
      .ofStatement { kind := .delete, sources := [.table (.named table)] }
    let t : Transaction := ⟨.sqlite, [delete "a", delete "b", delete "c"], .commit⟩
    let s : Scripted.State :=
      { active := true, rules := [⟨.containing "b", none, .database "refused"⟩] }
    let x := (Scripted.connection.watched.transact t).on (s, [])
    x.1.isOk = false ∧ x.2.2.map (·.request.statement.sql) =
      ["BEGIN", "DELETE FROM \"a\"", "DELETE FROM \"b\"", "ROLLBACK"] := by
  decide +kernel

end SqlKit
