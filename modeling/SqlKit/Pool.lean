import SqlKit.Error
import SqlKit.Pool.Config

/-!
# Connection pools

A pool opens at most so many connections and lends them out.  A party that wants one first asks for a
permit, of which there are as many as connections allowed, and waits for it in the order of arrival.
With a permit it looks for an idle connection that is not too old, or else opens one.  A connection
that is given back becomes idle again, unless it must not be used any more.

The parties' steps are events, small enough that events of different parties may alternate in any
order.

    (p.run es).config = p.config                                       (config_run)
    p.step .close is closed and has no idle connection                 (isClosed_close, idle_close)
    p.run (es ++ fs) = (p.run es).run fs                               (run_append)
-/

namespace SqlKit

namespace Pool

/-- An open connection and the time it was opened at. -/
structure Opened (κ : Type) where
  conn : κ
  since : Duration
deriving DecidableEq, Repr

/-- What a party wants. -/
inductive Purpose where
  /-- A connection to use. -/
  | take
  /-- One more idle connection. -/
  | stock
deriving DecidableEq, Repr

/-- How far a party has come. -/
inductive Phase (κ : Type) where
  /-- Has not asked for a permit yet. -/
  | arriving
  /-- Without a permit, since the given time. -/
  | waiting (since : Duration)
  | admitted
  /-- Has taken out a connection that is too old and still counts. -/
  | retiring
  /-- Has found nothing idle. -/
  | unserved
  /-- Opens a connection, which counts already. -/
  | opening
  /-- Has opened a connection for the others. -/
  | stocking (o : Opened κ)
  | holding (o : Opened κ)
  | failed (e : Error)

def Phase.isWaiting {κ : Type} : Phase κ → Bool
  | waiting _ => true
  | _ => false

/-- Someone who deals with the pool. -/
structure Party (ι κ : Type) where
  name : ι
  purpose : Purpose
  phase : Phase κ

/-- A step of one party. -/
inductive Event (ι κ : Type) where
  /-- Turns up.  One that wants to stock stays only where connections are missing. -/
  | arrive (who : ι) (purpose : Purpose)
  /-- Asks for a permit. -/
  | ask (who : ι) (now : Duration)
  /-- Gets a permit after waiting. -/
  | permit (who : ι)
  /-- Has waited too long. -/
  | expire (who : ι)
  /-- Looks for an idle connection. -/
  | look (who : ι) (now : Duration)
  /-- Stops counting the connection that was too old. -/
  | uncount (who : ι)
  /-- Counts the connection that is to be opened. -/
  | reserve (who : ι)
  /-- Has opened a connection or failed to. -/
  | opened (who : ι) (now : Duration) (r : Result κ)
  /-- Puts the connection it has opened with the idle ones and leaves. -/
  | shelve (who : ι)
  /-- Gives its connection back; `reusable` says whether it may be lent again. -/
  | release (who : ι) (reusable : Bool) (now : Duration)
  /-- Closes its connection. -/
  | discard (who : ι)
  /-- Gives up before it has a connection. -/
  | cancel (who : ι)
  /-- Leaves after a failure. -/
  | forget (who : ι)
  /-- Idle connections are closed, and none is lent any more. -/
  | close
  /-- No more permits are given, and nobody waits for one any longer. -/
  | shut

end Pool

/-- A pool of connections `κ` for parties named by `ι`. -/
structure Pool (ι κ : Type) where
  config : PoolConfig
  /-- How many connections may be idle. -/
  keeps : Nat
  idle : List (Pool.Opened κ)
  /-- How many connections count as open. -/
  size : Nat
  /-- No connection is lent any more. -/
  isClosed : Bool
  /-- No permit is given any more. -/
  isShut : Bool
  /-- Permits that nobody has. -/
  free : Nat
  /-- Those who wait stand in the order in which they asked. -/
  parties : List (Pool.Party ι κ)

namespace Pool

variable {ι κ : Type} [DecidableEq ι]

/-! ## Views -/

/-- A pool without connections.  It allows at least one. -/
def new (config : PoolConfig) (keeps : Nat) : Pool ι κ where
  config := { config with maxSize := max config.maxSize 1 }
  keeps := keeps
  idle := []
  size := 0
  isClosed := false
  isShut := false
  free := max config.maxSize 1
  parties := []

def party? (p : Pool ι κ) (who : ι) : Option (Party ι κ) := p.parties.find? (·.name = who)

/-- How far a party has come. -/
def phase? (p : Pool ι κ) (who : ι) : Option (Phase κ) := (p.party? who).map (·.phase)

/-- The connection a party holds. -/
def held? (p : Pool ι κ) (who : ι) : Option (Opened κ) :=
  match p.phase? who with
  | some (.holding o) => some o
  | _ => none

/-- Who waits for a permit, first come first. -/
def queue (p : Pool ι κ) : List ι :=
  (p.parties.filter (·.phase.isWaiting)).map (·.name)

/-- Is a connection too old at the time `now`? -/
def isExpired (p : Pool ι κ) (o : Opened κ) (now : Duration) : Bool :=
  match p.config.recycle with
  | some age => age.nanos ≤ now.nanos - o.since.nanos
  | none => false

/-- Must a connection that is given back be closed?  It is closed unless it may be lent again and there
is room for it. -/
def refuses (p : Pool ι κ) (o : Opened κ) (reusable : Bool) (now : Duration) : Bool :=
  !reusable || p.isClosed || p.isExpired o now || p.keeps ≤ p.idle.length

/-! ## Steps -/

/-- Moves a party on. -/
def move (p : Pool ι κ) (who : ι) (phase : Phase κ) : Pool ι κ :=
  { p with parties := p.parties.map fun q => if q.name = who then { q with phase } else q }

/-- Removes a party. -/
def remove (p : Pool ι κ) (who : ι) : Pool ι κ :=
  { p with parties := p.parties.filter (·.name ≠ who) }

/-- Gives a permit back. -/
def putPermit (p : Pool ι κ) : Pool ι κ := { p with free := p.free + 1 }

/-- Adds a party. -/
def enter (p : Pool ι κ) (who : ι) (purpose : Purpose) (phase : Phase κ) : Pool ι κ :=
  { p with parties := p.parties ++ [⟨who, purpose, phase⟩] }

/-- Lends the first idle connection, or starts to retire it. -/
def lookStep (p : Pool ι κ) (who : ι) (now : Duration) : Pool ι κ :=
  if p.isClosed then p.putPermit.move who (.failed .poolClosed)
  else match p.idle with
    | [] => p.move who .unserved
    | o :: rest =>
      { p with idle := rest }.move who (if p.isExpired o now then .retiring else .holding o)

/-- What an event does; an event that does not fit the party's phase does nothing. -/
def step (p : Pool ι κ) : Event ι κ → Pool ι κ
  | .arrive who purpose =>
    if (p.party? who).isSome then p
    else match purpose with
      | .take => p.enter who .take .arriving
      | .stock => if p.size < p.config.minSize then p.enter who .stock .arriving else p
  | .ask who now =>
    match p.party? who with
    | some ⟨_, purpose, .arriving⟩ =>
      if p.isShut then p.move who (.failed .poolClosed)
      else if 0 < p.free ∧ p.queue.isEmpty then
        { p with free := p.free - 1 }.move who .admitted
      else (p.remove who).enter who purpose (.waiting now)
    | _ => p
  | .permit who =>
    if 0 < p.free ∧ p.queue.head? = some who then
      { p with free := p.free - 1 }.move who .admitted
    else p
  | .expire who =>
    match p.phase? who with
    | some (.waiting _) => p.move who (.failed (.poolTimeout p.config.timeout))
    | _ => p
  | .look who now =>
    match p.party? who with
    | some ⟨_, .take, .admitted⟩ => p.lookStep who now
    | _ => p
  | .uncount who =>
    match p.phase? who with
    | some .retiring => { p with size := p.size - 1 }.move who .admitted
    | _ => p
  | .reserve who =>
    match p.party? who with
    | some ⟨_, .take, .unserved⟩ | some ⟨_, .stock, .admitted⟩ =>
      if p.isClosed then p.putPermit.move who (.failed .poolClosed)
      else { p with size := p.size + 1 }.move who .opening
    | _ => p
  | .opened who now r =>
    match p.party? who, r with
    | some ⟨_, .take, .opening⟩, .ok c => p.move who (.holding ⟨c, now⟩)
    | some ⟨_, .stock, .opening⟩, .ok c => p.move who (.stocking ⟨c, now⟩)
    | some ⟨_, _, .opening⟩, .error e =>
      { p.putPermit with size := p.size - 1 }.move who (.failed e)
    | _, _ => p
  | .shelve who =>
    match p.phase? who with
    | some (.stocking o) => { p.putPermit with idle := p.idle ++ [o] }.remove who
    | _ => p
  | .release who reusable now =>
    match p.phase? who with
    | some (.holding o) =>
      let p' := p.putPermit.remove who
      if p.refuses o reusable now then { p' with size := p.size - 1 }
      else { p' with idle := p.idle ++ [o] }
    | _ => p
  | .discard who =>
    match p.phase? who with
    | some (.holding _) => { p.putPermit with size := p.size - 1 }.remove who
    | _ => p
  | .cancel who =>
    match p.phase? who with
    | some (.waiting _) => p.remove who
    | some .admitted => p.putPermit.remove who
    | some .opening => { p.putPermit with size := p.size - 1 }.remove who
    | _ => p
  | .forget who =>
    match p.phase? who with
    | some (.failed _) => p.remove who
    | _ => p
  | .close =>
    { p with
      isClosed := true
      size := p.size - p.idle.length
      idle := [] }
  | .shut =>
    { p with
      isShut := true
      parties := p.parties.map fun q =>
        if q.phase.isWaiting then { q with phase := .failed .poolClosed } else q }

/-- One event after another. -/
def run (p : Pool ι κ) (es : List (Event ι κ)) : Pool ι κ := es.foldl step p

/-! ## Whole errands

What a party does when nobody else acts in between.  Opening a connection is a step on a state `ω`. -/

variable {ω : Type}

/-- The event a party can take next without waiting and without opening anything. -/
def next? (p : Pool ι κ) (who : ι) (now : Duration) : Option (Event ι κ) :=
  match p.party? who with
  | some ⟨_, _, .arriving⟩ => some (.ask who now)
  | some ⟨_, .take, .admitted⟩ => some (.look who now)
  | some ⟨_, .stock, .admitted⟩ | some ⟨_, _, .unserved⟩ => some (.reserve who)
  | some ⟨_, _, .retiring⟩ => some (.uncount who)
  | some ⟨_, _, .stocking _⟩ => some (.shelve who)
  | _ => none

/-- Lets a party go on as far as it can; `fuel` bounds its steps. -/
def proceed (opener : ω → Result κ × ω) (who : ι) (now : Duration) :
    Nat → Pool ι κ × ω → Pool ι κ × ω
  | 0, s => s
  | fuel + 1, (p, w) =>
    match p.phase? who with
    | some .opening =>
      let (r, w) := opener w
      proceed opener who now fuel (p.step (.opened who now r), w)
    | _ =>
      match p.next? who now with
      | some e => proceed opener who now fuel (p.step e, w)
      | none => (p, w)

/-- Twice as many steps as there are idle connections, and a few more, are enough for any errand. -/
def fuel (p : Pool ι κ) : Nat := 2 * p.idle.length + 7

/-- Starts an errand. -/
def start (opener : ω → Result κ × ω) (who : ι) (purpose : Purpose) (now : Duration)
    (s : Pool ι κ × ω) : Pool ι κ × ω :=
  proceed opener who now s.1.fuel (s.1.step (.arrive who purpose), s.2)

/-- Ends an errand that cannot go on: who still waits has waited in vain, who failed leaves. -/
def settle (p : Pool ι κ) (who : ι) : Result Unit × Pool ι κ :=
  let p := p.step (.expire who)
  match p.phase? who with
  | some (.failed e) => (.error e, p.step (.forget who))
  | _ => (.ok (), p)

/-- Takes a connection, waiting in vain if there is none to have. -/
def take (opener : ω → Result κ × ω) (who : ι) (now : Duration) (s : Pool ι κ × ω) :
    Result Unit × Pool ι κ × ω :=
  let s := start opener who .take now s
  let (r, p) := s.1.settle who
  (r, p, s.2)

/-- Stocks connections until as many count as the pool is to keep; `missing` bounds their number. -/
def stockUp (opener : ω → Result κ × ω) (who : ι) (now : Duration) :
    Nat → Pool ι κ × ω → Result Unit × Pool ι κ × ω
  | 0, (p, w) => (.ok (), p, w)
  | missing + 1, (p, w) =>
    if p.config.minSize ≤ p.size then (.ok (), p, w)
    else
      let s := start opener who .stock now (p, w)
      match s.1.settle who with
      | (.ok _, p) => stockUp opener who now missing (p, s.2)
      | (.error e, p) => (.error e, p, s.2)

/-- Stocks connections. -/
def warm (opener : ω → Result κ × ω) (who : ι) (now : Duration) (s : Pool ι κ × ω) :
    Result Unit × Pool ι κ × ω :=
  stockUp opener who now s.1.config.minSize s

/-- Gives permits that are free to those who wait, in their order, and lets them go on. -/
def serve (opener : ω → Result κ × ω) (now : Duration) (s : Pool ι κ × ω) : Pool ι κ × ω :=
  s.1.queue.foldl (fun s who => proceed opener who now s.1.fuel (s.1.step (.permit who), s.2)) s

/-! ## Text -/

/-- The text for a reader. -/
def inspect (p : Pool ι κ) : String :=
  Text.recordText "Pool" [("config", p.config.inspect),
    ("status", Text.recordText "PoolStatus" [("size", Digits.text p.size),
      ("idle", Digits.text p.idle.length), ("max_size", Digits.text p.config.maxSize)])]

/-! ## Lemmas -/

/-- What a pool allows never changes. -/
theorem config_step (p : Pool ι κ) (e : Event ι κ) : (p.step e).config = p.config := by
  cases e <;> simp only [step, lookStep] <;> repeat' split
  all_goals rfl

theorem keeps_step (p : Pool ι κ) (e : Event ι κ) : (p.step e).keeps = p.keeps := by
  unfold step
  cases e <;> dsimp only [lookStep] <;> repeat' split
  all_goals rfl

theorem isClosed_close (p : Pool ι κ) : (p.step .close).isClosed = true := rfl

theorem idle_close (p : Pool ι κ) : (p.step .close).idle = [] := rfl

theorem run_append (p : Pool ι κ) (es fs : List (Event ι κ)) :
    p.run (es ++ fs) = (p.run es).run fs := List.foldl_append ..

theorem config_run (p : Pool ι κ) (es : List (Event ι κ)) : (p.run es).config = p.config := by
  induction es generalizing p with
  | nil => rfl
  | cons e es ih => exact (ih (p.step e)).trans (p.config_step e)

end Pool

end SqlKit
