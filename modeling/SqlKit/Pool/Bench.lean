import SqlKit.Pool

/-!
# A pool under a stopped clock

A pool whose connections are numbered as they are opened, with a clock that moves only when told, or
when somebody waits in vain.  Parties may also wait in the background, where they get what they wait
for as soon as it is there.

    advancing by nothing moves no clock                                (now_advance_zero)
-/

namespace SqlKit.Pool

/-- Opens connections numbered from zero, or refuses to. -/
structure Numbering where
  opened : Nat := 0
  refuses : Bool := false

/-- Opens the next connection. -/
def Numbering.opener (n : Numbering) : Result Nat × Numbering :=
  if n.refuses then (.error (.operational "refused"), n)
  else (.ok n.opened, { n with opened := n.opened + 1 })

/-- A pool with its clock and those who wait in the background. -/
structure Bench where
  pool : Pool String Nat
  numbering : Numbering := {}
  now : Duration := ⟨0⟩
  /-- Connections that must not be lent again. -/
  dirty : List Nat := []
  background : List String := []

/-- Something done to the pool. -/
inductive Bench.Move where
  | acquire (who : String)
  | release (who : String)
  | discard (who : String)
  /-- The connection must not be lent again. -/
  | soil (who : String)
  | refuse (on : Bool)
  | wait (who : String)
  | cancel (who : String)
  | advance (span : Duration)
  | warm
  | close

namespace Bench

def new (config : PoolConfig) : Bench := { pool := .new config (max config.maxSize 1) }

/-- Lets the clock go on. -/
def tick (b : Bench) (d : Duration) : Bench := { b with now := ⟨b.now.nanos + d.nanos⟩ }

/-- Waiting in vain takes the whole time allowed. -/
def waited {α : Type} (r : Result α) (b : Bench) : Bench :=
  match r with
  | .error (.poolTimeout d) => b.tick d
  | _ => b

/-- The connection a party holds. -/
def conn? (b : Bench) (who : String) : Option Nat := (b.pool.held? who).map (·.conn)

/-- Applies an event. -/
def event (b : Bench) (e : Event String Nat) : Bench := { b with pool := b.pool.step e }

/-- The move itself; gives the connection that was acquired. -/
def act (b : Bench) : Move → Result (Option Nat) × Bench
  | .acquire who =>
    let (r, p, n) := take Numbering.opener who b.now (b.pool, b.numbering)
    let b := waited r { b with pool := p, numbering := n }
    (r.map fun _ => b.conn? who, b)
  | .release who =>
    let reusable := match b.conn? who with
      | some c => !b.dirty.contains c
      | none => true
    (.ok none, b.event (.release who reusable b.now))
  | .discard who => (.ok none, b.event (.discard who))
  | .soil who => (.ok none, { b with dirty := (b.conn? who).toList ++ b.dirty })
  | .refuse on => (.ok none, { b with numbering.refuses := on })
  | .wait who =>
    let (p, n) := start Numbering.opener who .take b.now (b.pool, b.numbering)
    (.ok none, { b with pool := p, numbering := n, background := b.background ++ [who] })
  | .cancel who =>
    if b.background.contains who then
      (.ok none, { b.event (.cancel who) with background := b.background.erase who })
    else (.ok none, b)
  | .advance d => (.ok none, b.tick d)
  | .warm =>
    let (r, p, n) := Pool.warm Numbering.opener "" b.now (b.pool, b.numbering)
    (r.map fun _ => none, waited r { b with pool := p, numbering := n })
  | .close => (.ok none, (b.event .close).event .shut)

/-- Has a party waited as long as it may? -/
def isOverdue (b : Bench) (who : String) : Bool :=
  match b.pool.phase? who with
  | some (.waiting since) => since.nanos + b.pool.config.timeout.nanos ≤ b.now.nanos
  | _ => false

/-- What a party in the background has got, if anything. -/
def outcome? (b : Bench) (who : String) : Option (Result Nat) :=
  match b.pool.phase? who with
  | some (.holding o) => some (.ok o.conn)
  | some (.failed e) => some (.error e)
  | _ => none

/-- Serves those in the background; gives what they got, by name. -/
def serve (b : Bench) : Assoc (Result Nat) × Bench :=
  let (p, n) := Pool.serve Numbering.opener b.now (b.pool, b.numbering)
  let b := { b with pool := p, numbering := n }
  let b := (b.background.filter b.isOverdue).foldl (fun b who => b.event (.expire who)) b
  let got := b.background.filterMap fun who => (b.outcome? who).map fun r => (who, r)
  let left := b.background.filter fun who => (b.outcome? who).isNone
  let b := b.background.foldl (fun b who => b.event (.forget who)) b
  (Assoc.ofList got, { b with background := left })

/-- A move and what it brings to those in the background. -/
def play (b : Bench) (m : Move) : Result (Option Nat) × Assoc (Result Nat) × Bench :=
  let (r, b) := b.act m
  let (got, b) := b.serve
  (r, got, b)

/-- The pool as it is, with one connection lent, after its return, and closed. -/
def tour (b : Bench) : List (Pool String Nat) :=
  let lent := (b.play (.acquire "")).2.2
  let back := (lent.play (.release "")).2.2
  [b.pool, lent.pool, back.pool, (back.play .close).2.2.pool]

theorem now_advance_zero (b : Bench) : (b.act (.advance ⟨0⟩)).2.now = b.now := by
  simp [act, tick]

end Bench

end SqlKit.Pool
