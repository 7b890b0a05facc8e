import SqlKit.Lookup
import SqlKit.Pool
import SqlKit.Session.Connection

/-!
# Engines

While it is connected, an engine has a pool of connections to one database and gives out handles on
it.  A handle takes a connection from the pool it was made for, works on it and gives it back.  A
handle outlives the pool of its engine: what it holds it may keep, but it cannot take anything more.

What a database does is left to a `Vendor`, whose steps act on a world `ω` that holds everything
beyond the pool.  The clock stands still, except that waiting in vain takes the time allowed.

    connecting twice fails                                             (connect_of_isConnected)
    no handle without a pool                                           (connection_of_not_isConnected)
    a handle that holds nothing sends nothing                          (execute_of_not_held)
-/

namespace SqlKit

/-- What is particular to the databases of one kind.  Connections are known by numbers. -/
structure Vendor (ω : Type) where
  dialect : Dialect
  config : PoolConfig
  /-- How many connections may be idle. -/
  keeps : Nat
  /-- What is wrong with the settings, if that shows before anything is opened. -/
  fault : Option Error := none
  /-- The error of taking a connection from a closed pool. -/
  closedFault : Error := .poolClosed
  /-- Opens a connection. -/
  login : Action ω Nat
  /-- Runs a statement; gives the number of rows it changed. -/
  execute : Nat → String → List Value → Action ω Nat
  /-- Runs a query, up to so many rows if there is a limit. -/
  fetch : Nat → String → List Value → Option Nat → Action ω (List Row)
  /-- A query can be stopped before its end. -/
  canStop : Bool := false
  /-- Tidies a connection that is given back, in a transaction or not as far as its handle knows;
  says whether it may be lent again. -/
  giveBack : Nat → Bool → ω → Bool × ω
  /-- The same for a connection whose handle is dropped. -/
  abandon : Nat → Bool → ω → Bool × ω

/-- What a handle remembers. -/
structure Handle where
  /-- The number of the pool it was made for. -/
  pool : Nat
  /-- A statement has opened a transaction and none has ended it. -/
  inTransaction : Bool := false
  /-- Rows changed by the last statement, or given by the last query. -/
  rowCount : Nat := 0

/-- The handle after a statement, which succeeded or failed. -/
def Handle.after (h : Handle) (sql : String) (r : Result Nat) : Handle where
  pool := h.pool
  inTransaction := match opensTransaction? sql with
    | some opens => opens && r.isOk
    | none => h.inTransaction
  rowCount := match r with
    | .ok n => n
    | .error _ => h.rowCount

/-- Who takes connections: a handle, by its name, or the engine itself. -/
inductive Holder where
  | handle (name : String)
  | engine
deriving DecidableEq, Repr

/-- An engine in its world. -/
structure Engine (ω : Type) where
  world : ω
  now : Duration := ⟨0⟩
  /-- The pools opened so far, by number. -/
  pools : Nat → Pool Holder Nat
  /-- How many pools were opened. -/
  opened : Nat := 0
  /-- The pool of the engine. -/
  current : Option Nat := none
  handles : Holder → Option Handle := fun _ => none

namespace Engine

open Lookup

variable {ω : Type}

/-! ## Views -/

/-- An engine that is not connected. -/
def new (v : Vendor ω) (world : ω) : Engine ω where
  world := world
  pools := fun _ => .new v.config v.keeps

def isConnected (e : Engine ω) : Bool := e.current.isSome

/-- The connection a handle holds. -/
def held? (e : Engine ω) (who : Holder) : Option Nat := do
  let h ← e.handles who
  let o ← (e.pools h.pool).held? who
  return o.conn

/-! ## Parts -/

/-- Lets a pool take an event. -/
def onPool (e : Engine ω) (n : Nat) (event : Pool.Event Holder Nat) : Engine ω :=
  { e with pools := put e.pools n ((e.pools n).step event) }

/-- Changes what a handle remembers. -/
def onHandle (e : Engine ω) (who : Holder) (f : Handle → Handle) : Engine ω :=
  { e with handles := put e.handles who ((e.handles who).map f) }

/-- Waiting in vain takes the whole time allowed. -/
def waited {α : Type} (e : Engine ω) (r : Result α) : Engine ω :=
  match r with
  | .error (.poolTimeout d) => { e with now := ⟨e.now.nanos + d.nanos⟩ }
  | _ => e

/-- Ends the use of the connection a handle holds; `tidy` gets it ready to be lent again. -/
def letGo (tidy : Nat → Bool → ω → Bool × ω) (e : Engine ω) (who : Holder) : Engine ω :=
  match e.handles who, e.held? who with
  | some h, some conn =>
    let (reusable, world) := tidy conn h.inTransaction e.world
    ({ e with world }.onPool h.pool (.release who reusable e.now)).onHandle who
      fun h => { h with inTransaction := false }
  | _, _ => e

/-- Drops a handle. -/
def drop (v : Vendor ω) (who : Holder) (e : Engine ω) : Engine ω :=
  let e := e.letGo v.abandon who
  { e with handles := put e.handles who none }

/-- Acts on the world with the connection that a handle holds. -/
def onHeld {α : Type} (who : Holder) (f : Nat → Action ω α) : Action (Engine ω) α := .of fun e =>
  match e.held? who with
  | none => (.error .notConnected, e)
  | some conn =>
    let (r, world) := (f conn).on e.world
    (r, { e with world })

/-! ## The life of an engine -/

/-- Opens a pool with the connections it is to keep. -/
def connect (v : Vendor ω) : Action (Engine ω) Unit := .of fun e =>
  if e.isConnected then (.error .alreadyConnected, e)
  else match v.fault with
    | some x => (.error x, e)
    | none =>
      let (r, pool, world) :=
        Pool.warm v.login.on .engine e.now (Pool.new v.config v.keeps, e.world)
      let e := { e with world }
      match r with
      | .error x => (.error x, e)
      | .ok _ => (.ok (), { e with
          pools := put e.pools e.opened pool
          opened := e.opened + 1
          current := some e.opened })

/-- Closes the pool. -/
def disconnect : Action (Engine ω) Unit := .of fun e =>
  match e.current with
  | none => (.error .notConnected, e)
  | some n => (.ok (), { (e.onPool n .close).onPool n .shut with current := none })

/-- Makes a handle on the pool, in the place of an older one of that name. -/
def connection (v : Vendor ω) (who : Holder) : Action (Engine ω) Unit := .of fun e =>
  match e.current with
  | none => (.error .notConnected, e)
  | some n =>
    let e := e.drop v who
    (.ok (), { e with handles := put e.handles who (some { pool := n }) })

/-! ## Sessions -/

/-- Takes a connection. -/
def begin (v : Vendor ω) (who : Holder) : Action (Engine ω) Unit := .of fun e =>
  match e.handles who with
  | none => (.error .notConnected, e)
  | some h =>
    if (e.held? who).isSome then (.error .alreadyConnected, e)
    else
      let (r, pool, world) := Pool.take v.login.on who e.now (e.pools h.pool, e.world)
      let e := { e with world, pools := put e.pools h.pool pool }
      (r.mapError fun x => if x = .poolClosed then v.closedFault else x, e.waited r)

/-- Gives the connection back. -/
def done (v : Vendor ω) (who : Holder) : Action (Engine ω) Unit := .of fun e =>
  match e.held? who with
  | none => (.error .notConnected, e)
  | some _ => (.ok (), e.letGo v.giveBack who)

/-- Runs a statement. -/
def execute (v : Vendor ω) (who : Holder) (sql : String) (params : List Value) :
    Action (Engine ω) Nat := .of fun e =>
  match e.held? who with
  | none => (.error .notConnected, e)
  | some conn =>
    let (r, world) := (v.execute conn sql params).on e.world
    (r, { e with world }.onHandle who fun h => h.after sql r)

/-- Runs a query, to its end or up to a limit. -/
def query (v : Vendor ω) (who : Holder) (sql : String) (params : List Value)
    (limit : Option Nat) : Action (Engine ω) (List Row) := do
  let rows ← onHeld who fun conn => v.fetch conn sql params limit
  modify fun e => e.onHandle who fun h => { h with rowCount := rows.length }
  return rows

/-- The handle as a connection. -/
def session (v : Vendor ω) (who : Holder) : Connection (Engine ω) where
  isActive e := (e.held? who).isSome
  rowCount e := ((e.handles who).map (·.rowCount)).getD 0
  begin := begin v who
  done := done v who
  execute := execute v who
  fetchAll sql params := query v who sql params none
  fetchMany sql params limit :=
    if v.canStop then query v who sql params (some limit)
    else do return (← query v who sql params none).take limit

/-- Runs a transaction on a connection of its own. -/
def transaction (v : Vendor ω) (t : Transaction) : Action (Engine ω) (List Outcome) := do
  connection v .engine
  let outcomes ← ((session v .engine).transactAlone t).attempt
  modify (drop v .engine)
  Action.ofResult outcomes

/-! ## Lemmas -/

theorem connect_of_isConnected (v : Vendor ω) {e : Engine ω} (h : e.isConnected = true) :
    (connect v).on e = (.error .alreadyConnected, e) := by
  show (if e.isConnected = true then _ else _) = _
  rw [if_pos h]

theorem connection_of_not_isConnected (v : Vendor ω) (who : Holder) {e : Engine ω}
    (h : e.current = none) : (connection v who).on e = (.error .notConnected, e) := by
  show (match e.current with | none => _ | some n => _) = _
  rw [h]

theorem execute_of_not_held (v : Vendor ω) (who : Holder) (sql : String) (params : List Value)
    {e : Engine ω} (h : e.held? who = none) :
    (execute v who sql params).on e = (.error .notConnected, e) := by
  show (match e.held? who with | none => _ | some conn => _) = _
  rw [h]

end Engine

end SqlKit
