import SqlKit.Engine
import SqlKit.Sqlite.Store
import SqlKit.Text.Inspect

/-!
# SQLite as a vendor

A database is a file or, by the name `:memory:`, lives in its connection; then the pool has one
connection, so that every session sees the same data.  A connection may be lent again when it is
outside of a transaction.

    the pool of a database in memory has one connection                (maxSize_poolConfig_memory)
    giving back always leaves a connection that may be lent again      (giveBack_fst)
-/

namespace SqlKit.Sqlite

/-- The name of a database that lives in its connection. -/
def memory : String := ":memory:"

/-- The sizes and times of the pool for a database. -/
def poolConfig (name : String) (config : PoolConfig) : PoolConfig :=
  if name = memory then { config with minSize := 1, maxSize := 1 } else config

/-- Where the data of a database are.  There are no directories but the one at hand. -/
def Place.ofName (name : String) : Place :=
  if name = memory ∨ name = "" then .own
  else if '/' ∈ name.toList then .missing name
  else .shared

variable {δ : Type}

/-- Opens a connection. -/
def login : Action (World δ) Nat := .of fun w =>
  match w.place with
  | .missing name =>
    (.error (.operational ("SQLite open failed: unable to open database file: " ++ name)), w)
  | .own | .shared => (.ok w.opened, { w with opened := w.opened + 1 })

/-- A connection that is given back is rolled back first. -/
def giveBack (c : Nat) (_ : Bool) (w : World δ) : Bool × World δ :=
  let w := w.abandon c
  (w.isAutocommit c, w)

/-- A connection that is dropped in a transaction is closed, which rolls back. -/
def abandon (c : Nat) (_ : Bool) (w : World δ) : Bool × World δ := (w.isAutocommit c, w.abandon c)

/-- The vendor, for databases with contents `δ`. -/
def vendor (lang : Language δ) (name : String) (config : PoolConfig) : Vendor (World δ) where
  dialect := .sqlite
  config := poolConfig name config
  keeps := max (poolConfig name config).maxSize 1
  login := login
  execute := World.execute lang
  fetch := World.fetch lang
  canStop := true
  giveBack := giveBack
  abandon := abandon

/-- The text of an engine for a reader. -/
def inspect (name : String) (config : PoolConfig) (isConnected : Bool) : String :=
  Text.recordText "SqliteEngine" [("path", Text.quoted name),
    ("config", (poolConfig name config).inspect),
    ("connected", if isConnected then "true" else "false")]

/-! ## Lemmas -/

theorem maxSize_poolConfig_memory (config : PoolConfig) : (poolConfig memory config).maxSize = 1 := by
  simp [poolConfig]

theorem giveBack_fst (c : Nat) (b : Bool) (w : World δ) : (giveBack c b w).1 = true :=
  World.isAutocommit_abandon w c

end SqlKit.Sqlite
