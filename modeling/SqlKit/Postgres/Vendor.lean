import SqlKit.Engine
import SqlKit.Postgres.Options
import SqlKit.Postgres.Session

/-!
# PostgreSQL as a vendor

A connection that is given back in a transaction is rolled back first, and is closed if that fails.
One that is dropped in a transaction is closed, for nobody could wait for the answer.  A connection
that the server has closed is not lent again.

    a connection dropped in a transaction is not lent again            (abandon_of_open)
    without a transaction nothing is sent                              (giveBack_of_not_open)
-/

namespace SqlKit.Postgres

variable {τ : Type} (s : Server τ Reply Parameter Fault)

/-- What a login says. -/
def Options.startup (o : Options) : List (String × String) :=
  [("user", o.user.getD ""), ("database", o.database)] ++
    o.application.toList.map fun a => ("application_name", a)

/-- Rolls back where a transaction is open. -/
def giveBack (c : Nat) (isOpen : Bool) (w : Wire τ) : Bool × Wire τ :=
  if isOpen then
    let (r, w) := (act (text s c "ROLLBACK")).on w
    (r.isOk && !w.isLost c, w)
  else (!w.isLost c, w)

/-- Leaves an open transaction to the server, which ends it with the connection. -/
def abandon (c : Nat) (isOpen : Bool) (w : Wire τ) : Bool × Wire τ := (!isOpen && !w.isLost c, w)

/-- The vendor, for a server.  How old connections are is not looked at. -/
def vendor (settings : DatabaseSettings) : Vendor (Wire τ) :=
  let config := PoolConfig.ofSettings settings.pool
  let options := Options.ofSettings settings config
  { dialect := .postgres
    config := { config with recycle := none }
    keeps := config.maxSize
    fault := if options.database.isEmpty then some (.configuration
      "Failed to create pool: Config: configuration property \"dbname\" not found") else none
    login := act (s.connect options.startup)
    execute := execute s
    fetch := fun c sql params limit => do
      let rows ← fetch s c sql params
      return match limit with
        | some n => rows.take n
        | none => rows
    giveBack := giveBack s
    abandon := abandon }

/-- The text of an engine for a reader. -/
def inspect (settings : DatabaseSettings) : String :=
  Text.openRecordText "PostgresEngine" [("host", Text.quoted settings.host),
    ("port", Digits.text settings.port.toNat), ("name", Text.quoted settings.name),
    ("config", (PoolConfig.ofSettings settings.pool).inspect)]

theorem abandon_of_open (c : Nat) (w : Wire τ) : (abandon c true w).1 = false := rfl

theorem giveBack_of_not_open (c : Nat) (w : Wire τ) : (giveBack s c false w).2 = w := rfl

end SqlKit.Postgres
