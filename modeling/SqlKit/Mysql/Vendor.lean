import SqlKit.Engine
import SqlKit.Mysql.Session
import SqlKit.Text.Inspect

/-!
# MySQL as a vendor

A connection that is given back in a transaction is rolled back first, and is closed if that fails.
One that is dropped is reset by the server, which ends its transaction.  The pool keeps as many idle
connections as it is to have at least, or as it may have where connections are replaced by age.

    a connection that the server has closed is not lent again          (abandon_of_isLost)
-/

namespace SqlKit.Mysql

variable {τ : Type} (s : Server τ Reply Datum Fault)

/-- Rolls back where a transaction is open. -/
def giveBack (c : Nat) (isOpen : Bool) (w : Wire τ) : Bool × Wire τ :=
  if isOpen then
    let (r, w) := (request s c "ROLLBACK" []).on w
    (r.isOk && !w.isLost c, w)
  else (!w.isLost c, w)

/-- Leaves a transaction to the reset. -/
def abandon (c : Nat) (_ : Bool) (w : Wire τ) : Bool × Wire τ := (!w.isLost c, w)

/-- The vendor, for a server.  How old connections are is not looked at. -/
def vendor (settings : DatabaseSettings) : Vendor (Wire τ) :=
  let config := PoolConfig.ofSettings settings.pool
  { dialect := .mysql
    config := { config with recycle := none }
    keeps := if config.recycle.isSome then config.maxSize else config.minSize
    closedFault := Fault.poolClosed.toError
    login := login s (Options.ofSettings settings config)
    execute := execute s
    fetch := fun c sql params limit => do
      let rows ← fetch s c sql params
      return match limit with
        | some n => rows.take n
        | none => rows
    giveBack := giveBack s
    abandon := abandon }

/-- The text of an engine for a reader. -/
def inspect (settings : DatabaseSettings) : String :=
  Text.openRecordText "MySqlEngine" [("host", Text.quoted settings.host),
    ("port", Digits.text settings.port.toNat), ("name", Text.quoted settings.name),
    ("config", (PoolConfig.ofSettings settings.pool).inspect)]

theorem abandon_of_isLost {c : Nat} {w : Wire τ} (h : w.isLost c = true) (b : Bool) :
    (abandon c b w).1 = false := by
  simp [abandon, h]

end SqlKit.Mysql
