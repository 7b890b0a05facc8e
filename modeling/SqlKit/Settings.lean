import SqlKit.Assoc
import SqlKit.Error

/-!
# Settings

What a program says about its databases: one description per alias, each with the sizes and times of
its pool, and how much is logged.

    (DatabaseSettings.mysql …) is (DatabaseSettings.postgres …) but for its engine   (mysql_eq)
    s.recycleAfter = some d → 0 < d.nanos                              (pos_of_recycleAfter)
-/

namespace SqlKit

/-- Sizes and times of a pool, times in seconds. -/
structure PoolSettings where
  /-- Connections kept open. -/
  minSize : UInt32 := 1
  /-- Connections open at the same time. -/
  maxSize : UInt32 := 10
  /-- How long to wait for a connection. -/
  timeout : UInt64 := 60
  /-- The age at which a connection is replaced. -/
  recycle : Option UInt64 := none
deriving DecidableEq, Repr

namespace PoolSettings

def waiting (s : PoolSettings) : Duration := .ofSeconds s.timeout.toNat

/-- The age at which connections are replaced; zero means never. -/
def recycleAfter (s : PoolSettings) : Option Duration :=
  (s.recycle.filter fun n => 0 < n).map fun n => .ofSeconds n.toNat

theorem pos_of_recycleAfter {s : PoolSettings} {d : Duration} (h : s.recycleAfter = some d) :
    0 < d.nanos := by
  obtain ⟨n, hn, rfl⟩ := Option.map_eq_some_iff.1 h
  have hpos : 0 < n := by simpa using (Option.filter_eq_some_iff.1 hn).2
  have : 0 < n.toNat := hpos
  simp [Duration.ofSeconds]
  omega

end PoolSettings

/-- How to reach a database. -/
structure DatabaseSettings where
  /-- The name of the dialect. -/
  engine : String := "sqlite"
  /-- The name of the database, or the path of its file. -/
  name : String := "supersql.db"
  user : String := ""
  password : String := ""
  host : String := ""
  /-- Zero stands for the usual port. -/
  port : UInt16 := 0
  pool : PoolSettings := {}
  options : Assoc String := []
deriving DecidableEq, Repr

namespace DatabaseSettings

/-- A file, or `:memory:`. -/
def sqlite (path : String) : DatabaseSettings := { name := path }

def postgres (host : String) (port : UInt16) (name user password : String) : DatabaseSettings :=
  { engine := "postgres", name, user, password, host, port }

def mysql (host : String) (port : UInt16) (name user password : String) : DatabaseSettings :=
  { engine := "mysql", name, user, password, host, port }

theorem mysql_eq (host : String) (port : UInt16) (name user password : String) :
    mysql host port name user password =
      { postgres host port name user password with engine := "mysql" } := rfl

end DatabaseSettings

/-- The settings of a program. -/
structure Settings where
  /-- Log in a form for readers. -/
  debug : Bool := false
  /-- Which events are logged. -/
  logLevel : String := "info"
  databases : Assoc DatabaseSettings := [("default", {})]
deriving DecidableEq, Repr

namespace Settings

/-- The database under an alias. -/
def database (s : Settings) (key : String) : Result DatabaseSettings :=
  match s.databases.get? key with
  | some d => .ok d
  | none => .error (.configuration ("No database configured as '" ++ key ++ "'"))

end Settings

end SqlKit
