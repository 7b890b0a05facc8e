import SqlKit.Pool.Config

/-!
# How to reach a MySQL server

What settings say to a MySQL client: where the server is, who asks, and how its pool behaves.  Every
new session is set up to read double quotes as identifiers, and a session that comes back is reset.

    the client's pool keeps the sizes of the settings                  (sizes_ofSettings)
-/

namespace SqlKit.Mysql

/-- The statement that sets up a session. -/
def sessionSetup : String := "SET SESSION sql_mode = CONCAT(@@sql_mode, ',ANSI_QUOTES')"

/-- What a client is told. -/
structure Options where
  database : String
  host : String
  port : UInt16
  user : Option String
  password : Option String
  setup : List String
  minSize : Nat
  maxSize : Nat
  /-- A session that comes back is reset. -/
  resets : Bool
  /-- The age at which a connection is closed. -/
  lifetime : Option Duration
  /-- How long a connection may be idle, if that is bounded. -/
  idleTime : Option Duration
deriving DecidableEq, Repr

/-- A text that is not empty. -/
def Options.given (s : String) : Option String := if s.isEmpty then none else some s

/-- What settings say. -/
def Options.ofSettings (s : DatabaseSettings) (pool : PoolConfig) : Options where
  database := s.name
  host := s.host
  port := s.port
  user := given s.user
  password := given s.password
  setup := [sessionSetup]
  minSize := pool.minSize
  maxSize := pool.maxSize
  resets := true
  lifetime := pool.recycle
  idleTime := pool.recycle

theorem Options.sizes_ofSettings (s : DatabaseSettings) (pool : PoolConfig) :
    (ofSettings s pool).minSize = pool.minSize ∧ (ofSettings s pool).maxSize = pool.maxSize :=
  ⟨rfl, rfl⟩

end SqlKit.Mysql
