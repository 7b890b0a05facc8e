import SqlKit.Pool.Config

/-!
# How to reach a PostgreSQL server

What settings say to a PostgreSQL client: where the server is, who asks, and how many connections
there may be.

    an empty user is no user                                           (user_of_isEmpty)
-/

namespace SqlKit.Postgres

/-- What a client is told. -/
structure Options where
  database : String
  host : String
  port : UInt16
  user : Option String
  password : Option String
  application : Option String
  maxSize : Nat
  /-- How long to wait for a free connection. -/
  waitTime : Duration
  /-- How long opening a connection may take. -/
  openTime : Duration
  /-- How long looking after an idle connection may take, if that is bounded. -/
  checkTime : Option Duration
deriving DecidableEq, Repr

/-- A text that is not empty. -/
def Options.given (s : String) : Option String := if s.isEmpty then none else some s

/-- What settings say. -/
def Options.ofSettings (s : DatabaseSettings) (pool : PoolConfig) : Options where
  database := s.name
  host := s.host
  port := s.port
  user := given s.user
  password := given s.password
  application := s.options.get? "application_name"
  maxSize := pool.maxSize
  waitTime := pool.timeout
  openTime := pool.timeout
  checkTime := none

theorem Options.user_of_isEmpty {s : DatabaseSettings} (h : s.user.isEmpty = true)
    (pool : PoolConfig) : (ofSettings s pool).user = none := by
  simp [ofSettings, given, h]

end SqlKit.Postgres
