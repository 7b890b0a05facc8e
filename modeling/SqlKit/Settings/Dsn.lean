import SqlKit.Settings
import SqlKit.Url

/-!
# Data source names

A database described by one line: `scheme://` and a path for SQLite, a URL for the other servers.
Options follow a question mark; those that start with `pool_` and are known set up the pool, the
others are kept.  SQLite's options are taken as they are, those of a URL are in form encoding.

    an unknown key is kept: withOption k v s = .ok {s with options …}  (withOption_of_unknown)
    (ofDsn dsn).isOk → dsn holds "://"                                 (splitScheme?_of_ofDsn)
-/

namespace SqlKit.DatabaseSettings

/-! ## Options -/

/-- The options that set up the pool. -/
def poolKeys : List String := ["pool_min_size", "pool_max_size", "pool_timeout", "pool_recycle"]

/-- Reads the number an option of the pool wants. -/
def number (key value : String) : Result Nat :=
  match Digits.natBelow? UInt64.size value with
  | .ok n => .ok n
  | .error fault =>
    .error (.configuration ("Invalid value '" ++ value ++ "' for " ++ key ++ ": " ++ fault.message))

/-- Reads a number of connections. -/
def count (key value : String) : Result UInt32 := do
  let n ← number key value
  if n < UInt32.size then return UInt32.ofNat n
  else throw (.configuration (key ++ " is out of range: " ++ Digits.text n))

/-- Sets one option. -/
def withOption (key value : String) (s : DatabaseSettings) : Result DatabaseSettings := do
  match key with
  | "pool_min_size" => return { s with pool.minSize := ← count key value }
  | "pool_max_size" => return { s with pool.maxSize := ← count key value }
  | "pool_timeout" => return { s with pool.timeout := UInt64.ofNat (← number key value) }
  | "pool_recycle" => return { s with pool.recycle := some (UInt64.ofNat (← number key value)) }
  | _ => return { s with options := s.options.insert key value }

/-- Sets options one after another. -/
def withOptions (pairs : List (String × String)) (s : DatabaseSettings) : Result DatabaseSettings :=
  pairs.foldlM (fun s p => s.withOption p.1 p.2) s

/-! ## Names -/

/-- The error for a malformed name. -/
def invalid (dsn reason : String) : Error :=
  .configuration ("Invalid DSN '" ++ dsn ++ "': " ++ reason)

/-- A path and options, both as they are. -/
def ofPath (dsn : String) (rest : List Char) : Result DatabaseSettings :=
  let (path, query) := (Text.splitOnce? '?' rest).getD (rest, [])
  if path.isEmpty then .error (invalid dsn "missing database path")
  else (sqlite (String.ofList path)).withOptions
    ((Url.rawPairs query).map fun p => (String.ofList p.1, String.ofList p.2))

/-- A server's URL.  A missing host is the local one, slashes in front of the name do not count. -/
def ofUrl (engine dsn : String) (rest : List Char) : Result DatabaseSettings :=
  match Url.read? rest with
  | .error fault => .error (invalid dsn fault.message)
  | .ok url =>
    ({ engine, user := url.user, password := url.password
       name := String.ofList (url.path.toList.dropWhile (· = '/'))
       host := url.host.getD "localhost"
       port := UInt16.ofNat (url.port.getD 0) } : DatabaseSettings).withOptions url.query

/-- Cuts off the scheme. -/
def splitScheme? (dsn : String) : Option (List Char × List Char) :=
  Text.splitOnceAt? "://".toList dsn.toList

/-- Reads a data source name. -/
def ofDsn (dsn : String) : Result DatabaseSettings :=
  match splitScheme? dsn with
  | none => .error (invalid dsn "missing scheme")
  | some (scheme, rest) =>
    match String.ofList scheme with
    | "sqlite" | "sqlite3" => ofPath dsn rest
    | "postgres" | "postgresql" => ofUrl "postgres" dsn rest
    | "mysql" => ofUrl "mysql" dsn rest
    | other => .error (.configuration ("Unsupported database scheme '" ++ other ++ "'"))

/-! ## Lemmas -/

theorem withOption_of_unknown {key : String} (h : key ∉ poolKeys) (value : String)
    (s : DatabaseSettings) :
    s.withOption key value = .ok { s with options := s.options.insert key value } := by
  simp only [poolKeys, List.mem_cons, List.not_mem_nil, or_false, not_or] at h
  obtain ⟨h1, h2, h3, h4⟩ := h
  simp only [withOption]
  rfl

theorem splitScheme?_of_ofDsn {dsn : String} {s : DatabaseSettings} (h : ofDsn dsn = .ok s) :
    (splitScheme? dsn).isSome = true := by
  unfold ofDsn at h
  split at h
  · cases h
  · next hs => rw [hs]; rfl

end SqlKit.DatabaseSettings
