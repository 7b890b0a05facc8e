import SqlKit.Duration

/-!
# Errors

What can go wrong, by cause.  Every error has a wording and belongs to one kind, and some are worth
another attempt.

    e.isRetryable = true ↔ e is a pool timeout or operational          (isRetryable_iff)
-/

namespace SqlKit

/-- An error. -/
inductive Error where
  | argument (detail : String)
  | missingArgument (detail : String)
  | bareColumn (detail : String)
  | notImplemented (feature alternative : String)
  | compile (detail : String)
  | alreadyConnected
  | notConnected
  | poolTimeout (waited : Duration)
  | poolClosed
  | database (detail : String)
  | integrity (detail : String)
  | operational (detail : String)
  | configuration (detail : String)
  | serialization (detail : String)
  | io (detail : String)
deriving DecidableEq, Repr

/-- What an error is about. -/
inductive ErrorKind where
  /-- A statement cannot be built. -/
  | build
  /-- No connection can be had, or it is there already. -/
  | pool
  /-- A server refused or failed. -/
  | database
  /-- Settings or documents are malformed. -/
  | configuration
  | io
deriving DecidableEq, Repr

/-- The name of a kind. -/
def ErrorKind.name : ErrorKind → String
  | build => "Build"
  | pool => "Pool"
  | database => "Database"
  | configuration => "Configuration"
  | io => "Io"

/-- A result or an error. -/
abbrev Result := Except Error

/-- What succeeds has succeeded in its first part. -/
theorem Result.ok_of_bind {α β : Type} {x : Result α} {f : α → Result β} {b : β}
    (h : x >>= f = .ok b) : ∃ a, x = .ok a ∧ f a = .ok b := by
  cases x with
  | error e => contradiction
  | ok a => exact ⟨a, rfl, h⟩

namespace Error

/-- The wording of an error. -/
def message : Error → String
  | argument d => "Argument error: " ++ d
  | missingArgument d => "Missing argument: " ++ d
  | bareColumn d => "Invalid use of bare column in predicate: " ++ d
  | notImplemented f a => f ++ " is not yet implemented, use " ++ a ++ " instead"
  | compile d => "Compile error: " ++ d
  | alreadyConnected => "A connection already exists"
  | notConnected => "No connection found to database"
  | poolTimeout d => "Timed out after " ++ d.text ++ " waiting for a pooled connection"
  | poolClosed => "Connection pool is closed"
  | database d => "Database error: " ++ d
  | integrity d => "Integrity error: " ++ d
  | operational d => "Operational error: " ++ d
  | configuration d => "Configuration error: " ++ d
  | serialization d => "Serialization error: " ++ d
  | io d => "IO error: " ++ d

/-- The name of the cause. -/
def name : Error → String
  | argument _ => "Argument"
  | missingArgument _ => "MissingArgument"
  | bareColumn _ => "BareColumn"
  | notImplemented .. => "NotImplemented"
  | compile _ => "Compile"
  | alreadyConnected => "AlreadyConnected"
  | notConnected => "NotConnected"
  | poolTimeout _ => "PoolTimeout"
  | poolClosed => "PoolClosed"
  | database _ => "Database"
  | integrity _ => "Integrity"
  | operational _ => "Operational"
  | configuration _ => "Configuration"
  | serialization _ => "Serialization"
  | io _ => "Io"

/-- What the error is about. -/
def kind : Error → ErrorKind
  | argument _ | missingArgument _ | bareColumn _ | notImplemented .. | compile _ => .build
  | alreadyConnected | notConnected | poolTimeout _ | poolClosed => .pool
  | database _ | integrity _ | operational _ => .database
  | configuration _ | serialization _ => .configuration
  | io _ => .io

/-- The statement itself is at fault. -/
def isBuild (e : Error) : Bool := e.kind = .build

/-- Another attempt may succeed. -/
def isRetryable : Error → Bool
  | poolTimeout _ | operational _ => true
  | _ => false

/-! ## Lemmas -/

theorem isRetryable_iff (e : Error) :
    e.isRetryable = true ↔ (∃ d, e = .poolTimeout d) ∨ ∃ s, e = .operational s := by
  cases e <;> simp [isRetryable]

theorem isBuild_eq_false_of_isRetryable {e : Error} (h : e.isRetryable = true) :
    e.isBuild = false := by
  rcases (isRetryable_iff e).1 h with ⟨d, rfl⟩ | ⟨s, rfl⟩ <;> rfl

end Error

end SqlKit
