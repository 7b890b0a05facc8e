import SqlKit.Error

/-!
# What goes wrong with a PostgreSQL server

The causes, and the errors they become.  What the server refuses is sorted by the class of its code,
which is the code's first two bytes; there is none if the code cannot be cut there.

    a closed connection is operational                                 (error?_closed)
    class 23 is about integrity                                        (ofClass_integrity)
-/

namespace SqlKit.Postgres

/-- An error of the server. -/
structure ServerError where
  code : String
  message : String
deriving DecidableEq, Repr

/-- A cause. -/
inductive Fault where
  /-- The server cannot be reached. -/
  | unreachable
  /-- The connection is closed. -/
  | closed
  | server (e : ServerError)
  /-- A statement takes another number of parameters. -/
  | parameterCount (expected given : Nat)
  /-- A parameter does not fit its type. -/
  | parameter (index : Nat)
deriving DecidableEq, Repr

namespace Fault

/-- The first two bytes of a code, if a character ends there. -/
def sqlClass? (code : String) : Option String :=
  match code.toList with
  | c :: cs =>
    if c.utf8Size = 2 then some (String.ofList [c])
    else match cs with
      | d :: _ =>
        if c.utf8Size = 1 ∧ d.utf8Size = 1 then some (String.ofList [c, d]) else none
      | [] => none
  | [] => none

/-- The error of a class. -/
def ofClass (sqlClass : String) (detail : String) : Error :=
  if sqlClass = "23" then .integrity detail
  else if sqlClass ∈ ["08", "40", "53", "57"] then .operational detail
  else .database detail

/-- The error that a cause becomes, unless its code has no class. -/
def error? : Fault → Option Error
  | unreachable => some (.database "error connecting to server")
  | closed => some (.operational "connection closed")
  | server e => (sqlClass? e.code).map fun k => ofClass k "db error"
  | parameterCount expected given => some (.database ("expected " ++ Digits.text expected ++
      " parameters but got " ++ Digits.text given))
  | parameter i => some (.database ("error serializing parameter " ++ Digits.text i))

/-- The error that a cause becomes.  A code without a class is like one of no special class. -/
def toError (f : Fault) : Error := f.error?.getD (.database "db error")

theorem error?_closed : error? closed = some (.operational "connection closed") := rfl

theorem ofClass_integrity (detail : String) : ofClass "23" detail = .integrity detail := rfl

end Fault

end SqlKit.Postgres
