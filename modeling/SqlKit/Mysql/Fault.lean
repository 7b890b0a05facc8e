import SqlKit.Error

/-!
# What goes wrong with a MySQL server

The causes, with their wording, and the errors they become.

    a closed pool is operational                                       (toError_poolClosed)
-/

namespace SqlKit.Mysql

/-- An error of the server. -/
structure ServerError where
  number : Nat
  /-- The state of the standard. -/
  code : String
  message : String
deriving DecidableEq, Repr

/-- A cause. -/
inductive Fault where
  /-- The server cannot be reached. -/
  | unreachable
  /-- The server closes the connection instead of answering. -/
  | hungUp
  /-- The connection was closed before. -/
  | closed
  /-- The pool was closed before. -/
  | poolClosed
  | server (e : ServerError)
  /-- A statement takes another number of parameters. -/
  | parameterCount (expected given : Nat)
deriving DecidableEq, Repr

namespace Fault

/-- The wording of a failure of the connection. -/
def ioText (detail : String) : String := "Input/output error: Input/output error: " ++ detail

/-- The wording of a misuse. -/
def misuseText (detail : String) : String := "Driver error: \x60" ++ detail ++ "'"

/-- The wording of a cause. -/
def message : Fault → String
  | unreachable => ioText "Network is unreachable (os error 101)"
  | hungUp => ioText "connection closed"
  | closed => ioText (misuseText "Connection to the server is closed.")
  | poolClosed => misuseText "Pool was disconnected."
  | server e => "Server error: \x60ERROR " ++ e.code ++ " (" ++ Digits.text e.number ++ "): " ++
      e.message ++ "'"
  | parameterCount expected given => misuseText ("Statement takes " ++ Digits.text expected ++
      " parameters but " ++ Digits.text given ++ " was supplied.")

/-- The error that a cause becomes. -/
def toError (f : Fault) : Error :=
  match f with
  | server e =>
    if ['2', '3'].isPrefixOf e.code.toList then .integrity f.message else .database f.message
  | _ => .operational f.message

theorem toError_poolClosed : poolClosed.toError = .operational poolClosed.message := rfl

end Fault

end SqlKit.Mysql
