import SqlKit.Query.Writer

/-!
# Transactions

A transaction is a list of statements between BEGIN and COMMIT or ROLLBACK.  It is compiled as one
script, or statement by statement.

    (t.push s).body = t.body ++ s.parts                                (body_push)
    t.script.parts = begin :: t.body ++ [end]                          (parts_script)
-/

namespace SqlKit

/-- How a transaction ends. -/
inductive Ending where
  | commit | rollback
deriving DecidableEq, Repr

def Ending.kind : Ending → StatementKind
  | commit => .commit
  | rollback => .rollback

/-- The statements of a transaction and its end. -/
structure Transaction where
  dialect : Dialect
  body : List Script
  ending : Ending

namespace Transaction

/-- A transaction without statements. -/
def new (d : Dialect) (e : Ending) : Transaction := ⟨d, [], e⟩

/-- Appends the statements of a script, each on its own. -/
def push (t : Transaction) (s : Script) : Transaction := { t with body := t.body ++ s.parts }

/-- The whole transaction as a script. -/
def script (t : Transaction) : Script :=
  ⟨.ofStatement { kind := .begin } :: t.body, { kind := t.ending.kind }⟩

/-- The transaction as one text, its placeholders numbered throughout. -/
def build (t : Transaction) : Result Compiled := t.script.compile t.dialect

/-- Its statements, each compiled on its own. -/
def statements (t : Transaction) : Result (List Compiled) := t.body.mapM (·.compile t.dialect)

/-! ## Lemmas -/

theorem body_push (t : Transaction) (s : Script) : (t.push s).body = t.body ++ s.parts := rfl

theorem parts_script (t : Transaction) :
    t.script.parts =
      .ofStatement { kind := .begin } :: t.body ++ [.ofStatement { kind := t.ending.kind }] := rfl

end Transaction

end SqlKit
