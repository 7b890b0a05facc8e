import SqlKit.Text.Split

/-!
# Answers laid down beforehand

A rule gives an answer to statements of a kind, to all of them or to so many.  Of several rules the
first that fits answers.

    a rule that is used up fits nothing                                (fits_of_spent)
    without rules there is no answer                                   (answer?_nil)
-/

namespace SqlKit

/-- Which statements a rule is about. -/
inductive Pattern where
  | exact (sql : String)
  | containing (part : String)
deriving DecidableEq, Repr

def Pattern.fits : Pattern → String → Bool
  | exact s, sql => sql = s
  | containing part, sql => Text.contains part sql

/-- An answer to the statements of a kind. -/
structure Rule (α : Type) where
  pattern : Pattern
  /-- How many statements it still answers, if that is bounded. -/
  times : Option Nat := none
  answer : α

namespace Rule

variable {α : Type}

def fits (r : Rule α) (sql : String) : Bool := r.times ≠ some 0 && r.pattern.fits sql

/-- The answer of the first rule that fits, and the rules left after that. -/
def answer? (sql : String) : List (Rule α) → Option α × List (Rule α)
  | [] => (none, [])
  | r :: rs =>
    if r.fits sql then (some r.answer, { r with times := r.times.map (· - 1) } :: rs)
    else
      let (a, rest) := answer? sql rs
      (a, r :: rest)

theorem fits_of_spent (p : Pattern) (a : α) (sql : String) :
    Rule.fits ⟨p, some 0, a⟩ sql = false := rfl

theorem answer?_nil (sql : String) : answer? sql ([] : List (Rule α)) = (none, []) := rfl

end Rule

end SqlKit
