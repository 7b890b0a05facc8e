import SqlKit.Settings
import SqlKit.Text.Blank
import SqlKit.Text.Split

/-!
# Logging

Which events get into the log.  A filter is a list of directives, each with a level and perhaps a
target; of those whose target an event's target starts with, the longest decides.  Levels go from
errors to traces, and a directive lets through its own level and the more serious ones.

    the empty filter lets nothing through                              (allows_nil)
    a level lets through the more serious ones                         (allows_of_le)
-/

namespace SqlKit.Logging

/-! ## Levels -/

/-- How serious an event is. -/
inductive Level where
  | error
  | warn
  | info
  | debug
  | trace
deriving DecidableEq, Repr

namespace Level

def all : List Level := [error, warn, info, debug, trace]

/-- The name of a level. -/
def name : Level → String
  | error => "ERROR"
  | warn => "WARN"
  | info => "INFO"
  | debug => "DEBUG"
  | trace => "TRACE"

/-- The more serious, the lower. -/
def rank : Level → Nat
  | error => 1
  | warn => 2
  | info => 3
  | debug => 4
  | trace => 5

end Level

/-- Reads the rank of the least serious level to let through: a number, a name of any case, or
nothing, which lets everything through. -/
def rank? (s : List Char) : Option Nat :=
  match Digits.natBelow? 6 (String.ofList s) with
  | .ok n => some n
  | .error _ =>
    let upper := String.ofList (Text.upperAscii s)
    if upper = "" then some 5
    else if upper = "OFF" then some 0
    else (Level.all.find? fun l => l.name = upper).map Level.rank

/-! ## Filters -/

/-- A rule for the events of targets that start in some way. -/
structure Directive where
  /-- Empty for all targets. -/
  target : List Char
  /-- The rank of the least serious level to let through. -/
  rank : Nat
deriving DecidableEq, Repr

/-- A character of a target. -/
def isTargetChar (c : Char) : Bool := c.isAlphanum || c = '_' || c = ':' || c = '-'

/-- Reads a directive: a level, a target, or both with an equals sign between them.  A target alone
lets everything through. -/
def Directive.ofText? (s : List Char) : Option Directive :=
  match Text.splitOnce? '=' s with
  | some (target, level) =>
    if target.isEmpty || !target.all isTargetChar then none
    else (rank? level).map fun rank => { target, rank }
  | none =>
    match rank? s with
    | some rank => some { target := [], rank }
    | none => if s.all isTargetChar then some { target := s, rank := 5 } else none

/-- Directives, the last of equal ones being the one that counts. -/
abbrev Filter := List Directive

namespace Filter

/-- Reads directives with commas between them. -/
def ofText? (s : String) : Option Filter :=
  ((Text.splitAll ',' s.toList).filter fun p => !p.isEmpty).mapM Directive.ofText?

/-- The directive that decides about a target: the longest that fits, and the last of those. -/
def deciding? (f : Filter) (target : String) : Option Directive :=
  (f.filter fun d => d.target.isPrefixOf target.toList).foldl (fun best d =>
    match best with
    | some b => if b.target.length ≤ d.target.length then some d else some b
    | none => some d) none

/-- Does an event get through? -/
def allows (f : Filter) (target : String) (l : Level) : Bool :=
  match f.deciding? target with
  | some d => l.rank ≤ d.rank
  | none => false

/-- The filter of settings; one that cannot be read lets through what is of interest. -/
def ofSettings (s : Settings) : Filter :=
  (ofText? s.logLevel).getD [{ target := [], rank := Level.info.rank }]

/-! ## Lemmas -/

theorem allows_nil (target : String) (l : Level) : allows [] target l = false := rfl

theorem allows_of_le {f : Filter} {target : String} {l l' : Level} (h : l'.rank ≤ l.rank)
    (hl : f.allows target l = true) : f.allows target l' = true := by
  unfold allows at *
  split at hl
  · simp only [decide_eq_true_eq] at *
    omega
  · simp at hl

end Filter

end SqlKit.Logging
