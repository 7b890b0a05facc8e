import SqlKit.Lookup
import SqlKit.Session.Connection
import SqlKit.Sqlite.Datum

/-!
# Databases and the sessions on them

A database holds a content of some kind `δ`; each commit makes a new version of it.  Outside of a
transaction every change is committed by itself.  A transaction has not looked at the content yet, or
reads the version that it saw first, or writes a draft of the next version; one session writes at a
time.  Statements come prepared: what they do to a content is not said here.

    after w.abandon c, c is outside of a transaction                   (isAutocommit_abandon)
    c' ≠ c → (w.abandon c).stage c' = w.stage c'                       (stage_abandon_of_ne)
-/

namespace SqlKit.Sqlite

/-! ## Statements -/

/-- What a change makes of a content. -/
structure Change (δ : Type) where
  content : δ
  rows : List (List Datum) := []
  /-- How many rows were changed. -/
  count : Nat := 0
  /-- Something was written, so that the content counts as a new version. -/
  isWritten : Bool := true

/-- What a statement does. -/
inductive Effect (δ : Type) where
  /-- Opens a transaction, which may want to be the one that writes from its start. -/
  | begin (writes : Bool)
  | commit
  | rollback
  /-- Gives rows that stand in the statement itself. -/
  | give (rows : List (List Datum))
  | read (rows : δ → List (List Datum))
  /-- Changes the content; a change of rows is counted. -/
  | change (isCounted : Bool) (apply : δ → Result (Change δ))

/-- A statement that has been read and waits for its parameters. -/
structure Prepared (δ : Type) where
  /-- How many parameters it has. -/
  marks : Nat
  columns : List String
  effect : List Datum → Effect δ

/-- A language says what the texts of statements mean where the content is known. -/
abbrev Language (δ : Type) := String → δ → Result (Prepared δ)

/-- Gives a statement its parameters; those that are missing are null. -/
def Prepared.bind {δ : Type} (p : Prepared δ) (params : List Value) : Result (Effect δ) :=
  if p.marks < params.length then .error (.database "Bind error: column index out of range")
  else .ok (p.effect (params.map Datum.ofValue ++ List.replicate (p.marks - params.length) .null))

/-! ## Worlds -/

/-- How far a transaction has come. -/
inductive Stage (δ : Type) where
  | fresh
  | reading (version : Nat) (content : δ)
  | writing (content : δ) (isChanged : Bool)

/-- What belongs to a connection. -/
structure Session (δ : Type) where
  stage : Option (Stage δ) := none
  /-- Rows changed by the last change of rows. -/
  changes : Nat := 0

/-- A database. -/
structure Database (δ : Type) where
  committed : δ
  version : Nat := 0
  /-- The connection whose transaction writes. -/
  writer : Option Nat := none

/-- Where connections find their data. -/
inductive Place where
  /-- Every connection has data of its own. -/
  | own
  /-- A file that all connections share. -/
  | shared
  /-- A file that cannot be opened. -/
  | missing (name : String)
deriving DecidableEq

/-- The databases and sessions of all connections, by number. -/
structure World (δ : Type) where
  place : Place
  databases : Nat → Database δ
  sessions : Nat → Session δ := fun _ => {}
  /-- How many connections were opened. -/
  opened : Nat := 0
  /-- What speaks against committing a content: a constraint that is put off until then. -/
  objection : δ → Option Error := fun _ => none

namespace World

open Lookup

variable {δ : Type}

/-- Nothing is open and every database has the same content. -/
def new (place : Place) (content : δ) : World δ where
  place := place
  databases := fun _ => { committed := content }

/-- The number of the database that a connection works on. -/
def key (w : World δ) (c : Nat) : Nat :=
  match w.place with
  | .own => c
  | .shared | .missing _ => 0

def database (w : World δ) (c : Nat) : Database δ := w.databases (w.key c)

def stage (w : World δ) (c : Nat) : Option (Stage δ) := (w.sessions c).stage

/-- A connection is outside of a transaction. -/
def isAutocommit (w : World δ) (c : Nat) : Bool := (w.stage c).isNone

/-- The content as a connection sees it. -/
def view (w : World δ) (c : Nat) : δ :=
  match w.stage c with
  | some (.reading _ x) | some (.writing x _) => x
  | none | some .fresh => (w.database c).committed

def setDatabase (w : World δ) (c : Nat) (d : Database δ) : World δ :=
  { w with databases := put w.databases (w.key c) d }

def setSession (w : World δ) (c : Nat) (s : Session δ) : World δ :=
  { w with sessions := put w.sessions c s }

def setStage (w : World δ) (c : Nat) (stage : Option (Stage δ)) : World δ :=
  w.setSession c { w.sessions c with stage }

/-- Notes how many rows were changed. -/
def setChanges (w : World δ) (c : Nat) (n : Nat) : World δ :=
  w.setSession c { w.sessions c with changes := n }

/-! ## Ends of transactions -/

/-- Another session is writing, or has written what a reader did not see. -/
def locked : Error := .operational "database is locked"

/-- Makes the draft of a transaction the committed content.  A draft that must not be committed stays
the draft of its transaction. -/
def commit (w : World δ) (c : Nat) : Result Unit × World δ :=
  let d := w.database c
  match w.stage c with
  | none => (.error (.database "cannot commit - no transaction is active"), w)
  | some (.writing x isChanged) =>
    match w.objection x with
    | some e => (.error e, w)
    | none =>
      let version := if isChanged then d.version + 1 else d.version
      (.ok (), (w.setDatabase c { committed := x, version, writer := none }).setStage c none)
  | some _ => (.ok (), w.setStage c none)

/-- Ends a transaction, if there is one, without its changes. -/
def abandon (w : World δ) (c : Nat) : World δ :=
  match w.stage c with
  | some (.writing _ _) =>
    (w.setDatabase c { w.database c with writer := none }).setStage c none
  | _ => w.setStage c none

/-- Ends a transaction without its changes. -/
def rollback (w : World δ) (c : Nat) : Result Unit × World δ :=
  if w.isAutocommit c then
    (.error (.database "cannot rollback - no transaction is active"), w)
  else (.ok (), w.abandon c)

/-! ## Reading, changing and beginning -/

/-- Reads; the first look of a transaction fixes the version it sees. -/
def read (w : World δ) (c : Nat) : δ × World δ :=
  let d := w.database c
  match w.stage c with
  | some .fresh => (d.committed, w.setStage c (some (.reading d.version d.committed)))
  | _ => (w.view c, w)

/-- The content that a change starts from, if the session may write. -/
def writable? (w : World δ) (c : Nat) : Option δ :=
  let d := w.database c
  match w.stage c with
  | some (.writing x _) => some x
  | some (.reading n x) => if d.writer.isNone ∧ n = d.version then some x else none
  | none | some .fresh => if d.writer.isNone then some d.committed else none

/-- Keeps a content as the draft of a transaction or, outside of one, as committed. -/
def keep (w : World δ) (c : Nat) (x : δ) (isChanged : Bool) : World δ :=
  let d := w.database c
  match w.stage c with
  | none =>
    w.setDatabase c { d with
      committed := x
      version := if isChanged then d.version + 1 else d.version }
  | some s =>
    let before := match s with
      | .writing _ b => b
      | _ => false
    (w.setDatabase c { d with writer := some c }).setStage c
      (some (.writing x (before || isChanged)))

/-- Opens a transaction.  One that wants to write becomes the writer first, even if it then turns out
that its session is in a transaction already. -/
def begin (w : World δ) (c : Nat) (writes : Bool) : Result Unit × World δ :=
  let nested : Error := .database "cannot start a transaction within a transaction"
  match w.isAutocommit c, writes with
  | true, false => (.ok (), w.setStage c (some .fresh))
  | false, false => (.error nested, w)
  | isFirst, true =>
    match w.writable? c with
    | none => (.error locked, w)
    | some x =>
      if isFirst then (.ok (), (w.setStage c (some .fresh)).keep c x false)
      else (.error nested, w.keep c x false)

/-- Outside of a transaction a change is committed at once, and so it must not be one that must not
be committed. -/
def checked (w : World δ) (c : Nat) (ch : Change δ) : Result (Change δ) :=
  match w.isAutocommit c, w.objection ch.content with
  | true, some e => .error e
  | _, _ => .ok ch

/-- Changes the content.  A change that fails leaves it as it was, but a transaction that tried to
write stays the one that writes. -/
def change (w : World δ) (c : Nat) (isCounted : Bool) (apply : δ → Result (Change δ)) :
    Result (List (List Datum)) × World δ :=
  let count (n : Nat) (w : World δ) : World δ := if isCounted then w.setChanges c n else w
  match w.writable? c with
  | none => (.error locked, count 0 w)
  | some x =>
    match apply x >>= w.checked c with
    | .error e => (.error e, count 0 (w.keep c x false))
    | .ok ch => (.ok ch.rows, count ch.count (w.keep c ch.content ch.isWritten))

/-- Runs a statement to its end; gives its rows. -/
def run (w : World δ) (c : Nat) : Effect δ → Result (List (List Datum)) × World δ
  | .begin writes =>
    let (r, w) := w.begin c writes
    (r.map fun _ => [], w)
  | .commit =>
    let (r, w) := w.commit c
    (r.map fun _ => [], w)
  | .rollback =>
    let (r, w) := w.rollback c
    (r.map fun _ => [], w)
  | .give rows => (.ok rows, w)
  | .read rows =>
    let (x, w) := w.read c
    (.ok (rows x), w)
  | .change isCounted apply => w.change c isCounted apply

/-! ## Calls -/

/-- Reads a statement and gives it its parameters. -/
def prepare (lang : Language δ) (c : Nat) (sql : String) (params : List Value) :
    Action (World δ) (List String × Effect δ) := .of fun w =>
  (do
    let p ← lang sql (w.view c)
    return (p.columns, ← p.bind params), w)

/-- Runs a statement that gives no rows; gives the count of the last change of rows. -/
def execute (lang : Language δ) (c : Nat) (sql : String) (params : List Value) :
    Action (World δ) Nat := do
  let (_, effect) ← prepare lang c sql params
  let rows ← Action.of fun w => w.run c effect
  if rows.isEmpty then return ((← get).sessions c).changes
  else throw (.database "Execute returned results - did you mean to call query?")

/-- Runs a query and gives its rows, up to a limit.  A query of which no row is wanted does not
run. -/
def fetch (lang : Language δ) (c : Nat) (sql : String) (params : List Value) (limit : Option Nat) :
    Action (World δ) (List Row) := do
  let (columns, effect) ← prepare lang c sql params
  if limit = some 0 then return []
  let rows ← Action.of fun w => w.run c effect
  let rows := match limit with
    | some n => rows.take n
    | none => rows
  rows.mapM fun row => Action.ofResult (Row.ofLists? columns (row.map Datum.toValue))

/-! ## Lemmas -/

@[simp] theorem stage_setDatabase (w : World δ) (c c' : Nat) (d : Database δ) :
    (w.setDatabase c d).stage c' = w.stage c' := rfl

@[simp] theorem stage_setStage (w : World δ) (c : Nat) (s : Option (Stage δ)) :
    (w.setStage c s).stage c = s := by
  simp [setStage, setSession, stage]

theorem stage_setSession_of_ne (w : World δ) {c c' : Nat} (s : Session δ) (h : c' ≠ c) :
    (w.setSession c s).stage c' = w.stage c' := by
  simp [setSession, stage, put_of_ne _ _ h]

theorem stage_setStage_of_ne (w : World δ) {c c' : Nat} (s : Option (Stage δ)) (h : c' ≠ c) :
    (w.setStage c s).stage c' = w.stage c' := stage_setSession_of_ne w _ h

theorem isAutocommit_abandon (w : World δ) (c : Nat) : (w.abandon c).isAutocommit c = true := by
  unfold abandon isAutocommit
  split <;> simp

theorem stage_abandon_of_ne (w : World δ) {c c' : Nat} (h : c' ≠ c) :
    (w.abandon c).stage c' = w.stage c' := by
  unfold abandon
  split <;> simp [stage_setStage_of_ne _ _ h]

end World

end SqlKit.Sqlite
