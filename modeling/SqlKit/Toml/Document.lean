import SqlKit.Toml.Written

/-!
# TOML documents

The lines of a document, put together.  A table is defined once, by a header or by dotted keys; a
header may still define a table that longer headers implied, and dotted keys may extend a table that
dotted keys made.

    alter o f [] o' es = f o' es                                       (alter_nil)
    assigning k in an empty document gives {k: v}                      (toJson_assign_single)
-/

namespace SqlKit.Toml

/-- What made a table. -/
inductive Origin where
  | header
  /-- A longer header. -/
  | implied
  | dotted
deriving DecidableEq, Repr

/-- A part of a document. -/
inductive Node where
  | value (j : Json)
  | table (origin : Origin) (entries : List (String × Node))
  | tables (items : List (List (String × Node)))

/-! ## Building -/

/-- Changes the table at a path.  Missing tables on the way are made with origin `made`; of a list of
tables the last is meant.  Dotted keys do not pass through a table that has its own header. -/
def alter (made : Origin) (f : Origin → Assoc Node → Option (Assoc Node)) :
    List String → Origin → Assoc Node → Option (Assoc Node)
  | [], origin, es => f origin es
  | k :: ks, _, es =>
    match es.get? k with
    | none => (alter made f ks made []).map fun t => es.insert k (.table made t)
    | some (.table origin t) =>
      if made = .dotted ∧ origin = .header then none
      else (alter made f ks origin t).map fun t => es.insert k (.table origin t)
    | some (.tables items) =>
      match items.getLast? with
      | some t => (alter made f ks .header t).map fun t => es.insert k (.tables (items.dropLast ++ [t]))
      | none => none
    | some (.value _) => none

/-- Puts a value under a dotted key within a table.  All tables that the key passes have to end in
one that dotted keys made. -/
def put (path : List String) (j : Json) (origin : Origin) (es : Assoc Node) : Option (Assoc Node) :=
  match path.getLast? with
  | none => none
  | some k =>
    alter .dotted (fun o t =>
      if (path.length ≠ 1 ∧ o ≠ .dotted) ∨ (t.get? k).isSome then none else some (t.insert k (.value j)))
      path.dropLast origin es

/-- Changes the entry at a path by its last key. -/
def atLast (path : List String) (f : Option Node → Option Node) (es : Assoc Node) :
    Option (Assoc Node) :=
  match path.getLast? with
  | none => none
  | some k => alter .implied (fun _ t => (f (t.get? k)).map (t.insert k)) path.dropLast .header es

/-- Defines a table by a header. -/
def openTable : Option Node → Option Node
  | none => some (.table .header [])
  | some (.table .implied t) => some (.table .header t)
  | _ => none

/-- Adds a table to a list. -/
def addTable : Option Node → Option Node
  | none => some (.tables [[]])
  | some (.tables items) => some (.tables (items ++ [[]]))
  | _ => none

/-! ## Values -/

mutual

def Node.toJson : Node → Json
  | .value j => j
  | .table _ es => .object (entriesToJson es)
  | .tables items => .array (itemsToJson items)

def entriesToJson : List (String × Node) → List (String × Json)
  | [] => []
  | (k, n) :: es => (k, n.toJson) :: entriesToJson es

def itemsToJson : List (List (String × Node)) → List Json
  | [] => []
  | t :: ts => .object (entriesToJson t) :: itemsToJson ts

end

mutual

/-- The value of what is written. -/
def Written.toJson? : Written → Option Json
  | .scalar j => some j
  | .array items => (listToJson? items).map .array
  | .table es => (inlineTable? [] es).map fun t => .object (entriesToJson t)

def listToJson? : List Written → Option (List Json)
  | [] => some []
  | w :: ws => do
    let j ← w.toJson?
    let js ← listToJson? ws
    return j :: js

/-- Puts the entries of an inline table together. -/
def inlineTable? (acc : Assoc Node) : List (List String × Written) → Option (Assoc Node)
  | [] => some acc
  | (path, w) :: es => do
    let j ← w.toJson?
    let acc ← put path j .header acc
    inlineTable? acc es

end

/-- Takes in one line; `header` is the path that assignments are relative to. -/
def Line.addTo? (header : List String) (es : Assoc Node) : Line → Option (List String × Assoc Node)
  | .header path => (atLast path openTable es).map fun es => (path, es)
  | .listHeader path => (atLast path addTable es).map fun es => (path, es)
  | .assign path w => do
    let j ← w.toJson?
    let es ← alter .implied (put path j) header .header es
    return (header, es)

/-- The document that lines make. -/
def ofLines? (ls : List Line) : Option (Assoc Node) :=
  (ls.foldlM (fun s l => Line.addTo? s.1 s.2 l) (([], []) : List String × Assoc Node)).map (·.2)

/-- The value a TOML text denotes. -/
def parse? (text : String) : Option Json := do
  let ls ← read? text
  let es ← ofLines? ls
  return .object (entriesToJson es)

/-! ## Lemmas -/

theorem alter_nil (made : Origin) (f : Origin → Assoc Node → Option (Assoc Node)) (o : Origin)
    (es : Assoc Node) : alter made f [] o es = f o es := rfl

theorem toJson_assign_single (k : String) (j : Json) :
    (ofLines? [.assign [k] (.scalar j)]).map entriesToJson = some [(k, j)] := by
  simp [ofLines?, Line.addTo?, Written.toJson?, alter, put, Assoc.get?, Assoc.insert,
    entriesToJson, Node.toJson]

end SqlKit.Toml
