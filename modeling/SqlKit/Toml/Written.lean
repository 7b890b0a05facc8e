import SqlKit.Toml.Scalar

/-!
# TOML as it is written

A document is a list of lines: headers of tables, headers of lists of tables, and assignments to
dotted keys.  Values may be arrays and tables within a line.

    readKey? gives at least one part                                   (ne_nil_of_readKey?)
-/

namespace SqlKit.Toml

/-! ## Syntax -/

/-- A value as written. -/
inductive Written where
  | scalar (j : Json)
  | array (items : List Written)
  | table (entries : List (List String × Written))

/-- A line that says something. -/
inductive Line where
  | header (path : List String)
  | listHeader (path : List String)
  | assign (path : List String) (value : Written)

/-! ## Reading -/

/-- How deep arrays and inline tables may be nested, and how many parts a key may have. -/
def maxDepth : Nat := 79

/-- Reads a comment up to the end of the line. -/
def skipComment (cs : List Char) : List Char :=
  match cs with
  | '#' :: r => r.dropWhile isText
  | cs => cs

/-- Reads the end of a line: blanks, a comment and a line end or the end of the text. -/
def lineEnd? (cs : List Char) : Option (List Char) :=
  let r := skipComment (skipBlanks cs)
  if r.isEmpty then some [] else newline? r

/-- Skips blanks, comments and line ends; `fuel` bounds the number of lines. -/
def skipLines? : Nat → List Char → Option (List Char)
  | 0, cs => some cs
  | fuel + 1, cs =>
    match skipBlanks cs with
    | '#' :: r => (lineEnd? ('#' :: r)).bind (skipLines? fuel)
    | '\n' :: r => skipLines? fuel r
    | '\r' :: r => (newline? ('\r' :: r)).bind (skipLines? fuel)
    | r => some r

/-- Reads one part of a key. -/
def keyPart? (cs : List Char) : Option (String × List Char) :=
  match cs with
  | [] => none
  | c :: _ =>
    if c = '"' ∨ c = '\'' then (line? cs).map fun p => (String.ofList p.1, p.2)
    else
      let name := cs.takeWhile isBare
      if name.isEmpty then none else some (String.ofList name, cs.drop name.length)

/-- Reads the parts of a key, which dots separate. -/
def keyParts? : Nat → List Char → Option (List String × List Char)
  | 0, _ => none
  | fuel + 1, cs => do
    let (part, rest) ← keyPart? (skipBlanks cs)
    match skipBlanks rest with
    | '.' :: r => do
      let (parts, rest) ← keyParts? fuel r
      return (part :: parts, rest)
    | r => return ([part], r)

/-- Reads a key. -/
def readKey? (cs : List Char) : Option (List String × List Char) := keyParts? maxDepth cs

mutual

/-- Reads a value at most `depth` levels deep. -/
def readValue? : Nat → Nat → List Char → Option (Written × List Char)
  | 0, _, _ => none
  | fuel + 1, depth, cs =>
    match cs with
    | '[' :: r =>
      if depth = 0 then none
      else (readItems? fuel (depth - 1) r).map fun p => (.array p.1, p.2)
    | '\x7b' :: r =>
      if depth = 0 then none
      else match skipBlanks r with
        | '\x7d' :: r => some (.table [], r)
        | _ => (readEntries? fuel (depth - 1) r).map fun p => (.table p.1, p.2)
    | cs => (scalar? cs).map fun p => (.scalar p.1, p.2)

/-- Reads the items of an array up to its closing bracket; a comma may stand behind the last. -/
def readItems? : Nat → Nat → List Char → Option (List Written × List Char)
  | 0, _, _ => none
  | fuel + 1, depth, cs => do
    match ← skipLines? (cs.length + 1) cs with
    | ']' :: r => return ([], r)
    | r => do
      let (v, rest) ← readValue? fuel depth r
      match ← skipLines? (rest.length + 1) rest with
      | ',' :: r => do
        let (vs, rest) ← readItems? fuel depth r
        return (v :: vs, rest)
      | ']' :: r => return ([v], r)
      | _ => none

/-- Reads the entries of an inline table up to its closing brace. -/
def readEntries? : Nat → Nat → List Char → Option (List (List String × Written) × List Char)
  | 0, _, _ => none
  | fuel + 1, depth, cs => do
    let (path, rest) ← readKey? cs
    match rest with
    | '=' :: r => do
      let (v, rest) ← readValue? fuel depth (skipBlanks r)
      match skipBlanks rest with
      | ',' :: r => do
        let (es, rest) ← readEntries? fuel depth r
        return ((path, v) :: es, rest)
      | '\x7d' :: r => return ([(path, v)], r)
      | _ => none
    | _ => none

end

/-- Reads a line that starts with neither a comment nor a line end. -/
def readLine? (cs : List Char) : Option (Line × List Char) :=
  match cs with
  | '[' :: '[' :: r => do
    let (path, rest) ← readKey? r
    match rest with
    | ']' :: ']' :: r => return (.listHeader path, ← lineEnd? r)
    | _ => none
  | '[' :: r => do
    let (path, rest) ← readKey? r
    match rest with
    | ']' :: r => return (.header path, ← lineEnd? r)
    | _ => none
  | cs => do
    let (path, rest) ← readKey? cs
    match rest with
    | '=' :: r => do
      let (v, rest) ← readValue? (2 * r.length + 2) maxDepth (skipBlanks r)
      return (.assign path v, ← lineEnd? rest)
    | _ => none

/-- Reads all lines; `fuel` bounds their number. -/
def readLines? : Nat → List Char → Option (List Line)
  | 0, _ => none
  | fuel + 1, cs => do
    match ← skipLines? (cs.length + 1) cs with
    | [] => return []
    | r => do
      let (l, rest) ← readLine? r
      let ls ← readLines? fuel rest
      return l :: ls

/-- Reads a document; a byte order mark in front of it is skipped. -/
def read? (text : String) : Option (List Line) :=
  let cs := match text.toList with
    | '\uFEFF' :: r => r
    | cs => cs
  readLines? (cs.length + 1) cs

/-! ## Lemmas -/

theorem ne_nil_of_keyParts? {fuel : Nat} {cs rest : List Char} {path : List String}
    (h : keyParts? fuel cs = some (path, rest)) : path ≠ [] := by
  cases fuel with
  | zero => simp [keyParts?] at h
  | succ fuel =>
    simp only [keyParts?, Option.bind_eq_bind, Option.bind_eq_some_iff] at h
    obtain ⟨p, -, h⟩ := h
    split at h
    · obtain ⟨q, -, h⟩ := Option.bind_eq_some_iff.1 h
      have := (Prod.mk.inj (Option.some.inj h)).1
      simp [← this]
    · have := (Prod.mk.inj (Option.some.inj h)).1
      simp [← this]

/-- A key has a part. -/
theorem ne_nil_of_readKey? {cs rest : List Char} {path : List String}
    (h : readKey? cs = some (path, rest)) : path ≠ [] := ne_nil_of_keyParts? h

end SqlKit.Toml
