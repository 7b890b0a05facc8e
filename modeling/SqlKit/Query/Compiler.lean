import SqlKit.Query.Rendering

/-!
# The compiler

A compiler spells drafts for one dialect.  It counts the placeholders it has given out and keeps the
values bound to them; in inline mode it writes the values themselves and keeps none.  A node compiled
through it takes its own values away with it, but the count goes on.  After a fault the values bound in
front of it stay.

    (c.write d).1 = .ok sql → c and c' count as many placeholders apart as d binds values
                                                                       (count_write)
    (c.node d).1 = .ok q → q.params = d.params  for c that binds       (params_node)
-/

namespace SqlKit

/-- SQL text and the values of its placeholders, in order. -/
structure Compiled where
  sql : String
  params : List Value

/-- Spells drafts, one after another. -/
structure Compiler where
  dialect : Dialect
  inline : Bool
  /-- Placeholders given out. -/
  count : Nat
  /-- Values bound to them and not yet taken away. -/
  params : List Value

namespace Compiler

/-! ## Algorithm -/

/-- A compiler that binds values. -/
def binding (d : Dialect) : Compiler := ⟨d, false, 0, []⟩

/-- A compiler that writes values as literals, for reading only. -/
def inlining (d : Dialect) : Compiler := ⟨d, true, 0, []⟩

/-- What takes the place of a value. -/
def spelling (c : Compiler) : Piece.Spelling :=
  if c.inline then Piece.literals c.dialect else Piece.placeholders c.dialect

/-- Gives out a placeholder. -/
def next (c : Compiler) : String × Compiler :=
  (c.dialect.placeholder (c.count + 1), { c with count := c.count + 1 })

/-- Binds one value and gives the text that stands for it. -/
def bind (c : Compiler) (v : Value) : String × Compiler :=
  if c.inline then (v.literal c.dialect, c)
  else (c.next.1, { c.next.2 with params := c.params ++ [v] })

/-- Takes in the values a draft binds. -/
def take (c : Compiler) (values : List Value) : Compiler :=
  if c.inline then c
  else { c with count := c.count + values.length, params := c.params ++ values }

/-- The text of a draft. -/
def spell (c : Compiler) (d : Draft) : String :=
  String.join (Piece.spell c.dialect c.spelling (c.count + 1) d.pieces)

/-- Writes a draft; its values stay in the compiler. -/
def write (c : Compiler) (d : Draft) : Result String × Compiler :=
  (match d.fault with
    | some m => .error m.error
    | none => .ok (c.spell d), c.take d.params)

/-- Writes a draft and takes away the values it bound, unless it fails. -/
def node (c : Compiler) (d : Draft) : Result Compiled × Compiler :=
  match c.write d with
  | (.ok sql, c') => (.ok ⟨sql, c'.params.drop c.params.length⟩, { c' with params := c.params })
  | (.error e, c') => (.error e, c')

end Compiler

/-- A draft with placeholders, and the values to bind. -/
def Draft.compile (d : Draft) (dialect : Dialect) : Result Compiled :=
  ((Compiler.binding dialect).node d).1

/-- A draft with its values written out. -/
def Draft.print (d : Draft) (dialect : Dialect) : Result String :=
  ((Compiler.inlining dialect).write d).1

/-- A condition as text for a reader: values written out, for the first dialect. -/
def Condition.text? (c : Condition) : Option String := (c.draft.print .postgres).toOption

/-! ## Lemmas -/

namespace Compiler

theorem count_write {c : Compiler} (h : c.inline = false) (d : Draft) :
    (c.write d).2.count = c.count + d.params.length := by
  simp [write, take, h]

theorem params_write {c : Compiler} (h : c.inline = false) (d : Draft) :
    (c.write d).2.params = c.params ++ d.params := by
  simp [write, take, h]

/-- A node takes away exactly the values its draft binds. -/
theorem params_node {c : Compiler} (h : c.inline = false) {d : Draft} {q : Compiled}
    (hq : (c.node d).1 = .ok q) : q.params = d.params := by
  unfold node write at hq
  cases hf : d.fault with
  | some m => simp [hf] at hq
  | none =>
    simp only [hf] at hq
    obtain rfl := Except.ok.inj hq
    simp [take, h]

/-- Compiling a node leaves no values behind. -/
theorem params_compiler_node {c : Compiler} {d : Draft} {q : Compiled}
    (hq : (c.node d).1 = .ok q) : (c.node d).2.params = c.params := by
  unfold node write at hq ⊢
  cases hf : d.fault with
  | some m => simp [hf] at hq
  | none => simp

end Compiler

end SqlKit
