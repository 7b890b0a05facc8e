import SqlKit.Proofs.Leaves
import SqlKit.Proofs.Where
import SqlKit.Proofs.Writing

/-!
# Combinations of conditions

Conditions are combined from leaves by conjunction, by disjunction, by negation, which takes a negation
away instead of putting a second one before it, and by negation nodes put there as they are.  What such
a combination says and what its text reads as are compared place by place: every leaf has a truth value
of its own, also where several leaves have the same text.

    a.condition.evalAt v n = a.evalAt v n                              (Combination.evalAt_condition)
    c.OfLeaves → the text of c reads as a formula over the texts of its leaves, with the value of c
                                                                       (Condition.OfLeaves.readsExactly)
    what is written for a combination reads as the combination         (Combination.write_reads)
-/

namespace SqlKit

open Lexer Chain

/-! ## Truth values of places -/

@[simp] theorem Truth.not_not (t : Truth) : t.not.not = t := by cases t <;> rfl

/-- What a connective says of two truth values. -/
def Connective.apply : Connective → Truth → Truth → Truth
  | and => Truth.and
  | or => Truth.or

namespace Reading

/-- The truth value of a formula when `v` says what its leaves are, the first of them having place
`n`. -/
def evalAt (v : Nat → Truth) : Nat → Reading → Truth
  | n, leaf _ => v n
  | n, not r => (evalAt v n r).not
  | n, and a b => (evalAt v n a).and (evalAt v (n + a.leaves.length) b)
  | n, or a b => (evalAt v n a).or (evalAt v (n + a.leaves.length) b)

theorem leaves_connect (a b : Reading) (op : Connective) :
    (a.connect op b).leaves = a.leaves ++ b.leaves := by
  cases op <;> rfl

theorem evalAt_connect (v : Nat → Truth) (n : Nat) (a b : Reading) (op : Connective) :
    evalAt v n (a.connect op b) = op.apply (evalAt v n a) (evalAt v (n + a.leaves.length) b) := by
  cases op <;> rfl

end Reading

/-! ## Conditions over leaves -/

namespace Condition

/-- The leaves of a condition, in order. -/
def leaves : Condition → List Condition
  | connect a _ b => a.leaves ++ b.leaves
  | negation c => c.leaves
  | c => [c]

/-- The condition is put together from leaves. -/
inductive OfLeaves : Condition → Prop
  | leaf {c : Condition} (h : c.IsLeaf) : OfLeaves c
  | connect {a b : Condition} (op : Connective) (ha : OfLeaves a) (hb : OfLeaves b) :
      OfLeaves (.connect a op b)
  | negation {c : Condition} (h : OfLeaves c) : OfLeaves (.negation c)

/-- The truth value of a condition when `v` says what its leaves are, the first of them having place
`n`. -/
def evalAt (v : Nat → Truth) : Nat → Condition → Truth
  | n, connect a op b => op.apply (evalAt v n a) (evalAt v (n + a.leaves.length) b)
  | n, negation c => (evalAt v n c).not
  | n, _ => v n

theorem evalAt_not (v : Nat → Truth) (n : Nat) (c : Condition) :
    evalAt v n c.not = (evalAt v n c).not := by
  cases c <;> simp [Condition.not, evalAt]

theorem leaves_not (c : Condition) : c.not.leaves = c.leaves := by
  cases c <;> simp [Condition.not, leaves]

theorem OfLeaves.not {c : Condition} (h : c.OfLeaves) : c.not.OfLeaves := by
  cases h with
  | negation h => exact h
  | connect op ha hb => exact .negation (.connect op ha hb)
  | leaf h => cases c <;> first | contradiction | exact .negation (.leaf h)

theorem IsLeaf.leaves {c : Condition} (h : c.IsLeaf) : c.leaves = [c] := by
  cases c <;> first | contradiction | rfl

theorem IsLeaf.evalAt {c : Condition} (h : c.IsLeaf) (v : Nat → Truth) (n : Nat) :
    c.evalAt v n = v n := by
  cases c <;> first | contradiction | rfl

/-! ## Texts of conditions over leaves -/

namespace OfLeaves

variable {c : Condition} {d : Dialect} {f : Piece.Spelling}

theorem isLeaf (h : c.OfLeaves) : ∀ l ∈ c.leaves, l.IsLeaf := by
  induction h with
  | leaf h =>
    rw [h.leaves]
    intro l hl
    obtain rfl := List.mem_singleton.mp hl
    exact h
  | connect op _ _ iha ihb =>
    intro l hl
    rw [Condition.leaves] at hl
    rcases List.mem_append.mp hl with hl | hl
    · exact iha l hl
    · exact ihb l hl
  | negation _ ih =>
    intro l hl
    rw [Condition.leaves] at hl
    exact ih l hl

theorem fault (h : c.OfLeaves) : c.draft.fault = none := by
  induction h with
  | leaf h => exact h.fault
  | connect op _ _ iha ihb =>
    simp only [draft]
    rw [Draft.append_assoc, Draft.append_of_sound (by rw [Draft.fault_paren, iha]),
      Draft.append_of_sound (by rfl)]
    exact (Draft.fault_paren _).trans ihb
  | negation _ ih =>
    simp only [draft]
    rw [Draft.append_of_sound (by rfl)]
    exact (Draft.fault_paren _).trans ih

/-- A condition binds what its leaves bind, in order. -/
theorem params (h : c.OfLeaves) :
    c.draft.params = (c.leaves.map Condition.draft).flatMap Draft.params := by
  induction h with
  | leaf h => simp [h.leaves]
  | connect op ha hb iha ihb =>
    simp only [draft, Condition.leaves]
    rw [Draft.append_assoc, Draft.params_append_of_sound (by rw [Draft.fault_paren, ha.fault]),
      Draft.params_append_of_sound (by rfl), Draft.params_paren ha.fault, Draft.params_paren hb.fault,
      Draft.params_text, iha, ihb]
    simp
  | negation h ih =>
    simp only [draft, Condition.leaves]
    rw [Draft.params_append_of_sound (by rfl), Draft.params_paren h.fault, Draft.params_text, ih]
    rfl

end OfLeaves

/-- The text of a condition reads as a formula over the texts of its leaves, which has the truth value
of the condition whatever its leaves are. -/
structure ReadsExactly (d : Dialect) (f : Piece.Spelling) (k : Nat) (c : Condition) (ch : Chain) :
    Prop where
  text : ∃ ls, Reads d (c.draft.spelled d f k).toList ls ∧ ofLumps? ls = some ch
  leaves : ch.reading.leaves = Draft.spelledFrom d f k (c.leaves.map Condition.draft)
  eval : ∀ v n, ch.reading.evalAt v n = c.evalAt v n

section

variable {d : Dialect} {f : Piece.Spelling} {k : Nat}

theorem ReadsExactly.length_leaves {c : Condition} {ch : Chain} (h : c.ReadsExactly d f k ch) :
    ch.reading.leaves.length = c.leaves.length := by
  rw [h.leaves, Draft.length_spelledFrom, List.length_map]

theorem ReadsExactly.leaf {c : Condition} (hf : Fills d f) (hends : ∀ k v, EndsFirm (f k v).toList)
    (h : c.IsLeaf) : c.ReadsExactly d f k ⟨.leaf (c.draft.spelled d f k), []⟩ := by
  refine ⟨h.reads hf hends k, ?_, ?_⟩
  · rw [h.leaves]
    rfl
  · intro v n
    rw [h.evalAt]
    rfl

theorem ReadsExactly.connect {a b : Condition} {ca cb : Chain} (op : Connective)
    (ha : a.ReadsExactly d f k ca) (hb : b.ReadsExactly d f (k + a.draft.params.length) cb)
    (hxa : a.OfLeaves) (hxb : b.OfLeaves) :
    (connect a op b).ReadsExactly d f k ⟨ca.reading, [(op, cb.reading)]⟩ := by
  have hreading : (Chain.mk ca.reading [(op, cb.reading)]).reading =
      ca.reading.connect op cb.reading := by cases op <;> rfl
  obtain ⟨ls, hls, hca⟩ := ha.text
  obtain ⟨ms, hms, hcb⟩ := hb.text
  refine ⟨reads_connect op hls hca hms hcb hxa.fault hxb.fault, ?_, ?_⟩
  · rw [hreading, Reading.leaves_connect, ha.leaves, hb.leaves, hxa.params, Condition.leaves,
      List.map_append, Draft.spelledFrom_append]
  · intro v n
    rw [hreading, Reading.evalAt_connect, ha.eval, ha.length_leaves, hb.eval, Condition.evalAt]

theorem ReadsExactly.negation {c : Condition} {ch : Chain} (h : c.ReadsExactly d f k ch)
    (hx : c.OfLeaves) : (negation c).ReadsExactly d f k ⟨.not ch.reading, []⟩ := by
  obtain ⟨ls, hls, hch⟩ := h.text
  refine ⟨reads_negation hls hch hx.fault, ?_, ?_⟩
  · rw [Condition.leaves]
    exact h.leaves
  · intro v n
    rw [Condition.evalAt, ← h.eval]
    rfl

theorem OfLeaves.readsExactly {c : Condition} (hf : Fills d f)
    (hends : ∀ k v, EndsFirm (f k v).toList) (h : c.OfLeaves) (k : Nat) :
    ∃ ch, c.ReadsExactly d f k ch := by
  induction h generalizing k with
  | leaf h => exact ⟨_, .leaf hf hends h⟩
  | connect op ha hb iha ihb =>
    obtain ⟨ca, hca⟩ := iha k
    obtain ⟨cb, hcb⟩ := ihb _
    exact ⟨_, .connect op hca hcb ha hb⟩
  | negation h ih =>
    obtain ⟨ch, hch⟩ := ih k
    exact ⟨_, hch.negation h⟩

end

end Condition

/-! ## Combinations -/

/-- How a condition is combined from leaves. -/
inductive Combination where
  | leaf (c : Condition) (h : c.IsLeaf)
  | and (a b : Combination)
  | or (a b : Combination)
  /-- Negation, which takes a negation away. -/
  | not (a : Combination)
  /-- A negation node, whatever stands behind it. -/
  | negation (a : Combination)

namespace Combination

/-- The condition that comes of it. -/
def condition : Combination → Condition
  | leaf c _ => c
  | and a b => a.condition.and b.condition
  | or a b => a.condition.or b.condition
  | not a => a.condition.not
  | negation a => .negation a.condition

/-- The leaves, in order. -/
def leaves : Combination → List Condition
  | leaf c _ => [c]
  | and a b => a.leaves ++ b.leaves
  | or a b => a.leaves ++ b.leaves
  | not a => a.leaves
  | negation a => a.leaves

/-- The truth value of what is spelled when `v` says what the leaves are, the first of them having
place `n`. -/
def evalAt (v : Nat → Truth) : Nat → Combination → Truth
  | n, leaf _ _ => v n
  | n, and a b => (evalAt v n a).and (evalAt v (n + a.leaves.length) b)
  | n, or a b => (evalAt v n a).or (evalAt v (n + a.leaves.length) b)
  | n, not a => (evalAt v n a).not
  | n, negation a => (evalAt v n a).not

theorem ofLeaves_condition (a : Combination) : a.condition.OfLeaves := by
  induction a with
  | leaf c h => exact .leaf h
  | and a b iha ihb => exact .connect .and iha ihb
  | or a b iha ihb => exact .connect .or iha ihb
  | not a ih => exact ih.not
  | negation a ih => exact .negation ih

theorem leaves_condition (a : Combination) : a.condition.leaves = a.leaves := by
  induction a with
  | leaf c h => exact h.leaves
  | and a b iha ihb => rw [condition, Condition.and, Condition.leaves, iha, ihb, leaves]
  | or a b iha ihb => rw [condition, Condition.or, Condition.leaves, iha, ihb, leaves]
  | not a ih => rw [condition, Condition.leaves_not, ih, leaves]
  | negation a ih => rw [condition, Condition.leaves, ih, leaves]

/-- Taking a negation away says the same as putting a second one. -/
theorem evalAt_condition (a : Combination) (v : Nat → Truth) (n : Nat) :
    a.condition.evalAt v n = a.evalAt v n := by
  induction a generalizing n with
  | leaf c h => exact h.evalAt v n
  | and a b iha ihb =>
    rw [condition, Condition.and, Condition.evalAt, iha, ihb, leaves_condition, evalAt]
    rfl
  | or a b iha ihb =>
    rw [condition, Condition.or, Condition.evalAt, iha, ihb, leaves_condition, evalAt]
    rfl
  | not a ih => rw [condition, Condition.evalAt_not, ih, evalAt]
  | negation a ih => rw [condition, Condition.evalAt, ih, evalAt]

/-- **Combinations read as they are spelled.**  Whatever a compiler has counted before, in either mode
and for every dialect, it writes a text that reads as a formula; the leaves of the formula are the texts
that the same compiler writes for the leaves one after another, and it has the truth value of what was
spelled, whatever the leaves are. -/
theorem write_reads (a : Combination) (c : Compiler) :
    ∃ sql texts c' r, a.condition.write.on c = (.ok sql, c') ∧
      (Condition.writeAll a.leaves).on c = (.ok texts, c') ∧
      Reading.ofText? c.dialect sql = some r ∧ r.leaves = texts ∧
      ∀ v, r.evalAt v 0 = a.evalAt v 0 := by
  have hleaves := a.ofLeaves_condition
  obtain ⟨ch, ⟨ls, hls, hch⟩, htexts, heval⟩ :=
    hleaves.readsExactly (Statement.fills_spelling c) c.endsFirm_spelling (c.count + 1)
  have hwrite : a.condition.write.on c = (.ok (c.spell a.condition.draft),
      c.take a.condition.draft.params) := by
    rw [Condition.writes a.condition c, Compiler.write, hleaves.fault]
  have hsound : ∀ x ∈ Condition.drafts a.leaves, x.fault = none := by
    intro x hx
    rw [Condition.drafts_eq_map, ← leaves_condition] at hx
    obtain ⟨l, hl, rfl⟩ := List.mem_map.mp hx
    exact (hleaves.isLeaf l hl).fault
  have hall := (Condition.writesAll a.leaves).on_take hsound c []
  rw [Compiler.take_nil, List.nil_append, List.length_nil, Nat.add_zero, Condition.drafts_eq_map,
    ← leaves_condition, ← htexts, ← hleaves.params, leaves_condition] at hall
  refine ⟨_, _, _, ch.reading, hwrite, hall, ?_, rfl, ?_⟩
  · show Reading.ofText? c.dialect (a.condition.draft.spelled c.dialect c.spelling _) = _
    rw [Reading.ofText?, ofText?_of_reads hls, hch]
    rfl
  · intro v
    rw [heval, evalAt_condition]

end Combination

end SqlKit
