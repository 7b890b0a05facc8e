import SqlKit.Query.Statement

/-!
# Predicates

What a caller may hand in where a condition is wanted.  A blank text and a bare column are refused.

    p.condition? = .ok c ↔ p is c, or a text that is not blank and c is that text   (condition?_ok_iff)
-/

namespace SqlKit

/-- A condition, a text, or a column by mistake. -/
inductive Predicate where
  | condition (c : Condition)
  | raw (sql : String)
  | column (c : Column)

namespace Predicate

/-- The condition meant. -/
def condition? : Predicate → Result Condition
  | condition c => .ok c
  | raw sql =>
    if (Text.trim sql.toList).isEmpty then .error (.argument "predicate must not be an empty string")
    else .ok (.raw sql)
  | column c =>
    .error (.bareColumn
      ("invalid use of bare column " ++ c.text ++ " in predicate, compare it with a value"))

/-! ## Lemmas -/

theorem condition?_ok_iff {p : Predicate} {c : Condition} :
    p.condition? = .ok c ↔
      p = .condition c ∨ ∃ s, p = .raw s ∧ (Text.trim s.toList).isEmpty = false ∧ c = .raw s := by
  cases p with
  | condition d => simp [condition?]
  | raw s =>
    simp only [condition?, reduceCtorEq, raw.injEq, false_or, exists_eq_left']
    split
    · next h => simp [h]
    · next h =>
      simp only [Bool.not_eq_true] at h
      rw [Except.ok.injEq, h]
      exact ⟨fun e => ⟨rfl, e.symm⟩, fun e => e.2.symm⟩
  | column d => simp [condition?]

end Predicate

end SqlKit
