/-!
# Placeholders of MySQL's protocol

Statements are written with `%s` for a parameter, the protocol wants `?`.  Text between quotes of any
of the three kinds stays as it is; a quote ends at the next one of its kind.

    markChars none cs = cs   for cs without quotes and percent signs   (markChars_of_plain)
-/

namespace SqlKit.Mysql

/-! ## Algorithm -/

/-- Opens a literal or a quoted identifier. -/
def isQuote (c : Char) : Bool := c = '\'' || c = '"' || c = '\x60'

/-- Puts a question mark for each placeholder of a text, which starts between quotes or, with `none`,
outside. -/
def markChars : Option Char → List Char → List Char
  | _, [] => []
  | none, '%' :: 's' :: cs => '?' :: markChars none cs
  | none, c :: cs => c :: markChars (if isQuote c then some c else none) cs
  | some q, c :: cs => c :: markChars (if c = q then none else some q) cs

/-- A statement with question marks for placeholders. -/
def withMarks (sql : String) : String := String.ofList (markChars none sql.toList)

/-! ## Lemmas -/

theorem markChars_of_plain {cs : List Char} (h : ∀ c ∈ cs, isQuote c = false ∧ c ≠ '%') :
    markChars none cs = cs := by
  induction cs with
  | nil => rfl
  | cons c cs ih =>
    have hc := h c (by simp)
    have ih' := ih fun d hd => h d (by simp [hd])
    unfold markChars
    split
    · contradiction
    · next heq => exact absurd (List.cons.inj heq).1 hc.2
    · next heq =>
      obtain ⟨rfl, rfl⟩ := List.cons.inj heq
      simp [hc.1, ih']
    · contradiction

end SqlKit.Mysql
