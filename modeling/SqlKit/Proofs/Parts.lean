import SqlKit.Proofs.Lexing
import SqlKit.Proofs.Precedence

/-!
# Predicates and connectives

When the reader takes a text for one predicate, and what it makes of two texts with a connective
between them.  A predicate has no connective outside of parentheses; a formula in parentheses and the
negation of one read as what the formula says.

    ofLumps? ls = a → ofLumps? ms = b → ofLumps? (ls ++ op ++ ms) = a.join op b   (ofLumps?_join)
    ofLumps? of a calm list that starts with a quotation is one leaf   (ofLumps?_of_calm)
-/

namespace SqlKit

namespace Lump

/-! ## Connectives -/

/-- A blank at the end of a part changes nothing. -/
theorem operand?_append_blank (ls : List Lump) {b : Lump} (hb : b.isBlank = true) :
    operand? (ls ++ [b]) = operand? ls := by
  induction ls with
  | nil => simp [operand?, hb]
  | cons l ls ih =>
    have htrim : trimEnd (l :: (ls ++ [b])) = trimEnd (l :: ls) := by
      simp [trimEnd, hb]
    simp only [List.cons_append, operand?, ih, primary?, htrim]

/-- A word with blanks around it. -/
def keyword (w : String) : List Lump :=
  [.token (.blank ' '), .token (.word w.toList), .token (.blank ' ')]

/-- What is between two texts that are connected. -/
def between (op : Connective) : List Lump := keyword op.sql

theorem connective?_word (op : Connective) :
    Scope.top.connective? (.token (.word op.sql.toList)) = some op := by
  cases op <;> decide

theorem connective?_blank (s : Scope) (c : Char) : s.connective? (.token (.blank c)) = none := by
  simp [Scope.connective?, isWord]

theorem after_blank (s : Scope) (c : Char) : s.after (.token (.blank c)) = s := by
  simp [Scope.after, isWord]

/-- The parts of two texts with a connective between them: those of the first, the last of which may
have got a blank, and those of the second, the first of which has. -/
theorem parts?_join (op : Connective) {s : Scope} {ls ms : List Lump} {x y : List Lump}
    {xs ys : List (Connective × List Lump)} (hl : parts? s ls = some (x, xs))
    (hm : parts? .top ms = some (y, ys)) :
    ∃ x' xs', parts? s (ls ++ (between op ++ ms)) =
        some (x', xs' ++ (op, .token (.blank ' ') :: y) :: ys) ∧
      (x' = x ∨ x' = x ++ [.token (.blank ' ')]) ∧ links? xs' = links? xs := by
  induction ls generalizing s x xs with
  | nil =>
    rw [parts?] at hl
    by_cases hs : s = .top
    · subst hs
      rw [if_pos rfl] at hl
      obtain ⟨rfl, rfl⟩ := Prod.mk.inj (Option.some.inj hl)
      refine ⟨[.token (.blank ' ')], [], ?_, Or.inr rfl, rfl⟩
      simp [between, keyword, parts?, connective?_blank, after_blank, connective?_word, hm]
    · rw [if_neg hs] at hl
      contradiction
  | cons l ls ih =>
    rw [parts?] at hl
    simp only [List.cons_append, parts?]
    cases hc : s.connective? l with
    | some op' =>
      rw [hc] at hl
      obtain ⟨⟨z, zs⟩, hz, hp⟩ := Option.map_eq_some_iff.mp hl
      obtain ⟨rfl, rfl⟩ := Prod.mk.inj hp
      obtain ⟨z', zs', hall, hz', hlinks⟩ := ih hz
      refine ⟨[], (op', z') :: zs', ?_, Or.inl rfl, ?_⟩
      · rw [hall]
        rfl
      · have hoperand : operand? z' = operand? z := by
          rcases hz' with rfl | rfl
          · rfl
          · exact operand?_append_blank z rfl
        simp only [links?, hoperand, hlinks]
    | none =>
      rw [hc] at hl
      obtain ⟨⟨z, zs⟩, hz, hp⟩ := Option.map_eq_some_iff.mp hl
      obtain ⟨rfl, rfl⟩ := Prod.mk.inj hp
      obtain ⟨z', zs', hall, hz', hlinks⟩ := ih hz
      refine ⟨l :: z', zs', ?_, ?_, hlinks⟩
      · rw [hall]
        rfl
      · rcases hz' with rfl | rfl
        · exact Or.inl rfl
        · exact Or.inr rfl

theorem links?_append {xs ys : List (Connective × List Lump)} {as bs : List (Connective × Reading)}
    (hx : links? xs = some as) (hy : links? ys = some bs) : links? (xs ++ ys) = some (as ++ bs) := by
  induction xs generalizing as with
  | nil =>
    obtain rfl := Option.some.inj hx
    exact hy
  | cons x xs ih =>
    obtain ⟨op, ls⟩ := x
    rw [links?] at hx
    obtain ⟨r, hr, hx⟩ := Option.bind_eq_some_iff.mp hx
    obtain ⟨rs, hrs, rfl⟩ := Option.map_eq_some_iff.mp hx
    rw [List.cons_append, links?, hr, Option.bind_some, ih hrs]
    rfl

/-! ## Predicates -/

/-- A lump that neither connects, nor opens a scope, nor separates the items of a list. -/
def Calm (l : Lump) : Prop :=
  l.isComma = false ∧ ∀ w ∈ ["CASE", "END", "BETWEEN", "AND", "OR"], l.isWord w = false

instance (l : Lump) : Decidable l.Calm :=
  inferInstanceAs (Decidable (l.isComma = false ∧
    ∀ w ∈ ["CASE", "END", "BETWEEN", "AND", "OR"], l.isWord w = false))

theorem Calm.connective? {l : Lump} (h : l.Calm) (s : Scope) : s.connective? l = none := by
  simp [Scope.connective?, h.2 "AND" (by simp), h.2 "OR" (by simp)]

theorem Calm.after {l : Lump} (h : l.Calm) (s : Scope) : s.after l = s := by
  simp [Scope.after, h.2 "CASE" (by simp), h.2 "END" (by simp), h.2 "BETWEEN" (by simp),
    h.2 "AND" (by simp)]

theorem calm_group (cs : List Char) (r : Option Reading) : (group cs r).Calm := by
  refine ⟨rfl, ?_⟩
  intro w _
  rfl

theorem calm_quoted (q : Char) (cs : List Char) : (token (.quoted q cs)).Calm := by
  refine ⟨rfl, ?_⟩
  intro w _
  rfl

theorem calm_blank (c : Char) : (token (.blank c)).Calm := by
  refine ⟨rfl, ?_⟩
  intro w _
  rfl

theorem calm_sign {c : Char} (h : c ≠ ',') : (token (.sign c)).Calm := by
  refine ⟨?_, ?_⟩
  · unfold isComma
    split
    · next heq =>
      obtain rfl : c = ',' := by simpa using heq
      exact absurd rfl h
    · rfl
  · intro w _
    rfl

/-- Calm lumps belong to the part that follows. -/
theorem parts?_of_calm {ls : List Lump} (h : ∀ l ∈ ls, l.Calm) (s : Scope) (ms : List Lump) :
    parts? s (ls ++ ms) = (parts? s ms).map fun p => (ls ++ p.1, p.2) := by
  induction ls with
  | nil => simp
  | cons l ls ih =>
    have hl := h l (by simp)
    rw [List.cons_append, parts?, hl.connective?, hl.after, ih fun m hm => h m (by simp [hm])]
    cases parts? s ms <;> rfl

/-- A keyword that does not connect here belongs to the part that follows. -/
theorem parts?_keyword {w : String} {s : Scope}
    (h : s.connective? (.token (.word w.toList)) = none) (ms : List Lump) :
    parts? s (keyword w ++ ms) =
      (parts? (s.after (.token (.word w.toList))) ms).map fun p => (keyword w ++ p.1, p.2) := by
  have hblank : ∀ t : Scope, t.connective? (.token (.blank ' ')) = none :=
    fun t => connective?_blank t ' '
  simp only [keyword, List.cons_append, List.nil_append, parts?, hblank, after_blank, h]
  cases parts? (s.after (.token (.word w.toList))) ms <;> rfl

theorem isComma_keyword {w : String} {l : Lump} (h : l ∈ keyword w) : l.isComma = false := by
  simp only [keyword, List.mem_cons, List.not_mem_nil, or_false] at h
  rcases h with rfl | rfl | rfl <;> rfl

/-- Trimming takes nothing from a list but blanks at its end. -/
theorem trimEnd_cons {l : Lump} (h : l.isBlank = false) (ls : List Lump) :
    ∃ ms, trimEnd (l :: ls) = l :: ms ∧ ∀ m ∈ ms, m ∈ ls := by
  refine ⟨trimEnd ls, ?_, ?_⟩
  · simp only [trimEnd, List.reverse_cons]
    rw [List.dropWhile_append]
    split
    · next hnil =>
      have hnil' := List.isEmpty_iff.mp hnil
      simp [h, hnil']
    · simp
  · intro m hm
    rw [trimEnd, List.mem_reverse] at hm
    exact List.mem_reverse.mp ((List.dropWhile_sublist _).subset hm)

/-- A part that starts with a quotation and has no commas is a predicate. -/
theorem operand?_of_quoted (q : Char) (cs : List Char) {ls : List Lump}
    (h : ∀ l ∈ ls, l.isComma = false) :
    ∃ t, operand? (token (.quoted q cs) :: ls) = some (.leaf t) := by
  obtain ⟨ms, htrim, hms⟩ := trimEnd_cons (l := token (.quoted q cs)) rfl ls
  have hcomma : (token (.quoted q cs) :: ms).any isComma = false := by
    rw [List.any_eq_false]
    intro m hm
    rcases List.mem_cons.mp hm with rfl | hm
    · simp [isComma]
    · simp [h m (hms m hm)]
  refine ⟨String.ofList ((token (.quoted q cs) :: ms).flatMap chars), ?_⟩
  simp only [operand?, isBlank, isWord, Bool.false_eq_true, if_false, Bool.or_self, primary?, htrim,
    hcomma]

end Lump

namespace Chain

open Lump

theorem ofLumps?_join (op : Connective) {ls ms : List Lump} {a b : Chain}
    (ha : ofLumps? ls = some a) (hb : ofLumps? ms = some b) :
    ofLumps? (ls ++ (between op ++ ms)) = some (a.join op b) := by
  obtain ⟨⟨x, xs⟩, hx, ha⟩ := Option.bind_eq_some_iff.mp ha
  obtain ⟨⟨y, ys⟩, hy, hb⟩ := Option.bind_eq_some_iff.mp hb
  obtain ⟨rx, hrx, ha⟩ := Option.bind_eq_some_iff.mp ha
  obtain ⟨ry, hry, hb⟩ := Option.bind_eq_some_iff.mp hb
  obtain ⟨as, has, rfl⟩ := Option.map_eq_some_iff.mp ha
  obtain ⟨bs, hbs, rfl⟩ := Option.map_eq_some_iff.mp hb
  obtain ⟨x', xs', hall, hx', hlinks⟩ := parts?_join op hx hy
  have hfirst : operand? x' = some rx := by
    rcases hx' with rfl | rfl
    · exact hrx
    · exact (operand?_append_blank x rfl).trans hrx
  have hsecond : links? ((op, .token (.blank ' ') :: y) :: ys) = some ((op, ry) :: bs) := by
    have hblank : operand? (.token (.blank ' ') :: y) = some ry := by
      rw [operand?]
      exact hry
    rw [links?, hblank, Option.bind_some, hbs]
    rfl
  rw [ofLumps?, hall, Option.bind_some, hfirst, Option.bind_some,
    links?_append (hlinks.trans has) hsecond]
  rfl

/-- Calm lumps that start with a quotation are one predicate. -/
theorem ofLumps?_of_calm (q : Char) (cs : List Char) {ls : List Lump} (h : ∀ l ∈ ls, l.Calm) :
    ∃ t, ofLumps? (.token (.quoted q cs) :: ls) = some ⟨.leaf t, []⟩ := by
  have hall : ∀ l ∈ Lump.token (.quoted q cs) :: ls, l.Calm := by
    intro l hl
    rcases List.mem_cons.mp hl with rfl | hl
    · exact calm_quoted q cs
    · exact h l hl
  obtain ⟨t, ht⟩ := operand?_of_quoted q cs fun l hl => (h l hl).1
  have hparts := parts?_of_calm hall .top []
  rw [List.append_nil] at hparts
  refine ⟨t, ?_⟩
  rw [ofLumps?, hparts, parts?, if_pos rfl, Option.map_some, Option.bind_some, List.append_nil, ht]
  rfl

/-- The `AND` of a range does not connect. -/
theorem ofLumps?_between (q : Char) (cs : List Char) {ls ms ns : List Lump} (hl : ∀ l ∈ ls, l.Calm)
    (hm : ∀ m ∈ ms, m.Calm) (hn : ∀ n ∈ ns, n.Calm) :
    ∃ t, ofLumps? (.token (.quoted q cs) ::
        (ls ++ (keyword "BETWEEN" ++ (ms ++ (keyword "AND" ++ ns))))) = some ⟨.leaf t, []⟩ := by
  have hquoted := calm_quoted q cs
  have hlast := parts?_of_calm hn .top []
  have hand := parts?_keyword (w := "AND") (s := ⟨0, true⟩) (by decide) ns
  have hlower := parts?_of_calm hm ⟨0, true⟩ (keyword "AND" ++ ns)
  have hrange := parts?_keyword (w := "BETWEEN") (s := .top) (by decide) (ms ++ (keyword "AND" ++ ns))
  have hcolumn := parts?_of_calm hl .top (keyword "BETWEEN" ++ (ms ++ (keyword "AND" ++ ns)))
  have hopened : Scope.after .top (.token (.word "BETWEEN".toList)) = ⟨0, true⟩ := by decide
  have hclosed : Scope.after ⟨0, true⟩ (.token (.word "AND".toList)) = .top := by decide
  rw [List.append_nil, parts?, if_pos rfl] at hlast
  rw [hclosed, hlast] at hand
  rw [hand] at hlower
  rw [hopened, hlower] at hrange
  rw [hrange] at hcolumn
  simp only [Option.map_some, List.append_nil] at hcolumn
  have hcomma : ∀ l ∈ ls ++ (keyword "BETWEEN" ++ (ms ++ (keyword "AND" ++ ns))), l.isComma = false := by
    intro l hmem
    simp only [List.mem_append] at hmem
    rcases hmem with h | h | h | h | h
    · exact (hl l h).1
    · exact isComma_keyword h
    · exact (hm l h).1
    · exact isComma_keyword h
    · exact (hn l h).1
  obtain ⟨t, ht⟩ := operand?_of_quoted q cs hcomma
  refine ⟨t, ?_⟩
  rw [ofLumps?, parts?, hquoted.connective?]
  simp only [hquoted.after, hcolumn, Option.map_some, Option.bind_some, ht, links?]

/-- A formula in parentheses is an operand. -/
theorem ofLumps?_group {ls : List Lump} {c : Chain} (h : ofLumps? ls = some c) :
    ofLumps? [Chain.group ls] = some ⟨c.reading, []⟩ := by
  have hg : Chain.group ls =
      .group ('(' :: (ls.flatMap Lump.chars ++ [')'])) (some c.reading) := by
    rw [Chain.group, h]
    rfl
  have hcalm : ∀ l ∈ [Chain.group ls], l.Calm := by simpa [hg] using calm_group _ _
  have hparts := parts?_of_calm hcalm .top []
  rw [List.append_nil] at hparts
  rw [ofLumps?, hparts, parts?, if_pos rfl, Option.map_some, Option.bind_some, List.append_nil, hg]
  simp [operand?, Lump.isBlank, isWord, primary?, trimEnd, links?]

/-- The negation of a formula in parentheses. -/
theorem ofLumps?_not {ls : List Lump} {c : Chain} (h : ofLumps? ls = some c) :
    ofLumps? [.token (.word "NOT".toList), .token (.blank ' '), Chain.group ls] =
      some ⟨.not c.reading, []⟩ := by
  have hg : Chain.group ls =
      .group ('(' :: (ls.flatMap Lump.chars ++ [')'])) (some c.reading) := by
    rw [Chain.group, h]
    rfl
  have hword : (Lump.token (.word "NOT".toList)).Calm := by
    refine ⟨rfl, ?_⟩
    decide
  have hcalm : ∀ l ∈ [.token (.word "NOT".toList), .token (.blank ' '), Chain.group ls], Calm l := by
    intro l hl
    simp only [List.mem_cons, List.not_mem_nil, or_false] at hl
    rcases hl with rfl | rfl | rfl
    · exact hword
    · exact calm_blank ' '
    · rw [hg]
      exact calm_group _ _
  have hparts := parts?_of_calm hcalm .top []
  rw [List.append_nil] at hparts
  rw [ofLumps?, hparts, parts?, if_pos rfl, Option.map_some, Option.bind_some, List.append_nil, hg]
  rfl

end Chain

end SqlKit
