import SqlKit.Value

/-!
# Quoting is exact

A quoted token says what it was written for, and nothing else.  Reading it back gives the text and
stops behind the closing quote, whatever quotes and backslashes the text has.  If another quote follows,
the token goes on, but it never ends within the text.  Where the backslash does not escape, no other
token reads as the same text.

    read? q false t = some (s, r) ↔ t = quote q false s ++ r, and r does not start with q
                                                                       (read?_eq_some_iff)
    read? q esc (quote q esc s ++ r) = some (t, u) → s <+: t ∧ u <:+ r   (prefix_of_read?_quote)
-/

namespace SqlKit

namespace Text.Quoted

variable {q : Char} {escapes : Bool}

/-! ## What is written -/

/-- A text with each occurrence of a character written twice. -/
def doubling (c : Char) (s : List Char) : List Char := s.flatMap fun d => if d = c then [d, d] else [d]

theorem body_plain (q : Char) (s : List Char) : body q false s = doubling q s := by
  unfold body doubling
  congr 1
  funext c
  simp [double]

/-- Quotes are doubled first, then backslashes; neither doubling makes work for the other. -/
theorem body_escaping (hq : q ≠ '\\') (s : List Char) :
    body q true s = doubling '\\' (doubling q s) := by
  simp only [body, doubling, List.flatMap_assoc]
  congr 1
  funext c
  by_cases hc : c = q
  · subst hc
    simp [double, hq]
  · simp [double, hc]

/-! ## Reading on behind what is written -/

/-- Reading leaves an end of the text. -/
theorem suffix_of_readBody? {t u rest : List Char} (h : readBody? q escapes t = some (u, rest)) :
    rest <:+ t := by
  induction t using readBody?.induct q escapes generalizing u with
  | case1 => cases h
  | case2 =>
    simp only [readBody?, if_true, Option.some.injEq, Prod.mk.injEq] at h
    exact h.2 ▸ List.nil_suffix
  | case3 c hc => simp [readBody?, hc] at h
  | case4 r ih =>
    simp only [readBody?, if_true, Option.map_eq_some_iff, Prod.mk.injEq] at h
    obtain ⟨p, hp, -, rfl⟩ := h
    exact (ih hp).trans ((List.suffix_cons q r).trans (List.suffix_cons q _))
  | case5 d r hd =>
    simp only [readBody?, if_true, hd, if_false, Option.some.injEq, Prod.mk.injEq] at h
    exact h.2 ▸ List.suffix_cons q _
  | case6 c d r hc he ih =>
    obtain ⟨rfl, rfl⟩ := he
    simp only [readBody?, hc, if_false, and_self, if_true, Option.map_eq_some_iff,
      Prod.mk.injEq] at h
    obtain ⟨p, hp, -, rfl⟩ := h
    exact (ih hp).trans ((List.suffix_cons d r).trans (List.suffix_cons _ _))
  | case7 c d r hc he ih =>
    simp only [readBody?, hc, if_false, he, Option.map_eq_some_iff, Prod.mk.injEq] at h
    obtain ⟨p, hp, -, rfl⟩ := h
    exact (ih hp).trans (List.suffix_cons c _)

/-- However the text goes on behind a token, the token does not end before its last quote. -/
theorem prefix_of_read?_quote (hq : q ≠ '\\') {s r t rest : List Char}
    (h : read? q escapes (quote q escapes s ++ r) = some (t, rest)) : s <+: t ∧ rest <:+ r := by
  have hbody : read? q escapes (quote q escapes s ++ r) =
      (readBody? q escapes (q :: r)).map fun p => (s ++ p.1, p.2) := by
    rw [← readBody?_body_append hq]
    simp [read?, quote]
  rw [hbody, Option.map_eq_some_iff] at h
  obtain ⟨⟨u, v⟩, hread, heq⟩ := h
  obtain ⟨rfl, rfl⟩ := Prod.mk.inj heq
  refine ⟨List.prefix_append s u, ?_⟩
  by_cases hr : r.head? = some q
  · obtain ⟨r, rfl⟩ := List.head?_eq_some_iff.1 hr
    simp only [readBody?, if_true, Option.map_eq_some_iff, Prod.mk.injEq] at hread
    obtain ⟨p, hp, -, rfl⟩ := hread
    exact (suffix_of_readBody? hp).trans (List.suffix_cons q r)
  · rw [readBody?_close hr] at hread
    obtain ⟨-, rfl⟩ := Prod.mk.inj (Option.some.inj hread)
    exact List.suffix_refl _

/-! ## What reads as a text

Where only quotes are doubled, a text has one token. -/

theorem eq_body_of_readBody? {t u rest : List Char} (h : readBody? q false t = some (u, rest)) :
    t = body q false u ++ q :: rest ∧ rest.head? ≠ some q := by
  induction t using readBody?.induct q false generalizing u with
  | case1 => cases h
  | case2 =>
    simp only [readBody?, if_true, Option.some.injEq, Prod.mk.injEq] at h
    obtain ⟨rfl, rfl⟩ := h
    exact ⟨rfl, by simp⟩
  | case3 c hc => simp [readBody?, hc] at h
  | case4 r ih =>
    simp only [readBody?, if_true, Option.map_eq_some_iff, Prod.mk.injEq] at h
    obtain ⟨p, hp, rfl, rfl⟩ := h
    obtain ⟨hr, hrest⟩ := ih hp
    refine ⟨?_, hrest⟩
    rw [hr]
    simp [body, double]
  | case5 d r hd =>
    simp only [readBody?, if_true, hd, if_false, Option.some.injEq, Prod.mk.injEq] at h
    obtain ⟨rfl, rfl⟩ := h
    exact ⟨rfl, by simpa using hd⟩
  | case6 c d r hc he => exact absurd he.1 (by decide)
  | case7 c d r hc he ih =>
    simp only [readBody?, hc, if_false, he, Option.map_eq_some_iff, Prod.mk.injEq] at h
    obtain ⟨p, hp, rfl, rfl⟩ := h
    obtain ⟨hr, hrest⟩ := ih hp
    refine ⟨?_, hrest⟩
    rw [hr]
    simp [body, double, hc]

theorem read?_eq_some_iff (hq : q ≠ '\\') {t s r : List Char} :
    read? q false t = some (s, r) ↔ t = quote q false s ++ r ∧ r.head? ≠ some q := by
  constructor
  · intro h
    cases t with
    | nil => cases h
    | cons c t =>
      by_cases hc : c = q
      · subst hc
        rw [read?, if_pos rfl] at h
        obtain ⟨rfl, hr⟩ := eq_body_of_readBody? h
        exact ⟨by simp [quote], hr⟩
      · rw [read?, if_neg hc] at h
        cases h
  · rintro ⟨rfl, hr⟩
    exact read?_quote hq false s r hr

end Text.Quoted

/-! ## Identifiers and literals -/

open Text.Quoted

/-- Is the literal of a value its text in quotes? -/
def Value.isQuoted : Value → Bool
  | string _ | date _ | dateTime _ | instant _ | time _ | uuid _ | json _ => true
  | null | bool _ | int _ | float _ | bytes _ | list _ => false

theorem Value.literal_of_isQuoted {v : Value} (h : v.isQuoted = true) (d : Dialect) :
    v.literal d = d.quoteLiteral v.text := by
  cases v with
  | string | date | dateTime | instant | time | uuid | json => rw [literal, text]
  | null | bool | int | float | bytes | list => cases h

theorem toList_quoteIdent (s : String) :
    (quoteIdent s).toList = '"' :: doubling '"' s.toList ++ ['"'] := by
  rw [quoteIdent, String.toList_ofList, quote, body_plain]

theorem Dialect.toList_quoteLiteral (d : Dialect) (s : String) :
    (d.quoteLiteral s).toList = '\'' ::
      (if d.backslashEscapes then doubling '\\' (doubling '\'' s.toList)
        else doubling '\'' s.toList) ++ ['\''] := by
  rw [quoteLiteral, String.toList_ofList, quote]
  cases d.backslashEscapes with
  | true => rw [body_escaping (by decide), if_pos rfl]
  | false => rw [body_plain, if_neg (by decide)]

/-- **Quoting is exact.**  A name is quoted by doubling its quotes, and what reads as that name is its
quoted form and nothing else, provided that no quote follows.  A literal has its quotes doubled and,
where the backslash escapes, then its backslashes; it reads as the text it was written for, and where
the backslash does not escape, nothing else does.  Even if a quote follows, a literal and a quoted name
are read to their last quote at least.  The values with a text in quotes read as that text. -/
theorem quoting_exact (s : String) (r : List Char) :
    ((quoteIdent s).toList = '"' :: doubling '"' s.toList ++ ['"'] ∧
      (∀ t, readIdent? t = some (s.toList, r) ↔
        t = (quoteIdent s).toList ++ r ∧ r.head? ≠ some '"') ∧
      ∀ name rest, readIdent? ((quoteIdent s).toList ++ r) = some (name, rest) →
        s.toList <+: name ∧ rest <:+ r) ∧
    ∀ d : Dialect,
      (d.quoteLiteral s).toList = '\'' ::
        (if d.backslashEscapes then doubling '\\' (doubling '\'' s.toList)
          else doubling '\'' s.toList) ++ ['\''] ∧
      (r.head? ≠ some '\'' →
        d.readLiteral? ((d.quoteLiteral s).toList ++ r) = some (s.toList, r)) ∧
      (d.backslashEscapes = false → ∀ t, d.readLiteral? t = some (s.toList, r) ↔
        t = (d.quoteLiteral s).toList ++ r ∧ r.head? ≠ some '\'') ∧
      (∀ text rest, d.readLiteral? ((d.quoteLiteral s).toList ++ r) = some (text, rest) →
        s.toList <+: text ∧ rest <:+ r) ∧
      ∀ v : Value, v.isQuoted = true → r.head? ≠ some '\'' →
        d.readLiteral? ((v.literal d).toList ++ r) = some (v.text.toList, r) := by
  have hident : (quoteIdent s).toList = quote '"' false s.toList := String.toList_ofList
  refine ⟨⟨toList_quoteIdent s, fun t => ?_, fun name rest h => ?_⟩, fun d => ?_⟩
  · rw [hident]
    exact read?_eq_some_iff (by decide)
  · rw [hident] at h
    exact prefix_of_read?_quote (by decide) h
  · have hliteral : (d.quoteLiteral s).toList = quote '\'' d.backslashEscapes s.toList :=
      String.toList_ofList
    refine ⟨d.toList_quoteLiteral s, d.readLiteral?_quoteLiteral s r, fun hplain t => ?_,
      fun text rest h => ?_, fun v hv hr => ?_⟩
    · rw [hliteral, Dialect.readLiteral?, hplain]
      exact read?_eq_some_iff (by decide)
    · rw [hliteral] at h
      exact prefix_of_read?_quote (by decide) h
    · rw [Value.literal_of_isQuoted hv]
      exact d.readLiteral?_quoteLiteral v.text r hr

/-- A backslash and a quote at either end, with a comma behind the literal and behind the name. -/
theorem quoting_exact_ends :
    let s := "\\'\"x'\\"
    let r := [',']
    let v : Value := .string s
    r.head? ≠ some '"' ∧ r.head? ≠ some '\'' ∧ v.isQuoted = true ∧
      (Dialect.mysql.quoteLiteral s).toList = "'\\\\''\"x''\\\\'".toList ∧
      readIdent? ((quoteIdent s).toList ++ r) = some (s.toList, r) ∧
      Dialect.mysql.readLiteral? ((Dialect.mysql.quoteLiteral s).toList ++ r) = some (s.toList, r) ∧
      Dialect.sqlite.readLiteral? ((Dialect.sqlite.quoteLiteral s).toList ++ r) =
        some (s.toList, r) ∧
      Dialect.mysql.readLiteral? ((v.literal .mysql).toList ++ r) = some (v.text.toList, r) := by
  intro s r v
  have hr : r.head? ≠ some '"' ∧ r.head? ≠ some '\'' := by decide
  obtain ⟨⟨-, hident, -⟩, hall⟩ := quoting_exact s r
  obtain ⟨-, hmysql, -, -, hvalue⟩ := hall .mysql
  obtain ⟨-, -, hsqlite, -⟩ := hall .sqlite
  exact ⟨hr.1, hr.2, rfl, by decide, (hident _).2 ⟨rfl, hr.1⟩, hmysql hr.2,
    (hsqlite rfl _).2 ⟨rfl, hr.2⟩, hvalue v rfl hr.2⟩

end SqlKit
