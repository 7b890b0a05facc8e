/-!
# Quoted tokens

A quoted token is a text between two quotes; inside, the quote is written twice, and where the
backslash escapes, a backslash too.  `read?` takes one token off the front of a text: it undoes the
doubling and stops at the first single quote.

    reading on behind a text that was written gives the text first     (readBody?_body_append)
    read? q esc (quote q esc s ++ r) = some (s, r)   if r does not start with q      (read?_quote)
-/

namespace SqlKit.Text.Quoted

/-! ## Algorithm -/

/-- Writes a character: the quote, and an escaping backslash, twice. -/
def double (q : Char) (escapes : Bool) (c : Char) : List Char :=
  if c = q ∨ (escapes = true ∧ c = '\\') then [c, c] else [c]

/-- The characters between the quotes. -/
def body (q : Char) (escapes : Bool) (s : List Char) : List Char := s.flatMap (double q escapes)

/-- The token for a text. -/
def quote (q : Char) (escapes : Bool) (s : List Char) : List Char := q :: body q escapes s ++ [q]

/-- Reads on behind the opening quote; gives the text and what follows the closing quote. -/
def readBody? (q : Char) (escapes : Bool) : List Char → Option (List Char × List Char)
  | [] => none
  | [c] => if c = q then some ([], []) else none
  | c :: d :: r =>
    if c = q then
      if d = q then (readBody? q escapes r).map fun p => (q :: p.1, p.2) else some ([], d :: r)
    else if escapes = true ∧ c = '\\' then
      (readBody? q escapes r).map fun p => (d :: p.1, p.2)
    else (readBody? q escapes (d :: r)).map fun p => (c :: p.1, p.2)

/-- Reads one token off the front. -/
def read? (q : Char) (escapes : Bool) : List Char → Option (List Char × List Char)
  | [] => none
  | c :: r => if c = q then readBody? q escapes r else none

/-! ## Lemmas -/

section Reading

variable {q : Char} {escapes : Bool}

theorem readBody?_cons {c : Char} (hc : c ≠ q) (he : ¬(escapes = true ∧ c = '\\')) (r : List Char) :
    readBody? q escapes (c :: r) = (readBody? q escapes r).map fun p => (c :: p.1, p.2) := by
  cases r with
  | nil => simp [readBody?, hc]
  | cons d r => simp [readBody?, hc, he]

theorem readBody?_double (hq : q ≠ '\\') (c : Char) (r : List Char) :
    readBody? q escapes (double q escapes c ++ r) =
      (readBody? q escapes r).map fun p => (c :: p.1, p.2) := by
  by_cases hc : c = q
  · subst hc
    simp [double, readBody?]
  · by_cases he : escapes = true ∧ c = '\\'
    · obtain ⟨rfl, rfl⟩ := he
      simp [double, readBody?, Ne.symm hq]
    · rw [double, if_neg (by simp [hc, he]), List.singleton_append, readBody?_cons hc he]

/-- What is read behind a text that was written is read behind it. -/
theorem readBody?_body_append (hq : q ≠ '\\') (s r : List Char) :
    readBody? q escapes (body q escapes s ++ r) =
      (readBody? q escapes r).map fun p => (s ++ p.1, p.2) := by
  induction s with
  | nil => simp [body]
  | cons c s ih =>
    have hbody : body q escapes (c :: s) = double q escapes c ++ body q escapes s := rfl
    rw [hbody, List.append_assoc, readBody?_double hq, ih, Option.map_map]
    rfl

theorem readBody?_close {r : List Char} (hr : r.head? ≠ some q) :
    readBody? q escapes (q :: r) = some ([], r) := by
  cases r with
  | nil => simp [readBody?]
  | cons d r =>
    have hd : d ≠ q := by simpa using hr
    simp [readBody?, hd]

end Reading

/-- The closing quote is found, and nothing before it ends the token. -/
theorem readBody?_body {q : Char} (hq : q ≠ '\\') (escapes : Bool) (s r : List Char)
    (hr : r.head? ≠ some q) :
    readBody? q escapes (body q escapes s ++ q :: r) = some (s, r) := by
  rw [readBody?_body_append hq, readBody?_close hr]
  simp

/-- A token reads back as the text it was written for, and reading stops at its end. -/
theorem read?_quote {q : Char} (hq : q ≠ '\\') (escapes : Bool) (s r : List Char)
    (hr : r.head? ≠ some q) : read? q escapes (quote q escapes s ++ r) = some (s, r) := by
  simpa [read?, quote, List.append_assoc] using readBody?_body hq escapes s r hr

end SqlKit.Text.Quoted
