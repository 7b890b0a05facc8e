import SqlKit.Proofs.Sqlite.Drafts
import SqlKit.Sqlite.Tables

/-!
# Transactions in the language of tables

The statements on tables of keys are told apart by their first word.  Those that begin and end
transactions have words of their own, so no text that starts like a statement on rows is one of them,
whatever it goes on with.

    the first token of a text that starts with a word is the word      (exists_ofText_append)
    the language has what transactions rely on                         (transacts_language)
-/

namespace SqlKit.Sqlite

/-! ## First tokens -/

namespace Token

theorem first_word {c : Char} {w : List Char} (hc : c.isDigit = false)
    (hw : ∀ d ∈ c :: w, isWordChar d = true) (r : List Char) :
    first c (w ++ ' ' :: r) = (ofWord (c :: w), ' ' :: r) := by
  have hspace : isWordChar ' ' = false := by decide
  have htake : ((c :: w) ++ ' ' :: r).takeWhile isWordChar = c :: w := by
    rw [List.takeWhile_append_of_pos hw]
    simp [hspace]
  have hdrop : (w ++ ' ' :: r).dropWhile isWordChar = ' ' :: r := by
    rw [List.dropWhile_append_of_pos fun d hd => hw d (List.mem_cons_of_mem c hd)]
    simp [hspace]
  unfold first
  dsimp only
  rw [if_neg (by simp [hc]), if_pos (hw c (List.mem_cons_self ..)), ← List.cons_append, htake, hdrop]

/-- A text that starts with a word and a blank starts with the token of the word. -/
theorem exists_ofText_append {word : String} {c : Char} {w : List Char}
    (hword : word.toList = c :: w ++ [' ']) (hc : c.isDigit = false)
    (hw : ∀ d ∈ c :: w, isWordChar d = true) (hblank : Text.isBlank c = false)
    (hsymbol : ofWord (c :: w) ≠ .symbol ";") (rest : String) :
    ∃ ts, ofText (word ++ rest) = (0, ofWord (c :: w)) :: ts := by
  have htext : (word ++ rest).toList = c :: (w ++ ' ' :: rest.toList) := by
    rw [String.toList_append, hword]
    simp
  have hlength : (word ++ rest).length = (w ++ ' ' :: rest.toList).length + 1 := by
    rw [← String.length_toList, htext, List.length_cons]
  rw [ofText, htext, hlength, scan, if_neg (by simp [hblank]), first_word hc hw]
  dsimp only
  rw [if_neg hsymbol]
  exact ⟨_, rfl⟩

end Token

/-! ## What a first token rules out -/

namespace Statement

/-- The statement neither begins nor ends a transaction. -/
def isOnRows : Statement → Bool
  | begin _ | commit | rollback => false
  | create .. | insert .. | select .. | delete .. | values .. => true

/-- The words of the statements that begin and end transactions. -/
def borders : List Token := [.key "BEGIN", .key "COMMIT", .key "END", .key "ROLLBACK"]

theorem isOnRows_insert? {table column : String} {ts : List Token} {s : Statement}
    (h : insert? table column ts = some s) : s.isOnRows = true := by
  unfold insert? at h
  simp only [Option.bind_eq_bind, Option.bind_eq_some_iff] at h
  obtain ⟨⟨rows, rest⟩, -, terms, -, h⟩ := h
  split at h <;> cases h <;> rfl

theorem isOnRows_select? {ts : List Token} {s : Statement} (h : select? ts = some s) :
    s.isOnRows = true := by
  unfold select? at h
  split at h <;> simp only [Option.bind_eq_bind, Option.bind_eq_some_iff] at h
  · obtain ⟨⟨filter, rest⟩, -, descending, -, h⟩ := h
    cases h
    rfl
  · obtain ⟨⟨filter, rest⟩, -, descending, -, h⟩ := h
    cases h
    rfl
  · obtain ⟨⟨items, rest⟩, -, h⟩ := h
    split at h <;> cases h
    rfl

theorem isOnRows_values? {ts : List Token} {s : Statement} (h : values? ts = some s) :
    s.isOnRows = true := by
  unfold values? at h
  simp only [Option.bind_eq_bind, Option.bind_eq_some_iff] at h
  obtain ⟨⟨rows, rest⟩, -, h⟩ := h
  split at h
  · split at h <;> cases h
    rfl
  · cases h

/-- Only statements that start with a word of theirs begin and end transactions. -/
theorem isOnRows_ofTokens? {place : Nat} {t : Token} {ts : List Token} {s : Statement}
    (h : ofTokens? place (t :: ts) = some s) (ht : t ∉ borders) : s.isOnRows = true := by
  have hne {t' : Token} {ts' : List Token} (heq : t :: ts = t' :: ts') (ht' : t' ∈ borders) : False :=
    ht ((List.cons.inj heq).1 ▸ ht')
  unfold ofTokens? at h
  split at h
  case h_8 =>
    cases h
    rfl
  case h_9 => exact isOnRows_insert? h
  case h_10 => exact isOnRows_select? h
  case h_11 => exact isOnRows_values? h
  case h_12 =>
    simp only [Option.bind_eq_bind, Option.bind_eq_some_iff] at h
    obtain ⟨⟨filter, rest⟩, -, h⟩ := h
    split at h <;> cases h
    rfl
  case h_13 => cases h
  all_goals
    next heq => exact (hne heq (by decide)).elim

theorem isOnRows_ofText? {sql : String} {s : Statement} {t : Token} {ts : List (Nat × Token)}
    (h : ofText? sql = .ok s) (hfirst : Token.ofText sql = (0, t) :: ts) (ht : t ∉ borders) :
    s.isOnRows = true := by
  unfold ofText? at h
  rw [hfirst] at h
  dsimp only [List.map_cons] at h
  split at h
  · next s' hs =>
    cases h
    exact isOnRows_ofTokens? hs ht
  · cases h

/-- The words of statements on rows are words, and others than those that border transactions. -/
theorem exists_word : ∀ word ∈ rowWords, ∃ c w, word.toList = c :: w ++ [' '] ∧ c.isDigit = false ∧
    (c :: w).all Token.isWordChar = true ∧ Text.isBlank c = false ∧
    Token.ofWord (c :: w) ∉ .symbol ";" :: borders := by
  simp only [rowWords, List.forall_mem_cons]
  refine ⟨⟨'W', ['I', 'T', 'H'], ?_⟩, ⟨'S', ['E', 'L', 'E', 'C', 'T'], ?_⟩,
    ⟨'I', ['N', 'S', 'E', 'R', 'T'], ?_⟩, ⟨'U', ['P', 'D', 'A', 'T', 'E'], ?_⟩,
    ⟨'D', ['E', 'L', 'E', 'T', 'E'], ?_⟩, by simp⟩ <;> decide

/-- What starts like a statement on rows is none that begins or ends a transaction. -/
theorem isOnRows_of_isRowText {sql : String} {s : Statement} (hsql : IsRowText sql)
    (h : ofText? sql = .ok s) : s.isOnRows = true := by
  obtain ⟨word, hword, rest, rfl⟩ := hsql
  obtain ⟨c, w, htext, hc, hw, hblank, hborders⟩ := exists_word word hword
  rw [List.mem_cons, not_or] at hborders
  obtain ⟨ts, hts⟩ :=
    Token.exists_ofText_append htext hc (List.all_eq_true.1 hw) hblank hborders.1 rest
  exact isOnRows_ofText? h hts hborders.2

end Statement

namespace Tables

theorem isOnRows_prepare {sql : String} {ts : Tables} {s : Statement} {p : Prepared Tables}
    (hp : prepare sql ts s = .ok p) (hs : s.isOnRows = true) (args : List Datum) :
    (p.effect args).isOnRows = true := by
  -- The effect is known once the tables and columns are found.
  have hbind {α : Type} {x : Result α} {f : α → Result (Prepared Tables)} (h : x >>= f = .ok p) :
      ∃ a, f a = .ok p := by
    cases x with
    | error e => cases h
    | ok a => exact ⟨a, h⟩
  cases s with
  | begin | commit | rollback => simp [Statement.isOnRows] at hs
  | create name column place =>
    unfold prepare at hp
    dsimp only at hp
    split at hp <;> cases hp
    rfl
  | insert name column terms returning =>
    obtain ⟨t, hp⟩ := hbind hp
    obtain ⟨-, hp⟩ := hbind hp
    cases hp
    rfl
  | select name column filter descending =>
    obtain ⟨t, hp⟩ := hbind hp
    obtain ⟨-, hp⟩ := hbind hp
    cases hp
    rfl
  | delete name filter =>
    obtain ⟨t, hp⟩ := hbind hp
    cases hp
    rfl
  | values columns rows =>
    cases hp
    rfl

/-- The language of tables has what transactions rely on. -/
theorem transacts_language : language.Transacts where
  begin ts := ⟨⟨0, [], fun _ => .begin false⟩, rfl, fun _ => rfl⟩
  commit ts := ⟨⟨0, [], fun _ => .commit⟩, rfl, fun _ => rfl⟩
  rollback ts := ⟨⟨0, [], fun _ => .rollback⟩, rfl, fun _ => rfl⟩
  rows sql ts p hsql hp args := by
    unfold language at hp
    cases hs : Statement.ofText? sql with
    | error e =>
      rw [hs] at hp
      cases hp
    | ok s =>
      rw [hs] at hp
      exact isOnRows_prepare hp (Statement.isOnRows_of_isRowText hsql hs) args

end Tables

end SqlKit.Sqlite
