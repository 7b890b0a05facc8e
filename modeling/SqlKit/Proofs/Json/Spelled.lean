import SqlKit.Proofs.Json.Floats
import SqlKit.Proofs.Json.Quoted

/-!
# JSON text reads as what it spells

`written` is the syntax of a value as its text spells it.  In front of anything that may follow a
value, the text reads as this syntax, and the fuel that comes with the whole text is enough.

    readValue? fuel ((text j).toList ++ r) = some (written j, r)       (reads)
    read? (text j) = some (written j)                                  (read?_text)
-/

namespace SqlKit.Json

/-! ## Values as they are built -/

mutual

/-- A value as programs build it: integers of 64 bits, signed or unsigned, finite doubles, members in
the order of their keys. -/
def Proper : Json → Prop
  | null => True
  | bool _ => True
  | int i => -0x8000000000000000 ≤ i ∧ i < 0x10000000000000000
  | float x => x.IsFinite
  | string _ => True
  | array items => ProperItems items
  | object ms => Assoc.IsSorted ms ∧ ProperMembers ms

def ProperItems : List Json → Prop
  | [] => True
  | j :: js => Proper j ∧ ProperItems js

def ProperMembers : List (String × Json) → Prop
  | [] => True
  | (_, v) :: ms => Proper v ∧ ProperMembers ms

end

/-! ## Syntax -/

mutual

/-- The syntax that the text of a value spells. -/
def written : Json → Written
  | null => .null
  | bool b => .bool b
  | int i => .number (.ofInt i)
  | float x => .number (.ofDouble x)
  | string s => .string (units s)
  | array items => .array (itemsWritten items)
  | object ms => .object (membersWritten ms)

def itemsWritten : List Json → List Written
  | [] => []
  | j :: js => written j :: itemsWritten js

def membersWritten : List (String × Json) → List (List CodeUnit × Written)
  | [] => []
  | (k, v) :: ms => (units k, written v) :: membersWritten ms

end

/-! ## First characters -/

/-- No space, and no bracket that closes an array. -/
def Opens (s : List Char) : Prop := ∃ c r, s = c :: r ∧ isSpace c = false ∧ c ≠ ']'

theorem skipSpace_cons {c : Char} (h : isSpace c = false) (r : List Char) :
    skipSpace (c :: r) = c :: r := by
  rw [skipSpace, List.dropWhile_cons_of_neg (by simp [h])]

theorem Opens.skipSpace {s : List Char} (h : Opens s) (r : List Char) :
    skipSpace (s ++ r) = s ++ r := by
  obtain ⟨c, s, rfl, hc, -⟩ := h
  exact skipSpace_cons hc (s ++ r)

theorem opens_cons {c : Char} {s : List Char} (h : isSpace c = false) (h' : c ≠ ']') :
    Opens (c :: s) := ⟨c, s, rfl, h, h'⟩

theorem opens_digit {c : Char} {s : List Char} (h : isDigit c = true) : Opens (c :: s) := by
  have hspace : isSpace c = false := by
    simp only [isSpace, Bool.or_eq_false_iff, decide_eq_false_iff_not]
    refine ⟨⟨⟨?_, ?_⟩, ?_⟩, ?_⟩ <;>
      · rintro rfl
        exact absurd h (by decide)
  exact opens_cons hspace (by rintro rfl; exact absurd h (by decide))

theorem Numeral.WellFormed.exists_cons {n : Numeral} (hn : n.WellFormed) :
    ∃ c r, n.chars = c :: r ∧ isDigit c = true := by
  obtain ⟨c, r, h⟩ := List.exists_cons_of_ne_nil hn.whole_ne_nil
  refine ⟨c, _, by rw [Numeral.chars, h, List.cons_append], hn.whole c ?_⟩
  rw [h]
  exact List.mem_cons_self ..

/-! ## Numbers -/

theorem readValue?_minus (fuel : Nat) (r : List Char) :
    readValue? (fuel + 1) ('-' :: r) = (readNumeral? true r).map fun p => (.number p.1, p.2) := by
  rw [readValue?, skipSpace_cons (by decide)]
  rfl

theorem readValue?_digit (fuel : Nat) {c : Char} (hc : isDigit c = true) (r : List Char) :
    readValue? (fuel + 1) (c :: r) =
      (readNumeral? false (c :: r)).map fun p => (.number p.1, p.2) := by
  obtain ⟨c', r', h, hspace, -⟩ := opens_digit (s := r) hc
  obtain ⟨rfl, rfl⟩ := List.cons.inj h
  rw [readValue?, skipSpace_cons hspace]
  split
  · next h =>
    obtain ⟨rfl, -⟩ := List.cons.inj h
    exact absurd hc (by decide)
  · next h =>
    obtain ⟨rfl, -⟩ := List.cons.inj h
    exact absurd hc (by decide)
  · next h =>
    obtain ⟨rfl, -⟩ := List.cons.inj h
    exact absurd hc (by decide)
  · next h =>
    obtain ⟨rfl, -⟩ := List.cons.inj h
    exact absurd hc (by decide)
  · next h =>
    obtain ⟨rfl, rfl⟩ := List.cons.inj h
    rw [if_pos hc]
  · next h => cases h

/-- A numeral behind its sign reads as itself. -/
theorem readValue?_numeral (fuel : Nat) {n : Numeral} (hn : n.WellFormed) {r : List Char}
    (hr : Stops r) :
    readValue? (fuel + 1) ((if n.negative then ['-'] else []) ++ n.chars ++ r) =
      some (.number n, r) := by
  have hread := Numeral.readNumeral?_chars hn hr
  obtain ⟨c, s, hcons, hdigit⟩ := hn.exists_cons
  cases hneg : n.negative with
  | true =>
    rw [hneg] at hread
    rw [if_pos rfl, List.singleton_append, List.cons_append, readValue?_minus, hread]
    rfl
  | false =>
    rw [hneg] at hread
    simp only [Bool.false_eq_true, if_false, List.nil_append]
    rw [hcons, List.cons_append, readValue?_digit _ hdigit, ← List.cons_append, ← hcons, hread]
    rfl

/-! ## Words and strings -/

theorem readValue?_null (fuel : Nat) (r : List Char) :
    readValue? (fuel + 1) ("null".toList ++ r) = some (.null, r) := by
  simp [readValue?, skipSpace, isSpace, isDigit, Digits.digit?, readWord?]
  rfl

theorem readValue?_bool (fuel : Nat) (b : Bool) (r : List Char) :
    readValue? (fuel + 1) ((if b then "true" else "false").toList ++ r) = some (.bool b, r) := by
  cases b <;> simp [readValue?, skipSpace, isSpace, isDigit, Digits.digit?, readWord?] <;> rfl

theorem toList_quote_append (s : String) (r : List Char) :
    (quote s).toList ++ r = '"' :: (s.toList.flatMap escape ++ '"' :: r) := by
  simp [quote]

theorem readValue?_quote (fuel : Nat) (s : String) (r : List Char) :
    readValue? (fuel + 1) ((quote s).toList ++ r) = some (.string (units s), r) := by
  have hunits := readUnits?_flatMap s.toList r
  rw [toList_quote_append, readValue?, skipSpace_cons (by decide)]
  simp only [hunits]
  rfl

/-! ## Arrays and objects -/

/-- The items of an array as they are written. -/
def itemsChars (js : List Json) : List Char := (",".intercalate (itemTexts js)).toList

/-- The members of an object as they are written. -/
def membersChars (ms : List (String × Json)) : List Char := (",".intercalate (memberTexts ms)).toList

theorem itemsChars_singleton (j : Json) : itemsChars [j] = (text j).toList := by
  simp [itemsChars, itemTexts]

theorem itemsChars_cons_cons (j j' : Json) (js : List Json) :
    itemsChars (j :: j' :: js) = (text j).toList ++ ',' :: itemsChars (j' :: js) := by
  simp only [itemsChars, itemTexts, String.intercalate_cons_cons, String.toList_append]
  simp

theorem membersChars_singleton (k : String) (v : Json) :
    membersChars [(k, v)] = (quote k).toList ++ ':' :: (text v).toList := by
  simp [membersChars, memberTexts]

theorem membersChars_cons_cons (k : String) (v : Json) (m : String × Json)
    (ms : List (String × Json)) :
    membersChars ((k, v) :: m :: ms) =
      (quote k).toList ++ ':' :: ((text v).toList ++ ',' :: membersChars (m :: ms)) := by
  simp only [membersChars, memberTexts, String.intercalate_cons_cons, String.toList_append]
  simp

theorem toList_text_array (js : List Json) :
    (text (.array js)).toList = '[' :: (itemsChars js ++ [']']) := by
  simp [text, itemsChars]

theorem toList_text_object (ms : List (String × Json)) :
    (text (.object ms)).toList = '\x7b' :: (membersChars ms ++ ['\x7d']) := by
  simp [text, membersChars]

theorem opens_numeral {n : Numeral} (hn : n.WellFormed) (b : Bool) :
    Opens ((if b then ['-'] else []) ++ n.chars) := by
  cases b with
  | true => exact opens_cons (by decide) (by decide)
  | false =>
    obtain ⟨c, r, h, hc⟩ := hn.exists_cons
    rw [h]
    exact opens_digit hc

theorem wellFormed_ofDouble {x : Binary64} (hx : x.IsFinite) : (Numeral.ofDouble x).WellFormed := by
  obtain ⟨m, q, hmag⟩ := hx
  obtain ⟨-, hq, -, -⟩ := Binary64.magnitude_finite hmag
  rw [Numeral.ofDouble, hmag]
  exact Numeral.wellFormed_ofMagnitude _ m hq

theorem opens_text {j : Json} (hj : j.Proper) : Opens (text j).toList := by
  cases j with
  | null => exact opens_cons (by decide) (by decide)
  | bool b => cases b <;> exact opens_cons (by decide) (by decide)
  | int i =>
    rw [text, Numeral.toList_intText]
    simpa using opens_numeral (Numeral.wellFormed_ofInt i) (decide (i < 0))
  | float x =>
    rw [text, Numeral.toList_floatText hj]
    exact opens_numeral (wellFormed_ofDouble hj) x.isNegative
  | string s =>
    rw [text, quote, String.toList_ofList]
    exact opens_cons (by decide) (by decide)
  | array js =>
    rw [toList_text_array]
    exact opens_cons (by decide) (by decide)
  | object ms =>
    rw [toList_text_object]
    exact opens_cons (by decide) (by decide)

/-- The items of an array are not its closing bracket. -/
theorem readValue?_array {fuel : Nat} {s : List Char} (hs : Opens s) (r : List Char) :
    readValue? (fuel + 1) ('[' :: (s ++ r)) =
      (readItems? fuel (s ++ r)).map fun p => (.array p.1, p.2) := by
  have hskip := hs.skipSpace r
  obtain ⟨c, s, rfl, -, hc⟩ := hs
  rw [readValue?, skipSpace_cons (by decide)]
  simp only [List.cons_append] at hskip ⊢
  rw [hskip]
  split
  · next h => exact absurd (List.cons.inj h).1 hc
  · rfl

theorem opens_itemsChars {j : Json} (hj : j.Proper) (js : List Json) :
    Opens (itemsChars (j :: js)) := by
  obtain ⟨c, r, h, hspace, hc⟩ := opens_text hj
  cases js with
  | nil => rw [itemsChars_singleton, h]; exact opens_cons hspace hc
  | cons j' js => rw [itemsChars_cons_cons, h]; exact opens_cons hspace hc

/-- The last item of an array. -/
theorem readItems?_last {fuel : Nat} {s r : List Char} {w : Written}
    (h : readValue? fuel (s ++ ']' :: r) = some (w, ']' :: r)) :
    readItems? (fuel + 1) (s ++ ']' :: r) = some ([w], r) := by
  rw [readItems?, h]
  rfl

/-- An item with more behind it. -/
theorem readItems?_more {fuel : Nat} {s t r : List Char} {w : Written} {ws : List Written}
    (h : readValue? fuel (s ++ ',' :: t) = some (w, ',' :: t))
    (hmore : readItems? fuel t = some (ws, r)) :
    readItems? (fuel + 1) (s ++ ',' :: t) = some (w :: ws, r) := by
  rw [readItems?, h]
  simp only [Option.bind_eq_bind, Option.bind_some, skipSpace_cons (show isSpace ',' = false by decide)]
  rw [hmore]
  rfl

/-- The members of an object are not its closing brace. -/
theorem readValue?_object {fuel : Nat} (k : String) (r : List Char) :
    readValue? (fuel + 1) ('\x7b' :: ((quote k).toList ++ r)) =
      (readMembers? fuel ((quote k).toList ++ r)).map fun p => (.object p.1, p.2) := by
  rw [readValue?, skipSpace_cons (by decide), toList_quote_append]
  simp only [skipSpace_cons (show isSpace '"' = false by decide)]
  rfl

/-- The last member of an object. -/
theorem readMembers?_last {fuel : Nat} (k : String) {s r : List Char} {w : Written}
    (h : readValue? fuel (s ++ '\x7d' :: r) = some (w, '\x7d' :: r)) :
    readMembers? (fuel + 1) ((quote k).toList ++ ':' :: (s ++ '\x7d' :: r)) =
      some ([(units k, w)], r) := by
  have hunits := readUnits?_flatMap k.toList (':' :: (s ++ '\x7d' :: r))
  rw [toList_quote_append, readMembers?, skipSpace_cons (by decide)]
  simp only [hunits, Option.bind_eq_bind, Option.bind_some,
    skipSpace_cons (show isSpace ':' = false by decide)]
  rw [h]
  rfl

/-- A member with more behind it. -/
theorem readMembers?_more {fuel : Nat} (k : String) {s t r : List Char} {w : Written}
    {ws : List (List CodeUnit × Written)}
    (h : readValue? fuel (s ++ ',' :: t) = some (w, ',' :: t))
    (hmore : readMembers? fuel t = some (ws, r)) :
    readMembers? (fuel + 1) ((quote k).toList ++ ':' :: (s ++ ',' :: t)) =
      some ((units k, w) :: ws, r) := by
  have hunits := readUnits?_flatMap k.toList (':' :: (s ++ ',' :: t))
  rw [toList_quote_append, readMembers?, skipSpace_cons (by decide)]
  simp only [hunits, Option.bind_eq_bind, Option.bind_some,
    skipSpace_cons (show isSpace ':' = false by decide)]
  rw [h]
  simp only [Option.bind_some, skipSpace_cons (show isSpace ',' = false by decide)]
  rw [hmore]
  rfl

theorem stops_comma (r : List Char) : Stops (',' :: r) := by
  intro c hc
  exact .inl (Option.some.inj hc).symm

theorem stops_bracket (r : List Char) : Stops (']' :: r) := by
  intro c hc
  exact .inr (.inl (Option.some.inj hc).symm)

theorem stops_brace (r : List Char) : Stops ('\x7d' :: r) := by
  intro c hc
  exact .inr (.inr (Option.some.inj hc).symm)

theorem membersChars_cons (k : String) (v : Json) (ms : List (String × Json)) :
    ∃ r, membersChars ((k, v) :: ms) = (quote k).toList ++ r := by
  cases ms with
  | nil => exact ⟨_, membersChars_singleton k v⟩
  | cons m ms => exact ⟨_, membersChars_cons_cons k v m ms⟩

/-- With so much fuel, values, items and members read as their syntax in front of what may follow
them. -/
structure Reads (fuel : Nat) : Prop where
  value : ∀ {j : Json} {r : List Char}, j.Proper → Stops r →
    2 * (text j).toList.length ≤ fuel + 1 →
    readValue? fuel ((text j).toList ++ r) = some (written j, r)
  items : ∀ {j : Json} {js : List Json} {r : List Char}, ProperItems (j :: js) →
    2 * (itemsChars (j :: js)).length ≤ fuel →
    readItems? fuel (itemsChars (j :: js) ++ ']' :: r) = some (itemsWritten (j :: js), r)
  members : ∀ {m : String × Json} {ms : List (String × Json)} {r : List Char},
    ProperMembers (m :: ms) → 2 * (membersChars (m :: ms)).length ≤ fuel →
    readMembers? fuel (membersChars (m :: ms) ++ '\x7d' :: r) = some (membersWritten (m :: ms), r)

theorem Reads.value_succ {fuel : Nat} (h : Reads fuel) {j : Json} {r : List Char} (hj : j.Proper)
    (hr : Stops r) (hfuel : 2 * (text j).toList.length ≤ fuel + 2) :
    readValue? (fuel + 1) ((text j).toList ++ r) = some (written j, r) := by
  cases j with
  | null => exact readValue?_null fuel r
  | bool b => exact readValue?_bool fuel b r
  | int i =>
    rw [text, Numeral.toList_intText]
    have := readValue?_numeral fuel (Numeral.wellFormed_ofInt i) hr
    simpa [Numeral.ofInt, written] using this
  | float x =>
    rw [text, Numeral.toList_floatText hj]
    have hneg : (Numeral.ofDouble x).negative = x.isNegative := Numeral.negative_ofMagnitude ..
    have := readValue?_numeral fuel (wellFormed_ofDouble hj) hr
    rwa [hneg] at this
  | string s => exact readValue?_quote fuel s r
  | array js =>
    rw [toList_text_array] at hfuel ⊢
    rw [List.cons_append, List.append_assoc, List.singleton_append]
    simp only [List.length_cons, List.length_append, List.length_nil] at hfuel
    cases js with
    | nil => rfl
    | cons j js =>
      rw [readValue?_array (opens_itemsChars hj.1 js), h.items hj (by omega)]
      rfl
  | object ms =>
    rw [toList_text_object] at hfuel ⊢
    rw [List.cons_append, List.append_assoc, List.singleton_append]
    simp only [List.length_cons, List.length_append, List.length_nil] at hfuel
    cases ms with
    | nil => rfl
    | cons m ms =>
      have hmembers := h.members (r := r) hj.2 (by omega)
      obtain ⟨t, ht⟩ := membersChars_cons m.1 m.2 ms
      rw [ht, List.append_assoc] at hmembers ⊢
      rw [readValue?_object, hmembers]
      rfl

theorem Reads.items_succ {fuel : Nat} (h : Reads fuel) {j : Json} {js : List Json} {r : List Char}
    (hj : ProperItems (j :: js)) (hfuel : 2 * (itemsChars (j :: js)).length ≤ fuel + 1) :
    readItems? (fuel + 1) (itemsChars (j :: js) ++ ']' :: r) = some (itemsWritten (j :: js), r) := by
  cases js with
  | nil =>
    rw [itemsChars_singleton] at hfuel ⊢
    exact readItems?_last (h.value hj.1 (stops_bracket r) hfuel)
  | cons j' js =>
    rw [itemsChars_cons_cons] at hfuel ⊢
    simp only [List.length_append, List.length_cons] at hfuel
    rw [List.append_assoc, List.cons_append]
    exact readItems?_more (h.value hj.1 (stops_comma _) (by omega)) (h.items hj.2 (by omega))

theorem Reads.members_succ {fuel : Nat} (h : Reads fuel) {m : String × Json}
    {ms : List (String × Json)} {r : List Char} (hm : ProperMembers (m :: ms))
    (hfuel : 2 * (membersChars (m :: ms)).length ≤ fuel + 1) :
    readMembers? (fuel + 1) (membersChars (m :: ms) ++ '\x7d' :: r) =
      some (membersWritten (m :: ms), r) := by
  obtain ⟨k, v⟩ := m
  cases ms with
  | nil =>
    rw [membersChars_singleton] at hfuel ⊢
    simp only [List.length_append, List.length_cons] at hfuel
    rw [List.append_assoc, List.cons_append]
    exact readMembers?_last k (h.value hm.1 (stops_brace r) (by omega))
  | cons m ms =>
    rw [membersChars_cons_cons] at hfuel ⊢
    simp only [List.length_append, List.length_cons] at hfuel
    rw [List.append_assoc, List.cons_append, List.append_assoc, List.cons_append]
    exact readMembers?_more k (h.value hm.1 (stops_comma _) (by omega)) (h.members hm.2 (by omega))

theorem Opens.length_pos {s : List Char} (h : Opens s) : 0 < s.length := by
  obtain ⟨c, r, rfl, -⟩ := h
  exact Nat.succ_pos _

theorem reads (fuel : Nat) : Reads fuel := by
  induction fuel with
  | zero =>
    refine ⟨fun hj _ hfuel => ?_, fun {j js r} hj hfuel => ?_, fun {m ms r} hm hfuel => ?_⟩
    · have := (opens_text hj).length_pos
      omega
    · have := (opens_itemsChars hj.1 js).length_pos
      omega
    · obtain ⟨t, ht⟩ := membersChars_cons m.1 m.2 ms
      rw [ht, toList_quote_append] at hfuel
      simp at hfuel
  | succ fuel ih =>
    exact ⟨fun hj hr hfuel => ih.value_succ hj hr hfuel, fun hj hfuel => ih.items_succ hj hfuel,
      fun hm hfuel => ih.members_succ hm hfuel⟩

/-- The whole text of a value reads as its syntax. -/
theorem read?_text {j : Json} (hj : j.Proper) : read? (text j) = some (written j) := by
  have hread := (reads (2 * (text j).toList.length + 2)).value (r := []) hj
    (by intro c hc; cases hc) (by omega)
  rw [List.append_nil] at hread
  simp only [read?, hread]
  rfl

end SqlKit.Json
