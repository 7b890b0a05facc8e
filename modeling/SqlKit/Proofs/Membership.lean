import SqlKit.Proofs.Combinations

/-!
# Membership in a list

What the text of `x IN (…)` and `x NOT IN (…)` says of a row, null included.  A reader takes such a text
apart into the column, the word and the items, gives each placeholder the next parameter, and asks of
every item whether it equals the column.  What the items say together is compared with the disjunction
that was spelled, alone and wherever it stands in a combination.

    the text of a list with commas has the items of the list           (exists_reads_items)
    the text for a list of values says what the values say             (Scene.truth?_inList)
    the compiled combination has the value the connectives give it     (Scene.whole?_eq)
    memberships of the empty list under an even number of negations make no difference to the rows
                                                                       (Combination.evalAt_leans)
    all of it together                                                 (Scene.memberships_denoted)
-/

namespace SqlKit

open Lexer Chain

/-! ## Tests -/

/-- At least one of them. -/
def Truth.any : List Truth → Truth
  | [] => false
  | t :: ts => t.or (any ts)

/-- A part of the name of a column: a quotation, or the point between two of them. -/
def Lump.isName : Lump → Bool
  | token (.quoted _ _) => true
  | token (.sign '.') => true
  | _ => false

/-- The text of an item, without the blanks in front of it. -/
def Lump.itemText (ls : List Lump) : String :=
  String.ofList ((ls.dropWhile isBlank).flatMap chars)

/-- The items of a list in parentheses. -/
def Chain.items? (d : Dialect) (cs : List Char) : Option (List String) :=
  (lumps? d (String.ofList cs.tail.dropLast)).map fun ls =>
    (ls.splitOnP Lump.isComma).map Lump.itemText

/-- What a predicate asks of a row. -/
inductive Test where
  /-- Is the column among the items, or is it not? -/
  | member (column : String) (negated : Bool) (items : List String)
  | equal (left right : String)

namespace Test

/-- Reads `x IN (…)`, `x NOT IN (…)` and `a = b` for two words. -/
def ofLumps? (d : Dialect) (ls : List Lump) : Option Test :=
  let column := String.ofList ((ls.takeWhile Lump.isName).flatMap Lump.chars)
  match ls.dropWhile Lump.isName with
  | [.token (.blank _), .token (.word w), .token (.blank _), .group cs _] =>
    if w = "IN".toList then (items? d cs).map (member column false) else none
  | [.token (.blank _), .token (.word n), .token (.blank _), .token (.word w), .token (.blank _),
      .group cs _] =>
    if n = "NOT".toList ∧ w = "IN".toList then (items? d cs).map (member column true) else none
  | [.token (.word a), .token (.blank _), .token (.sign '='), .token (.blank _), .token (.word b)] =>
    some (equal (String.ofList a) (String.ofList b))
  | _ => none

def ofText? (d : Dialect) (s : String) : Option Test := (lumps? d s).bind (ofLumps? d)

example : ofText? .postgres "\"t\".\"id\" NOT IN ($1, 'a, b')" =
    some (.member "\"t\".\"id\"" true ["$1", "'a, b'"]) := by rfl

end Test

/-! ## Rows -/

/-- The text is a placeholder. -/
def Dialect.isPlaceholder : Dialect → String → Bool
  | postgres, t => t.toList.head? = some '$'
  | mysql, t => t = "%s"
  | sqlite, t => t = "?"

/-- What the columns and literals of a condition are in one row, and which values are equal.  Nothing
equals null, nor does it differ from it. -/
structure Scene where
  /-- The value of a column or of a literal. -/
  operand : String → Value
  equal : Value → Value → Truth
  operand_null : operand "NULL" = .null
  equal_null : ∀ x, equal x .null = .unknown
  equal_one : equal (operand "1") (operand "1") = .true

namespace Scene

variable (σ : Scene)

/-- The values of items; a placeholder takes the next parameter. -/
def values (d : Dialect) : List String → List Value → List Value
  | [], _ => []
  | t :: ts, [] => σ.operand t :: values d ts []
  | t :: ts, v :: vs =>
    if d.isPlaceholder t then v :: values d ts vs else σ.operand t :: values d ts (v :: vs)

/-- One of the values equals `x`. -/
def among (x : Value) (vs : List Value) : Truth := .any (vs.map (σ.equal x))

def test (d : Dialect) (params : List Value) : Test → Truth
  | .member column negated items =>
    let t := σ.among (σ.operand column) (σ.values d items params)
    if negated then t.not else t
  | .equal left right => σ.equal (σ.operand left) (σ.operand right)

/-- What a compiled predicate says. -/
def truth? (d : Dialect) (q : Compiled) : Option Truth := (Test.ofText? d q.sql).map (σ.test d q.params)

/-- A value as a compiler gives it: the value itself, or what its literal stands for. -/
def given (c : Compiler) (v : Value) : Value := if c.inline then σ.operand (v.literal c.dialect) else v

/-- The disjunction of `column = v` over the values, or its negation. -/
def membership (c : Compiler) (column : Column) (negated : Bool) (vs : List Value) : Truth :=
  let t := σ.among (σ.operand column.text) (vs.map (σ.given c))
  if negated then t.not else t

/-- The same, but that membership in the empty list is unknown. -/
def listing (c : Compiler) (column : Column) (negated : Bool) (vs : List Value) : Truth :=
  if vs = [] ∧ negated = false then .unknown else σ.membership c column negated vs

/-- The truth values of leaves: memberships have those given by `m`, all else has any at all. -/
def places (m : Column → Bool → List Value → Truth) (other : Nat → Truth) (ls : List Condition)
    (i : Nat) : Truth :=
  match ls[i]? with
  | some (.inList column negated vs) => m column negated vs
  | _ => other i

/-- The truth values of leaves, those of memberships read from what was compiled for them. -/
def sees (d : Dialect) (other : Nat → Truth) (ls : List Condition) (qs : List Compiled) (i : Nat) :
    Truth :=
  match ls[i]?, qs[i]? with
  | some (.inList _ _ _), some q => (σ.truth? d q).getD (other i)
  | _, _ => other i

end Scene

variable {d : Dialect} {f : Piece.Spelling}

/-! ## How texts begin -/

/-- The text does not begin with a blank. -/
def StartsFirm (cs : List Char) : Prop := ∃ c, cs.head? = some c ∧ Lexer.isBlank c = false

theorem StartsFirm.append {as : List Char} (h : StartsFirm as) (bs : List Char) :
    StartsFirm (as ++ bs) := by
  obtain ⟨c, hhead, hc⟩ := h
  refine ⟨c, ?_, hc⟩
  rw [List.head?_append, hhead]
  rfl

theorem startsFirm_of_forall {cs : List Char} (hne : cs ≠ [])
    (h : ∀ c ∈ cs, Lexer.isBlank c = false) : StartsFirm cs :=
  ⟨_, List.head?_eq_some_head hne, h _ (List.head_mem hne)⟩

theorem startsFirm_text (n : Nat) : StartsFirm (Digits.text n).toList := by
  rw [Digits.text, String.toList_ofList]
  exact startsFirm_of_forall (Digits.digits_ne_nil n)
    fun c hc => isBlank_of_isLetter (isLetter_of_isDigit (isDigit_digits c hc))

theorem startsFirm_quoteLiteral (d : Dialect) (s : String) : StartsFirm (d.quoteLiteral s).toList := by
  rw [Dialect.quoteLiteral, String.toList_ofList]
  exact ⟨'\'', rfl, by decide⟩

theorem startsFirm_float (x : Binary64) : StartsFirm (Layout.plain.text x).toList := by
  have signed : ∀ cs, StartsFirm cs → StartsFirm ((if x.isNegative then ['-'] else []) ++ cs) := by
    intro cs hcs
    cases x.isNegative with
    | false => exact hcs
    | true => exact ⟨'-', rfl, by decide⟩
  unfold Layout.text
  cases x.magnitude with
  | nan =>
    show StartsFirm "NaN".toList
    exact ⟨'N', rfl, by decide⟩
  | infinite =>
    rw [String.toList_ofList]
    exact signed _ ⟨'i', rfl, by decide⟩
  | finite m q =>
    rw [String.toList_ofList]
    refine signed _ (startsFirm_of_forall (unsigned_ne_nil m q) ?_)
    intro c hc
    rcases isDigit_or_point_unsigned m q c hc with hdigit | rfl
    · exact isBlank_of_isLetter (isLetter_of_isDigit hdigit)
    · decide

theorem Value.startsFirm_literal (d : Dialect) (v : Value) : StartsFirm (v.literal d).toList := by
  cases v with
  | null =>
    simp only [Value.literal]
    exact ⟨'N', rfl, by decide⟩
  | bool b =>
    simp only [Value.literal]
    cases b
    · exact ⟨'F', rfl, by decide⟩
    · exact ⟨'T', rfl, by decide⟩
  | int i =>
    simp only [Value.literal]
    cases i.toInt with
    | ofNat n => exact startsFirm_text n
    | negSucc n =>
      rw [Digits.intText, String.toList_append]
      exact ⟨'-', rfl, by decide⟩
  | float x =>
    simp only [Value.literal]
    exact startsFirm_float x
  | bytes b =>
    simp only [Value.literal]
    rw [String.toList_append, String.toList_append, List.append_assoc]
    exact ⟨'X', rfl, by decide⟩
  | list items =>
    simp only [Value.literal]
    rw [String.toList_append, String.toList_append, List.append_assoc]
    exact ⟨'(', rfl, by decide⟩
  | _ =>
    simp only [Value.literal]
    exact startsFirm_quoteLiteral d _

theorem startsFirm_placeholder (d : Dialect) (k : Nat) : StartsFirm (d.placeholder k).toList := by
  cases d with
  | postgres =>
    rw [Dialect.placeholder, String.toList_append]
    exact ⟨'$', rfl, by decide⟩
  | mysql =>
    rw [Dialect.placeholder]
    exact ⟨'%', rfl, by decide⟩
  | sqlite =>
    rw [Dialect.placeholder]
    exact ⟨'?', rfl, by decide⟩

theorem Compiler.startsFirm_spelling (c : Compiler) (k : Nat) (v : Value) :
    StartsFirm (c.spelling k v).toList := by
  unfold Compiler.spelling
  by_cases h : c.inline = true
  · rw [if_pos h]
    exact v.startsFirm_literal c.dialect
  · rw [if_neg h]
    exact startsFirm_placeholder c.dialect k

/-! ## Items -/

theorem Lump.itemText_blank {b : Lump} (hb : b.isBlank = true) (ls : List Lump) :
    itemText (b :: ls) = itemText ls := by
  rw [itemText, List.dropWhile_cons_of_pos hb, itemText]

/-- A text that begins with no blank is an item as it is. -/
theorem Reads.itemText {t : String} {ls : List Lump} (h : Reads d t.toList ls)
    (ht : StartsFirm t.toList) : Lump.itemText ls = t := by
  obtain ⟨c, hhead, hc⟩ := ht
  have hkeep : ls.dropWhile Lump.isBlank = ls := by
    cases ls with
    | nil => rfl
    | cons l ls =>
      refine List.dropWhile_cons_of_neg ?_
      intro hblank
      obtain ⟨b, hb, hisBlank⟩ := h.blank (l := l) (by simp) hblank
      rw [← h.chars, List.flatMap_cons, hb] at hhead
      rw [Option.some.inj hhead, hc] at hisBlank
      contradiction
  rw [Lump.itemText, hkeep, h.chars, String.ofList_toList]

/-- A text of items with commas between them has these items. -/
theorem exists_reads_items {t : String} {ts : List String}
    (h : ∀ u ∈ t :: ts, ReadsCalm d u.toList ∧ StartsFirm u.toList) :
    ∃ ls, Reads d (", ".intercalate (t :: ts)).toList ls ∧
      (ls.splitOnP Lump.isComma).map Lump.itemText = t :: ts := by
  induction ts generalizing t with
  | nil =>
    obtain ⟨⟨ms, hms, hcalm⟩, hstarts⟩ := h t (by simp)
    refine ⟨ms, by simpa using hms, ?_⟩
    rw [List.splitOnP_eq_singleton fun m hm => (hcalm m hm).1, List.map_singleton,
      hms.itemText hstarts]
  | cons u us ih =>
    obtain ⟨⟨ms, hms, hcalm⟩, hstarts⟩ := h t (by simp)
    obtain ⟨ls, hls, hitems⟩ := ih fun x hx => h x (List.mem_cons_of_mem _ hx)
    have hcomma : ReadsClosed d [',', ' '] [.token (.sign ','), .token (.blank ' ')] :=
      readsClosed_plain (s := ", ") (t := [.sign ',', .blank ' ']) rfl (by simp [IsPlain])
    refine ⟨ms ++ .token (.sign ',') :: (.token (.blank ' ') :: ls), ?_, ?_⟩
    · have hall := (hms.append_closed hcomma rfl).append_reads hls
      rw [String.intercalate_cons_cons, String.toList_append, String.toList_append]
      simpa using hall
    · -- the blank behind the comma belongs to the next item, which does not keep it
      have hblank : ((Lump.token (.blank ' ') :: ls).splitOnP Lump.isComma).map Lump.itemText =
          (ls.splitOnP Lump.isComma).map Lump.itemText := by
        rw [List.splitOnP_cons_eq_if_modifyHead, if_neg (by simp [Lump.isComma])]
        cases ls.splitOnP Lump.isComma with
        | nil => rfl
        | cons x xs => rw [List.modifyHead_cons, List.map_cons, Lump.itemText_blank rfl, List.map_cons]
      rw [List.splitOnP_append_cons_of_forall_mem (fun m hm => (hcalm m hm).1) _ rfl, List.map_cons,
        hblank, hitems, hms.itemText hstarts]

/-! ## Texts of memberships -/

theorem isName_of_quoted {ts : List Token} (h : ∀ t ∈ ts, IsQuoted t) :
    ∀ l ∈ ts.map Lump.token, l.isName = true := by
  intro l hl
  obtain ⟨t, ht, rfl⟩ := List.mem_map.mp hl
  have := h t ht
  cases t <;> first | contradiction | rfl

theorem ident_isName (s : String) :
    ∃ ls, ReadsClosed d (quoteIdent s).toList ls ∧ ∀ l ∈ ls, l.isName = true := by
  obtain ⟨ts, hts, -, hall⟩ := closes_ident (d := d) s
  exact ⟨_, readsClosed_plain hts (plain_of_quoted hall), isName_of_quoted hall⟩

/-- The text of a column is the name of one, and nothing else. -/
theorem column_isName (c : Column) :
    ∃ ls, ReadsClosed d c.text.toList ls ∧ ∀ l ∈ ls, l.isName = true := by
  unfold Column.text
  cases c.table with
  | none => exact ident_isName c.name
  | some t =>
    obtain ⟨ls, hls, hname⟩ := ident_isName (d := d) t.reference
    obtain ⟨ms, hms, hname'⟩ := ident_isName (d := d) c.name
    have hdot : ReadsClosed d ".".toList [.token (.sign '.')] :=
      readsClosed_plain (t := [.sign '.']) rfl (by simp [IsPlain])
    refine ⟨ls ++ [.token (.sign '.')] ++ ms, ?_, ?_⟩
    · rw [String.toList_append, String.toList_append]
      exact (hls.append hdot).append hms
    · intro l hl
      simp only [List.mem_append, List.mem_singleton] at hl
      rcases hl with (hl | rfl) | hl
      · exact hname l hl
      · rfl
      · exact hname' l hl

/-- The lumps of the word for membership, with its blanks. -/
def Lump.memberWord : Bool → List Lump
  | true => .token (.blank ' ') :: .token (.word "NOT".toList) :: keyword "IN"
  | false => keyword "IN"

theorem readsClosed_memberWord (negated : Bool) :
    ReadsClosed d (if negated then " NOT IN " else " IN ").toList (Lump.memberWord negated) := by
  cases negated with
  | false =>
    exact readsClosed_plain (t := [.blank ' ', .word "IN".toList, .blank ' ']) rfl (by simp [IsPlain])
  | true =>
    exact readsClosed_plain
      (t := [.blank ' ', .word "NOT".toList, .blank ' ', .word "IN".toList, .blank ' ']) rfl
      (by simp [IsPlain])

/-- A name, the word for membership and a list in parentheses are a test of membership. -/
theorem Test.ofLumps?_member {ls : List Lump} (h : ∀ l ∈ ls, l.isName = true) (negated : Bool)
    (cs : List Char) (r : Option Reading) :
    ofLumps? d (ls ++ (Lump.memberWord negated ++ [.group cs r])) =
      (items? d cs).map (member (String.ofList (ls.flatMap Lump.chars)) negated) := by
  rw [ofLumps?, List.takeWhile_append_of_pos h, List.dropWhile_append_of_pos h]
  cases negated <;> simp [Lump.memberWord, Lump.keyword, Lump.isName]

/-- The test that stands in the text of a column and a list in parentheses. -/
theorem Test.ofText?_member (column : Column) (negated : Bool) {s t : String} {ts : List String}
    (hs : s.toList = column.text.toList ++ ((if negated then " NOT IN " else " IN ").toList ++
      '(' :: ((", ".intercalate (t :: ts)).toList ++ [')'])))
    (h : ∀ u ∈ t :: ts, ReadsCalm d u.toList ∧ StartsFirm u.toList) :
    ofText? d s = some (.member column.text negated (t :: ts)) := by
  obtain ⟨ls, hls, hname⟩ := column_isName (d := d) column
  obtain ⟨ms, hms, hitems⟩ := exists_reads_items h
  have hgroup : Chain.group ms =
      .group ('(' :: ((", ".intercalate (t :: ts)).toList ++ [')'])) ((Chain.ofLumps? ms).map reading) := by
    rw [Chain.group, hms.chars]
  have hinside : items? d ('(' :: ((", ".intercalate (t :: ts)).toList ++ [')'])) = some (t :: ts) := by
    obtain ⟨us, hus, hnests⟩ := hms
    rw [items?, List.tail_cons, List.dropLast_concat, String.ofList_toList, lumps?, hus,
      Option.bind_some, nest?_of_nests hnests, Option.map_some, hitems]
  obtain ⟨us, hus, hnests⟩ := (hls.append ((readsClosed_memberWord negated).append hms.paren)).reads
  rw [ofText?, lumps?, hs, hus, Option.bind_some, nest?_of_nests hnests, Option.bind_some, hgroup,
    Test.ofLumps?_member hname, hinside, hls.reads.chars, String.ofList_toList]
  rfl

/-! ## Values of memberships -/

/-- The texts of values that are bound. -/
theorem spelledFrom_bound (k : Nat) (v : Value) (vs : List Value) :
    Draft.spelledFrom d f k ((v :: vs).map .bound) =
      f k v :: Draft.spelledFrom d f (k + 1) (vs.map .bound) := by
  rw [List.map_cons, Draft.spelledFrom, Draft.spelled_bound]
  rfl

theorem forall_spelledFrom_bound {p : String → Prop} (h : ∀ k v, p (f k v)) (k : Nat)
    (vs : List Value) : ∀ t ∈ Draft.spelledFrom d f k (vs.map .bound), p t := by
  induction vs generalizing k with
  | nil => simp [Draft.spelledFrom]
  | cons v vs ih =>
    intro t ht
    rw [spelledFrom_bound] at ht
    rcases List.mem_cons.mp ht with rfl | ht
    · exact h k v
    · exact ih (k + 1) t ht

theorem fault_of_mem_bound {vs : List Value} : ∀ x ∈ vs.map Draft.bound, x.fault = none := by
  intro x hx
  obtain ⟨v, -, rfl⟩ := List.mem_map.mp hx
  rfl

theorem params_boundList (vs : List Value) : (boundList vs).params = vs := by
  rw [boundList, Draft.params_join fault_of_mem_bound]
  induction vs with
  | nil => rfl
  | cons v vs ih =>
    rw [List.map_cons, List.flatMap_cons, ih]
    rfl

theorem spelled_boundList (k : Nat) (vs : List Value) :
    (boundList vs).spelled d f k = ", ".intercalate (Draft.spelledFrom d f k (vs.map .bound)) :=
  Draft.spelled_join fault_of_mem_bound k

/-- A membership binds the values of its list. -/
theorem Condition.params_inList (column : Column) (negated : Bool) (vs : List Value) :
    (inList column negated vs).draft.params = vs := by
  simp only [draft]
  cases vs with
  | nil => rfl
  | cons v vs =>
    simp only [memberDraft]
    rw [Draft.params_append_of_sound (by rfl), Draft.params_paren (fault_boundList _),
      Draft.params_text, params_boundList, List.nil_append]

theorem isPlaceholder_placeholder (d : Dialect) (k : Nat) : d.isPlaceholder (d.placeholder k) = true := by
  cases d <;> simp [Dialect.isPlaceholder, Dialect.placeholder]

/-- What a compiler keeps of the values bound in a node. -/
def Compiler.keeps (c : Compiler) (vs : List Value) : List Value := if c.inline then [] else vs

/-- The items of a list stand for its values: as placeholders for the parameters, as literals for what
the literals are. -/
theorem Scene.values_spelling (σ : Scene) (c : Compiler) (k : Nat) (vs : List Value) :
    σ.values c.dialect (Draft.spelledFrom c.dialect c.spelling k (vs.map .bound)) (c.keeps vs) =
      vs.map (σ.given c) := by
  induction vs generalizing k with
  | nil => rfl
  | cons v vs ih =>
    rw [spelledFrom_bound, List.map_cons, ← ih (k + 1)]
    cases h : c.inline with
    | true =>
      have hv : c.spelling k v = v.literal c.dialect := by simp [Compiler.spelling, h, Piece.literals]
      simp [Compiler.keeps, given, h, hv, values]
    | false =>
      have hv : c.spelling k v = c.dialect.placeholder k := by
        simp [Compiler.spelling, h, Piece.placeholders]
      simp [Compiler.keeps, given, h, hv, values, isPlaceholder_placeholder]

/-- Nothing is known to be in the empty list. -/
theorem Scene.test_member_null (σ : Scene) (d : Dialect) (column : String) :
    σ.test d [] (.member column false ["NULL"]) = .unknown := by
  simp [test, values, among, Truth.any, σ.operand_null, σ.equal_null, Truth.or]

theorem Scene.listing_of_ne_nil (σ : Scene) (c : Compiler) (column : Column) (negated : Bool)
    {vs : List Value} (h : vs ≠ []) :
    σ.listing c column negated vs = σ.membership c column negated vs := by
  rw [listing, if_neg fun hnil => h hnil.1]

/-- **Memberships.**  The compiled text of a membership says of a row what the values of its list say. -/
theorem Scene.truth?_inList (σ : Scene) (c : Compiler) (k : Nat) (column : Column) (negated : Bool)
    (vs : List Value) :
    σ.truth? c.dialect ⟨(Condition.inList column negated vs).draft.spelled c.dialect c.spelling k,
      c.keeps vs⟩ = some (σ.listing c column negated vs) := by
  cases vs with
  | nil =>
    have hkeeps : c.keeps [] = [] := by simp [Compiler.keeps]
    rw [truth?, hkeeps]
    simp only [Condition.draft, memberDraft]
    rw [Draft.spelled_text]
    cases negated with
    | true =>
      have htext : Test.ofText? c.dialect "1 = 1" = some (.equal "1" "1") := by
        cases c.dialect <;> rfl
      rw [if_pos rfl, htext, Option.map_some, test, σ.equal_one]
      rfl
    | false =>
      have hnull : ∀ u ∈ ["NULL"], ReadsCalm c.dialect u.toList ∧ StartsFirm u.toList := by
        intro u hu
        obtain rfl := List.mem_singleton.mp hu
        exact ⟨reads_word (c := 'N') (w := ['U', 'L', 'L']) (by decide) rfl, ⟨'N', rfl, by decide⟩⟩
      rw [if_neg (by decide), Test.ofText?_member column false (by simp) hnull, Option.map_some,
        test_member_null]
      rfl
  | cons v vs =>
    have hitems : ∀ u ∈ Draft.spelledFrom c.dialect c.spelling k ((v :: vs).map .bound),
        ReadsCalm c.dialect u.toList ∧ StartsFirm u.toList :=
      forall_spelledFrom_bound
        (fun k v => ⟨(Statement.fills_spelling c k v).1, c.startsFirm_spelling k v⟩) k _
    have hvalues := σ.values_spelling c k (v :: vs)
    rw [spelledFrom_bound] at hitems hvalues
    have htext := Condition.toList_spelled_inList (d := c.dialect) (f := c.spelling) column negated v vs k
    rw [spelled_boundList, spelledFrom_bound] at htext
    rw [truth?, Test.ofText?_member column negated htext hitems, Option.map_some, test, hvalues,
      σ.listing_of_ne_nil c column negated (List.cons_ne_nil v vs), membership]

/-! ## Nodes one after another -/

namespace Compiler

variable (c : Compiler)

/-- The compiler that has taken in values and given them away. -/
def passed (vs : List Value) : Compiler := { c.take vs with params := c.params }

theorem passed_nil : c.passed [] = c := by
  rw [passed, take_nil]

/-- A node behind others is spelled with the next numbers and takes its own values away. -/
theorem node_passed (vs : List Value) {x : Draft} (hx : x.fault = none) :
    (c.passed vs).node x =
      (.ok ⟨x.spelled c.dialect c.spelling (c.count + 1 + vs.length), c.keeps x.params⟩,
        c.passed (vs ++ x.params)) := by
  have hspell : (c.passed vs).spell x = x.spelled c.dialect c.spelling (c.count + 1 + vs.length) := by
    rw [← spell_take]
    rfl
  rw [node, write, hx]
  simp only [hspell]
  cases h : c.inline <;> simp [passed, take, keeps, h, Nat.add_assoc]

/-- Compiles conditions as nodes, one after another. -/
def nodes : Compiler → List Condition → Result (List Compiled)
  | _, [] => .ok []
  | c, l :: ls =>
    match c.node l.draft with
    | (.ok q, c') => (nodes c' ls).map fun qs => q :: qs
    | (.error e, _) => .error e

/-- What is compiled for conditions, the first value of which has number `k`. -/
def parts (k : Nat) : List Condition → List Compiled
  | [] => []
  | l :: ls =>
    ⟨l.draft.spelled c.dialect c.spelling k, c.keeps l.draft.params⟩ ::
      parts (k + l.draft.params.length) ls

theorem nodes_passed {ls : List Condition} (h : ∀ l ∈ ls, l.draft.fault = none) (vs : List Value) :
    (c.passed vs).nodes ls = .ok (c.parts (c.count + 1 + vs.length) ls) := by
  induction ls generalizing vs with
  | nil => rfl
  | cons l ls ih =>
    rw [nodes, c.node_passed vs (h l (by simp))]
    simp only
    rw [ih (fun m hm => h m (by simp [hm])), List.length_append, ← Nat.add_assoc]
    rfl

theorem map_sql_parts (k : Nat) (ls : List Condition) :
    (c.parts k ls).map Compiled.sql =
      Draft.spelledFrom c.dialect c.spelling k (ls.map Condition.draft) := by
  induction ls generalizing k with
  | nil => rfl
  | cons l ls ih => rw [parts, List.map_cons, ih, List.map_cons, Draft.spelledFrom]

theorem params_parts (k : Nat) (ls : List Condition) :
    (c.parts k ls).flatMap Compiled.params =
      c.keeps ((ls.map Condition.draft).flatMap Draft.params) := by
  induction ls generalizing k with
  | nil => simp [parts, keeps]
  | cons l ls ih =>
    rw [parts, List.flatMap_cons, ih, List.map_cons, List.flatMap_cons]
    cases h : c.inline <;> simp [keeps, h]

theorem getElem?_parts (k : Nat) {ls : List Condition} {i : Nat} {l : Condition}
    (h : ls[i]? = some l) :
    ∃ n, (c.parts k ls)[i]? = some ⟨l.draft.spelled c.dialect c.spelling n, c.keeps l.draft.params⟩ := by
  induction ls generalizing k i with
  | nil => simp at h
  | cons m ls ih =>
    cases i with
    | zero =>
      obtain rfl : m = l := by simpa using h
      exact ⟨k, rfl⟩
    | succ i => exact ih (k + m.draft.params.length) (by simpa using h)

end Compiler

/-- Memberships are seen to say what the values of their lists say. -/
theorem Scene.sees_parts (σ : Scene) (c : Compiler) (k : Nat) (other : Nat → Truth)
    (ls : List Condition) :
    σ.sees c.dialect other ls (c.parts k ls) = places (σ.listing c) other ls := by
  funext i
  unfold sees places
  cases hl : ls[i]? with
  | none => rfl
  | some l =>
    obtain ⟨n, hn⟩ := c.getElem?_parts k hl
    rw [hn]
    cases l with
    | inList column negated vs =>
      simp only
      rw [Condition.params_inList, σ.truth?_inList, Option.getD_some]
    | _ => rfl

/-! ## Rows that are accepted -/

namespace Condition

/-- Membership in the empty list. -/
def IsEmptyList : Condition → Prop
  | inList _ false [] => True
  | _ => False

end Condition

/-- Two truth values that accept the same rows on the positive side, or refuse the same on the other:
the first may be unknown where the second is false, or true under a negation. -/
def Truth.Leans (positive : Bool) (t t' : Truth) : Prop :=
  t = t' ∨ t = unknown ∧ t' = ofBool !positive

namespace Truth

variable {positive : Bool} {s s' t t' : Truth}

theorem Leans.not (h : Leans positive t t') : Leans (!positive) t.not t'.not := by
  rcases h with rfl | ⟨rfl, rfl⟩
  · exact .inl rfl
  · exact .inr ⟨rfl, by cases positive <;> rfl⟩

theorem Leans.and (hs : Leans positive s s') (ht : Leans positive t t') :
    Leans positive (s.and t) (s'.and t') := by
  rcases hs with rfl | ⟨rfl, rfl⟩ <;> rcases ht with rfl | ⟨rfl, rfl⟩
  · exact .inl rfl
  · cases positive <;> cases s <;> simp [Leans, Truth.and, ofBool]
  · cases positive <;> cases t <;> simp [Leans, Truth.and, ofBool]
  · cases positive <;> simp [Leans, Truth.and, ofBool]

theorem Leans.or (hs : Leans positive s s') (ht : Leans positive t t') :
    Leans positive (s.or t) (s'.or t') := by
  rcases hs with rfl | ⟨rfl, rfl⟩ <;> rcases ht with rfl | ⟨rfl, rfl⟩
  · exact .inl rfl
  · cases positive <;> cases s <;> simp [Leans, Truth.or, ofBool]
  · cases positive <;> cases t <;> simp [Leans, Truth.or, ofBool]
  · cases positive <;> simp [Leans, Truth.or, ofBool]

theorem Leans.accepts (h : Leans .true t t') : t = .true ↔ t' = .true := by
  rcases h with rfl | ⟨rfl, rfl⟩
  · exact Iff.rfl
  · exact ⟨fun h => by contradiction, fun h => by contradiction⟩

end Truth

namespace Combination

/-- No membership in the empty list stands under an odd number of negations; `positive` says that the
number of those around the combination is even. -/
def Spares : Bool → Combination → Prop
  | positive, leaf c _ => positive = .true ∨ ¬ c.IsEmptyList
  | positive, and a b => a.Spares positive ∧ b.Spares positive
  | positive, or a b => a.Spares positive ∧ b.Spares positive
  | positive, not a => a.Spares !positive
  | positive, negation a => a.Spares !positive

/-- Leaves that lean are combined to a whole that leans, if those that differ are spared. -/
theorem evalAt_leans {a : Combination} {positive : Bool} (hs : a.Spares positive)
    {v w : Nat → Truth} {n : Nat}
    (h : ∀ i l, a.leaves[i]? = some l →
      Truth.Leans .true (v (n + i)) (w (n + i)) ∧ (¬ l.IsEmptyList → v (n + i) = w (n + i))) :
    Truth.Leans positive (a.evalAt v n) (a.evalAt w n) := by
  have left : ∀ {a b : Combination} {i : Nat} {l : Condition}, a.leaves[i]? = some l →
      (a.leaves ++ b.leaves)[i]? = some l := by
    intro a b i l hl
    rw [List.getElem?_append_left (List.getElem?_eq_some_iff.mp hl).1, hl]
  have right : ∀ {a b : Combination} {i : Nat} {l : Condition}, b.leaves[i]? = some l →
      (a.leaves ++ b.leaves)[a.leaves.length + i]? = some l := by
    intro a b i l hl
    rw [List.getElem?_append_right (by omega), Nat.add_sub_cancel_left, hl]
  induction a generalizing positive n with
  | leaf l _ =>
    obtain ⟨hleans, heq⟩ := h 0 l rfl
    rcases hs with rfl | hs
    · exact hleans
    · exact .inl (heq hs)
  | and a b iha ihb =>
    refine (iha hs.1 fun i l hl => h i l (left hl)).and (ihb hs.2 fun i l hl => ?_)
    rw [Nat.add_assoc]
    exact h _ l (right hl)
  | or a b iha ihb =>
    refine (iha hs.1 fun i l hl => h i l (left hl)).or (ihb hs.2 fun i l hl => ?_)
    rw [Nat.add_assoc]
    exact h _ l (right hl)
  | not a ih =>
    have hnot := (ih hs h).not
    rwa [Bool.not_not] at hnot
  | negation a ih =>
    have hnot := (ih hs h).not
    rwa [Bool.not_not] at hnot

end Combination

/-- Memberships in the empty list are unknown where they should be false, and no others differ. -/
theorem Scene.leans_places (σ : Scene) (c : Compiler) (other : Nat → Truth) {ls : List Condition}
    {i : Nat} {l : Condition} (h : ls[i]? = some l) :
    Truth.Leans .true (places (σ.listing c) other ls i) (places (σ.membership c) other ls i) ∧
      (¬ l.IsEmptyList →
        places (σ.listing c) other ls i = places (σ.membership c) other ls i) := by
  unfold places
  rw [h]
  cases l with
  | inList column negated vs =>
    cases vs with
    | cons v vs =>
      have heq := σ.listing_of_ne_nil c column negated (List.cons_ne_nil v vs)
      exact ⟨.inl heq, fun _ => heq⟩
    | nil =>
      cases negated with
      | true => exact ⟨.inl rfl, fun _ => rfl⟩
      | false => exact ⟨.inr ⟨rfl, rfl⟩, fun hne => absurd trivial hne⟩
  | _ => exact ⟨.inl rfl, fun _ => rfl⟩

/-! ## Compiled combinations -/

namespace Combination

/-- What comes of a combination: the text and the values compiled for the whole, what is compiled for
its leaves one after another, and the formula the text reads as. -/
structure Rendered (a : Combination) (c : Compiler) (q : Compiled) (qs : List Compiled) (r : Reading) :
    Prop where
  whole : (c.node a.condition.draft).1 = .ok q
  parts : c.nodes a.leaves = .ok qs
  params : q.params = qs.flatMap Compiled.params
  reading : Reading.ofText? c.dialect q.sql = some r
  leaves : r.leaves = qs.map Compiled.sql

theorem exists_rendered (a : Combination) (c : Compiler) :
    ∃ q r, a.Rendered c q (c.parts (c.count + 1) a.leaves) r ∧ ∀ v, r.evalAt v 0 = a.evalAt v 0 := by
  have hleaves := a.ofLeaves_condition
  obtain ⟨ch, ⟨ls, hls, hch⟩, htexts, heval⟩ :=
    hleaves.readsExactly (Statement.fills_spelling c) c.endsFirm_spelling (c.count + 1)
  have hwhole := c.node_passed [] hleaves.fault
  have hparts := c.nodes_passed (fun l hl => (hleaves.isLeaf l hl).fault) []
  rw [c.passed_nil, List.length_nil, Nat.add_zero] at hwhole hparts
  rw [leaves_condition] at htexts hparts
  refine ⟨_, ch.reading, ⟨by rw [hwhole], hparts, ?_, ?_, ?_⟩, ?_⟩
  · rw [c.params_parts, hleaves.params, leaves_condition]
  · rw [Reading.ofText?, ofText?_of_reads hls, hch]
    rfl
  · rw [c.map_sql_parts, htexts]
  · intro v
    rw [heval, evalAt_condition]

end Combination

/-- What a compiled combination says: its text is read as a formula, and its memberships are read from
the texts of its leaves. -/
def Scene.whole? (σ : Scene) (c : Compiler) (other : Nat → Truth) (a : Combination) : Option Truth :=
  match (c.node a.condition.draft).1, c.nodes a.leaves with
  | .ok q, .ok qs =>
    (Reading.ofText? c.dialect q.sql).map fun r => r.evalAt (σ.sees c.dialect other a.leaves qs) 0
  | _, _ => none

theorem Scene.whole?_eq (σ : Scene) (c : Compiler) (other : Nat → Truth) (a : Combination) :
    σ.whole? c other a = some (a.evalAt (places (σ.listing c) other a.leaves) 0) := by
  obtain ⟨q, r, h, heval⟩ := a.exists_rendered c
  rw [whole?, h.whole, h.parts]
  simp only
  rw [h.reading, Option.map_some, heval, σ.sees_parts]

/-- `column IN (…)` as a combination. -/
def Combination.isIn (column : Column) (vs : List Value) : Combination :=
  .leaf (.inList column false vs) trivial

/-- `column NOT IN (…)` as a combination. -/
def Combination.notIn (column : Column) (vs : List Value) : Combination :=
  .leaf (.inList column true vs) trivial

/-- **Membership in every context.**  Whatever a compiler has counted before, in either mode and for
every dialect: what it writes for a combination reads as a formula over what it writes for the leaves,
which takes the same values; the whole has the truth value that the connectives give it when each
membership says the disjunction of `column = v`, or its negation, and membership in the empty list is
unknown.  A negated membership in a list that is not empty says what the membership under a negation
says; and where no membership in the empty list stands under an odd number of negations, the same rows
are accepted as if it were false. -/
theorem Scene.memberships_denoted (σ : Scene) (c : Compiler) (other : Nat → Truth) :
    (∀ a : Combination, (∃ q qs r, a.Rendered c q qs r) ∧
      σ.whole? c other a = some (a.evalAt (places (σ.listing c) other a.leaves) 0)) ∧
    (∀ column vs, vs ≠ [] →
      σ.whole? c other (.not (.isIn column vs)) = σ.whole? c other (.notIn column vs)) ∧
    ∀ a : Combination, a.Spares true →
      (σ.whole? c other a = some .true ↔
        a.evalAt (places (σ.membership c) other a.leaves) 0 = .true) := by
  refine ⟨fun a => ⟨?_, σ.whole?_eq c other a⟩, fun column vs hvs => ?_, fun a hs => ?_⟩
  · obtain ⟨q, r, h, -⟩ := a.exists_rendered c
    exact ⟨q, _, r, h⟩
  · have hin := σ.listing_of_ne_nil c column false hvs
    have hout := σ.listing_of_ne_nil c column true hvs
    have hnegated : σ.membership c column true vs = (σ.membership c column false vs).not := rfl
    rw [whole?_eq, whole?_eq]
    show some (σ.listing c column false vs).not = some (σ.listing c column true vs)
    rw [hin, hout, hnegated]
  · have hleans := Combination.evalAt_leans (n := 0) hs fun i l hl => by
      rw [Nat.zero_add]
      exact σ.leans_places c other hl
    rw [whole?_eq, Option.some_inj]
    exact hleans.accepts

/-- A row whose column `id` is an integer, or null; the literals of a digit are integers. -/
def Scene.ofId (id : Option Int64) : Scene where
  operand t :=
    if t = "\"id\"" then .ofOption .int id
    else if t = "1" then .int 1
    else if t = "2" then .int 2
    else .null
  equal x y :=
    match x, y with
    | .int i, .int j => if i = j then .true else .false
    | _, _ => .unknown
  operand_null := rfl
  equal_null x := by cases x <;> rfl
  equal_one := rfl

/-- A membership in two values under a negation, and one in a list with null beside one in the empty
list. -/
theorem Scene.memberships_denoted_two :
    let σ := Scene.ofId (some 2)
    let c := Compiler.binding .postgres
    let other := fun _ => Truth.unknown
    let a : Combination := .or (.isIn (.named "id") [.int 2, .null]) (.isIn (.named "id") [])
    [Value.int 1, .null] ≠ [] ∧ a.Spares true ∧
      σ.whole? c other (.not (.isIn (.named "id") [.int 1, .null])) = some .unknown ∧
      σ.whole? c other (.notIn (.named "id") [.int 1, .null]) = some .unknown ∧
      σ.whole? c other a = some .true ∧
      a.evalAt (Scene.places (σ.membership c) other a.leaves) 0 = .true := by
  intro σ c other a
  have hspares : a.Spares true := ⟨.inl rfl, .inl rfl⟩
  obtain ⟨hwhole, hnegated, haccepts⟩ := σ.memberships_denoted c other
  have hout : σ.whole? c other (.notIn (.named "id") [.int 1, .null]) = some .unknown :=
    (hwhole (.notIn (.named "id") [.int 1, .null])).2
  have ha : σ.whole? c other a = some .true := (hwhole a).2
  exact ⟨by simp, hspares, (hnegated _ _ (by simp)).trans hout, hout, ha, (haccepts a hspares).mp ha⟩

/-- Membership in the empty list is unknown, not false, so that its negation accepts no row. -/
theorem Scene.not_isIn_nil :
    let σ := Scene.ofId (some 2)
    let c := Compiler.binding .sqlite
    let other := fun _ => Truth.unknown
    let a : Combination := .not (.isIn (.named "id") [])
    (c.node a.condition.draft).1 = .ok ⟨"NOT (\"id\" IN (NULL))", []⟩ ∧
      σ.whole? c other a = some .unknown ∧
      a.evalAt (Scene.places (σ.membership c) other a.leaves) 0 = .true ∧
      σ.whole? c other (.notIn (.named "id") []) = some .true := by
  exact ⟨rfl, rfl, rfl, rfl⟩

end SqlKit
