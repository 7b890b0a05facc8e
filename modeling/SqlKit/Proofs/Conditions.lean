import SqlKit.Proofs.Predicates

/-!
# What conditions mean

The meaning of a condition follows its syntax down to the predicates, each of which means what its own
text reads as.  It does not depend on how the parts of the condition are put together as text; that
the text of the whole reads as the meaning is what is proved.

    c.Readable d f → the text of c reads as a chain with the meaning of c      (Condition.exists_readsAs)
-/

namespace SqlKit

open Lexer Chain

/-! ## Definitions -/

/-- What a comparison with the expression says is complete.  Of the verbatim texts of a call and of a
query only as much is asked as keeps them apart from what is around them. -/
def Expr.Completes (d : Dialect) (f : Piece.Spelling) (left : Column) (op : CompareOp) : Expr → Prop
  | column _ => True
  | value _ => True
  | subquery s => s.Verbatim (Closed d)
  | call ⟨name, args, a⟩ =>
    name.Verbatim (fun t => ReadsCalm d t.toList) ∧ Operand.Verbatims (Closed d) args ∧
      ∀ t ∈ a, ReadsCalm d t.toList
  | e => ∀ k, ∃ chain,
    Chain.ofText? d ((Condition.compare left op (.expr e)).draft.spelled d f k) = some chain

namespace Condition

/-- The formula of a condition whose first value has number `k`. -/
def meaning? (d : Dialect) (f : Piece.Spelling) : Condition → Nat → Option Reading
  | connect a op b, k =>
    (a.meaning? d f k).bind fun x =>
      (b.meaning? d f (k + a.draft.params.length)).map fun y => x.connect op y
  | negation c, k => (c.meaning? d f k).map .not
  | c, k => Reading.ofText? d (c.draft.spelled d f k)

/-- The formulas of conditions one behind the other. -/
def meanings? (d : Dialect) (f : Piece.Spelling) : List Condition → Nat → Option (List Reading)
  | [], _ => some []
  | c :: cs, k =>
    (c.meaning? d f k).bind fun r =>
      (meanings? d f cs (k + c.draft.params.length)).map fun rs => r :: rs

/-- Raw conditions and comparisons with expressions are complete, and the verbatim texts of queries are
closed. -/
def Readable (d : Dialect) (f : Piece.Spelling) : Condition → Prop
  | compare left op (.expr e) => e.Completes d f left op
  | connect a _ b => a.Readable d f ∧ b.Readable d f
  | inQuery _ _ q => q.Verbatim (Closed d)
  | negation c => c.Readable d f
  | raw sql => ∃ c, Chain.ofText? d sql = some c
  | _ => True

/-- The condition has an `OR` outside of all parentheses; only texts that are given can hide one. -/
def isDisjunction (d : Dialect) (f : Piece.Spelling) (k : Nat) : Condition → Bool
  | connect _ op _ => op = .or
  | raw sql => (Chain.ofText? d sql).any Chain.hasOr
  | compare left op (.expr e) =>
    (Chain.ofText? d ((compare left op (.expr e)).draft.spelled d f k)).any Chain.hasOr
  | _ => false

/-- The text of a condition reads as a chain, which means what the condition means. -/
structure ReadsAs (d : Dialect) (f : Piece.Spelling) (k : Nat) (c : Condition) (chain : Chain)
    (r : Reading) : Prop where
  text : ∃ ls, Reads d (c.draft.spelled d f k).toList ls ∧ ofLumps? ls = some chain
  meaning : c.meaning? d f k = some r
  eval : ∀ v, chain.reading.eval v = r.eval v
  leaves : chain.leaves = r.leaves
  hasOr : chain.hasOr = c.isDisjunction d f k

end Condition

variable {d : Dialect} {f : Piece.Spelling}

/-! ## Pieces of predicates -/

/-- The sign of a comparison, with its blanks. -/
theorem reads_operator (op : CompareOp) : ReadsCalmClosed d (" " ++ op.sql ++ " ").toList := by
  cases op with
  | eq => exact readsCalmClosed_plain [.blank ' ', .sign '=', .blank ' '] rfl (by decide)
  | ne => exact readsCalmClosed_plain [.blank ' ', .sign '<', .sign '>', .blank ' '] rfl (by decide)
  | gt => exact readsCalmClosed_plain [.blank ' ', .sign '>', .blank ' '] rfl (by decide)
  | ge => exact readsCalmClosed_plain [.blank ' ', .sign '>', .sign '=', .blank ' '] rfl (by decide)
  | lt => exact readsCalmClosed_plain [.blank ' ', .sign '<', .blank ' '] rfl (by decide)
  | le => exact readsCalmClosed_plain [.blank ' ', .sign '<', .sign '=', .blank ' '] rfl (by decide)
  | like =>
    exact readsCalmClosed_plain [.blank ' ', .word "LIKE".toList, .blank ' '] rfl (by decide)
  | ilike =>
    exact readsCalmClosed_plain [.blank ' ', .word "ILIKE".toList, .blank ' '] rfl (by decide)

/-- The word for membership, with its blanks. -/
theorem reads_membership (negated : Bool) :
    ReadsCalmClosed d (if negated then " NOT IN " else " IN ").toList := by
  cases negated with
  | false => exact readsCalmClosed_plain [.blank ' ', .word "IN".toList, .blank ' '] rfl (by decide)
  | true =>
    exact readsCalmClosed_plain [.blank ' ', .word "NOT".toList, .blank ' ', .word "IN".toList, .blank ' ']
      rfl (by decide)

theorem reads_nullTest (negated : Bool) :
    ReadsCalm d (if negated then " IS NOT NULL" else " IS NULL").toList := by
  cases negated with
  | false =>
    exact readsCalm_plain [.blank ' ', .word "IS".toList, .blank ' ', .word "NULL".toList] rfl
      (by decide)
  | true =>
    exact readsCalm_plain [.blank ' ', .word "IS".toList, .blank ' ', .word "NOT".toList, .blank ' ',
      .word "NULL".toList] rfl (by decide)

theorem reads_value (hf : Fills d f) (v : Value) (k : Nat) :
    ReadsCalm d (v.draft.spelled d f k).toList := by
  cases v with
  | null =>
    simp only [Value.draft]
    rw [Draft.spelled_text]
    exact reads_word (c := 'N') (w := ['U', 'L', 'L']) (by decide) rfl
  | _ =>
    simp only [Value.draft]
    rw [Draft.spelled_bound]
    exact (hf k _).1

/-- What stands in parentheses is one calm lump, whatever it says. -/
theorem reads_paren (hf : Fills d f) {x : Draft} (h : x.Phrased d (Closed d) .clean .any)
    (hx : x.fault = none) (k : Nat) :
    ReadsCalmClosed d ('(' :: ((x.spelled d f k).toList ++ [')'])) := by
  have hbalances := (h hx).balances (fun k v => (hf k v).2) k
  rw [← Draft.toList_spelled] at hbalances
  obtain ⟨ls, hls⟩ := exists_reads_of_balances hbalances (Nat.le_refl _)
  refine ⟨[Chain.group ls], hls.paren, ?_⟩
  intro l hl
  obtain rfl := List.mem_singleton.mp hl
  exact Lump.calm_group _ _

/-! ## Operands -/

theorem FunctionName.reads_draft {n : FunctionName} (h : n.Verbatim fun t => ReadsCalm d t.toList)
    (k : Nat) : ReadsCalm d (n.draft.spelled d f k).toList := by
  cases n with
  | named t =>
    rw [FunctionName.draft, Draft.spelled_text]
    exact h
  | jsonObject =>
    have hname : (FunctionName.jsonObject.draft.spelled d f k).toList =
        (Piece.jsonObjectName d).toList := by
      rw [FunctionName.draft, Draft.toList_spelled]
      simp [Draft.template, Draft.jsonObject, Template.ofPieces, Template.ofPiece,
        Template.fill_ofText]
    rw [hname]
    cases d <;> exact reads_word (by decide) rfl

/-- A call is calm if its name and the name it is given are. -/
theorem Call.reads_draft (hf : Fills d f) {name : FunctionName} {args : List Operand}
    {a : Option String} (hname : name.Verbatim fun t => ReadsCalm d t.toList)
    (hargs : Operand.Verbatims (Closed d) args) (ha : ∀ t ∈ a, ReadsCalm d t.toList)
    (hx : (Call.draft ⟨name, args, a⟩).fault = none) (k : Nat) :
    ReadsCalm d ((Call.draft ⟨name, args, a⟩).spelled d f k).toList := by
  have hsound : name.draft.fault = none := by cases name <;> rfl
  have hparams : name.draft.params = [] := by cases name <;> rfl
  simp only [Call.draft] at hx ⊢
  obtain ⟨hhead, -⟩ := Draft.fault_append hx
  obtain ⟨-, hparen⟩ := Draft.fault_append hhead
  rw [Draft.fault_paren] at hparen
  have hphrased : (Draft.join ", " (Operand.arguments args)).Phrased d (Closed d) .clean .any :=
    .join comma_phrased (Operand.phrased_arguments args hargs)
  have hcall := (FunctionName.reads_draft (f := f) hname k).append_closed
    (reads_paren hf hphrased hparen k) (by decide)
  rw [Draft.spelled_append hhead, Draft.spelled_append hsound, hparams, String.toList_append,
    String.toList_append, List.length_nil, Nat.add_zero, Draft.toList_spelled_paren hparen]
  cases a with
  | none => simpa [aliasDraft, Draft.empty, Draft.spelled, Piece.spell] using hcall.reads
  | some t =>
    have hAs : ReadsCalmClosed d " AS ".toList :=
      readsCalmClosed_plain [.blank ' ', .word "AS".toList, .blank ' '] rfl (by decide)
    rw [aliasDraft, Draft.spelled_text, String.toList_append]
    exact hcall.append_reads (hAs.append_reads (ha t rfl))

/-- What a column is compared with is calm, or the comparison is complete. -/
theorem Expr.reads_of_completes (hf : Fills d f) {left : Column} {op : CompareOp} {e : Expr}
    (h : e.Completes d f left op) (hx : e.draft.fault = none) (k : Nat) :
    ReadsCalm d (e.draft.spelled d f k).toList ∨
      ∃ chain, Chain.ofText? d ((Condition.compare left op (.expr e)).draft.spelled d f k) =
        some chain := by
  cases e with
  | column c =>
    obtain ⟨ls, hls, hopens⟩ := column_reads (d := d) c
    rw [Expr.draft, Draft.spelled_text]
    exact Or.inl ⟨ls, hls.reads, hopens.calm⟩
  | value v =>
    rw [Expr.draft]
    exact Or.inl (reads_value hf v k)
  | subquery s =>
    rw [Expr.draft] at hx ⊢
    rw [Draft.fault_paren] at hx
    rw [Draft.toList_spelled_paren hx]
    exact Or.inl (reads_paren hf (Statement.phrased_draft s h) hx k).reads
  | call c =>
    obtain ⟨name, args, a⟩ := c
    obtain ⟨hname, hargs, ha⟩ := h
    rw [Expr.draft] at hx ⊢
    exact Or.inl (Call.reads_draft hf hname hargs ha hx k)
  | raw sql => exact Or.inr (h k)
  | window w => exact Or.inr (h k)
  | condition c => exact Or.inr (h k)
  | named e a => exact Or.inr (h k)

/-! ## Predicates -/

/-- A column with calm lumps behind it is one predicate. -/
theorem exists_leaf_of_column (c : Column) {cs : List Char} (h : ReadsCalm d cs) :
    ∃ ls t, Reads d (c.text.toList ++ cs) ls ∧ ofLumps? ls = some ⟨.leaf t, []⟩ := by
  obtain ⟨ls, hls, hopens⟩ := column_reads (d := d) c
  obtain ⟨ms, hms, hcalm⟩ := h
  obtain ⟨q, qs, ns, hns, hall⟩ := hopens.append hcalm
  obtain ⟨t, ht⟩ := ofLumps?_of_calm q qs hall
  exact ⟨ls ++ ms, t, hls.append_reads hms, hns ▸ ht⟩

namespace Condition

/-- A condition without parts means what its text reads as. -/
theorem ReadsAs.of_text {c : Condition} {k : Nat} {chain : Chain}
    (hmeaning : c.meaning? d f k = Reading.ofText? d (c.draft.spelled d f k))
    (htext : ∃ ls, Reads d (c.draft.spelled d f k).toList ls ∧ ofLumps? ls = some chain)
    (hor : chain.hasOr = c.isDisjunction d f k) : c.ReadsAs d f k chain chain.reading := by
  obtain ⟨ls, hls, hchain⟩ := htext
  refine ⟨⟨ls, hls, hchain⟩, ?_, fun _ => rfl, rfl, hor⟩
  rw [hmeaning, Reading.ofText?, ofText?_of_reads hls, hchain]
  rfl

/-- The text of a condition reads as one predicate. -/
def ReadsLeaf (d : Dialect) (f : Piece.Spelling) (k : Nat) (c : Condition) : Prop :=
  ∃ ls t, Reads d (c.draft.spelled d f k).toList ls ∧ ofLumps? ls = some ⟨.leaf t, []⟩

theorem ReadsLeaf.readsAs {c : Condition} {k : Nat} (h : c.ReadsLeaf d f k)
    (hmeaning : c.meaning? d f k = Reading.ofText? d (c.draft.spelled d f k))
    (hor : c.isDisjunction d f k = false) : ∃ ch r, c.ReadsAs d f k ch r := by
  obtain ⟨ls, t, hls, hchain⟩ := h
  exact ⟨_, _, .of_text hmeaning ⟨ls, hls, hchain⟩ hor.symm⟩

/-- A comparison, a test or a membership: a column and what is said of it. -/
theorem readsLeaf_of_column {c : Condition} {k : Nat} (column : Column) {cs : List Char}
    (htext : (c.draft.spelled d f k).toList = column.text.toList ++ cs) (hcs : ReadsCalm d cs) :
    c.ReadsLeaf d f k := by
  obtain ⟨ls, t, hls, hchain⟩ := exists_leaf_of_column column hcs
  exact ⟨ls, t, htext ▸ hls, hchain⟩

theorem toList_spelled_compare (left : Column) (op : CompareOp) (right : Operand) (k : Nat) :
    ((compare left op right).draft.spelled d f k).toList =
      left.text.toList ++ ((" " ++ op.sql ++ " ").toList ++ (right.draft.spelled d f k).toList) := by
  simp only [draft]
  rw [Draft.spelled_text_append]
  simp

theorem toList_spelled_null (c : Column) (negated : Bool) (k : Nat) :
    ((null c negated).draft.spelled d f k).toList =
      c.text.toList ++ (if negated then " IS NOT NULL" else " IS NULL").toList := by
  simp only [draft]
  rw [Draft.spelled_text, String.toList_append]

theorem toList_spelled_inList (c : Column) (negated : Bool) (v : Value) (vs : List Value) (k : Nat) :
    ((inList c negated (v :: vs)).draft.spelled d f k).toList =
      c.text.toList ++ ((if negated then " NOT IN " else " IN ").toList ++
        '(' :: (((boundList (v :: vs)).spelled d f k).toList ++ [')'])) := by
  simp only [draft, memberDraft]
  rw [Draft.spelled_text_append, String.toList_append,
    Draft.toList_spelled_paren (fault_boundList _), String.toList_append, List.append_assoc]

theorem toList_spelled_between (c : Column) (lower upper : Value) (k : Nat) :
    ((between c lower upper).draft.spelled d f k).toList =
      c.text.toList ++ (" BETWEEN ".toList ++ ((f k lower).toList ++
        (" AND ".toList ++ (f (k + 1) upper).toList))) := by
  have hlength : (Draft.bound lower).params.length = 1 := rfl
  simp only [draft]
  rw [Draft.append_assoc, Draft.append_assoc, Draft.spelled_text_append,
    Draft.spelled_append (by rfl), Draft.spelled_bound, Draft.spelled_text_append, Draft.spelled_bound,
    hlength]
  simp only [String.toList_append, List.append_assoc]

theorem readsLeaf_compare (left : Column) (op : CompareOp) {right : Operand} {k : Nat}
    (h : ReadsCalm d (right.draft.spelled d f k).toList) :
    (compare left op right).ReadsLeaf d f k :=
  readsLeaf_of_column left (toList_spelled_compare left op right k) ((reads_operator op).append_reads h)

theorem readsLeaf_value (hf : Fills d f) (left : Column) (op : CompareOp) (v : Value) (k : Nat) :
    (compare left op (.value v)).ReadsLeaf d f k := by
  refine readsLeaf_compare left op ?_
  rw [Operand.draft]
  exact reads_value hf v k

theorem readsLeaf_column (left : Column) (op : CompareOp) (c : Column) (k : Nat) :
    (compare left op (.column c)).ReadsLeaf d f k := by
  obtain ⟨ms, hms, hopens⟩ := column_reads (d := d) c
  refine readsLeaf_compare left op ?_
  rw [Operand.draft, Draft.spelled_text]
  exact ⟨ms, hms.reads, hopens.calm⟩

theorem readsAs_compare (hf : Fills d f) (left : Column) (op : CompareOp) {right : Operand}
    (h : (compare left op right).Readable d f) (hx : right.draft.fault = none) (k : Nat) :
    ∃ ch r, (compare left op right).ReadsAs d f k ch r := by
  have hmeaning : (compare left op right).meaning? d f k =
      Reading.ofText? d ((compare left op right).draft.spelled d f k) := by rw [meaning?] <;> simp
  cases right with
  | value v => exact (readsLeaf_value hf left op v k).readsAs hmeaning rfl
  | column c => exact (readsLeaf_column left op c k).readsAs hmeaning rfl
  | expr e =>
    rw [Operand.draft] at hx
    -- whatever the text of the comparison reads as, it has the connectives of that
    have htext : ∃ ch, ∃ ls, Reads d ((compare left op (.expr e)).draft.spelled d f k).toList ls ∧
        ofLumps? ls = some ch := by
      rcases e.reads_of_completes hf h hx k with hcalm | ⟨ch, hch⟩
      · rw [← Operand.draft] at hcalm
        obtain ⟨ls, t, hls, hchain⟩ := readsLeaf_compare left op hcalm
        exact ⟨_, ls, hls, hchain⟩
      · exact ⟨ch, reads_of_ofText? hch⟩
    obtain ⟨ch, ls, hls, hchain⟩ := htext
    refine ⟨_, _, .of_text hmeaning ⟨ls, hls, hchain⟩ ?_⟩
    rw [isDisjunction, ofText?_of_reads hls, hchain]
    rfl

theorem readsLeaf_null (c : Column) (negated : Bool) (k : Nat) : (null c negated).ReadsLeaf d f k :=
  readsLeaf_of_column c (toList_spelled_null c negated k) (reads_nullTest negated)

theorem readsLeaf_inList (hf : Fills d f) (c : Column) (negated : Bool) (vs : List Value) (k : Nat) :
    (inList c negated vs).ReadsLeaf d f k := by
  cases vs with
  | nil =>
    cases negated with
    | true =>
      -- nothing is in the empty list, which is said without the column
      have htext : Chain.ofText? d "1 = 1" = some ⟨.leaf "1 = 1", []⟩ := by cases d <;> rfl
      obtain ⟨ls, hls, hchain⟩ := reads_of_ofText? htext
      refine ⟨ls, _, ?_, hchain⟩
      simp only [draft, memberDraft, if_true]
      rw [Draft.spelled_text]
      exact hls
    | false =>
      have hnull : Reads d "NULL".toList [.token (.word "NULL".toList)] :=
        ⟨_, rfl, nests_plain (t := [.word "NULL".toList]) (by simp [IsPlain])⟩
      have hgroup : ReadsCalm d ('(' :: ("NULL".toList ++ [')'])) := by
        refine ⟨_, hnull.paren.reads, ?_⟩
        intro l hl
        obtain rfl := List.mem_singleton.mp hl
        exact Lump.calm_group _ _
      refine readsLeaf_of_column c ?_ ((reads_membership false).append_reads hgroup)
      simp only [draft, memberDraft]
      rw [Draft.spelled_text]
      simp
  | cons v vs =>
    have hparen := reads_paren hf (boundList_phrased (v :: vs)) (fault_boundList _) k
    exact readsLeaf_of_column c (toList_spelled_inList c negated v vs k)
      ((reads_membership negated).append_reads hparen.reads)

theorem readsLeaf_inQuery (hf : Fills d f) (c : Column) (negated : Bool) {q : Statement}
    (h : q.Verbatim (Closed d)) (hx : q.draft.fault = none) (k : Nat) :
    (inQuery c negated q).ReadsLeaf d f k := by
  refine readsLeaf_of_column c ?_ ((reads_membership negated).append_reads
    (reads_paren hf (Statement.phrased_draft q h) hx k).reads)
  simp only [draft]
  rw [Draft.spelled_text_append, String.toList_append, Draft.toList_spelled_paren hx,
    String.toList_append, List.append_assoc]

theorem readsLeaf_between (hf : Fills d f) (c : Column) (lower upper : Value) (k : Nat) :
    (between c lower upper).ReadsLeaf d f k := by
  obtain ⟨ls, hls, q, cs, ns, rfl, hns⟩ := column_reads (d := d) c
  obtain ⟨ms, hms, hcalm⟩ := (hf k lower).1
  obtain ⟨os, hos, hcalm'⟩ := (hf (k + 1) upper).1
  have hbetween : ReadsClosed d " BETWEEN ".toList (Lump.keyword "BETWEEN") :=
    readsClosed_plain (t := [.blank ' ', .word "BETWEEN".toList, .blank ' ']) rfl (by simp [IsPlain])
  have hand : ReadsClosed d [' ', 'A', 'N', 'D', ' '] (Lump.keyword "AND") :=
    readsClosed_plain (s := " AND ") (t := [.blank ' ', .word "AND".toList, .blank ' ']) rfl
      (by simp [IsPlain])
  obtain ⟨t, ht⟩ := ofLumps?_between q cs hns hcalm hcalm'
  have hupper := (hms.append_closed hand rfl).append_reads hos
  have hreads := hls.append_reads (hbetween.append_reads hupper)
  refine ⟨_, t, ?_, ht⟩
  rw [toList_spelled_between]
  simpa using hreads

/-- A negation reads as the negation of what is in the parentheses. -/
theorem reads_negation {c : Condition} {k : Nat} {ls : List Lump} {ch : Chain}
    (hls : Reads d (c.draft.spelled d f k).toList ls) (hch : ofLumps? ls = some ch)
    (hx : c.draft.fault = none) :
    ∃ ms, Reads d ((negation c).draft.spelled d f k).toList ms ∧
      ofLumps? ms = some ⟨.not ch.reading, []⟩ := by
  have hnot : ReadsClosed d "NOT ".toList [.token (.word "NOT".toList), .token (.blank ' ')] :=
    readsClosed_plain (t := [.word "NOT".toList, .blank ' ']) rfl (by simp [IsPlain])
  refine ⟨_, ?_, ofLumps?_not hch⟩
  simp only [draft]
  rw [Draft.spelled_text_append, String.toList_append, Draft.toList_spelled_paren hx]
  exact hnot.append_reads hls.paren.reads

theorem readsAs_negation {c : Condition} {k : Nat} {ch : Chain} {r : Reading}
    (h : c.ReadsAs d f k ch r) (hx : c.draft.fault = none) :
    (negation c).ReadsAs d f k ⟨.not ch.reading, []⟩ (.not r) := by
  obtain ⟨⟨ls, hls, hchain⟩, hmeaning, heval, hleaves, -⟩ := h
  refine ⟨reads_negation hls hchain hx, ?_, ?_, ?_, rfl⟩
  · rw [meaning?, hmeaning]
    rfl
  · intro v
    rw [Chain.reading, Reading.ofLinks, Reading.eval, Reading.eval, heval]
  · exact hleaves

/-- The text of a connection, both sides in parentheses. -/
theorem toList_spelled_connect {a b : Condition} (op : Connective) (ha : a.draft.fault = none)
    (hb : b.draft.fault = none) (k : Nat) :
    ((connect a op b).draft.spelled d f k).toList =
      '(' :: ((a.draft.spelled d f k).toList ++ [')']) ++ ((" " ++ op.sql ++ " ").toList ++
        '(' :: ((b.draft.spelled d f (k + a.draft.params.length)).toList ++ [')'])) := by
  have hparen : (Draft.paren a.draft).fault = none := by rw [Draft.fault_paren, ha]
  simp only [draft]
  rw [Draft.append_assoc, Draft.spelled_append hparen, Draft.spelled_text_append,
    String.toList_append, String.toList_append, Draft.toList_spelled_paren ha,
    Draft.toList_spelled_paren hb, Draft.params_paren ha]

/-- A connection reads as the connection of what is in the parentheses. -/
theorem reads_connect {a b : Condition} (op : Connective) {k : Nat} {ls ms : List Lump} {ca cb : Chain}
    (hls : Reads d (a.draft.spelled d f k).toList ls) (hca : ofLumps? ls = some ca)
    (hms : Reads d (b.draft.spelled d f (k + a.draft.params.length)).toList ms)
    (hcb : ofLumps? ms = some cb) (hxa : a.draft.fault = none) (hxb : b.draft.fault = none) :
    ∃ ns, Reads d ((connect a op b).draft.spelled d f k).toList ns ∧
      ofLumps? ns = some ⟨ca.reading, [(op, cb.reading)]⟩ := by
  have hop : ReadsClosed d (" " ++ op.sql ++ " ").toList (Lump.between op) := by
    cases op with
    | and =>
      exact readsClosed_plain (t := [.blank ' ', .word "AND".toList, .blank ' ']) rfl
        (by simp [IsPlain])
    | or =>
      exact readsClosed_plain (t := [.blank ' ', .word "OR".toList, .blank ' ']) rfl
        (by simp [IsPlain])
  refine ⟨_, ?_, ofLumps?_join op (ofLumps?_group hca) (ofLumps?_group hcb)⟩
  rw [toList_spelled_connect op hxa hxb]
  exact (hls.paren.append (hop.append hms.paren)).reads

theorem readsAs_connect {a b : Condition} {op : Connective} {k : Nat} {ca cb : Chain}
    {ra rb : Reading} (ha : a.ReadsAs d f k ca ra)
    (hb : b.ReadsAs d f (k + a.draft.params.length) cb rb) (hxa : a.draft.fault = none)
    (hxb : b.draft.fault = none) :
    (connect a op b).ReadsAs d f k ⟨ca.reading, [(op, cb.reading)]⟩ (ra.connect op rb) := by
  obtain ⟨⟨ls, hls, hca⟩, hma, hea, hla, -⟩ := ha
  obtain ⟨⟨ms, hms, hcb⟩, hmb, heb, hlb, -⟩ := hb
  refine ⟨reads_connect op hls hca hms hcb hxa hxb, ?_, ?_, ?_, ?_⟩
  · rw [meaning?, hma, Option.bind_some, hmb]
    rfl
  · intro v
    cases op with
    | and =>
      rw [Reading.connect, Reading.eval, ← hea, ← heb]
      rfl
    | or =>
      rw [Reading.connect, Reading.eval, ← hea, ← heb]
      rfl
  · cases op with
    | and =>
      rw [Reading.connect, Reading.leaves, ← hla, ← hlb]
      rfl
    | or =>
      rw [Reading.connect, Reading.leaves, ← hla, ← hlb]
      rfl
  · simp [Chain.hasOr, isDisjunction]

theorem readsAs_raw {sql : String} (h : ∃ ch, Chain.ofText? d sql = some ch) (k : Nat) :
    ∃ ch r, (raw sql).ReadsAs d f k ch r := by
  obtain ⟨ch, hch⟩ := h
  refine ⟨ch, _, .of_text (by rw [meaning?] <;> simp) ?_ ?_⟩
  · simp only [draft]
    rw [Draft.spelled_text]
    exact reads_of_ofText? hch
  · rw [isDisjunction, hch]
    rfl

/-- The text of a condition reads as a chain, which means what the condition means. -/
theorem exists_readsAs (hf : Fills d f) : (c : Condition) → c.Readable d f → c.draft.fault = none →
    (k : Nat) → ∃ ch r, c.ReadsAs d f k ch r
  | compare left op right, h, hx, k => by
    simp only [draft] at hx
    exact readsAs_compare hf left op h (Draft.fault_append hx).2 k
  | null c negated, _, _, k => (readsLeaf_null c negated k).readsAs (by rw [meaning?] <;> simp) rfl
  | connect a op b, h, hx, k => by
    simp only [draft] at hx
    obtain ⟨hfirst, hxb⟩ := Draft.fault_append hx
    have hxa := (Draft.fault_append hfirst).1
    rw [Draft.fault_paren] at hxa hxb
    obtain ⟨ca, ra, ha⟩ := a.exists_readsAs hf h.1 hxa k
    obtain ⟨cb, rb, hb⟩ := b.exists_readsAs hf h.2 hxb (k + a.draft.params.length)
    exact ⟨_, _, readsAs_connect ha hb hxa hxb⟩
  | inList c negated vs, _, _, k =>
    (readsLeaf_inList hf c negated vs k).readsAs (by rw [meaning?] <;> simp) rfl
  | inQuery c negated q, h, hx, k => by
    simp only [draft] at hx
    have hq := (Draft.fault_append hx).2
    rw [Draft.fault_paren] at hq
    exact (readsLeaf_inQuery hf c negated h hq k).readsAs (by rw [meaning?] <;> simp) rfl
  | between c lower upper, _, _, k =>
    (readsLeaf_between hf c lower upper k).readsAs (by rw [meaning?] <;> simp) rfl
  | negation c, h, hx, k => by
    simp only [draft] at hx
    have hxc := (Draft.fault_append hx).2
    rw [Draft.fault_paren] at hxc
    obtain ⟨ch, r, hc⟩ := c.exists_readsAs hf h hxc k
    exact ⟨_, _, readsAs_negation hc hxc⟩
  | raw sql, h, _, k => readsAs_raw h k

end Condition

end SqlKit
