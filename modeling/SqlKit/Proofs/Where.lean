import SqlKit.Proofs.Conditions
import SqlKit.Proofs.Writing

/-!
# The conditions of a statement

The conditions of a statement are written one behind the other with ` AND ` between them and no
parentheses of their own.  What a reader makes of that is their conjunction when there is one
condition only, or when none has an `OR` outside of all parentheses.  It is something else in every
other case: the `AND` beside a disjunction takes one side of it away.

    a single condition, or no disjunction → the text means the conjunction     (where_reads)
    a disjunction among others → the text can be true and the conjunction false
-/

namespace SqlKit

open Lexer Chain

variable {d : Dialect} {f : Piece.Spelling}

/-! ## Conditions one behind the other -/

namespace Condition

/-- Conditions as they stand behind `WHERE`. -/
def joined (cs : List Condition) : Draft := .join " AND " (Condition.drafts cs)

/-- One of the conditions is a disjunction. -/
def hasDisjunction (d : Dialect) (f : Piece.Spelling) : List Condition → Nat → Bool
  | [], _ => false
  | c :: cs, k => c.isDisjunction d f k || hasDisjunction d f cs (k + c.draft.params.length)

/-- A single condition, or conditions none of which is a disjunction. -/
def Conjunctive (d : Dialect) (f : Piece.Spelling) (k : Nat) (cs : List Condition) : Prop :=
  cs.length = 1 ∨ hasDisjunction d f cs k = false

instance (d : Dialect) (f : Piece.Spelling) (k : Nat) (cs : List Condition) :
    Decidable (Conjunctive d f k cs) := inferInstanceAs (Decidable (_ ∨ _))

/-- The text of conditions one behind the other reads as a chain of all their predicates, whose `OR`s
are theirs. -/
structure JoinReadsAs (d : Dialect) (f : Piece.Spelling) (k : Nat) (cs : List Condition) (chain : Chain)
    (rs : List Reading) : Prop where
  text : ∃ ls, Reads d ((joined cs).spelled d f k).toList ls ∧ ofLumps? ls = some chain
  meanings : meanings? d f cs k = some rs
  leaves : chain.leaves = rs.flatMap Reading.leaves
  hasOr : chain.hasOr = hasDisjunction d f cs k
  /-- They mean their conjunction. -/
  eval : Conjunctive d f k cs → ∀ v, chain.reading.eval v = Truth.all (rs.map fun r => r.eval v)
  /-- They mean something else. -/
  differs : ¬ Conjunctive d f k cs → chain.leaves.Nodup →
    ∃ v, chain.reading.eval v = .true ∧ Truth.all (rs.map fun r => r.eval v) = .false

end Condition

theorem Truth.all_eq_false {ts : List Truth} (h : Truth.false ∈ ts) : Truth.all ts = .false := by
  induction ts with
  | nil => simp at h
  | cons t ts ih =>
    rw [Truth.all]
    rcases List.mem_cons.mp h with rfl | h
    · exact Truth.false_and _
    · rw [ih h]
      exact Truth.and_false _

namespace Condition

theorem conjunctive_iff (c b : Condition) (cs : List Condition) (k : Nat) :
    Conjunctive d f k (c :: b :: cs) ↔ hasDisjunction d f (c :: b :: cs) k = false := by
  rw [Conjunctive]
  simp

/-- One condition. -/
theorem ReadsAs.joinReadsAs {c : Condition} {k : Nat} {ch : Chain} {r : Reading}
    (h : c.ReadsAs d f k ch r) : JoinReadsAs d f k [c] ch [r] := by
  refine ⟨h.text, ?_, ?_, ?_, ?_, ?_⟩
  · rw [meanings?, h.meaning]
    rfl
  · rw [List.flatMap_singleton]
    exact h.leaves
  · rw [h.hasOr, hasDisjunction, hasDisjunction, Bool.or_false]
  · intro _ v
    rw [h.eval v]
    simp [Truth.all]
  · intro hnot
    exact absurd (Or.inl rfl) hnot

theorem exists_cons_of_meanings? {c : Condition} {cs : List Condition} {k : Nat} {rs : List Reading}
    (h : meanings? d f (c :: cs) k = some rs) : ∃ r rs', rs = r :: rs' := by
  rw [meanings?] at h
  obtain ⟨r, -, h⟩ := Option.bind_eq_some_iff.mp h
  obtain ⟨rs', -, rfl⟩ := Option.map_eq_some_iff.mp h
  exact ⟨r, rs', rfl⟩

/-- What stands between two conditions is read as a connective. -/
theorem reads_joined_cons {c b : Condition} {cs : List Condition} {k : Nat} {ls ms : List Lump}
    (hx : c.draft.fault = none) (hls : Reads d (c.draft.spelled d f k).toList ls)
    (hms : Reads d ((joined (b :: cs)).spelled d f (k + c.draft.params.length)).toList ms) :
    Reads d ((joined (c :: b :: cs)).spelled d f k).toList (ls ++ (Lump.between .and ++ ms)) := by
  have hand : ReadsClosed d [' ', 'A', 'N', 'D', ' '] (Lump.between .and) :=
    readsClosed_plain (s := " AND ") (t := [.blank ' ', .word "AND".toList, .blank ' ']) rfl
      (by simp [IsPlain])
  have hjoined : joined (c :: b :: cs) = c.draft ++ (.text " AND " ++ joined (b :: cs)) := by
    simp [joined, Condition.drafts, Draft.join]
  have htext : ((joined (c :: b :: cs)).spelled d f k).toList =
      (c.draft.spelled d f k).toList ++ [' ', 'A', 'N', 'D', ' '] ++
        ((joined (b :: cs)).spelled d f (k + c.draft.params.length)).toList := by
    rw [hjoined, Draft.spelled_append hx, Draft.spelled_text_append, String.toList_append,
      String.toList_append, List.append_assoc]
    rfl
  rw [htext, ← List.append_assoc]
  exact (hls.append_closed hand rfl).append_reads hms

/-- One condition in front of others. -/
theorem JoinReadsAs.cons {c b : Condition} {cs : List Condition} {k : Nat} {ca cb : Chain} {r : Reading}
    {rs : List Reading} (hx : c.draft.fault = none) (hc : c.ReadsAs d f k ca r)
    (hcs : JoinReadsAs d f (k + c.draft.params.length) (b :: cs) cb rs) :
    JoinReadsAs d f k (c :: b :: cs) (ca.join .and cb) (r :: rs) := by
  have hleaves : (ca.join .and cb).leaves = (r :: rs).flatMap Reading.leaves := by
    rw [leaves_join, hc.leaves, hcs.leaves, List.flatMap_cons]
  have hor : (ca.join .and cb).hasOr = hasDisjunction d f (c :: b :: cs) k := by
    have hcons : hasDisjunction d f (c :: b :: cs) k = (c.isDisjunction d f k ||
        hasDisjunction d f (b :: cs) (k + c.draft.params.length)) := rfl
    have hop : decide (Connective.and = .or) = false := rfl
    rw [hasOr_join, hc.hasOr, hcs.hasOr, hcons, hop, Bool.false_or]
  refine ⟨?_, ?_, hleaves, hor, ?_, ?_⟩
  · obtain ⟨ls, hls, hca⟩ := hc.text
    obtain ⟨ms, hms, hcb⟩ := hcs.text
    exact ⟨_, reads_joined_cons hx hls hms, ofLumps?_join .and hca hcb⟩
  · rw [meanings?, hc.meaning, Option.bind_some, hcs.meanings]
    rfl
  · intro hconj v
    rw [conjunctive_iff, hasDisjunction, Bool.or_eq_false_iff] at hconj
    obtain ⟨hca, hcb⟩ := hconj
    have hrest : Conjunctive d f (k + c.draft.params.length) (b :: cs) := Or.inr hcb
    rw [← hc.hasOr] at hca
    rw [← hcs.hasOr] at hcb
    rw [eval_join_and v hca hcb, hc.eval, hcs.eval hrest]
    rfl
  · intro hnot hnodup
    rw [conjunctive_iff, Bool.not_eq_false, ← hor] at hnot
    obtain ⟨q, qs, rfl⟩ := exists_cons_of_meanings? hcs.meanings
    have hr : r.leaves.Sublist ca.leaves := hc.leaves ▸ .refl _
    have hq : q.leaves.Sublist cb.leaves := by
      rw [hcs.leaves, List.flatMap_cons]
      exact List.sublist_append_left _ _
    obtain ⟨v, htrue, hfalse⟩ := exists_of_or_join hnot hnodup hr hq
    refine ⟨v, htrue, Truth.all_eq_false ?_⟩
    rcases hfalse with hfalse | hfalse <;> simp [hfalse]

theorem exists_joinReadsAs (hf : Fills d f) {cs : List Condition} (hne : cs ≠ [])
    (hread : ∀ c ∈ cs, c.Readable d f) (hx : (joined cs).fault = none) (k : Nat) :
    ∃ ch rs, JoinReadsAs d f k cs ch rs := by
  induction cs generalizing k with
  | nil => exact absurd rfl hne
  | cons c cs ih =>
    have hc := hread c (by simp)
    cases cs with
    | nil =>
      obtain ⟨ch, r, h⟩ := exists_readsAs hf c hc hx k
      exact ⟨ch, [r], h.joinReadsAs⟩
    | cons b cs =>
      obtain ⟨hxc, hrest⟩ := Draft.fault_append hx
      have hxcs : (joined (b :: cs)).fault = none := (Draft.fault_append hrest).2
      obtain ⟨ca, r, h⟩ := exists_readsAs hf c hc hxc k
      obtain ⟨cb, rs, hcs⟩ := ih (by simp) (fun e he => hread e (by simp [he])) hxcs
        (k + c.draft.params.length)
      exact ⟨_, _, .cons hxc h hcs⟩

end Condition

/-! ## Statements around their conditions -/

namespace Statement

/-- What a statement says before its conditions. -/
def beforeWhere (s : Statement) : Draft :=
  match s.kind with
  | .select =>
    withDraft (Cte.drafts s.ctes) ++
    .text (if s.distinct then "SELECT DISTINCT " else "SELECT ") ++
    selectListDraft (Expr.drafts s.selects) ++
    .clause " FROM " ", " (Source.drafts s.sources) ++
    Join.drafts s.joins
  | .update =>
    updateDraft (withDraft (Cte.drafts s.ctes)) s.updateTable (Assignment.drafts s.updates) .empty
  | .delete =>
    deleteDraft (withDraft (Cte.drafts s.ctes)) (Source.drafts s.sources)
      (Source.draft? s.deleteSource) .empty
  | _ => s.draft

/-- What a statement says behind its conditions. -/
def afterWhere (s : Statement) : Draft :=
  match s.kind with
  | .select =>
    .clause " GROUP BY " ", " (Expr.drafts s.groups) ++
    .clause " WINDOW " ", " (WindowDef.drafts s.windows) ++
    .clause " ORDER BY " ", " (OrderItem.drafts s.orders) ++
    countDraft " LIMIT " s.limit ++
    countDraft " OFFSET " s.offset ++
    returningDraft s.returning
  | .update | .delete => returningDraft s.returning
  | _ => .empty

/-- The kind has conditions. -/
def HasWhere (s : Statement) : Prop := s.kind = .select ∨ s.kind = .update ∨ s.kind = .delete

instance (s : Statement) : Decidable s.HasWhere := inferInstanceAs (Decidable (_ ∨ _ ∨ _))

theorem fail_append (m : Malformed) (x : Draft) : Draft.fail m ++ x = Draft.fail m :=
  Draft.append_of_fault rfl

theorem updateDraft_append (w : Draft) (t : Option Table) (as : List Draft) (x : Draft) :
    updateDraft w t as x = updateDraft w t as .empty ++ x := by
  cases t with
  | none => rw [updateDraft, updateDraft, fail_append]
  | some t =>
    cases as with
    | nil => rw [updateDraft, updateDraft, fail_append]
    | cons a as => simp only [updateDraft, Draft.append_assoc, Draft.empty_append]

theorem deleteDraft_append (w : Draft) (ss : List Draft) (source : Option Draft) (x : Draft) :
    deleteDraft w ss source x = deleteDraft w ss source .empty ++ x := by
  cases ss with
  | cons s ss => simp only [deleteDraft, Draft.append_assoc, Draft.empty_append]
  | nil =>
    cases source with
    | none => rw [deleteDraft, deleteDraft, fail_append]
    | some s => simp only [deleteDraft, Draft.append_assoc, Draft.empty_append]

theorem draft_around_where {s : Statement} (h : s.HasWhere) :
    s.draft = s.beforeWhere ++ (whereDraft (Condition.drafts s.wheres) ++ s.afterWhere) := by
  rcases h with h | h | h
  · rw [draft_select h, beforeWhere, afterWhere, h]
    simp only [Draft.append_assoc]
  · rw [draft_update h, updateDraft_append, beforeWhere, afterWhere, h]
  · rw [draft_delete h, deleteDraft_append, beforeWhere, afterWhere, h]

/-- What stands for values is read as a word or a closed token. -/
theorem fills_spelling (c : Compiler) : Fills c.dialect c.spelling := by
  unfold Compiler.spelling
  by_cases h : c.inline = true
  · rw [if_pos h]
    exact fills_literals c.dialect
  · rw [if_neg h]
    exact fills_placeholders c.dialect

theorem write_eq_ok {c : Compiler} {x : Draft} {sql : String} (h : (c.write x).1 = .ok sql) :
    x.fault = none ∧ sql = x.spelled c.dialect c.spelling (c.count + 1) := by
  unfold Compiler.write at h
  cases hx : x.fault with
  | some m =>
    rw [hx] at h
    contradiction
  | none =>
    rw [hx] at h
    exact ⟨rfl, (Except.ok.inj h).symm⟩

/-- What a statement says behind `WHERE` means the conjunction of its conditions if there is only one,
or none of them is a disjunction; and only then, unless a predicate is there twice. -/
theorem where_reads {c : Compiler} {s : Statement} {sql : String} (hs : s.HasWhere)
    (hne : s.wheres ≠ []) (hread : ∀ x ∈ s.wheres, x.Readable c.dialect c.spelling)
    (hsql : (s.write.on c).1 = .ok sql) :
    ∃ k text t ms,
      k = c.count + 1 + s.beforeWhere.params.length ∧
      text = (Condition.joined s.wheres).spelled c.dialect c.spelling k ∧
      sql = s.beforeWhere.spelled c.dialect c.spelling (c.count + 1) ++ " WHERE " ++ text ++
        s.afterWhere.spelled c.dialect c.spelling (k + (Condition.joined s.wheres).params.length) ∧
      Reading.ofText? c.dialect text = some t ∧
      Condition.meanings? c.dialect c.spelling s.wheres k = some ms ∧
      (Condition.Conjunctive c.dialect c.spelling k s.wheres →
        ∀ v, t.eval v = Truth.all (ms.map fun m => m.eval v)) ∧
      (t.leaves.Nodup → (∀ v, t.eval v = Truth.all (ms.map fun m => m.eval v)) →
        Condition.Conjunctive c.dialect c.spelling k s.wheres) := by
  rw [Statement.writes s c] at hsql
  obtain ⟨hsound, rfl⟩ := write_eq_ok hsql
  rw [draft_around_where hs] at hsound
  obtain ⟨hbefore, hrest⟩ := Draft.fault_append hsound
  have hclause : whereDraft (Condition.drafts s.wheres) =
      .text " WHERE " ++ Condition.joined s.wheres := by
    cases hw : s.wheres with
    | nil => exact absurd hw hne
    | cons x xs => rfl
  rw [hclause] at hrest
  have hjoined := (Draft.fault_append (Draft.fault_append hrest).1).2
  obtain ⟨chain, ms, ⟨ls, hls, hchain⟩, hmeanings, -, -, heval, hdiffers⟩ :=
    Condition.exists_joinReadsAs (fills_spelling c) hne hread hjoined
      (c.count + 1 + s.beforeWhere.params.length)
  refine ⟨_, _, chain.reading, ms, rfl, rfl, ?_, ?_, hmeanings, heval, ?_⟩
  · rw [draft_around_where hs, hclause, Draft.append_assoc, Draft.spelled_append hbefore,
      Draft.spelled_text_append, Draft.spelled_append hjoined]
    simp only [String.append_assoc]
  · rw [Reading.ofText?, ofText?_of_reads hls, hchain]
    rfl
  · intro hnodup hall
    by_cases hconj : Condition.Conjunctive c.dialect c.spelling
        (c.count + 1 + s.beforeWhere.params.length) s.wheres
    · exact hconj
    · obtain ⟨v, htrue, hfalse⟩ := hdiffers hconj hnodup
      rw [hall v, hfalse] at htrue
      contradiction

/-- Two conditions without a disjunction. -/
theorem where_reads_conjunction :
    ∃ t ms, Reading.ofText? .postgres "\"a\" = $1 AND NOT (\"b\" IS NULL)" = some t ∧
      Condition.meanings? .postgres (Piece.placeholders .postgres)
        [.compare ⟨"a", none⟩ .eq (.value (.int 1)), .negation (.null ⟨"b", none⟩ false)] 1 =
          some ms ∧
      ∀ v, t.eval v = Truth.all (ms.map fun m => m.eval v) := by
  let s : Statement :=
    { sources := [.table (.named "t")]
      wheres := [.compare ⟨"a", none⟩ .eq (.value (.int 1)), .negation (.null ⟨"b", none⟩ false)] }
  have hsql : (s.write.on (.binding .postgres)).1 =
      .ok "SELECT * FROM \"t\" WHERE \"a\" = $1 AND NOT (\"b\" IS NULL)" := rfl
  have hread : ∀ x ∈ s.wheres, x.Readable .postgres (Piece.placeholders .postgres) := by
    simp [s, Condition.Readable]
  have hjoined : (Condition.joined s.wheres).spelled .postgres (Piece.placeholders .postgres) 1 =
      "\"a\" = $1 AND NOT (\"b\" IS NULL)" := rfl
  obtain ⟨k, text, t, ms, hk, htext, -, ht, hms, heval, -⟩ :=
    where_reads (s := s) (by decide) (by simp [s]) hread hsql
  obtain rfl : k = 1 := hk
  obtain rfl : text = _ := htext.trans hjoined
  exact ⟨t, ms, ht, hms, heval (Or.inr rfl)⟩

/-- A disjunction and another condition: all rows where the first side of the disjunction holds are
there, whatever the other condition says. -/
theorem where_reads_disjunction :
    ((Statement.write
      { sources := [.table (.named "t")]
        wheres :=
          [.connect (.compare ⟨"a", none⟩ .eq (.value (.int 1))) .or
              (.compare ⟨"b", none⟩ .eq (.value (.int 2))),
            .compare ⟨"c", none⟩ .eq (.value (.int 3))] }).on (.binding .postgres)).1 =
      .ok "SELECT * FROM \"t\" WHERE (\"a\" = $1) OR (\"b\" = $2) AND \"c\" = $3" ∧
    ∃ t ms v,
      Reading.ofText? .postgres "(\"a\" = $1) OR (\"b\" = $2) AND \"c\" = $3" = some t ∧
      Condition.meanings? .postgres (Piece.placeholders .postgres)
        [.connect (.compare ⟨"a", none⟩ .eq (.value (.int 1))) .or
            (.compare ⟨"b", none⟩ .eq (.value (.int 2))),
          .compare ⟨"c", none⟩ .eq (.value (.int 3))] 1 = some ms ∧
      t.eval v = .true ∧ Truth.all (ms.map fun m => m.eval v) = .false := by
  refine ⟨rfl, .or (.leaf "\"a\" = $1") (.and (.leaf "\"b\" = $2") (.leaf "\"c\" = $3")),
    [.or (.leaf "\"a\" = $1") (.leaf "\"b\" = $2"), .leaf "\"c\" = $3"],
    fun x => if x = "\"a\" = $1" then .true else .false, rfl, rfl, ?_, ?_⟩
  · decide
  · decide

end Statement

end SqlKit
