import Mathlib.Data.List.Forall2
import SqlKit.Proofs.Predicates
import SqlKit.Proofs.Writing
import SqlKit.Query.Transaction

/-!
# How statements start

A statement on rows, once it is compiled, starts with the word of its kind, or with `WITH` if it has
common table expressions.  Whatever verbatim text it has stands behind that word, so that no such
statement begins or ends a transaction.

    a draft that leads with a word leads with it whatever follows      (Leads.append)
    compiled statements on rows start with a word of theirs            (isRowText_compile)
-/

namespace SqlKit

/-- Statements of the kind are about rows. -/
def StatementKind.isOnRows : StatementKind → Bool
  | select | insert | update | delete => true
  | begin | commit | rollback => false

/-- A script of statements on rows. -/
def Script.IsOnRows (s : Script) : Prop := ∀ p ∈ s.parts, p.last.kind.isOnRows = true

/-- What a text on rows starts with. -/
def rowWords : List String := ["WITH ", "SELECT ", "INSERT ", "UPDATE ", "DELETE "]

/-- The text starts like a statement on rows. -/
def IsRowText (sql : String) : Prop := ∃ word ∈ rowWords, ∃ rest, sql = word ++ rest

namespace Draft

/-- A draft is malformed or starts like a statement on rows. -/
def Leads (x : Draft) : Prop :=
  x.fault.isSome = true ∨ ∃ word ∈ rowWords, ∃ s ps, x.pieces = .text (word ++ s) :: ps

variable {x : Draft}

theorem leads_fail (m : Malformed) : Leads (fail m) := .inl rfl

theorem leads_text (word s : String) (h : word ∈ rowWords) : Leads (text (word ++ s)) :=
  .inr ⟨word, h, s, [], rfl⟩

theorem Leads.append (h : Leads x) (y : Draft) : Leads (x ++ y) := by
  cases hx : x.fault with
  | some m => rwa [append_of_fault hx]
  | none =>
    rw [append_of_sound hx]
    rcases h with h | ⟨word, hword, s, ps, h⟩
    · rw [hx] at h
      cases h
    · exact .inr ⟨word, hword, s, ps ++ y.pieces, by rw [h]; rfl⟩

theorem Leads.join (h : Leads x) (sep : String) (xs : List Draft) : Leads (join sep (x :: xs)) := by
  cases xs with
  | nil => exact h
  | cons y ys => exact h.append _

/-- A list of common table expressions leads, or leaves that to what follows. -/
theorem leads_withDraft_append (ctes : List Draft) (h : Leads x) : Leads (withDraft ctes ++ x) := by
  cases ctes with
  | nil =>
    have hempty : withDraft [] = empty := rfl
    rwa [hempty, empty_append]
  | cons y ys =>
    have hwith : Leads (text "WITH ") := leads_text "WITH " "" (by decide)
    exact ((hwith.append _).append _).append x

/-- The text of a draft that leads starts like a statement on rows. -/
theorem Leads.isRowText (h : Leads x) (hx : x.fault = none) (d : Dialect) (f : Piece.Spelling)
    (k : Nat) : IsRowText (x.spelled d f k) := by
  rcases h with h | ⟨word, hword, s, ps, h⟩
  · rw [hx] at h
    cases h
  · have hsplit : x = text (word ++ s) ++ ⟨ps, none⟩ := by
      rw [append_of_sound (by rfl)]
      cases x
      simp_all [text]
    refine ⟨word, hword, s ++ (⟨ps, none⟩ : Draft).spelled d f k, ?_⟩
    rw [hsplit, spelled_text_append, String.append_assoc]

end Draft

open Draft

theorem Statement.leads_draft {s : Statement} (h : s.kind.isOnRows = true) : Leads s.draft := by
  cases hkind : s.kind with
  | select =>
    rw [draft_select hkind]
    simp only [append_assoc]
    refine leads_withDraft_append _ (Leads.append ?_ _)
    split
    · exact leads_text "SELECT " "DISTINCT " (by decide)
    · exact leads_text "SELECT " "" (by decide)
  | insert =>
    rw [draft_insert hkind]
    unfold insertDraft
    split
    · exact leads_fail _
    · rw [append_assoc]
      refine leads_withDraft_append _ (Leads.append ?_ _)
      rw [insertTargetDraft, String.append_assoc]
      exact leads_text "INSERT " ("INTO " ++ _) (by decide)
  | update =>
    rw [draft_update hkind]
    unfold updateDraft
    split
    · exact leads_fail _
    · split
      · exact leads_fail _
      · simp only [append_assoc]
        refine leads_withDraft_append _ (Leads.append ?_ _)
        rw [String.append_assoc]
        exact leads_text "UPDATE " _ (by decide)
  | delete =>
    have hdelete (y z : Draft) :
        Leads (withDraft (Cte.drafts s.ctes) ++ text "DELETE FROM " ++ y ++ z) := by
      simp only [append_assoc]
      exact leads_withDraft_append _
        ((leads_text "DELETE " "FROM " (by decide)).append _)
    rw [draft_delete hkind]
    unfold deleteDraft
    split
    · exact hdelete _ _
    · split
      · exact hdelete _ _
      · exact leads_fail _
  | _ =>
    rw [hkind] at h
    cases h

theorem Script.leads_draft {s : Script} (h : s.IsOnRows) : Leads s.draft := by
  unfold IsOnRows parts at h
  unfold draft
  cases hchain : s.chain with
  | nil =>
    rw [hchain] at h
    exact Statement.leads_draft (h (.ofStatement s.last) (by simp))
  | cons p ps =>
    rw [hchain] at h
    exact (Statement.leads_draft (h p (by simp))).join _ _

/-- Statements on rows, compiled, start with a word of theirs. -/
theorem Script.isRowText_compile {s : Script} (h : s.IsOnRows) {d : Dialect} {q : Compiled}
    (hq : s.compile d = .ok q) : IsRowText q.sql := by
  cases hfault : s.draft.fault with
  | some m =>
    rw [compile_of_fault hfault] at hq
    cases hq
  | none =>
    rw [compile_of_sound hfault] at hq
    obtain rfl := Except.ok.inj hq
    exact (leads_draft h).isRowText hfault _ _ _

/-! ## Bodies of transactions -/

/-- The statements of a transaction are compiled one by one. -/
theorem Transaction.forall₂_statements {t : Transaction} {compiled : List Compiled}
    (h : t.statements = .ok compiled) :
    List.Forall₂ (fun s q => s.compile t.dialect = .ok q) t.body compiled := by
  unfold statements at h
  generalize t.body = l at h ⊢
  induction l generalizing compiled with
  | nil =>
    cases h
    exact .nil
  | cons s l ih =>
    rw [List.mapM_cons] at h
    cases hs : s.compile t.dialect with
    | error e =>
      rw [hs] at h
      cases h
    | ok q =>
      rw [hs] at h
      cases hl : l.mapM fun s => s.compile t.dialect with
      | error e =>
        simp only [hl] at h
        cases h
      | ok qs =>
        simp only [hl] at h
        cases h
        exact .cons hs (ih hl)

theorem Transaction.isRowText_statements {t : Transaction} (ht : ∀ s ∈ t.body, s.IsOnRows)
    {compiled : List Compiled} (h : t.statements = .ok compiled) :
    ∀ p ∈ t.body.zip compiled, IsRowText p.2.sql := by
  intro p hp
  obtain ⟨s, q⟩ := p
  exact Script.isRowText_compile (ht s (List.of_mem_zip hp).1)
    (List.forall₂_zip (Transaction.forall₂_statements h) hp)

end SqlKit
