import Mathlib.Data.List.Forall2
import SqlKit.Proofs.Builder.Calls

/-!
# The calls that a statement is made of

A run of calls makes a script of several statements.  Each accepted call goes to one of them: to the
one under way, unless the call puts that one aside and opens the next.  The history of a run keeps the
accepted calls by the statements they went to.  What is known of a builder and the calls of its
statement under way, and is kept by every rule for calls, is so known along the whole run, and with it
what is known of every statement and its calls.

    the calls of all statements are the accepted calls of the run      (flatten_callsOf)
    what holds of each statement of a run and its calls                (calls_induction)
-/

namespace SqlKit.Builder

variable {b b' : Builder} {s : Step}

/-- The accepted calls of a run by the statements they went to. -/
structure History where
  /-- Those of the statements put aside. -/
  past : List (List Step)
  /-- Those of the statement under way. -/
  now : List Step

/-- Takes note of a call, if it is accepted.  A statement has been put aside if the chain has grown. -/
def History.note (h : History) (b : Builder) (s : Step) : History :=
  match b.apply s with
  | .error _ => h
  | .ok b' =>
    if b'.script.chain.length = b.script.chain.length then { h with now := h.now ++ [s] }
    else ⟨h.past ++ [h.now], [s]⟩

/-- Takes note of calls in turn. -/
def History.follow (h : History) (b : Builder) : List Step → History
  | [] => h
  | s :: ss => (h.note b s).follow (b.advance s) ss

/-- The accepted calls of a run, one list for each statement that the run makes. -/
def callsOf (d : Dialect) (steps : List Step) : List (List Step) :=
  let h := History.follow ⟨[], []⟩ (new d) steps
  h.past ++ [h.now]

theorem advance_of_error {e : Error} (h : b.apply s = .error e) : b.advance s = b := by
  simp only [advance, h]

theorem advance_of_ok (h : b.apply s = .ok b') : b.advance s = b' := by
  simp only [advance, h]

theorem note_of_error {e : Error} (h : b.apply s = .error e) (past : History) :
    past.note b s = past := by
  simp only [History.note, h]

/-- Whether the chain has grown says whether a statement was put aside. -/
theorem note_of_ok (h : b.apply s = .ok b') (past : History) :
    past.note b s =
      if s.opens && b.statement.isDirty then ⟨past.past ++ [past.now], [s]⟩
      else { past with now := past.now ++ [s] } := by
  have hchain := (acts_of_apply h).chain_eq
  simp only [History.note, h, hchain, ready]
  by_cases haside : (s.opens && b.statement.isDirty) = true
  · simp [haside, chain_putAside]
  · simp [haside]

/-- The calls of a run that are accepted. -/
def accepted (b : Builder) : List Step → List Step
  | [] => []
  | s :: ss =>
    match b.apply s with
    | .error _ => accepted b ss
    | .ok b' => s :: accepted b' ss

/-- A history that follows a run loses no accepted call, and takes none twice or out of its order. -/
theorem flatten_follow (h : History) (b : Builder) (steps : List Step) :
    ((h.follow b steps).past ++ [(h.follow b steps).now]).flatten =
      (h.past ++ [h.now]).flatten ++ b.accepted steps := by
  induction steps generalizing h b with
  | nil => exact (List.append_nil _).symm
  | cons s steps ih =>
    rw [History.follow, ih, accepted]
    cases hs : b.apply s with
    | error e =>
      rw [advance_of_error hs, note_of_error hs]
    | ok b' =>
      rw [advance_of_ok hs, note_of_ok hs]
      split <;> simp

theorem flatten_callsOf (d : Dialect) (steps : List Step) :
    (callsOf d steps).flatten = (new d).accepted steps :=
  flatten_follow ⟨[], []⟩ (new d) steps

theorem accepted_sublist (b : Builder) (steps : List Step) : (b.accepted steps).Sublist steps := by
  induction steps generalizing b with
  | nil => exact .refl _
  | cons s steps ih =>
    rw [accepted]
    split
    · exact (ih b).cons s
    · exact (ih _).cons_cons s

section

variable {P : Builder → List Step → Prop} {R : List Step → Statement → Prop}
  (aside : ∀ b now, P b now → b.statement.isDirty = true → R now b.settled.last ∧ P b.putAside [])
  (call : ∀ b b' now s, P b now → b.Acts s b' → P b' (now ++ [s]))

include aside call

/-- One call keeps what is known of the statements and their calls. -/
theorem note_keeps {h : History} (hpast : List.Forall₂ R h.past (b.script.chain.map Script.last))
    (hnow : P b h.now) (s : Step) :
    List.Forall₂ R (h.note b s).past ((b.advance s).script.chain.map Script.last) ∧
      P (b.advance s) (h.note b s).now := by
  cases hs : b.apply s with
  | error e =>
    rw [advance_of_error hs, note_of_error hs]
    exact ⟨hpast, hnow⟩
  | ok b' =>
    have hacts := acts_of_apply hs
    rw [advance_of_ok hs, note_of_ok hs, hacts.chain_eq]
    unfold ready at hacts ⊢
    by_cases haside : (s.opens && b.statement.isDirty) = true
    · rw [if_pos haside] at hacts ⊢
      obtain ⟨hlast, hnew⟩ := aside b h.now hnow (Bool.and_eq_true_iff.mp haside).2
      rw [if_pos haside, chain_putAside, List.map_append]
      exact ⟨List.rel_append hpast (.cons hlast .nil), call _ _ _ _ hnew hacts⟩
    · rw [if_neg haside] at hacts ⊢
      rw [if_neg haside]
      exact ⟨hpast, call _ _ _ _ hnow hacts⟩

/-- What every rule for calls keeps holds along a run, and what it gives for a statement that is put
aside holds of all that have been. -/
theorem follow_keeps {h : History} (hpast : List.Forall₂ R h.past (b.script.chain.map Script.last))
    (hnow : P b h.now) (steps : List Step) :
    List.Forall₂ R (h.follow b steps).past ((b.run steps).script.chain.map Script.last) ∧
      P (b.run steps) (h.follow b steps).now := by
  induction steps generalizing b h with
  | nil => exact ⟨hpast, hnow⟩
  | cons s steps ih =>
    obtain ⟨hpast', hnow'⟩ := note_keeps aside call hpast hnow s
    exact ih hpast' hnow'

end

/-- What is known of each statement of a run and its calls, as they are when it is settled. -/
theorem calls_induction {P : Builder → List Step → Prop} {R : List Step → Statement → Prop}
    (new : ∀ d, P (new d) [])
    (settle : ∀ b now, P b now → R now b.settled.last)
    (aside : ∀ b now, P b now → P b.putAside [])
    (call : ∀ b b' now s, P b now → b.Acts s b' → P b' (now ++ [s]))
    (d : Dialect) (steps : List Step) :
    List.Forall₂ R (callsOf d steps) ((Builder.new d).run steps).statements := by
  obtain ⟨hpast, hnow⟩ := follow_keeps (h := ⟨[], []⟩) (R := R)
    (fun b now h _ => ⟨settle b now h, aside b now h⟩) call .nil (new d) steps
  exact List.rel_append hpast (.cons (settle _ _ hnow) .nil)

/-- Of a run that puts no statement aside and has no call refused, what is known of each statement and
its calls is known of the one statement and all calls. -/
theorem rel_of_single {R : List Step → Statement → Prop} {d : Dialect} {steps : List Step}
    (h : List.Forall₂ R (callsOf d steps) ((Builder.new d).run steps).statements)
    (hchain : ((Builder.new d).run steps).script.chain.length = 0)
    (haccepted : ((Builder.new d).accepted steps).length = steps.length) :
    R steps ((Builder.new d).run steps).settled.last := by
  have hstatements : ((Builder.new d).run steps).statements =
      [((Builder.new d).run steps).settled.last] := by
    rw [statements, List.length_eq_zero_iff.mp hchain]
    rfl
  have hall : (new d).accepted steps = steps := (accepted_sublist _ _).eq_of_length haccepted
  have hflat := flatten_callsOf d steps
  rw [hstatements] at h
  cases hcalls : callsOf d steps with
  | nil =>
    rw [hcalls] at h
    cases h
  | cons calls rest =>
    rw [hcalls, List.forall₂_cons] at h
    obtain ⟨hrel, hrest⟩ := h
    rw [hcalls, List.forall₂_nil_right_iff.mp hrest, List.flatten_singleton, hall] at hflat
    rwa [hflat] at hrel

end SqlKit.Builder
