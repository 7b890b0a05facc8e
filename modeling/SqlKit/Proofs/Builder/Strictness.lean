import SqlKit.Proofs.Builder.History

/-!
# Strict chaining

Each accepted call records the clause it is about, but for those that set a switch or a name.  In
strict mode a clause that repeats the one before it is a mistake.  A call that can fail is refused if
it would make one; any other makes it, and from then on nothing can be built and every call that can
fail is refused with the same error.

    firstRepeat es = some c ↔ FirstRepeat es c                         (firstRepeat_eq_some_iff)
    b.apply s = .ok b' → b'.chaining = b.chaining.after s              (chaining_of_apply)
    ((new d).run steps).chaining = .of (the accepted calls)            (chaining_run_new)
    b.repeated = some c → (b.run steps).repeated = some c              (repeated_run)
    what building gives, and what is refused, along every run          (strict_run)
-/

namespace SqlKit.Builder

variable {b b' : Builder} {s : Step}

/-! ## The clauses that calls record -/

/-- The clause that a call records. -/
def Step.clause? : Step → Option Clause
  | .select _ | .selectDistinct _ => some .select
  | .addSource _ | .addSources _ => some .from
  | .join kind _ => some kind.clause
  | .on _ => some .on
  | .where _ => some .where
  | .and _ => some .and
  | .groupBy _ => some .groupBy
  | .orderBy _ => some .orderBy
  | .limit _ | .limitOffset _ _ => some .limit
  | .offset _ => some .offset
  | .returning _ => some .returning
  | .addCte _ _ => some .with
  | .window _ _ => some .window
  | .insertInto _ _ => some .insert
  | .values _ | .insertFrom _ => some .values
  | .onConflict _ => some .onConflict
  | .update _ => some .update
  | .set _ => some .set
  | .deleteFrom _ | .delete => some .delete
  | .strict _ | .as _ | .union | .upsert | .without => none

/-- What a call switches strict mode to. -/
def Step.switch? : Step → Option Bool
  | .strict enabled => some enabled
  | _ => none

/-- A clause call that can fail. -/
def Step.fallible : Step → Bool
  | .addSources _ | .on _ | .where _ | .and _ | .values _ | .insertFrom _ | .onConflict _ | .set _ =>
    true
  | _ => false

/-- A clause that has been recorded, and whether strict mode was on. -/
structure Entry where
  clause : Clause
  strict : Bool

/-- Whether strict mode is on after some calls. -/
def strictAfter (on : Bool) (calls : List Step) : Bool :=
  calls.foldl (fun on s => s.switch?.getD on) on

/-- The clauses that calls record. -/
def entries (on : Bool) : List Step → List Entry
  | [] => []
  | s :: ss => (s.clause?.map (⟨·, on⟩)).toList ++ entries (s.switch?.getD on) ss

theorem entries_append (on : Bool) (ss ts : List Step) :
    entries on (ss ++ ts) = entries on ss ++ entries (strictAfter on ss) ts := by
  induction ss generalizing on with
  | nil => rfl
  | cons s ss ih =>
    rw [List.cons_append, entries, ih, entries, List.append_assoc]
    rfl

theorem strictAfter_concat (on : Bool) (ss : List Step) (s : Step) :
    strictAfter on (ss ++ [s]) = s.switch?.getD (strictAfter on ss) := by
  rw [strictAfter, List.foldl_append]
  rfl

/-! ## Repeated clauses -/

/-- Two clauses in a row are `c`, the second in strict mode. -/
def Repeats (es : List Entry) (c : Clause) : Prop :=
  ∃ before on after, es = before ++ ⟨c, on⟩ :: ⟨c, true⟩ :: after

/-- The first time that a clause is repeated in strict mode, it is `c`. -/
def FirstRepeat (es : List Entry) (c : Clause) : Prop :=
  ∃ before on after, es = before ++ ⟨c, on⟩ :: ⟨c, true⟩ :: after ∧
    ∀ d, ¬Repeats (before ++ [⟨c, on⟩]) d

/-- The first clause that is repeated in strict mode. -/
def firstRepeat : List Entry → Option Clause
  | e :: f :: es => if f.strict ∧ e.clause = f.clause then some f.clause else firstRepeat (f :: es)
  | _ => none

theorem repeats_cons_cons_iff (e f : Entry) (es : List Entry) (c : Clause) :
    Repeats (e :: f :: es) c ↔
      (f.strict = true ∧ e.clause = c ∧ f.clause = c) ∨ Repeats (f :: es) c := by
  constructor
  · rintro ⟨before, on, after, h⟩
    cases before with
    | nil =>
      obtain ⟨rfl, rfl, -⟩ : e = ⟨c, on⟩ ∧ f = ⟨c, true⟩ ∧ es = after := by simpa using h
      exact Or.inl ⟨rfl, rfl, rfl⟩
    | cons g before => exact Or.inr ⟨before, on, after, (List.cons.inj h).2⟩
  · rintro (⟨hstrict, he, hf⟩ | ⟨before, on, after, h⟩)
    · obtain ⟨clause, strict⟩ := f
      subst hstrict he hf
      exact ⟨[], e.strict, es, rfl⟩
    · exact ⟨e :: before, on, after, by rw [h]; rfl⟩

theorem firstRepeat_eq_none_iff (es : List Entry) :
    firstRepeat es = none ↔ ∀ c, ¬Repeats es c := by
  induction es with
  | nil =>
    refine ⟨fun _ c ⟨before, on, after, h⟩ => ?_, fun _ => rfl⟩
    simpa using congrArg List.length h
  | cons e es ih =>
    cases es with
    | nil =>
      refine ⟨fun _ c ⟨before, on, after, h⟩ => ?_, fun _ => rfl⟩
      have hlength := congrArg List.length h
      simp only [List.length_cons, List.length_nil, List.length_append] at hlength
      omega
    | cons f es =>
      simp only [repeats_cons_cons_iff, firstRepeat, not_or, forall_and]
      by_cases h : f.strict = true ∧ e.clause = f.clause
      · rw [if_pos h]
        refine ⟨fun h' => by contradiction, fun h' => ?_⟩
        exact absurd ⟨h.1, h.2, rfl⟩ (h'.1 f.clause)
      · rw [if_neg h, ih]
        refine ⟨fun h' => ⟨?_, h'⟩, fun h' => h'.2⟩
        rintro c ⟨hstrict, he, hf⟩
        exact h ⟨hstrict, he.trans hf.symm⟩

/-- What is repeated first in a list with one more clause behind it. -/
theorem firstRepeat_concat_append (es : List Entry) (e f : Entry) (fs : List Entry) :
    firstRepeat (es ++ e :: f :: fs) =
      (firstRepeat (es ++ [e])).or
        (if f.strict ∧ e.clause = f.clause then some f.clause else firstRepeat (f :: fs)) := by
  induction es with
  | nil => rfl
  | cons g es ih =>
    have hhead : ∃ h hs, es ++ e :: f :: fs = h :: hs ∧ ∃ hs', es ++ [e] = h :: hs' := by
      cases es with
      | nil => exact ⟨e, _, rfl, _, rfl⟩
      | cons h hs => exact ⟨h, _, rfl, _, rfl⟩
    obtain ⟨h, hs, hhs, hs', hhs'⟩ := hhead
    rw [hhs, hhs'] at ih
    rw [List.cons_append, List.cons_append, hhs, hhs', firstRepeat, firstRepeat, ih]
    split <;> rfl

theorem firstRepeat_eq_some_iff (es : List Entry) (c : Clause) :
    firstRepeat es = some c ↔ FirstRepeat es c := by
  constructor
  · intro h
    induction es with
    | nil => contradiction
    | cons e es ih =>
      cases es with
      | nil => contradiction
      | cons f es =>
        rw [firstRepeat] at h
        split at h
        · next hrepeat =>
          obtain ⟨clause, strict⟩ := f
          obtain ⟨rfl, rfl⟩ := hrepeat
          obtain rfl := Option.some.inj h
          exact ⟨[], e.strict, es, rfl, (firstRepeat_eq_none_iff _).mp rfl⟩
        · next hrepeat =>
          obtain ⟨before, on, after, hes, hnone⟩ := ih h
          refine ⟨e :: before, on, after, by rw [hes]; rfl, ?_⟩
          have hnone' := (firstRepeat_eq_none_iff _).mpr hnone
          refine (firstRepeat_eq_none_iff _).mp ?_
          cases before with
          | nil =>
            obtain ⟨rfl, -⟩ := List.cons.inj hes
            exact if_neg hrepeat
          | cons g before =>
            obtain ⟨rfl, -⟩ := List.cons.inj hes
            exact (if_neg hrepeat).trans hnone'
  · rintro ⟨before, on, after, rfl, hnone⟩
    rw [firstRepeat_concat_append, (firstRepeat_eq_none_iff _).mpr hnone]
    simp

/-! ## What a builder knows of the clauses before -/

/-- What a builder keeps for strict chaining. -/
structure Chaining where
  strict : Bool
  last : Option Clause
  repeated : Option Clause

def chaining (b : Builder) : Chaining := ⟨b.strict, b.lastClause, b.repeated⟩

/-- What an accepted call makes of it. -/
def Chaining.after (k : Chaining) (s : Step) : Chaining where
  strict := s.switch?.getD k.strict
  last := s.clause?.or k.last
  repeated := k.repeated.or (s.clause?.filter fun c => k.strict && k.last == some c)

/-- What there is to know of some calls. -/
def Chaining.of (calls : List Step) : Chaining where
  strict := strictAfter false calls
  last := (entries false calls).getLast?.map Entry.clause
  repeated := firstRepeat (entries false calls)

/-- To record a clause is all that a call does about it, unless it sets the switch. -/
theorem chaining_step {c : Clause} (hclause : s.clause? = some c) (hswitch : s.switch? = none) :
    (b.step c).chaining = b.chaining.after s := by
  have hrepeated : (b.step c).repeated =
      b.repeated.or (if b.strict && b.lastClause == some c then some c else none) := by
    cases h : b.repeated <;> simp [step, h]
  simp only [chaining, Chaining.after, hclause, hswitch, hrepeated, Option.filter_some]
  rfl

theorem chaining_modify (b : Builder) (f : Statement → Statement) :
    (b.modify f).chaining = b.chaining := rfl

theorem chaining_imply (b : Builder) (ts : List Table) : (b.imply ts).chaining = b.chaining := rfl

theorem chaining_dropImplied (b : Builder) : b.dropImplied.chaining = b.chaining := by
  unfold dropImplied
  split <;> rfl

theorem chaining_settle (b : Builder) : b.settle.chaining = b.chaining := by
  rw [settle_eq]
  split <;> rfl

theorem chaining_ready (b : Builder) (s : Step) : (b.ready s).chaining = b.chaining := by
  unfold ready
  split
  · exact chaining_settle b
  · rfl

theorem Edits.clause?_eq {t t' : Statement} {c : Clause} (h : Edits t s c t') :
    s.clause? = some c ∧ s.switch? = none := by
  cases h <;> exact ⟨rfl, rfl⟩

theorem Opens.clause?_eq {t t' : Statement} {c : Clause} (h : Opens t s c t') :
    s.clause? = some c ∧ s.switch? = none := by
  cases h <;> exact ⟨rfl, rfl⟩

theorem Names.clause?_eq {sources : List Source} (h : Names s sources) :
    s.clause? = some .from ∧ s.switch? = none := by
  cases h <;> exact ⟨rfl, rfl⟩

theorem Restricts.clause?_eq {clause : Clause} {c : Condition} (h : Restricts s clause c) :
    s.clause? = some clause ∧ s.switch? = none := by
  cases h <;> exact ⟨rfl, rfl⟩

theorem Selects.clause?_eq {items : List Expr} {distinct : Bool} (h : Selects s items distinct) :
    s.clause? = some .select ∧ s.switch? = none := by
  cases h <;> exact ⟨rfl, rfl⟩

theorem Acts.chaining_eq (h : b.Acts s b') : b'.chaining = b.chaining.after s := by
  cases h with
  | strict on => simp [chaining, setStrict, Chaining.after, Step.switch?, Step.clause?]
  | as name => simp [chaining, Builder.as, Chaining.after, Step.switch?, Step.clause?]
  | edits edits =>
    obtain ⟨hclause, hswitch⟩ := edits.clause?_eq
    rw [chaining_modify, chaining_step hclause hswitch]
  | names names =>
    obtain ⟨hclause, hswitch⟩ := names.clause?_eq
    rw [chaining_modify, chaining_dropImplied, chaining_step hclause hswitch]
  | restricts restricts =>
    obtain ⟨hclause, hswitch⟩ := restricts.clause?_eq
    rw [chaining_settle, chaining_modify, chaining_imply, chaining_step hclause hswitch]
  | selects selects clean =>
    obtain ⟨hclause, hswitch⟩ := selects.clause?_eq
    rw [chaining_modify, chaining_imply, chaining_step hclause hswitch]
  | opens opens clean =>
    obtain ⟨hclause, hswitch⟩ := opens.clause?_eq
    rw [chaining_modify, chaining_step hclause hswitch]

theorem chaining_of_apply (h : b.apply s = .ok b') : b'.chaining = b.chaining.after s := by
  rw [(acts_of_apply h).chaining_eq, chaining_ready]

/-! ## Along a run -/

/-- What is repeated first when one more clause is recorded. -/
theorem firstRepeat_concat (es : List Entry) (f : Entry) :
    firstRepeat (es ++ [f]) = (firstRepeat es).or
      (if f.strict && es.getLast?.map Entry.clause == some f.clause then some f.clause else none) := by
  rcases List.eq_nil_or_concat es with rfl | ⟨es, e, rfl⟩
  · simp [firstRepeat]
  · rw [List.concat_eq_append, List.append_assoc, List.singleton_append, firstRepeat_concat_append]
    simp [firstRepeat]

theorem Chaining.of_concat (calls : List Step) (s : Step) :
    Chaining.of (calls ++ [s]) = (Chaining.of calls).after s := by
  have hentries : entries false (calls ++ [s]) =
      entries false calls ++ (s.clause?.map (⟨·, strictAfter false calls⟩)).toList := by
    rw [entries_append, entries, entries, List.append_nil]
  simp only [Chaining.of, Chaining.after, strictAfter_concat, hentries]
  cases s.clause? with
  | none => simp
  | some c => simp [firstRepeat_concat, Option.filter_some]

theorem chaining_run {calls : List Step} (h : b.chaining = .of calls) (steps : List Step) :
    (b.run steps).chaining = .of (calls ++ b.accepted steps) := by
  induction steps generalizing b calls with
  | nil => rw [accepted, List.append_nil, ← h]; rfl
  | cons s steps ih =>
    rw [run_cons, accepted]
    cases hs : b.apply s with
    | error e =>
      rw [advance_of_error hs]
      exact ih h
    | ok b' =>
      have hcalls : b'.chaining = .of (calls ++ [s]) := by
        rw [chaining_of_apply hs, h, Chaining.of_concat]
      rw [advance_of_ok hs, ih hcalls, List.append_assoc, List.singleton_append]

/-- The clauses that the accepted calls of a run record. -/
def recorded (d : Dialect) (steps : List Step) : List Entry := entries false ((new d).accepted steps)

theorem chaining_run_new (d : Dialect) (steps : List Step) :
    ((new d).run steps).chaining = .of ((new d).accepted steps) :=
  @chaining_run (new d) [] rfl steps

/-- What has been repeated is not forgotten. -/
theorem repeated_run {c : Clause} (h : b.repeated = some c) (steps : List Step) :
    (b.run steps).repeated = some c := by
  induction steps generalizing b with
  | nil => exact h
  | cons s steps ih =>
    rw [run_cons]
    cases hs : b.apply s with
    | error e =>
      rw [advance_of_error hs]
      exact ih h
    | ok b' =>
      have hrepeated : b'.chaining.repeated = some c := by
        rw [chaining_of_apply hs]
        show b.repeated.or _ = some c
        rw [h, Option.some_or]
      rw [advance_of_ok hs]
      exact ih hrepeated

/-! ## Errors -/

/-- The error about a clause that was repeated in strict mode. -/
def chainingError (c : Clause) : Error :=
  .argument ("Invalid Query Chaining: repeated " ++ c.name ++ " more than once")

theorem clauseName_injective : Function.Injective Clause.name := by
  intro a b h
  cases a <;> cases b <;> first | rfl | simp [Clause.name] at h

theorem chainingError_injective : Function.Injective chainingError := by
  intro c d h
  refine clauseName_injective ?_
  simpa [chainingError] using h

theorem check_of_repeated {c : Clause} (h : b.repeated = some c) : b.check = .error (chainingError c) := by
  rw [check, h]
  rfl

theorem check_of_sound (h : b.repeated = none) : b.check = .ok () := by
  rw [check, h]

/-- A call that can fail fails as the check does. -/
theorem apply_of_check {e : Error} (h : b.check = .error e) (hs : s.fallible = true) :
    b.apply s = .error e := by
  cases s with
  | addSources ss => rw [apply, addSources, h]; rfl
  | on p => rw [apply, Builder.on, h]; rfl
  | «where» p => rw [apply, restrict, h]; rfl
  | and p => rw [apply, restrict, h]; rfl
  | values rows => rw [apply, values, h]; rfl
  | insertFrom q => rw [apply, insertFrom, h]; rfl
  | onConflict c => rw [apply, onConflict, h]; rfl
  | set as => rw [apply, set, h]; rfl
  | _ => contradiction

theorem repeated_of_checked (h : b.checked = .ok b') : b'.repeated = none := by
  cases hb : b.repeated with
  | some c =>
    rw [checked, check_of_repeated hb] at h
    contradiction
  | none =>
    rw [eq_of_checked h]
    exact hb

theorem repeated_of_restrict {clause : Clause} {p : Predicate} (h : b.restrict clause p = .ok b') :
    b'.repeated = none := by
  obtain ⟨-, -, h⟩ := Result.ok_of_bind h
  obtain ⟨c, -, h⟩ := Result.ok_of_bind h
  exact repeated_of_checked h

/-- A call that can fail, but for the one about conflicts, is accepted only if nothing has been
repeated in strict mode, by the call itself neither. -/
theorem repeated_of_apply (h : b.apply s = .ok b') (hs : s.fallible = true)
    (hne : ∀ c, s ≠ .onConflict c) : b'.repeated = none := by
  cases s with
  | addSources ss =>
    obtain ⟨-, -, h⟩ := Result.ok_of_bind h
    split at h
    · contradiction
    · exact repeated_of_checked h
  | on p =>
    obtain ⟨-, -, h⟩ := Result.ok_of_bind h
    obtain ⟨c, -, h⟩ := Result.ok_of_bind h
    split at h
    · contradiction
    · split at h
      · contradiction
      · exact repeated_of_checked h
  | «where» p => exact repeated_of_restrict h
  | and p => exact repeated_of_restrict h
  | values rows =>
    obtain ⟨-, -, h⟩ := Result.ok_of_bind h
    split at h
    · contradiction
    · split at h
      · contradiction
      · dsimp only at h
        split at h
        · contradiction
        · exact repeated_of_checked h
  | insertFrom q =>
    obtain ⟨-, -, h⟩ := Result.ok_of_bind h
    split at h
    · contradiction
    · exact repeated_of_checked h
  | onConflict c => exact absurd rfl (hne c)
  | set as =>
    obtain ⟨-, -, h⟩ := Result.ok_of_bind h
    split at h
    · contradiction
    · split at h
      · contradiction
      · exact repeated_of_checked h
  | _ => contradiction

/-- A call that can fail is refused if it would repeat a clause in strict mode. -/
theorem refuses_of_repeats {c : Clause} (hs : s.fallible = true) (hne : ∀ o, s ≠ .onConflict o)
    (hclause : s.clause? = some c) (hstrict : b.strict = true) (hlast : b.lastClause = some c) :
    ∃ e, b.apply s = .error e := by
  cases h : b.apply s with
  | error e => exact ⟨e, rfl⟩
  | ok b' =>
    have hnone := repeated_of_apply h hs hne
    have hafter : (b.chaining.after s).repeated = none := by
      rw [← chaining_of_apply h]
      exact hnone
    cases hb : b.repeated <;>
      simp [Chaining.after, chaining, hclause, hstrict, hlast, hb, Option.filter_some] at hafter

/-- Compiling does not fail about a clause that was repeated. -/
theorem compile_ne_chainingError (k : Compiler) (s : Script) (c : Clause) :
    (k.compile s).1 ≠ .error (chainingError c) := by
  rw [k.compile_fst s]
  cases s.draft.fault <;> simp [Malformed.error, chainingError]

theorem build_eq_chainingError_iff (b : Builder) (c : Clause) :
    b.build = .error (chainingError c) ↔ b.repeated = some c := by
  rw [build]
  cases hb : b.repeated with
  | none =>
    rw [check_of_sound hb]
    exact ⟨fun h => absurd h (compile_ne_chainingError _ _ c), fun h => by contradiction⟩
  | some e =>
    rw [check_of_repeated hb, Option.some.injEq, ← chainingError_injective.eq_iff]
    exact ⟨fun h => Except.error.inj h, fun h => congrArg Except.error h⟩

theorem print_eq_chainingError_iff (b : Builder) (c : Clause) :
    b.print = .error (chainingError c) ↔ b.repeated = some c := by
  rw [print]
  cases hb : b.repeated with
  | none =>
    rw [check_of_sound hb]
    refine ⟨fun h => ?_, fun h => by contradiction⟩
    have hcompile := compile_ne_chainingError (.inlining b.dialect) b.settled c
    have h : ((Compiler.inlining b.dialect).compile b.settled).1.map Compiled.sql =
        .error (chainingError c) := h
    cases hsql : ((Compiler.inlining b.dialect).compile b.settled).1 with
    | ok q =>
      rw [hsql] at h
      contradiction
    | error e =>
      rw [hsql] at h hcompile
      exact absurd (congrArg Except.error (Except.error.inj h)) hcompile
  | some e =>
    rw [check_of_repeated hb, Option.some.injEq, ← chainingError_injective.eq_iff]
    exact ⟨fun h => Except.error.inj h, fun h => congrArg Except.error h⟩

/-- **Strict chaining.**  Building and printing report a repeated clause if and only if two accepted
calls in a row recorded the same clause, with strict mode on at the second; the clause reported is the
first of that kind.  From then on every call that can fail is refused with that error, whatever calls
come between.  A call that can fail, but for the one about conflicts, is refused if it would itself
repeat the clause before it, and so leaves a sound builder sound. -/
theorem strict_run (d : Dialect) (steps : List Step) :
    let b := (new d).run steps
    (∀ c, b.build = .error (chainingError c) ↔ FirstRepeat (recorded d steps) c) ∧
    (∀ c, b.print = .error (chainingError c) ↔ FirstRepeat (recorded d steps) c) ∧
    (∀ c, FirstRepeat (recorded d steps) c → ∀ more s, s.fallible = true →
      (b.run more).apply s = .error (chainingError c)) ∧
    ∀ s c, s.fallible = true → (∀ o, s ≠ .onConflict o) → s.clause? = some c →
      (recorded d steps).getLast?.map Entry.clause = some c →
      strictAfter false ((new d).accepted steps) = true →
      (∃ e, b.apply s = .error e) ∧
        ((∀ r, ¬FirstRepeat (recorded d steps) r) →
          ∀ r, (b.advance s).build ≠ .error (chainingError r)) := by
  intro b
  have hchaining := chaining_run_new d steps
  have hrepeated : b.repeated = firstRepeat (recorded d steps) :=
    congrArg Chaining.repeated hchaining
  have hiff : ∀ c, b.repeated = some c ↔ FirstRepeat (recorded d steps) c := by
    intro c
    rw [hrepeated, firstRepeat_eq_some_iff]
  refine ⟨fun c => ?_, fun c => ?_, fun c hc more s hs => ?_, ?_⟩
  · rw [build_eq_chainingError_iff, hiff]
  · rw [print_eq_chainingError_iff, hiff]
  · exact apply_of_check (check_of_repeated (repeated_run ((hiff c).mpr hc) more)) hs
  · intro s c hs hne hclause hlast hstrict
    have hlast' : b.lastClause = some c := (congrArg Chaining.last hchaining).trans hlast
    have hstrict' : b.strict = true := (congrArg Chaining.strict hchaining).trans hstrict
    obtain ⟨e, he⟩ := refuses_of_repeats hs hne hclause hstrict' hlast'
    refine ⟨⟨e, he⟩, fun hnone r hr => ?_⟩
    rw [advance_of_error he, build_eq_chainingError_iff, hiff] at hr
    exact hnone r hr

/-- A limit given twice is reported by a call on the next statement, with strict mode off again. -/
theorem set_refused_after_two_limits :
    FirstRepeat (recorded .sqlite [.strict true, .limit 1, .limit 2]) .limit ∧
    (((new .sqlite).run [.strict true, .limit 1, .limit 2]).run [.strict false, .delete]).apply
      (.set []) = .error (chainingError .limit) := by
  have hfirst : FirstRepeat (recorded .sqlite [.strict true, .limit 1, .limit 2]) .limit :=
    ⟨[], true, [], rfl, (firstRepeat_eq_none_iff _).mp rfl⟩
  obtain ⟨-, -, hrefused, -⟩ := strict_run .sqlite [.strict true, .limit 1, .limit 2]
  exact ⟨hfirst, hrefused .limit hfirst [.strict false, .delete] (.set []) rfl⟩

end SqlKit.Builder
