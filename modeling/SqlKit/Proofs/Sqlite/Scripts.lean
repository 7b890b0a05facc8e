import SqlKit.Proofs.Builder.Written
import SqlKit.Proofs.Engine.Runs
import SqlKit.Proofs.Sqlite.FirstStatement

/-!
# Scripts on a session

The compiler joins the statements of a script with semicolons; a session compiles the first statement
of a text.  So a script without parameters runs as its first statement does, and no other statement of
it is looked at.

    a script runs as its first statement                               (sameRun_of_isWhole)
    it does what all of its statements do, or fails, if and only if what is left out would do nothing
                                                                       (run_script_iff)
-/

namespace SqlKit

/-! ## Texts of scripts -/

namespace Statement

/-- Without parameters, it is all the same what was counted before. -/
theorem numberedFrom_of_params_nil {d : Dialect} {ss : List Statement}
    (h : ∀ s ∈ ss, s.draft.params = []) (k : Nat) :
    numberedFrom d k ss = ss.map fun s => (s.numbered d 0).sql := by
  induction ss generalizing k with
  | nil => rfl
  | cons s ss ih =>
    obtain ⟨hs, hss⟩ := List.forall_mem_cons.1 h
    rw [numberedFrom, List.map_cons, ih hss, numbered, numbered, hs]
    rfl

/-- A statement on rows, compiled, starts with a word of its own. -/
theorem isRowText_numbered {t : Statement} (ht : t.kind.isOnRows = true) (hfault : t.draft.fault = none)
    (d : Dialect) : IsRowText (t.numbered d 0).sql := by
  have hrows : (Script.ofStatement t).IsOnRows := by
    simpa [Script.IsOnRows, Script.parts, Script.ofStatement] using ht
  refine Script.isRowText_compile hrows (d := d) ?_
  rw [compile_ofStatement, hfault]

/-- For SQLite a statement is whole if the texts are that it takes over as they are. -/
theorem isWhole_numbered {t : Statement} (ht : t.Verbatim fun s => isWhole s = true)
    (hfault : t.draft.fault = none) : isWhole (t.numbered .sqlite 0).sql = true := by
  have hsql := (phrased_draft (d := .sqlite) t ht).isWhole_spelled hfault 1
  rwa [Draft.spelled_placeholders .sqlite 0 t.draft] at hsql

end Statement

/-- A script without parameters joins the texts of its statements, none of which has parameters. -/
theorem Builder.build_of_params_nil {d : Dialect} {steps : List Builder.Step} {q : Compiled}
    (hq : ((new d).run steps).build = .ok q) (hparams : q.params = []) :
    let statements := ((new d).run steps).statements
    q.sql = "; ".intercalate ((statements.map (Statement.numbered d 0)).map Compiled.sql) ∧
      ∀ t ∈ statements, t.draft.params = [] ∧ t.draft.fault = none := by
  intro statements
  obtain ⟨hsql, hvalues, hsound⟩ := build_eq _ hq
  rw [hparams, eq_comm, List.flatMap_eq_nil_iff] at hvalues
  rw [Statement.numberedFrom_of_params_nil hvalues, dialect_run] at hsql
  exact ⟨hsql.trans (congrArg _ List.map_map.symm), fun t ht => ⟨hvalues t ht, hsound t ht⟩⟩

/-- A transaction without parameters joins the texts of its statements between its begin and its end. -/
theorem Transaction.build_of_params_nil (d : Dialect) (ending : Ending)
    (calls : List (Dialect × List Builder.Step)) {q : Compiled} :
    let builders := calls.map fun c => (Builder.new c.1).run c.2
    let t := (builders.map Builder.settled).foldl push (new d ending)
    t.build = .ok q → q.params = [] → ∃ body, t.statements = .ok body ∧
      q.sql = "; ".intercalate ("BEGIN" :: (body.map Compiled.sql ++ [ending.text])) := by
  intro builders t hq hparams
  obtain ⟨-, herror | ⟨body, texts, hbody, hcompiled, htexts, hbuild, -⟩⟩ := build_run d ending calls
  · obtain ⟨x, hx, -⟩ := herror
    cases hq.symm.trans hx
  · obtain rfl := Except.ok.inj (hq.symm.trans hbuild)
    have hvalues : ∀ s ∈ builders.flatMap Builder.statements, s.draft.params = [] := by
      dsimp only at hparams
      rw [hcompiled, List.flatMap_map, List.flatMap_eq_nil_iff] at hparams
      exact hparams
    have hsql : texts = body.map Compiled.sql := by
      rw [htexts, Statement.numberedFrom_of_params_nil hvalues, hcompiled, List.map_map]
      rfl
    exact ⟨body, hbody, by rw [hsql]⟩

/-- A text in front of others with semicolons between them. -/
theorem exists_intercalate_cons (t t' : String) (ts : List String) :
    ∃ rest, "; ".intercalate (t :: t' :: ts) = t ++ ";" ++ rest := by
  refine ⟨" " ++ "; ".intercalate (t' :: ts), ?_⟩
  have hsep : "; " = ";" ++ " " := rfl
  rw [String.intercalate_cons_cons]
  generalize "; ".intercalate (t' :: ts) = u
  rw [hsep]
  simp only [String.append_assoc]

namespace Sqlite

variable {δ : Type}

/-! ## Texts with the same meaning -/

theorem toOption_bind {α β : Type} {r r' : Result α} (h : r.toOption = r'.toOption)
    (f : α → Result β) : (r >>= f).toOption = (r' >>= f).toOption := by
  cases r with
  | error x =>
    cases r' with
    | error x' => rfl
    | ok a => cases h
  | ok a =>
    cases r' with
    | error x' => cases h
    | ok a' => cases h; rfl

theorem Language.toOption_meaning {lang : Language δ} {x : δ} {sql sql' : String}
    (h : (lang sql x).toOption = (lang sql' x).toOption) (params : List Value) :
    (lang.meaning x sql params).toOption = (lang.meaning x sql' params).toOption :=
  toOption_bind h _

/-- A semicolon and what follows it leave a statement its effect. -/
theorem Language.ReadsFirst.exists_effect {lang : Language δ} (h : lang.ReadsFirst) {t : String}
    (ht : isWhole t = true) (hwords : t ∈ borderWords) {x : δ} {effect : Effect δ}
    (heffect : ∃ p, lang t x = .ok p ∧ ∀ args, p.effect args = effect) (rest : String) :
    ∃ p, lang (t ++ ";" ++ rest) x = .ok p ∧ ∀ args, p.effect args = effect := by
  obtain ⟨p, hp, hargs⟩ := heffect
  have hsame := h t rest x ht (.inl hwords)
  rw [hp] at hsame
  cases hp' : lang (t ++ ";" ++ rest) x with
  | error y => rw [hp'] at hsame; cases hsame
  | ok p' =>
    rw [hp'] at hsame
    cases hsame
    exact ⟨p, rfl, hargs⟩

/-- Two steps do the same from a state on, but for the errors they give. -/
def SameRun {α : Type} (a b : Action (Engine (World δ)) α) (e : Engine (World δ)) : Prop :=
  (a.on e).1.toOption = (b.on e).1.toOption ∧ (a.on e).2.world = (b.on e).2.world

namespace World

theorem execute_congr {lang : Language δ} {w : World δ} {c : Nat} {sql sql' : String}
    (h : (lang sql (w.view c)).toOption = (lang sql' (w.view c)).toOption) (params : List Value) :
    ((execute lang c sql params).on w).1.toOption = ((execute lang c sql' params).on w).1.toOption ∧
      ((execute lang c sql params).on w).2 = ((execute lang c sql' params).on w).2 := by
  have hmeaning := Language.toOption_meaning h params
  rw [on_execute, on_execute]
  cases hm : lang.meaning (w.view c) sql params with
  | error x =>
    cases hm' : lang.meaning (w.view c) sql' params with
    | error x' => exact ⟨rfl, rfl⟩
    | ok m => rw [hm, hm'] at hmeaning; cases hmeaning
  | ok m =>
    cases hm' : lang.meaning (w.view c) sql' params with
    | error x' => rw [hm, hm'] at hmeaning; cases hmeaning
    | ok m' =>
      rw [hm, hm'] at hmeaning
      cases hmeaning
      exact ⟨rfl, rfl⟩

/-- Within a transaction no other begins. -/
theorem on_begin_of_active {lang : Language δ} (htransacts : lang.Transacts) {w : World δ} {c : Nat}
    (h : w.isAutocommit c = false) :
    (execute lang c "BEGIN" []).on w =
      (.error (.database "cannot start a transaction within a transaction"), w) := by
  obtain ⟨columns, hmeans⟩ := Language.meaning_of_effect (htransacts.begin (w.view c))
  rw [on_execute, hmeans]
  simp [World.run, World.begin, h, Except.map]

/-- Committing, if it succeeds, ends the transaction. -/
theorem stage_run_commit {w : World δ} {c : Nat} {rows : List (List Datum)}
    (h : (w.run c .commit).1 = .ok rows) : (w.run c .commit).2.stage c = none := by
  revert h
  simp only [World.run, World.commit]
  split
  · intro h
    cases h
  · split
    · intro h
      cases h
    · exact fun _ => stage_setStage ..
  · exact fun _ => stage_setStage ..

/-- Rolling back, if it succeeds, ends the transaction. -/
theorem stage_run_rollback {w : World δ} {c : Nat} {rows : List (List Datum)}
    (h : (w.run c .rollback).1 = .ok rows) : (w.run c .rollback).2.stage c = none := by
  revert h
  simp only [World.run, World.rollback]
  split
  · intro h
    cases h
  · exact fun _ => Option.isNone_iff_eq_none.1 (isAutocommit_abandon w c)

theorem run_of_execute {lang : Language δ} {w : World δ} {c n : Nat} {sql : String}
    {columns : List String} {effect : Effect δ}
    (hmeans : lang.meaning (w.view c) sql [] = .ok (columns, effect))
    (h : ((execute lang c sql []).on w).1 = .ok n) :
    ∃ rows, (w.run c effect).1 = .ok rows ∧
      ((execute lang c sql []).on w).2 = (w.run c effect).2 := by
  rw [on_execute, hmeans] at h ⊢
  dsimp only at h ⊢
  cases hx : w.run c effect with
  | mk r w' =>
    rw [hx] at h
    cases r with
    | error x => cases h
    | ok rows => exact ⟨rows, rfl, rfl⟩

/-- A transaction has ended once the statement that ends it has succeeded. -/
theorem stage_execute_ending {lang : Language δ} (hreads : lang.ReadsFirst)
    (htransacts : lang.Transacts) (ending : Ending) {w : World δ} {c n : Nat}
    (h : ((execute lang c ending.text []).on w).1 = .ok n) :
    ((execute lang c ending.text []).on w).2.stage c = none := by
  cases ending with
  | commit =>
    have heffect := hreads.exists_effect (t := "COMMIT") (by decide +kernel) (by decide)
      (htransacts.commit (w.view c)) ""
    obtain ⟨columns, hmeans⟩ := Language.meaning_of_effect heffect
    have hcommit : lang.meaning (w.view c) Ending.commit.text [] = .ok (columns, .commit) := hmeans
    obtain ⟨rows, hrun, hworld⟩ := run_of_execute hcommit h
    rw [hworld]
    exact stage_run_commit hrun
  | rollback =>
    have heffect := hreads.exists_effect (t := "ROLLBACK") (by decide +kernel) (by decide)
      (htransacts.rollback (w.view c)) ""
    obtain ⟨columns, hmeans⟩ := Language.meaning_of_effect heffect
    have hrollback : lang.meaning (w.view c) Ending.rollback.text [] = .ok (columns, .rollback) :=
      hmeans
    obtain ⟨rows, hrun, hworld⟩ := run_of_execute hrollback h
    rw [hworld]
    exact stage_run_rollback hrun

/-- The contents of all databases are the same, and how far all transactions have come. -/
structure SameData (w w' : World δ) : Prop where
  databases : w.databases = w'.databases
  stage : ∀ c, w.stage c = w'.stage c

theorem SameData.committed {w w' : World δ} (h : SameData w w') (k : Nat) :
    (w.databases k).committed = (w'.databases k).committed := by
  rw [h.databases]

/-- What spares all but one connection keeps the data if it keeps those of the connection. -/
theorem Spares.sameData {c : Nat} {w w' : World δ} (h : Spares c w w')
    (hdatabase : w'.databases (w.key c) = w.databases (w.key c)) (hstage : w'.stage c = w.stage c) :
    SameData w w' where
  databases := by
    funext k
    by_cases hk : k = w.key c
    · rw [hk, hdatabase]
    · rw [h.databases k hk]
  stage c' := by
    by_cases hc : c' = c
    · rw [hc, hstage]
    · rw [stage, stage, h.sessions c' hc]

end World

/-! ## Runs of scripts -/

/-- Running a script fails, or does what its statements do one after another. -/
def AllOrFails (s : Connection (Engine (World δ))) (q : Compiled) (parts : List Compiled)
    (e : Engine (World δ)) : Prop :=
  ∀ n, ((s.run q).on e).1 = .ok n → ∃ m, ((s.executeMany parts).on e).1 = .ok m ∧
    ((s.run q).on e).2.world.SameData ((s.executeMany parts).on e).2.world

/-- Statements succeed one after another and change nothing. -/
def Idle (s : Connection (Engine (World δ))) (qs : List Compiled) (e : Engine (World δ)) : Prop :=
  ∃ m, ((s.executeMany qs).on e).1 = .ok m ∧ e.world.SameData ((s.executeMany qs).on e).2.world

/-- A script that runs as its first statement does all if the others change nothing. -/
theorem SameRun.allOrFails_iff {s : Connection (Engine (World δ))} {q first : Compiled}
    {e : Engine (World δ)} (h : SameRun (s.run q) (s.run first) e) (rest : List Compiled) :
    AllOrFails s q (first :: rest) e ↔
      ∀ n, ((s.run first).on e).1 = .ok n → Idle s rest ((s.run first).on e).2 := by
  obtain ⟨hresult, hworld⟩ := h
  have hok (n : Nat) : ((s.run q).on e).1 = .ok n ↔ ((s.run first).on e).1 = .ok n := by
    rw [← toOption_eq_some_iff, hresult, toOption_eq_some_iff]
  unfold AllOrFails Idle
  rw [hworld]
  refine forall_congr' fun n => ?_
  rw [hok]
  refine imp_congr_right fun hn => ?_
  rw [Connection.executeMany_cons_of_ok hn]
  cases ((s.executeMany rest).on ((s.run first).on e).2).1 <;> simp [Except.map]

section Sessions

variable {lang : Language δ} (name : String) (config : PoolConfig) (who : Holder)
  (e : Engine (World δ))

/-- A text of several statements runs as the first of them. -/
theorem sameRun_of_isWhole (hreads : lang.ReadsFirst) {t : String} (ht : isWhole t = true)
    (hwords : t ∈ borderWords ∨ IsRowText t) (rest : String) (params : List Value) :
    let s := Engine.session (vendor lang name config) who
    SameRun (s.run ⟨t ++ ";" ++ rest, params⟩) (s.run ⟨t, params⟩) e := by
  intro s
  have hrun (q : Compiled) : (s.run q).on e =
    (Engine.execute (vendor lang name config) who q.sql q.params).on e := rfl
  rw [SameRun, hrun, hrun]
  cases hc : e.held? who with
  | none =>
    rw [Engine.execute_of_not_held _ _ _ _ hc, Engine.execute_of_not_held _ _ _ _ hc]
    exact ⟨rfl, rfl⟩
  | some c =>
    obtain ⟨hresult, hworld⟩ :=
      World.execute_congr (hreads t rest (e.world.view c) ht hwords) params
    rw [Engine.on_execute _ hc, Engine.on_execute _ hc]
    exact ⟨hresult, hworld⟩

/-! ## Transactions as scripts -/

variable {name config who e}

theorem held?_run (q : Compiled) :
    (((Engine.session (vendor lang name config) who).run q).on e).2.held? who = e.held? who :=
  (Engine.stays_execute who (vendor lang name config) q.sql q.params e).held?_eq who

variable (lang name config) in
/-- A statement of a session acts on its world. -/
theorem on_run (hc : e.held? who = some c) (q : Compiled) :
    let x := ((Engine.session (vendor lang name config) who).run q).on e
    let y := (World.execute lang c q.sql q.params).on e.world
    x.1 = y.1 ∧ x.2.world = y.2 := by
  intro x y
  have hx : x = _ := Engine.on_execute (vendor lang name config) hc q.sql q.params
  rw [hx]
  exact ⟨rfl, rfl⟩

/-- A statement that succeeds and keeps the database and the transaction of its connection. -/
theorem idle_singleton (hc : e.held? who = some c) {q : Compiled} {n : Nat} :
    let x := ((Engine.session (vendor lang name config) who).run q).on e
    x.1.toOption = some n → x.2.world.databases (e.world.key c) = e.world.databases (e.world.key c) →
      x.2.world.stage c = e.world.stage c →
      Idle (Engine.session (vendor lang name config) who) [q] e := by
  intro x hn hdatabase hstage
  have hspares : World.Spares c e.world x.2.world := by
    rw [(on_run lang name config hc q).2]
    exact World.spares_execute ..
  rw [Idle, Connection.executeMany_cons_of_ok (toOption_eq_some_iff.1 hn)]
  exact ⟨_, rfl, hspares.sameData hdatabase hstage⟩

/-- The last of several statements that succeed succeeds where the others have led to. -/
theorem exists_of_executeMany_concat {qs : List Compiled} {q : Compiled} {m : Nat}
    (h : (((Engine.session (vendor lang name config) who).executeMany (qs ++ [q])).on e).1 = .ok m) :
    let s := Engine.session (vendor lang name config) who
    ∃ e' n, e'.held? who = e.held? who ∧ ((s.run q).on e').1 = .ok n ∧
      ((s.executeMany (qs ++ [q])).on e).2.world = ((s.run q).on e').2.world := by
  intro s
  induction qs generalizing e m with
  | nil =>
    obtain ⟨n, -, hn, -⟩ := Connection.exists_of_executeMany_cons h
    exact ⟨e, n, rfl, hn, by rw [List.nil_append, Connection.executeMany_cons_of_ok hn]; rfl⟩
  | cons q' qs ih =>
    rw [List.cons_append] at h ⊢
    obtain ⟨n', m', hn', hm', -⟩ := Connection.exists_of_executeMany_cons h
    rw [Connection.executeMany_cons_of_ok hn']
    obtain ⟨e', n, hheld, hrest⟩ := ih hm'
    exact ⟨e', n, hheld.trans (held?_run q'), hrest⟩

variable (name config) in
/-- Outside of a transaction one begins, and inside of one none does. -/
theorem run_begin (htransacts : lang.Transacts) (hc : e.held? who = some c) :
    let x := ((Engine.session (vendor lang name config) who).run ⟨"BEGIN", []⟩).on e
    (e.world.isAutocommit c = true → (∃ n, x.1 = .ok n) ∧ x.2.world.stage c = some .fresh) ∧
      (e.world.isAutocommit c = false → ∃ y, x.1 = .error y) := by
  intro x
  obtain ⟨hresult, hworld⟩ := on_run lang name config hc ⟨"BEGIN", []⟩
  constructor
  · intro hauto
    have hon := World.on_begin htransacts (Option.isNone_iff_eq_none.1 hauto)
    rw [hon] at hresult hworld
    exact ⟨⟨_, hresult⟩, by rw [hworld, World.stage_setStage]⟩
  · intro hauto
    rw [World.on_begin_of_active htransacts hauto] at hresult
    exact ⟨_, hresult⟩

/-- Outside of a transaction a script that is one begins it and leaves it so, where its statements
would have ended it. -/
theorem SameRun.allOrFails_transaction_iff (hreads : lang.ReadsFirst) (htransacts : lang.Transacts)
    {q : Compiled} {body : List Compiled} (ending : Ending)
    (h : SameRun ((Engine.session (vendor lang name config) who).run q)
      ((Engine.session (vendor lang name config) who).run ⟨"BEGIN", []⟩) e) :
    AllOrFails (Engine.session (vendor lang name config) who) q
        (⟨"BEGIN", []⟩ :: (body ++ [⟨ending.text, []⟩])) e ↔
      ∀ c, e.held? who = some c → e.world.isAutocommit c = false := by
  have hbegin {c : Nat} (hc : e.held? who = some c) :=
    run_begin name config htransacts hc
  rw [h.allOrFails_iff]
  constructor
  · intro hidle c hc
    by_contra hauto
    obtain ⟨⟨n, hn⟩, hfresh⟩ := (hbegin hc).1 (by simpa using hauto)
    obtain ⟨m, hm, hsame⟩ := hidle n hn
    obtain ⟨e', n', hheld, hlast, hworld⟩ := exists_of_executeMany_concat hm
    have hc' : e'.held? who = some c := hheld.trans ((held?_run _).trans hc)
    obtain ⟨hresult, hworld'⟩ := on_run lang name config hc' ⟨ending.text, []⟩
    have hended := World.stage_execute_ending hreads htransacts ending (hresult.symm.trans hlast)
    have hstage := hsame.stage c
    rw [hworld, hworld', hended, hfresh] at hstage
    cases hstage
  · intro hactive n hn
    cases hc : e.held? who with
    | none =>
      have hrun : ((Engine.session (vendor lang name config) who).run ⟨"BEGIN", []⟩).on e = _ :=
        Engine.execute_of_not_held (vendor lang name config) who "BEGIN" [] hc
      rw [hrun] at hn
      cases hn
    | some c =>
      obtain ⟨y, hy⟩ := (hbegin hc).2 (hactive c hc)
      rw [hy] at hn
      cases hn

end Sessions

/-! ## Scripts of builders -/

/-- **What a script without parameters does.**  Take a language that reads the first statement of a
text.  A script of two or more statements, the first of which is on rows and whole, runs on a session
as this one does: it does all or fails if and only if this one fails or the others, run behind it,
succeed and change nothing.  A script that is a transaction runs as its BEGIN does: it does all or fails
if and only if it fails, the session being within a transaction already. -/
theorem run_script_iff {lang : Language δ} (hreads : lang.ReadsFirst) (htransacts : lang.Transacts)
    (name : String) (config : PoolConfig) (who : Holder) (e : Engine (World δ)) :
    let s := Engine.session (vendor lang name config) who
    (∀ (d : Dialect) (steps : List Builder.Step) (q : Compiled) (t t' : SqlKit.Statement)
        (ts : List SqlKit.Statement),
      let b := (Builder.new d).run steps
      let first := t.numbered d 0
      let rest := (t' :: ts).map (SqlKit.Statement.numbered d 0)
      b.build = .ok q → q.params = [] → b.statements = t :: t' :: ts →
      t.kind.isOnRows = true →
      isWhole first.sql = true ∨ d = .sqlite ∧ t.Verbatim (fun s => isWhole s = true) →
        q.sql = "; ".intercalate ((first :: rest).map Compiled.sql) ∧
        SameRun (s.run q) (s.run first) e ∧
        (AllOrFails s q (first :: rest) e ↔
          ∀ n, ((s.run first).on e).1 = .ok n → Idle s rest ((s.run first).on e).2)) ∧
    ∀ (d : Dialect) (ending : Ending) (calls : List (Dialect × List Builder.Step)) (q : Compiled),
      let builders := calls.map fun c => (Builder.new c.1).run c.2
      let t := (builders.map Builder.settled).foldl Transaction.push (.new d ending)
      t.build = .ok q → q.params = [] →
        ∃ body, t.statements = .ok body ∧
          let parts : List Compiled := ⟨"BEGIN", []⟩ :: (body ++ [⟨ending.text, []⟩])
          q.sql = "; ".intercalate (parts.map Compiled.sql) ∧
          SameRun (s.run q) (s.run ⟨"BEGIN", []⟩) e ∧
          (AllOrFails s q parts e ↔
            ∀ c, e.held? who = some c → e.world.isAutocommit c = false) := by
  intro s
  constructor
  · intro d steps q t t' ts b first rest hq hparams hts hkind hwhole
    obtain ⟨hsql, hstatements⟩ := Builder.build_of_params_nil hq hparams
    rw [hts] at hsql hstatements
    obtain ⟨hvalues, hsound⟩ := hstatements t List.mem_cons_self
    have hfirst : isWhole first.sql = true := by
      rcases hwhole with hwhole | ⟨rfl, hverbatim⟩
      · exact hwhole
      · exact SqlKit.Statement.isWhole_numbered hverbatim hsound
    have hrun : SameRun (s.run q) (s.run first) e := by
      obtain ⟨tail, htail⟩ := exists_intercalate_cons first.sql (t'.numbered d 0).sql
        ((ts.map (SqlKit.Statement.numbered d 0)).map Compiled.sql)
      have hbare : first = ⟨first.sql, []⟩ := congrArg (Compiled.mk _) hvalues
      have hall : q = ⟨first.sql ++ ";" ++ tail, []⟩ := by
        rw [← htail, ← hparams]
        exact congrArg (Compiled.mk · _) hsql
      rw [hbare, hall]
      exact sameRun_of_isWhole name config who e hreads hfirst
        (.inr (SqlKit.Statement.isRowText_numbered hkind hsound d)) tail []
    exact ⟨hsql, hrun, hrun.allOrFails_iff rest⟩
  · intro d ending calls q builders t hq hparams
    obtain ⟨body, hbody, hsql⟩ := Transaction.build_of_params_nil d ending calls hq hparams
    have hrun : SameRun (s.run q) (s.run ⟨"BEGIN", []⟩) e := by
      obtain ⟨u, us, hus⟩ :=
        List.exists_cons_of_ne_nil (l := body.map Compiled.sql ++ [ending.text]) (by simp)
      obtain ⟨tail, htail⟩ := exists_intercalate_cons "BEGIN" u us
      have hall : q = ⟨"BEGIN" ++ ";" ++ tail, []⟩ := by
        rw [← htail, ← hus, ← hparams, ← hsql]
      rw [hall]
      exact sameRun_of_isWhole name config who e hreads (by decide +kernel) (.inl (by decide)) tail []
    refine ⟨body, hbody, ?_, hrun, hrun.allOrFails_transaction_iff hreads htransacts ending⟩
    rw [hsql, List.map_cons, List.map_append]
    rfl

deriving instance DecidableEq for Stage

deriving instance DecidableEq for Database

/-- Two tables, each with a row. -/
def filled : Tables := [("u", ⟨"id", [1]⟩), ("v", ⟨"id", [2]⟩)]

/-- Deletes all rows of tables, one after another. -/
def emptied (tables : List String) : List Builder.Step :=
  tables.map fun name => .deleteFrom (.table (.named name))

/-- A script that is built with a text and without parameters is the two of them. -/
theorem eq_ok_of_toOption {r : Result Compiled} {sql : String}
    (h : r.toOption.map (fun q => (q.sql, q.params.isEmpty)) = some (sql, true)) :
    r = .ok ⟨sql, []⟩ := by
  cases r with
  | error x => cases h
  | ok q =>
    cases q
    obtain ⟨rfl, hparams⟩ := Prod.mk.inj (Option.some.inj h)
    obtain rfl := List.isEmpty_iff.1 hparams
    rfl

/-- Within a transaction, rows may be deleted twice, and no other transaction begins. -/
theorem run_script_iff_active :
    let v := vendor Tables.language memory ⟨0, 1, ⟨0⟩, none⟩
    let e := (Engine.new v (.new .own filled)).run v
      [.connect, .connection "a", .begin "a", .execute "a" "BEGIN" []]
    let s := Engine.session v (.handle "a")
    let b := (Builder.new .sqlite).run (emptied ["u", "u"])
    let q : Compiled := ⟨"DELETE FROM \"u\"; DELETE FROM \"u\"", []⟩
    let t := (Transaction.new .sqlite .commit).push ((Builder.new .sqlite).run (emptied ["u"])).settled
    let q' : Compiled := ⟨"BEGIN; DELETE FROM \"u\"; COMMIT;", []⟩
    (b.build = .ok q ∧ ((s.run q).on e).1.toOption = some 1 ∧
      AllOrFails s q (b.statements.map (SqlKit.Statement.numbered .sqlite 0)) e) ∧
    t.build = .ok q' ∧ ∃ body, t.statements = .ok body ∧
      AllOrFails s q' (⟨"BEGIN", []⟩ :: (body ++ [⟨"COMMIT;", []⟩])) e := by
  intro v e s b q t q'
  have hb : b.build = .ok q := eq_ok_of_toOption (by decide +kernel)
  have ht : t.build = .ok q' := eq_ok_of_toOption (by decide +kernel)
  have hheld : e.held? (.handle "a") = some 0 := by decide +kernel
  obtain ⟨hscript, htransaction⟩ := run_script_iff Tables.readsFirst_language
    Tables.transacts_language memory ⟨0, 1, ⟨0⟩, none⟩ (.handle "a") e
  have hs := hscript .sqlite (emptied ["u", "u"]) q _ _ _ hb rfl rfl (by decide)
    (.inl (by decide +kernel))
  refine ⟨⟨hb, by decide +kernel, hs.2.2.2 fun n hn => ?_⟩, ht, ?_⟩
  · exact idle_singleton (n := 0) ((held?_run _).trans hheld) (by decide +kernel) (by decide +kernel)
      (by decide +kernel)
  · obtain ⟨body, hbody, -, -, hiff⟩ :=
      htransaction .sqlite .commit [(.sqlite, emptied ["u"])] q' ht rfl
    refine ⟨body, hbody, hiff.2 fun c hc => ?_⟩
    obtain rfl : 0 = c := Option.some.inj (hheld.symm.trans hc)
    decide +kernel

/-- The contents of the database of the first connection. -/
def contents (e : Engine (World Tables)) : Tables := (e.world.databases 0).committed

theorem not_allOrFails {s : Connection (Engine (World Tables))} {q : Compiled} {parts : List Compiled}
    {e : Engine (World Tables)} {n : Nat} (h : ((s.run q).on e).1.toOption = some n)
    (hne : contents ((s.run q).on e).2 ≠ contents ((s.executeMany parts).on e).2) :
    ¬AllOrFails s q parts e := by
  intro hall
  obtain ⟨m, -, hsame⟩ := hall n (toOption_eq_some_iff.1 h)
  exact hne (hsame.committed 0)

/-- Of two deletions the second is lost; a transaction is begun, and its statements are lost. -/
theorem run_script_loses :
    let v := vendor Tables.language memory ⟨0, 1, ⟨0⟩, none⟩
    let e := (Engine.new v (.new .own filled)).run v [.connect, .connection "a", .begin "a"]
    let s := Engine.session v (.handle "a")
    let b := (Builder.new .sqlite).run (emptied ["u", "v"])
    let q : Compiled := ⟨"DELETE FROM \"u\"; DELETE FROM \"v\"", []⟩
    let parts := b.statements.map (SqlKit.Statement.numbered .sqlite 0)
    let t := (Transaction.new .sqlite .commit).push ((Builder.new .sqlite).run (emptied ["u"])).settled
    let q' : Compiled := ⟨"BEGIN; DELETE FROM \"u\"; COMMIT;", []⟩
    let parts' : List Compiled := [⟨"BEGIN", []⟩, ⟨"DELETE FROM \"u\"", []⟩, ⟨"COMMIT;", []⟩]
    (b.build = .ok q ∧ ((s.run q).on e).1.toOption = some 1 ∧
      contents ((s.run q).on e).2 = [("u", ⟨"id", []⟩), ("v", ⟨"id", [2]⟩)] ∧
      contents ((s.executeMany parts).on e).2 = [("u", ⟨"id", []⟩), ("v", ⟨"id", []⟩)] ∧
      ¬AllOrFails s q parts e) ∧
    t.build = .ok q' ∧ t.statements = .ok [⟨"DELETE FROM \"u\"", []⟩] ∧
      ((s.run q').on e).1.toOption = some 0 ∧
      contents ((s.run q').on e).2 = [("u", ⟨"id", [1]⟩), ("v", ⟨"id", [2]⟩)] ∧
      contents ((s.executeMany parts').on e).2 = [("u", ⟨"id", []⟩), ("v", ⟨"id", [2]⟩)] ∧
      ¬AllOrFails s q' parts' e := by
  intro v e s b q parts t q' parts'
  have hscript : ((s.run q).on e).1.toOption = some 1 ∧
      contents ((s.run q).on e).2 = [("u", ⟨"id", []⟩), ("v", ⟨"id", [2]⟩)] ∧
      contents ((s.executeMany parts).on e).2 = [("u", ⟨"id", []⟩), ("v", ⟨"id", []⟩)] := by
    decide +kernel
  have htransaction : ((s.run q').on e).1.toOption = some 0 ∧
      contents ((s.run q').on e).2 = [("u", ⟨"id", [1]⟩), ("v", ⟨"id", [2]⟩)] ∧
      contents ((s.executeMany parts').on e).2 = [("u", ⟨"id", []⟩), ("v", ⟨"id", [2]⟩)] := by
    decide +kernel
  obtain ⟨hran, hkept, hgone⟩ := hscript
  obtain ⟨hran', hkept', hgone'⟩ := htransaction
  have hlost : ¬AllOrFails s q parts e := not_allOrFails hran (by rw [hkept, hgone]; decide)
  have hlost' : ¬AllOrFails s q' parts' e := not_allOrFails hran' (by rw [hkept', hgone']; decide)
  exact ⟨⟨eq_ok_of_toOption (by decide +kernel), hran, hkept, hgone, hlost⟩,
    eq_ok_of_toOption (by decide +kernel), by rfl, hran', hkept', hgone', hlost'⟩

end Sqlite

end SqlKit
