import SqlKit.Proofs.Engine.Life
import SqlKit.Proofs.Sqlite.Connections
import SqlKit.Sqlite.Tables

/-!
# The life cycle of an engine on SQLite

An engine connects and disconnects, any number of times, and its handles come and go; what was opened
may fail to open the next time.  Which of the requests are refused, and why, follows from what was asked
for and what succeeded.  A session that outlives the pool of its handle works on, and nobody gets its
connection after it.

    errors of the database are not about connections                   (plain_execute, plain_fetch)
    whatever is asked for, connections are not opened twice            (Sound.serveAll)
    what is given back to a pool that was disconnected is closed       (Sound.isClosed_release)
    refusals, failures to connect and sessions without a pool          (run_life)
-/

namespace SqlKit.Sqlite

open Lookup

variable {δ : Type}

/-! ## Errors of the database -/

/-- A result that does not fail with an error about connections. -/
def Plain {α : Type} (r : Result α) : Prop := ∀ x, r = .error x → x.kind ≠ .pool

section Plain

variable {α β : Type}

theorem plain_ok (a : α) : Plain (.ok a : Result α) := fun _ h => nomatch h

theorem plain_error {x : Error} (h : x.kind ≠ .pool) : Plain (.error x : Result α) := by
  intro y hy
  cases hy
  exact h

theorem Plain.bind {r : Result α} {f : α → Result β} (h : Plain r)
    (hf : ∀ a, r = .ok a → Plain (f a)) : Plain (r >>= f) := by
  cases r with
  | error x => exact plain_error (h x rfl)
  | ok a => exact hf a rfl

theorem Plain.map {r : Result α} (h : Plain r) (f : α → β) : Plain (r.map f) := by
  cases r with
  | error x => exact plain_error (h x rfl)
  | ok a => exact plain_ok (f a)

theorem plain_mapM {f : α → Result β} (h : ∀ a, Plain (f a)) (l : List α) : Plain (l.mapM f) := by
  induction l with
  | nil => exact plain_ok []
  | cons a l ih =>
    rw [List.mapM_cons]
    exact (h a).bind fun b _ => ih.bind fun bs _ => plain_ok (b :: bs)

end Plain

/-- A language whose statements do not fail with errors about connections. -/
structure Language.Plain (lang : Language δ) : Prop where
  read : ∀ sql x, Sqlite.Plain (lang sql x)
  apply : ∀ sql x p args b f z, lang sql x = .ok p → p.effect args = .change b f → Sqlite.Plain (f z)

namespace World

/-- What speaks against committing a content is not about connections. -/
def Plain (w : World δ) : Prop := ∀ z x, w.objection z = some x → x.kind ≠ .pool

variable {w : World δ} {c : Nat}

theorem plain_begin (w : World δ) (c : Nat) (writes : Bool) : Sqlite.Plain (w.begin c writes).1 := by
  unfold begin
  dsimp only
  split
  · exact plain_ok ()
  · exact plain_error (by decide)
  · split
    · exact plain_error (by decide)
    · split
      · exact plain_ok ()
      · exact plain_error (by decide)

theorem plain_commit (hw : w.Plain) (c : Nat) : Sqlite.Plain (w.commit c).1 := by
  unfold commit
  dsimp only
  split
  · exact plain_error (by decide)
  · split
    next x hx => exact plain_error (hw _ x hx)
    next => exact plain_ok ()
  · exact plain_ok ()

theorem plain_rollback (w : World δ) (c : Nat) : Sqlite.Plain (w.rollback c).1 := by
  unfold rollback
  split
  · exact plain_error (by decide)
  · exact plain_ok ()

theorem plain_change (hw : w.Plain) (c : Nat) (isCounted : Bool) {apply : δ → Result (Change δ)}
    (ha : ∀ z, Sqlite.Plain (apply z)) : Sqlite.Plain (w.change c isCounted apply).1 := by
  have hchecked (ch : Change δ) : Sqlite.Plain (w.checked c ch) := by
    unfold checked
    split
    next x _ hx => exact plain_error (hw _ x hx)
    next => exact plain_ok ch
  unfold change
  dsimp only
  split
  · exact plain_error (by decide)
  · next z _ =>
    have hboth : Sqlite.Plain (apply z >>= w.checked c) := (ha z).bind fun ch _ => hchecked ch
    split
    next x hx => exact plain_error (hboth x hx)
    next => exact plain_ok _

theorem plain_run (hw : w.Plain) (c : Nat) {effect : Effect δ}
    (he : ∀ b f z, effect = .change b f → Sqlite.Plain (f z)) : Sqlite.Plain (w.run c effect).1 := by
  cases effect with
  | begin writes => exact (plain_begin w c writes).map _
  | commit => exact (plain_commit hw c).map _
  | rollback => exact (plain_rollback w c).map _
  | give rows => exact plain_ok rows
  | read rows => exact plain_ok _
  | change isCounted apply => exact plain_change hw c isCounted fun z => he isCounted apply z rfl

end World

variable {lang : Language δ}

/-- What a text means for a content does not fail with such an error, nor does what it does. -/
theorem Language.Plain.meaning (hlang : lang.Plain) (x : δ) (sql : String) (params : List Value) :
    Sqlite.Plain (lang.meaning x sql params) ∧
      ∀ m, lang.meaning x sql params = .ok m → ∀ b f z, m.2 = .change b f → Sqlite.Plain (f z) := by
  have hbind (p : Prepared δ) : Sqlite.Plain (p.bind params) := by
    unfold Prepared.bind
    split
    · exact plain_error (by decide)
    · exact plain_ok _
  unfold Language.meaning
  cases hp : lang sql x with
  | error y => exact ⟨plain_error (hlang.read sql x y hp), fun m hm => nomatch hm⟩
  | ok p =>
    refine ⟨(hbind p).bind fun effect _ => plain_ok _, fun m hm b f z hchange => ?_⟩
    have hm : (do return (p.columns, ← p.bind params) : Result _) = .ok m := hm
    unfold Prepared.bind at hm
    split at hm
    · cases hm
    · cases hm
      exact hlang.apply sql x p _ b f z hp hchange

theorem plain_execute (hlang : lang.Plain) {w : World δ} (hw : w.Plain) (c : Nat) (sql : String)
    (params : List Value) : Plain ((World.execute lang c sql params).on w).1 := by
  obtain ⟨hmeaning, hchange⟩ := hlang.meaning (w.view c) sql params
  rw [World.on_execute]
  cases hm : lang.meaning (w.view c) sql params with
  | error x => exact plain_error (hmeaning x hm)
  | ok m =>
    have hrun := World.plain_run hw c (hchange m hm)
    dsimp only
    cases hr : w.run c m.2 with
    | mk r w' =>
      rw [hr] at hrun
      cases r with
      | error x => exact plain_error (hrun x rfl)
      | ok rows =>
        dsimp only
        split
        · exact plain_ok _
        · exact plain_error (by decide)

theorem plain_fetch (hlang : lang.Plain) {w : World δ} (hw : w.Plain) (c : Nat) (sql : String)
    (params : List Value) (limit : Option Nat) :
    Plain ((World.fetch lang c sql params limit).on w).1 := by
  have hrow (columns : List String) (row : List Datum) :
      Plain (Row.ofLists? columns (row.map Datum.toValue)) := by
    unfold Row.ofLists?
    split
    · exact plain_ok _
    · exact plain_error (by rintro ⟨⟩)
  obtain ⟨hmeaning, hchange⟩ := hlang.meaning (w.view c) sql params
  rw [World.on_fetch]
  cases hm : lang.meaning (w.view c) sql params with
  | error x => exact plain_error (hmeaning x hm)
  | ok m =>
    have hrun := World.plain_run hw c (hchange m hm)
    dsimp only
    split
    · exact plain_ok []
    · cases hr : w.run c m.2 with
      | mk r w' =>
        rw [hr] at hrun
        cases r with
        | error x => exact plain_error (hrun x rfl)
        | ok rows => exact plain_mapM (hrow m.1) _

/-! Statements on tables of keys have errors of their own. -/

namespace Tables

theorem plain_table? (ts : Tables) (name : String) : Sqlite.Plain (table? ts name) := by
  unfold table?
  split
  · exact plain_ok _
  · exact plain_error (by rintro ⟨⟩)

theorem plain_column? (t : KeyTable) (name : String) : Sqlite.Plain (column? t name) := by
  unfold column?
  split
  · exact plain_ok ()
  · exact plain_error (by rintro ⟨⟩)

theorem plain_key? (keys : List Int64) (d : Datum) : Sqlite.Plain (key? keys d) := by
  unfold key?
  split
  · unfold nextKey?
    split
    · exact plain_ok _
    · exact plain_error (by rintro ⟨⟩)
  · exact plain_ok _
  · exact plain_error (by rintro ⟨⟩)

theorem plain_insertAll (name : String) (t : KeyTable) (ds : List Datum) :
    Sqlite.Plain (insertAll name t ds) := by
  induction ds generalizing t with
  | nil => exact plain_ok _
  | cons d ds ih =>
    unfold insertAll
    refine (plain_key? t.keys d).bind fun k _ => ?_
    split
    · exact plain_error (by rintro ⟨⟩)
    · exact (ih _).bind fun _ _ => plain_ok _

theorem plain_insertRows (name : String) (returning : Bool) (ds : List Datum) (ts : Tables) :
    Sqlite.Plain (insertRows name returning ds ts) := by
  unfold insertRows
  refine (plain_table? ts name).bind fun t _ => ?_
  exact (plain_insertAll name t ds).bind fun _ _ => plain_ok _

theorem plain_deleteRows (name : String) (filter : Option (Comparison × Term)) (args : List Datum)
    (ts : Tables) : Sqlite.Plain (deleteRows name filter args ts) := by
  unfold deleteRows
  exact (plain_table? ts name).bind fun _ _ => plain_ok _

/-- A statement does not fail with an error about connections, neither when it is read nor when it is
run. -/
theorem plain_prepare (sql : String) (ts : Tables) (s : Statement) :
    Sqlite.Plain (prepare sql ts s) ∧ ∀ p args b f z, prepare sql ts s = .ok p →
      p.effect args = .change b f → Sqlite.Plain (f z) := by
  cases s with
  | begin writes | commit | rollback | values columns rows =>
    refine ⟨plain_ok _, fun p args b f z hp hchange => ?_⟩
    cases hp
    cases hchange
  | create name column place =>
    unfold prepare
    dsimp only
    cases ts.get? name with
    | some t => exact ⟨plain_error (by rintro ⟨⟩), fun p args b f z hp => nomatch hp⟩
    | none =>
      refine ⟨plain_ok _, fun p args b f z hp hchange => ?_⟩
      cases hp
      cases hchange
      exact plain_ok _
  | insert name column terms returning =>
    unfold prepare
    refine ⟨(plain_table? ts name).bind fun t _ => (plain_column? t column).bind fun _ _ => plain_ok _,
      fun p args b f z hp hchange => ?_⟩
    obtain ⟨t, -, hp⟩ := Result.ok_of_bind hp
    obtain ⟨_, -, hp⟩ := Result.ok_of_bind hp
    cases hp
    cases hchange
    exact plain_insertRows _ _ _ _
  | select name column filter descending =>
    unfold prepare
    refine ⟨(plain_table? ts name).bind fun t _ => (plain_column? t _).bind fun _ _ => plain_ok _,
      fun p args b f z hp hchange => ?_⟩
    obtain ⟨t, -, hp⟩ := Result.ok_of_bind hp
    obtain ⟨_, -, hp⟩ := Result.ok_of_bind hp
    cases hp
    cases hchange
  | delete name filter =>
    unfold prepare
    refine ⟨(plain_table? ts name).bind fun t _ => plain_ok _, fun p args b f z hp hchange => ?_⟩
    obtain ⟨t, -, hp⟩ := Result.ok_of_bind hp
    cases hp
    cases hchange
    exact plain_deleteRows _ _ _ _

end Tables

theorem plain_language : Tables.language.Plain := by
  have hstatement (sql : String) : Plain (Statement.ofText? sql) := by
    unfold Statement.ofText?
    dsimp only
    split
    · exact plain_ok _
    · exact plain_error (by rintro ⟨⟩)
  refine ⟨fun sql ts => ?_, fun sql ts p args b f z hp hchange => ?_⟩
  · exact (hstatement sql).bind fun s _ => (Tables.plain_prepare sql ts s).1
  · obtain ⟨s, -, hp⟩ := Result.ok_of_bind hp
    exact (Tables.plain_prepare sql ts s).2 p args b f z hp hchange

/-! ## Connections that may fail to open -/

/-- A way to open connections, which may fail whenever it likes. -/
structure Opener (opener : Action (World δ) Nat) : Prop where
  numbers : Numbers opener
  plain : ∀ w, Plain (opener.on w).1

theorem opener_login : Opener (login : Action (World δ) Nat) where
  numbers := numbers_login
  plain w := by
    rw [login_eq]
    split
    · exact plain_error (by rintro ⟨⟩)
    · exact plain_ok _
    · exact plain_ok _

/-- No connection can be opened. -/
def outage (x : Error) : Action (World δ) Nat := .of fun w => (.error x, w)

theorem opener_outage {x : Error} (h : x.kind ≠ .pool) : Opener (outage x : Action (World δ) Nat) where
  numbers _ := .inl ⟨x, rfl⟩
  plain _ := plain_error h

variable {name : String} {config : PoolConfig} {opener : Action (World δ) Nat}
  {e e' : Engine (World δ)}

theorem candid_vendor (hlang : lang.Plain) (ho : Opener opener) {w : World δ} (hw : w.Plain) :
    Engine.Candid ((vendor lang name config).withLogin opener) w where
  fault _ h := nomatch h
  closedFault := rfl
  login w x _ h := ho.plain w x (congrArg Prod.fst h)
  execute c sql params x _ h := plain_execute hlang hw c sql params x (congrArg Prod.fst h)
  fetch c sql params limit x _ h := plain_fetch hlang hw c sql params limit x (congrArg Prod.fst h)

theorem sound_withLogin {v : Vendor (World δ)} (opener : Action (World δ) Nat) :
    Sound (v.withLogin opener) e ↔ Sound v e :=
  ⟨fun he => ⟨(Engine.orderly_withLogin opener).1 he.orderly, he.nodup, he.apart, he.opened, he.outside⟩,
    fun he => ⟨(Engine.orderly_withLogin opener).2 he.orderly, he.nodup, he.apart, he.opened, he.outside⟩⟩

/-- An engine may go on in another way to open connections. -/
theorem later_withLogin {v : Vendor (World δ)} {opener : Action (World δ) Nat}
    (h : Later (v.withLogin opener) e e') : Later v e e' :=
  ⟨(sound_withLogin opener).1 h.sound, h.world, h.conns⟩

/-- Nothing that an engine does changes what speaks against committing. -/
theorem objection_move (ho : Numbers opener)
    (h : Engine.Move ((vendor lang name config).withLogin opener) e e') :
    e.Orderly (vendor lang name config) → e'.world.objection = e.world.objection := by
  intro he
  cases h with
  | pass now | forget unheld | make current none | disconnect current => rfl
  | work handle held works pool => exact (spares_works works).objection
  | letGo held tidies =>
    have htidies : _ = (vendor lang name config).giveBack ∨ _ = (vendor lang name config).abandon :=
      tidies
    rw [Engine.world_letGo held, tidy_snd htidies]
    exact (World.spares_abandon ..).objection
  | take handle unheld result =>
    have htaken := ((Engine.orderly_withLogin opener).2 he).taken handle unheld
    rw [result] at htaken
    rcases ho.taken htaken with hw | hw <;> dsimp only <;> rw [hw]
  | connect unconnected result =>
    have hstocked := Engine.stocked_connect ((vendor lang name config).withLogin opener) e
    rw [result] at hstocked
    obtain ⟨k, rfl⟩ := ho.stocked hstocked
    rfl
  | fail unconnected result =>
    have hstocked := Engine.stocked_connect ((vendor lang name config).withLogin opener) e
    rw [result] at hstocked
    obtain ⟨k, rfl⟩ := ho.stocked hstocked
    rfl

theorem objection_reaches (ho : Numbers opener) (he : e.Orderly (vendor lang name config))
    (h : Engine.Reaches ((vendor lang name config).withLogin opener) e e') :
    e'.world.objection = e.world.objection := by
  induction h with
  | refl => rfl
  | tail before move ih =>
    have hbefore := Engine.orderly_reaches ((Engine.orderly_withLogin opener).2 he) before
    exact (objection_move ho move ((Engine.orderly_withLogin opener).1 hbefore)).trans ih

/-- Whatever is asked for, and whether connections open or not: the engine stays sound. -/
theorem Sound.serveAll (he : Sound (vendor lang name config) e) {rs : List (Engine.Request (World δ))}
    (hrs : ∀ r ∈ rs, Opener r.opener) :
    Later (vendor lang name config) e (e.serveAll (vendor lang name config) rs) ∧
      (e.serveAll (vendor lang name config) rs).world.objection = e.world.objection := by
  induction rs generalizing e with
  | nil => exact ⟨.refl he, rfl⟩
  | cons r rs ih =>
    have ho := (hrs r (by simp)).numbers
    have hreaches := Engine.reaches_after (v := (vendor lang name config).withLogin r.opener) e r.op
    have hlater := later_withLogin (((sound_withLogin r.opener).2 he).reaches_of ho hreaches)
    obtain ⟨hrest, hobjection⟩ := ih hlater.sound fun r' hr' => hrs r' (by simp [hr'])
    exact ⟨hlater.trans hrest, hobjection.trans (objection_reaches ho he.orderly hreaches)⟩

/-! ## Sessions without a pool -/

/-- A connection is closed: no pool has it, neither idle nor lent. -/
def IsClosed (e : Engine (World δ)) (c : Nat) : Prop := ∀ n, c ∉ (e.pools n).conns

/-- A connection that is given back to a pool that was disconnected is closed, and stays so whatever is
asked for. -/
theorem Sound.isClosed_release (he : Sound (vendor lang name config) e) {who : Holder} {c : Nat}
    (hc : e.held? who = some c)
    (hshut : ∀ h, e.handles who = some h → e.current ≠ some h.pool)
    {how : Engine.Release} (hallows : e.allows how = true) {rs : List (Engine.Request (World δ))}
    (hrs : ∀ r ∈ rs, Opener r.opener) :
    IsClosed ((e.release (vendor lang name config) who how).serveAll
      (vendor lang name config) rs) c := by
  intro n hmem
  obtain ⟨h, o, hh, hheld, rfl⟩ := Engine.held?_eq_some_iff.1 hc
  obtain ⟨handles, hrelease⟩ := Engine.release_eq (vendor lang name config) who hallows
  have hlater := he.reaches (Engine.reaches_release (vendor lang name config) who e how)
  have hrest := (hlater.sound.serveAll hrs).1
  rcases hrest.conns n o.conn hmem with hmem | hnew
  · rw [hrelease] at hmem
    refine he.not_mem_conns_letGo hh hheld ?_ n hmem
    have hclosed : (e.pools h.pool).isClosed = true := by
      have hcurrent := he.orderly.current h.pool (he.orderly.known who h hh)
      rw [(he.orderly.resting h.pool).closed]
      cases hopen : (e.pools h.pool).isShut with
      | true => rfl
      | false => exact absurd (hcurrent.1 hopen) (hshut h hh)
    simp [Pool.refuses, hclosed]
  · have hlt := he.lt_opened hc
    have hgrows := hlater.world.opened
    omega

/-! ## The whole life cycle -/

/-- Connecting an engine that is not connected opens as many connections as its pool is to keep, and
fails if one of them cannot be opened. -/
theorem exists_opens_connect (hoff : e.isConnected = false) :
    let v := (vendor lang name config).withLogin opener
    ∃ cs w, Pool.Opens opener.on e.world cs w ∧
      (cs.length = v.config.minSize ∧ e.result v .connect = .ok () ∧
          (e.after v .connect).isConnected = true ∨
        ∃ x w', opener.on w = (.error x, w') ∧ e.result v .connect = .error x ∧
          (e.after v .connect).isConnected = false) := by
  intro v
  have hcurrent : e.current = none := by simpa [Engine.isConnected] using hoff
  have hstocked := Engine.stocked_connect v e
  have hon := Engine.on_connect v hcurrent rfl
  generalize Pool.warm v.login.on Holder.engine e.now (Pool.new v.config v.keeps, e.world) = x
    at hstocked hon
  cases hstocked with
  | full opened count =>
    refine ⟨_, _, opened, .inl ⟨count, ?_, ?_⟩⟩
    · exact congrArg Prod.fst hon
    · exact congrArg (fun x => x.2.isConnected) hon
  | failed opened new =>
    refine ⟨_, _, opened, .inr ⟨_, _, new, congrArg Prod.fst hon, ?_⟩⟩
    exact (congrArg (fun x => x.2.isConnected) hon).trans hoff

/-- A handle holds a session, and its statements are those of its connection. -/
structure WorksOn (v : Vendor (World δ)) (e : Engine (World δ)) (who : Holder) (c : Nat) : Prop where
  held : e.held? who = some c
  execute : ∀ sql params,
    let x := (Engine.execute v who sql params).on e
    (x.1, x.2.world) = (v.execute c sql params).on e.world
  fetch : ∀ sql params limit,
    let x := (Engine.query v who sql params limit).on e
    (x.1, x.2.world) = (v.fetch c sql params limit).on e.world

theorem worksOn_of_held (v : Vendor (World δ)) {who : Holder} {c : Nat} (hc : e.held? who = some c) :
    WorksOn v e who c where
  held := hc
  execute sql params := by
    obtain ⟨hresult, hworld, -⟩ := Engine.mirrors_execute who c v sql params e hc
    exact Prod.ext hresult hworld
  fetch sql params limit := by
    obtain ⟨hresult, hworld, -⟩ := Engine.mirrors_query who c v sql params limit e hc
    exact Prod.ext hresult hworld

/-- **The life cycle.**  After any requests, each with connections that open or fail to open as they
like:

* whether the engine is connected, and which handles hold a session, is what follows from the requests
  and from which of them succeeded;
* a request fails because the engine is connected already, because it or the handle is not, or because
  the pool is closed, if and only if that follows, too;
* connecting fails when a connection cannot be opened, and leaves the engine disconnected;
* a handle works on its connection until it is to give it back, whatever the others and the engine are
  asked for;
* once the engine was disconnected from the pool of a handle, the connection of the handle is closed when
  it is given back, and no pool has it ever again. -/
theorem run_life (lang : Language δ) (name : String) (config : PoolConfig) (plain : lang.Plain)
    {w : World δ} (unopposed : w.Plain) (outside : ∀ c, w.stage c = none)
    {rs : List (Engine.Request (World δ))} (openers : ∀ r ∈ rs, Opener r.opener) :
    let v := vendor lang name config
    let e := (Engine.new v w).serveAll v rs
    let l := Engine.Life.replay {} ((Engine.new v w).log v rs)
    (e.isConnected = l.isOn ∧ ∀ who, (e.held? (.handle who)).isSome = l.holds who) ∧
      (∀ opener, Opener opener →
        let v := v.withLogin opener
        (∀ op, (∀ t, op ≠ .transaction t) → ∀ x ∈ Engine.lapses,
          (e.result v op = .error x ↔ l.refusal op = some x)) ∧
        (l.isOn = false → ∃ cs w, Pool.Opens opener.on e.world cs w ∧
          (cs.length = v.config.minSize ∧ e.result v .connect = .ok () ∧
              (e.after v .connect).isConnected = true ∨
            ∃ x w', opener.on w = (.error x, w') ∧ e.result v .connect = .error x ∧
              (e.after v .connect).isConnected = false))) ∧
      ∀ who c, e.held? (.handle who) = some c →
        (∀ rs', (∀ r ∈ rs', r.op.releases who = false) →
          WorksOn v (e.serveAll v rs') (.handle who) c) ∧
        (l.isOpen who = false → ∀ how, e.allows how = true → ∀ rs', (∀ r ∈ rs', Opener r.opener) →
          IsClosed ((e.release v (.handle who) how).serveAll v rs') c) := by
  intro v e l
  have hnew : Sound v (Engine.new v w) := sound_new lang name config outside
  obtain ⟨hlater, hobjection⟩ := hnew.serveAll openers
  have he : Sound v e := hlater.sound
  have hw : e.world.Plain := by
    intro z x hx
    rw [hobjection] at hx
    exact unopposed z x hx
  have hlife : e.life = l := hnew.orderly.life_serveAll rs
  refine ⟨⟨?_, fun who => ?_⟩, fun opener ho => ⟨fun op hop x hx => ?_, fun hoff => ?_⟩,
    fun who c hc => ⟨fun rs' hrs' => ?_, fun hshut how hallows rs' hrs' => ?_⟩⟩
  · exact congrArg Engine.Life.isOn hlife
  · rw [← hlife, Engine.holds_life]
  · rw [← hlife]
    exact ((Engine.orderly_withLogin opener).2 he.orderly).result_eq_iff (candid_vendor plain ho hw) hop hx
  · have hoff : e.isConnected = false := (congrArg Engine.Life.isOn hlife).trans hoff
    exact exists_opens_connect hoff
  · exact worksOn_of_held v (he.orderly.held?_serveAll hc hrs')
  · refine he.isClosed_release hc (fun h hh hopen => ?_) hallows hrs'
    rw [← hlife, Bool.eq_false_iff] at hshut
    exact hshut ((Engine.isOpen_life hh).2 hopen)

/-- A handle keeps its session while the engine is disconnected, fails to connect, is connected again
and disconnected once more; when the handle gives its connection back, it gets no other one, and the
connection is closed. -/
theorem run_life_reconnected :
    let w : World Tables := .new .shared []
    let v := vendor Tables.language "shop.db" ⟨1, 2, ⟨0⟩, none⟩
    let rs : List (Engine.Request (World Tables)) := [⟨login, .connect⟩, ⟨login, .connection "a"⟩,
      ⟨login, .begin "a"⟩, ⟨login, .disconnect⟩,
      ⟨outage (.operational "unable to open database file"), .connect⟩, ⟨login, .connect⟩]
    let e := (Engine.new v w).serveAll v rs
    let done : Engine.Request (World Tables) := ⟨login, .done "a"⟩
    let e' := (Engine.new v w).serveAll v (rs ++ [done])
    Tables.language.Plain ∧ w.Plain ∧ (∀ c, w.stage c = none) ∧
      (∀ r ∈ rs ++ [done], Opener r.opener) ∧
      ((Engine.new v w).log v rs).map Prod.snd = [true, true, true, true, false, true] ∧
      e.held? (.handle "a") = some 0 ∧ e.result v .connect = .error .alreadyConnected ∧
      e.result v (.begin "a") = .error .alreadyConnected ∧
      WorksOn v (e.serveAll v [⟨login, .disconnect⟩]) (.handle "a") 0 ∧
      e'.result v (.begin "a") = .error .poolClosed ∧
      IsClosed ((e.release v (.handle "a") .done).serveAll v [⟨login, .begin "a"⟩]) 0 := by
  intro w v rs e done e'
  have hw : w.Plain := fun _ _ h => nomatch h
  have hall : ∀ r ∈ rs ++ [done], Opener r.opener := by
    have houtage : Opener (outage (.operational "unable to open database file") :
        Action (World Tables) Nat) := opener_outage (by decide)
    simp [rs, done, opener_login, houtage]
  have hheld : e.held? (.handle "a") = some 0 := by decide +kernel
  obtain ⟨-, hbefore, hsession⟩ := run_life Tables.language "shop.db" ⟨1, 2, ⟨0⟩, none⟩ plain_language
    hw (fun _ => rfl) fun r hr => hall r (List.mem_append_left _ hr)
  obtain ⟨-, hafter, -⟩ := run_life Tables.language "shop.db" ⟨1, 2, ⟨0⟩, none⟩ plain_language
    hw (fun _ => rfl) hall
  obtain ⟨hworks, hgone⟩ := hsession "a" 0 hheld
  have hconnect := (hbefore login opener_login).1 .connect nofun .alreadyConnected (by decide)
  have hbegin := (hbefore login opener_login).1 (.begin "a") nofun .alreadyConnected (by decide)
  have hclosed := (hafter login opener_login).1 (.begin "a") nofun .poolClosed (by decide)
  refine ⟨plain_language, hw, fun _ => rfl, hall, by decide +kernel, hheld,
    hconnect.2 (by decide +kernel), hbegin.2 (by decide +kernel), hworks _ (by simp [Engine.Op.releases]),
    hclosed.2 (by decide +kernel), hgone (by decide +kernel) .done rfl _ (by simp [opener_login])⟩

end SqlKit.Sqlite
