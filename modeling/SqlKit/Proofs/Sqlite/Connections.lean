import Mathlib.Data.List.Pairwise
import SqlKit.Proofs.Engine.Order
import SqlKit.Proofs.Sqlite.Sessions
import SqlKit.Sqlite.Vendor

/-!
# The connections of an engine

Whatever an engine is asked for, every connection is in one place, it is in a transaction only while
some handle holds it, and a connection that a pool gets is a new one.  Of opening connections this needs
no more than that they are numbered as they are opened; whether one can be opened does not matter.

    the engine stays sound, and gets only new connections              (Sound.move, Sound.reaches_of)
    what a handle is lent nobody else holds                            (Sound.not_isLent_of_taken)
-/

namespace SqlKit.Sqlite

open Lookup

variable {δ : Type}

/-! ## Opening connections -/

theorem login_eq (w : World δ) :
    login.on w = match w.place with
      | .missing name => (.error (.operational
          ("SQLite open failed: unable to open database file: " ++ name)), w)
      | .own | .shared => (.ok w.opened, { w with opened := w.opened + 1 }) := rfl

/-- Opening a connection fails, or gives the next number and changes nothing else. -/
theorem on_login (w : World δ) :
    (∃ x, login.on w = (.error x, w)) ∨
      login.on w = (.ok w.opened, { w with opened := w.opened + 1 }) := by
  rw [login_eq]
  cases w.place with
  | missing name => exact .inl ⟨_, rfl⟩
  | own | shared => exact .inr rfl

/-- Whenever a connection is opened, this fails, or gives the next number and changes nothing else. -/
def Numbers (opener : Action (World δ) Nat) : Prop :=
  ∀ w, (∃ x, opener.on w = (.error x, w)) ∨
    opener.on w = (.ok w.opened, { w with opened := w.opened + 1 })

namespace Numbers

variable {opener : Action (World δ) Nat} (ho : Numbers opener)
include ho

theorem eq_of_ok {w w' : World δ} {c : Nat} (h : opener.on w = (.ok c, w')) :
    c = w.opened ∧ w' = { w with opened := w.opened + 1 } := by
  rcases ho w with ⟨x, hx⟩ | hok
  · rw [hx] at h
    cases h
  · rw [hok] at h
    cases h
    exact ⟨rfl, rfl⟩

/-- A handle that takes a connection changes nothing about the databases and sessions. -/
theorem taken {p : Pool Holder Nat} {who : Holder} {now : Duration} {w : World δ}
    {x : Result Unit × Pool Holder Nat × World δ} (h : Pool.Taken opener.on who now p w x) :
    x.2.2 = w ∨ x.2.2 = { w with opened := w.opened + 1 } := by
  rcases h.world_eq with h | ⟨r, hr⟩
  · exact .inl h
  · rcases ho w with ⟨y, hy⟩ | hok
    · exact .inl (Prod.mk.inj (hr.symm.trans hy)).2
    · exact .inr (Prod.mk.inj (hr.symm.trans hok)).2

theorem opens {w w' : World δ} {cs : List Nat} (h : Pool.Opens opener.on w cs w') :
    w' = { w with opened := w.opened + cs.length } ∧ cs = List.range' w.opened cs.length := by
  induction h with
  | nil w => exact ⟨rfl, rfl⟩
  | cons new rest ih =>
    obtain ⟨rfl, rfl⟩ := ho.eq_of_ok new
    obtain ⟨rfl, hcs⟩ := ih
    refine ⟨by simp only [List.length_cons]; congr 1; omega, ?_⟩
    rw [List.length_cons, List.range'_succ, ← hcs]

/-- Stocking a pool opens connections, whatever comes of it, and changes nothing else in the world. -/
theorem stocked {p : Pool Holder Nat} {now : Duration} {w : World δ}
    {x : Result Unit × Pool Holder Nat × World δ} (h : Pool.Stocked opener.on now p w x) :
    ∃ k, x.2.2 = { w with opened := w.opened + k } := by
  cases h with
  | full opens => exact ⟨_, (ho.opens opens).1⟩
  | failed opens new =>
    rename_i cs w₁ w' x p'
    obtain ⟨hw₁, -⟩ := ho.opens opens
    rcases ho w₁ with ⟨y, hy⟩ | hok
    · exact ⟨cs.length, (Prod.mk.inj (new.symm.trans hy)).2.trans hw₁⟩
    · cases (Prod.mk.inj (new.symm.trans hok)).1

end Numbers

theorem numbers_login : Numbers (login : Action (World δ) Nat) := on_login

theorem eq_of_login {w w' : World δ} {c : Nat} (h : login.on w = (.ok c, w')) :
    c = w.opened ∧ w' = { w with opened := w.opened + 1 } := numbers_login.eq_of_ok h

/-- What was opened is not opened again. -/
theorem login_ne {w : World δ} {c : Nat} (h : c < w.opened) (w' : World δ) :
    login.on w ≠ (.ok c, w') := by
  intro hlogin
  have heq := (eq_of_login hlogin).1
  omega

theorem world_taken {p : Pool Holder Nat} {who : Holder} {now : Duration} {w : World δ}
    {x : Result Unit × Pool Holder Nat × World δ} (h : Pool.Taken login.on who now p w x) :
    x.2.2 = w ∨ x.2.2 = { w with opened := w.opened + 1 } := numbers_login.taken h

theorem opens_login {w w' : World δ} {cs : List Nat} (h : Pool.Opens login.on w cs w') :
    w' = { w with opened := w.opened + cs.length } ∧ cs = List.range' w.opened cs.length :=
  numbers_login.opens h

namespace World

/-- The world of an engine has gone on.  Where connections have data of their own, the data of those
that are not open yet are as they were. -/
structure Grows (w w' : World δ) : Prop where
  place : w'.place = w.place
  opened : w.opened ≤ w'.opened
  fresh : w.place = .own → ∀ c, w'.opened ≤ c → w'.databases c = w.databases c

variable {w w' w'' : World δ}

theorem Grows.trans (h : Grows w w') (h' : Grows w' w'') : Grows w w'' where
  place := h'.place.trans h.place
  opened := Nat.le_trans h.opened h'.opened
  fresh hown c hc :=
    (h'.fresh (h.place.trans hown) c hc).trans (h.fresh hown c (Nat.le_trans h'.opened hc))

theorem grows_opened (w : World δ) (k : Nat) : w.Grows { w with opened := w.opened + k } :=
  ⟨rfl, Nat.le_add_right .., fun _ _ _ => rfl⟩

theorem Grows.refl (w : World δ) : w.Grows w := grows_opened w 0

theorem key_of_own (h : w.place = .own) (c : Nat) : w.key c = c := by
  unfold key
  rw [h]

theorem Spares.grows {c : Nat} (h : Spares c w w') (hc : c < w.opened) : w.Grows w' := by
  refine ⟨h.place, Nat.le_of_eq h.opened.symm, fun hown c' hc' => h.databases c' ?_⟩
  rw [h.opened] at hc'
  rw [key_of_own hown]
  omega

end World

/-! ## Soundness -/

/-- Some handle holds the connection. -/
def IsLent (e : Engine (World δ)) (c : Nat) : Prop :=
  ∃ n, ∃ q ∈ (e.pools n).parties, q.phase.conn? = some c

/-- The connections of an engine are in one place each and were all opened; only those that handles
hold are in transactions. -/
structure Sound (v : Vendor (World δ)) (e : Engine (World δ)) : Prop where
  orderly : e.Orderly v
  nodup : ∀ n, (e.pools n).conns.Nodup
  apart : ∀ n m c, c ∈ (e.pools n).conns → c ∈ (e.pools m).conns → n = m
  opened : ∀ n, ∀ c ∈ (e.pools n).conns, c < e.world.opened
  outside : ∀ c, ¬IsLent e c → e.world.stage c = none

variable {v : Vendor (World δ)} {e e' : Engine (World δ)}

theorem isLent_of_held {who : Holder} {c : Nat} (hc : e.held? who = some c) : IsLent e c := by
  obtain ⟨h, o, hh, ho, rfl⟩ := Engine.held?_eq_some_iff.1 hc
  obtain ⟨q, hq, -, hholding⟩ := Pool.exists_party_of_held ho
  refine ⟨h.pool, q, hq, ?_⟩
  rw [hholding]
  rfl

/-- A connection that a handle holds was opened. -/
theorem Sound.lt_opened (he : Sound v e) {who : Holder} {c : Nat} (hc : e.held? who = some c) :
    c < e.world.opened := by
  obtain ⟨n, q, hq, hqc⟩ := isLent_of_held hc
  exact he.opened n c (List.mem_append_right _ (List.mem_filterMap.2 ⟨q, hq, hqc⟩))

/-- No two handles hold the same connection. -/
theorem Sound.eq_of_held (he : Sound v e) {who who' : Holder} {c : Nat} (hc : e.held? who = some c)
    (hc' : e.held? who' = some c) : who = who' := by
  obtain ⟨h, o, -, ho, rfl⟩ := Engine.held?_eq_some_iff.1 hc
  obtain ⟨h', o', -, ho', hoo⟩ := Engine.held?_eq_some_iff.1 hc'
  obtain ⟨q, hq, rfl, hqo⟩ := Pool.exists_party_of_held ho
  obtain ⟨q', hq', rfl, hqo'⟩ := Pool.exists_party_of_held ho'
  have hconn : q.phase.conn? = some o.conn := by rw [hqo]; rfl
  have hconn' : q'.phase.conn? = some o.conn := by rw [hqo', ← hoo]; rfl
  have hpool : h'.pool = h.pool := he.apart _ _ o.conn
    (List.mem_append_right _ (List.mem_filterMap.2 ⟨q', hq', hconn'⟩))
    (List.mem_append_right _ (List.mem_filterMap.2 ⟨q, hq, hconn⟩))
  rw [hpool] at hq'
  -- In the one pool, no connection stands twice.
  have hapart := List.pairwise_filterMap.1 (List.nodup_append.1 (he.nodup h.pool)).2.1
  have hsymm : Std.Symm fun q q' : Pool.Party Holder Nat =>
      ∀ c, q.phase.conn? = some c → ∀ c', q'.phase.conn? = some c' → c ≠ c' :=
    ⟨fun _ _ h c hc c' hc' => (h c' hc' c hc).symm⟩
  by_cases hname : q.name = q'.name
  · exact hname
  · have hqq : q ≠ q' := fun heq => hname (congrArg _ heq)
    exact absurd rfl (hapart.forall hq hq' hqq _ hconn _ hconn')

/-- The engine has gone on.  It is sound, and its pools have got no connections but new ones. -/
structure Later (v : Vendor (World δ)) (e e' : Engine (World δ)) : Prop where
  sound : Sound v e'
  world : e.world.Grows e'.world
  conns : ∀ n, ∀ c ∈ (e'.pools n).conns, c ∈ (e.pools n).conns ∨ e.world.opened ≤ c

theorem Later.refl (he : Sound v e) : Later v e e := ⟨he, .refl _, fun _ _ hc => .inl hc⟩

theorem Later.trans {e'' : Engine (World δ)} (h : Later v e e') (h' : Later v e' e'') :
    Later v e e'' where
  sound := h'.sound
  world := h.world.trans h'.world
  conns n c hc := by
    rcases h'.conns n c hc with hc | hc
    · exact h.conns n c hc
    · exact .inr (Nat.le_trans h.world.opened hc)

/-- Connections that are new or were there before leave the engine sound. -/
theorem Sound.later_of_conns (he : Sound v e) (horderly : e'.Orderly v) {n : Nat}
    (hnodup : ∀ m, (e'.pools m).conns.Nodup)
    (hconns : ∀ m, ∀ c ∈ (e'.pools m).conns, c ∈ (e.pools m).conns ∨
      m = n ∧ e.world.opened ≤ c ∧ c < e'.world.opened)
    (hworld : e.world.Grows e'.world)
    (houtside : ∀ c, ¬IsLent e' c → e'.world.stage c = none) : Later v e e' := by
  refine ⟨⟨horderly, hnodup, fun m m' c hm hm' => ?_, fun m c hc => ?_, houtside⟩, hworld,
    fun m c hc => (hconns m c hc).imp_right fun h => h.2.1⟩
  · rcases hconns m c hm with hold | ⟨hn, hnew, -⟩ <;>
      rcases hconns m' c hm' with hold' | ⟨hn', hnew', -⟩
    · exact he.apart m m' c hold hold'
    · exact absurd (he.opened m c hold) (by omega)
    · exact absurd (he.opened m' c hold') (by omega)
    · rw [hn, hn']
  · rcases hconns m c hc with hold | ⟨-, -, hlt⟩
    · exact Nat.lt_of_lt_of_le (he.opened m c hold) hworld.opened
    · exact hlt

/-- So does one pool that has changed, if what it has is new or was there before. -/
theorem Sound.later_of_pool (he : Sound v e) (horderly : e'.Orderly v) {n : Nat}
    {p : Pool Holder Nat} (hpools : e'.pools = put e.pools n p) (hnodup : p.conns.Nodup)
    (hconns : ∀ c ∈ p.conns, c ∈ (e.pools n).conns ∨
      e.world.opened ≤ c ∧ c < e'.world.opened)
    (hworld : e.world.Grows e'.world)
    (houtside : ∀ c, ¬IsLent e' c → e'.world.stage c = none) : Later v e e' := by
  refine he.later_of_conns (n := n) horderly ?_ ?_ hworld houtside <;> rw [hpools]
  · exact forall_put (f := e.pools) (P := fun _ p => p.conns.Nodup) hnodup fun m _ => he.nodup m
  · exact forall_put (f := e.pools)
      (P := fun m p => ∀ c ∈ p.conns, c ∈ (e.pools m).conns ∨
        m = n ∧ e.world.opened ≤ c ∧ c < e'.world.opened)
      (fun c hc => (hconns c hc).imp_right fun h => ⟨rfl, h⟩) fun _ _ _ hc => .inl hc

/-- What is lent stays so where only one pool changes, if who holds it there still does. -/
theorem isLent_of_pool {n c : Nat} {p : Pool Holder Nat} (hpools : e'.pools = put e.pools n p)
    (hparties : ∀ q ∈ (e.pools n).parties, q.phase.conn? = some c → q ∈ p.parties)
    (hc : IsLent e c) : IsLent e' c := by
  obtain ⟨m, q, hq, hqc⟩ := hc
  refine ⟨m, q, ?_, hqc⟩
  rw [hpools]
  exact forall_put (f := e.pools) (P := fun m p => q ∈ (e.pools m).parties → q ∈ p.parties)
    (fun hq => hparties q hq hqc) (fun _ _ hq => hq) m hq

variable {lang : Language δ} {name : String} {config : PoolConfig} {opener : Action (World δ) Nat}

theorem spares_works {c : Nat} {w w' : World δ}
    (h : Engine.Works ((vendor lang name config).withLogin opener) c w w') : w.Spares c w' := by
  induction h with
  | idle => exact .refl c w
  | execute before sql params ih => exact ih.trans (World.spares_execute lang c sql params _)
  | fetch before sql params limit ih => exact ih.trans (World.spares_fetch lang c sql params limit _)

/-- Tidying a connection up ends its transaction. -/
theorem tidy_snd {tidy : Nat → Bool → World δ → Bool × World δ}
    (tidies : tidy = (vendor lang name config).giveBack ∨ tidy = (vendor lang name config).abandon)
    (c : Nat) (b : Bool) (w : World δ) : (tidy c b w).2 = w.abandon c := by
  rcases tidies with rfl | rfl <;> rfl

/-- A connection that is given back may be lent again. -/
theorem reusable_giveBack (c : Nat) (b : Bool) (w : World δ) :
    ((vendor lang name config).giveBack c b w).1 = true := giveBack_fst c b w

/-- What a step of a pool closes or leaves was there, if it opens nothing. -/
theorem conns_of_perm {l l' closed : List Nat} (h : (l' ++ closed).Perm l) (hl : l.Nodup) :
    l'.Nodup ∧ ∀ c ∈ l', c ∈ l :=
  ⟨(List.nodup_append.1 (h.nodup_iff.2 hl)).1, fun _ hc => h.subset (List.mem_append_left _ hc)⟩

theorem Sound.later_letGo (he : Sound ((vendor lang name config).withLogin opener) e) {who : Holder}
    {c : Nat} (held : e.held? who = some c) {tidy : Nat → Bool → World δ → Bool × World δ}
    (tidies : tidy = (vendor lang name config).giveBack ∨ tidy = (vendor lang name config).abandon) :
    Later ((vendor lang name config).withLogin opener) e (e.letGo tidy who) := by
  obtain ⟨h, o, hh, ho, hoc⟩ := Engine.held?_eq_some_iff.1 held
  have hresting := he.orderly.resting h.pool
  have hworld := Engine.world_letGo held tidy
  have hpools := Engine.pools_letGo hh held tidy
  rw [tidy_snd tidies] at hworld
  -- The pool of the handle loses the party, and the connection if it is not idle again.
  generalize (tidy c (e.isFlagged who) e.world).1 = reusable at hpools
  have hperm := (Pool.steps hresting.balanced.distinct (.release who reusable e.now)).perm
  simp only [Pool.opens, List.append_nil] at hperm
  obtain ⟨hnodup, hsub⟩ := conns_of_perm hperm (he.nodup h.pool)
  have hspares := World.spares_abandon e.world c
  refine he.later_of_pool (he.orderly.of_letGo held tidy) hpools hnodup (fun c' hc' => .inl (hsub c' hc'))
    ?_ fun c' hc' => ?_ <;> rw [hworld]
  · exact hspares.grows (he.lt_opened held)
  · by_cases hcc : c' = c
    · subst hcc
      exact Option.isNone_iff_eq_none.1 (World.isAutocommit_abandon e.world c')
    · rw [hspares.stage_eq hcc]
      refine he.outside c' fun hlent => hc' (isLent_of_pool hpools (fun q hq hqc => ?_) hlent)
      refine Pool.mem_parties_release hq ?_ reusable
      rintro rfl
      -- Otherwise the party is the handle, which holds the connection itself.
      have hparty := Pool.party?_of_mem hresting.balanced.distinct hq
      rw [Pool.held?, Pool.phase?_eq hparty] at ho
      cases hphase : q.phase <;> simp [hphase] at ho
      subst ho
      rw [hphase] at hqc
      exact hcc (Option.some.inj hqc.symm ▸ hoc)

/-- A connection that its pool does not take back is in no pool any more. -/
theorem Sound.not_mem_conns_letGo (he : Sound v e) {who : Holder} {h : Handle} {o : Pool.Opened Nat}
    (hh : e.handles who = some h) (ho : (e.pools h.pool).held? who = some o)
    {tidy : Nat → Bool → World δ → Bool × World δ}
    (hrefuses : (e.pools h.pool).refuses o (tidy o.conn (e.isFlagged who) e.world).1 e.now = true)
    (n : Nat) : o.conn ∉ ((e.letGo tidy who).pools n).conns := by
  have hc : e.held? who = some o.conn := Engine.held?_eq_some_iff.2 ⟨h, o, hh, ho, rfl⟩
  rw [Engine.pools_letGo hh hc]
  by_cases hn : n = h.pool
  · subst hn
    rw [put_self]
    exact Pool.not_mem_conns_release (he.orderly.resting h.pool).balanced (he.nodup h.pool) ho hrefuses
  · rw [put_of_ne _ _ hn]
    exact fun hmem => hn (he.apart _ _ _ hmem (Pool.mem_conns_of_held ho))

/-- What a handle is lent nobody else holds. -/
theorem Sound.not_isLent_of_taken (he : Sound (vendor lang name config) e) {n : Nat}
    {o : Pool.Opened Nat} {w : World δ}
    (h : o ∈ (e.pools n).idle ∨ login.on e.world = (.ok o.conn, w)) : ¬IsLent e o.conn := by
  rintro ⟨m, q, hq, hqo⟩
  have hlent : o.conn ∈ (e.pools m).parties.filterMap (·.phase.conn?) :=
    List.mem_filterMap.2 ⟨q, hq, hqo⟩
  have hm : o.conn ∈ (e.pools m).conns := List.mem_append_right _ hlent
  rcases h with hidle | hnew
  · have hidle : o.conn ∈ (e.pools n).idle.map (·.conn) := List.mem_map_of_mem hidle
    obtain rfl := he.apart n m o.conn (List.mem_append_left _ hidle) hm
    exact (List.nodup_append.1 (he.nodup n)).2.2 _ hidle _ hlent rfl
  · have hlt := he.opened m o.conn hm
    have heq := (eq_of_login hnew).1
    omega

theorem sound_new (lang : Language δ) (name : String) (config : PoolConfig) {w : World δ}
    (hw : ∀ c, w.stage c = none) :
    Sound (vendor lang name config) (Engine.new (vendor lang name config) w) where
  orderly := Engine.orderly_new _ w
  nodup _ := List.nodup_nil
  apart _ _ _ h := absurd h List.not_mem_nil
  opened _ _ h := absurd h List.not_mem_nil
  outside c _ := hw c

theorem Sound.later_take (he : Sound ((vendor lang name config).withLogin opener) e)
    (ho : Numbers opener) {who : Holder} {h : Handle} (handle : e.handles who = some h)
    (unheld : e.held? who = none) {x : Result Unit × Pool Holder Nat × World δ}
    (result : Pool.take opener.on who e.now (e.pools h.pool, e.world) = x) :
    Later ((vendor lang name config).withLogin opener) e
      { e with world := x.2.2, pools := put e.pools h.pool x.2.1 } := by
  have htaken : Pool.Taken opener.on who e.now (e.pools h.pool) e.world
      (Pool.take opener.on who e.now (e.pools h.pool, e.world)) := he.orderly.taken handle unheld
  rw [result] at htaken
  obtain ⟨closed, new, hperm, -, hnew⟩ := htaken.perm
  have hworld := ho.taken htaken
  have hfresh : ∀ c ∈ new, c = e.world.opened ∧ e.world.opened < x.2.2.opened := by
    intro c hc
    rcases hnew with rfl | ⟨c', rfl, hopened⟩
    · cases hc
    · obtain ⟨rfl, hw⟩ := ho.eq_of_ok hopened
      rw [hw]
      exact ⟨List.mem_singleton.1 hc, Nat.lt_succ_self _⟩
  have hall : ((e.pools h.pool).conns ++ new).Nodup := by
    refine List.nodup_append.2 ⟨he.nodup h.pool, ?_, fun c hc c' hc' => ?_⟩
    · rcases hnew with rfl | ⟨c', rfl, -⟩ <;> simp
    · have hlt := he.opened h.pool c hc
      have heq := (hfresh c' hc').1
      omega
  obtain ⟨hnodup, hsub⟩ := conns_of_perm hperm hall
  refine he.later_of_pool (he.orderly.move (.take handle unheld result)) rfl hnodup
    (fun c hc => ?_) ?_ fun c hc => ?_
  · rcases List.mem_append.1 (hsub c hc) with hold | hc
    · exact .inl hold
    · obtain ⟨rfl, hlt⟩ := hfresh c hc
      exact .inr ⟨Nat.le_refl _, hlt⟩
  · rcases hworld with hw | hw <;> rw [hw]
    · exact .refl _
    · exact World.grows_opened _ 1
  · have hstage : x.2.2.stage c = e.world.stage c := by
      rcases hworld with hw | hw <;> rw [hw]
      rfl
    refine hstage.trans (he.outside c fun hlent => hc (isLent_of_pool rfl (fun q hq _ => ?_) hlent))
    rcases htaken.parties_eq with ⟨-, hparties⟩ | ⟨-, o, hparties, -⟩ <;> rw [hparties]
    · exact hq
    · exact List.mem_append_left _ hq

theorem Sound.later_work (he : Sound ((vendor lang name config).withLogin opener) e) {who : Holder}
    {c : Nat} {h h' : Handle} {w : World δ} (handle : e.handles who = some h)
    (held : e.held? who = some c)
    (works : Engine.Works ((vendor lang name config).withLogin opener) c e.world w)
    (pool : h'.pool = h.pool) :
    Later ((vendor lang name config).withLogin opener) e
      { e with world := w, handles := put e.handles who (some h') } := by
  have hspares := spares_works works
  refine ⟨⟨he.orderly.remember handle pool w, he.nodup, he.apart, fun n c' hc' => ?_,
    fun c' hc' => ?_⟩, hspares.grows (he.lt_opened held), fun _ _ hc => .inl hc⟩
  · dsimp only
    rw [hspares.opened]
    exact he.opened n c' hc'
  · have hcc : c' ≠ c := by
      rintro rfl
      have hlent : IsLent e c' := isLent_of_held held
      exact hc' hlent
    exact (hspares.stage_eq hcc).trans (he.outside c' hc')

/-- What a connected engine has in its pool was opened just now. -/
theorem Sound.later_connect (he : Sound v e) (ho : Numbers v.login) (unconnected : e.current = none)
    {pool : Pool Holder Nat} {w : World δ}
    (result : Pool.warm v.login.on .engine e.now (Pool.new v.config v.keeps, e.world) =
      (.ok (), pool, w)) :
    Later v e { e with
      world := w
      pools := put e.pools e.opened pool
      opened := e.opened + 1
      current := some e.opened } := by
  have horderly := he.orderly.move (.connect unconnected result)
  have hstocked := Engine.stocked_connect v e
  rw [result] at hstocked
  obtain ⟨cs, hopens, -, rfl⟩ := hstocked.exists_opened
  obtain ⟨rfl, hcs⟩ := ho.opens hopens
  have hconns : ({ Pool.new v.config v.keeps with
      idle := cs.map fun c => ⟨c, e.now⟩, size := cs.length } : Pool Holder Nat).conns =
        List.range' e.world.opened cs.length := by
    rw [← hcs]
    simp [Pool.conns, Pool.new, Function.comp_def]
  refine he.later_of_pool horderly rfl ?_ (fun c hc => .inr ?_) (World.grows_opened ..) fun c hc => ?_
  · rw [hconns]
    exact List.nodup_range'
  · rw [hconns] at hc
    exact List.mem_range'_1.1 hc
  · refine he.outside c fun hlent => hc (isLent_of_pool rfl (fun q hq _ => ?_) hlent)
    -- Nobody was at a pool that is new.
    rw [he.orderly.fresh e.opened (Nat.le_refl _)] at hq
    cases hq

/-- Without its pool, the engine keeps what handles hold. -/
theorem Sound.later_disconnect (he : Sound v e) {n : Nat} (current : e.current = some n) :
    Later v e { (e.onPool n .close).onPool n .shut with current := none } := by
  have hend := (he.orderly.resting n).conns_end
  refine he.later_of_pool (he.orderly.of_disconnect current) (Engine.pools_disconnect e n) ?_
    (fun c hc => .inl ?_) (.refl _) fun c hc => ?_
  · rw [hend]
    exact (List.sublist_append_right ..).nodup (he.nodup n)
  · rw [hend] at hc
    exact List.mem_append_right _ hc
  · refine he.outside c fun ⟨m, q, hq, hqc⟩ => hc ⟨m, q, ?_, hqc⟩
    rwa [← he.orderly.parties_disconnect n m] at hq

/-- Every move keeps the engine sound. -/
theorem Sound.move (he : Sound ((vendor lang name config).withLogin opener) e) (ho : Numbers opener)
    (h : Engine.Move ((vendor lang name config).withLogin opener) e e') :
    Later ((vendor lang name config).withLogin opener) e e' := by
  have horderly := he.orderly.move h
  cases h with
  | pass now | forget unheld | make current none =>
    exact ⟨⟨horderly, he.nodup, he.apart, he.opened, he.outside⟩, .refl _, fun _ _ hc => .inl hc⟩
  | letGo held tidies => exact he.later_letGo held tidies
  | work handle held works pool => exact he.later_work handle held works pool
  | take handle unheld result => exact he.later_take ho handle unheld result
  | connect unconnected result => exact he.later_connect ho unconnected result
  | fail unconnected result =>
    have hstocked := Engine.stocked_connect ((vendor lang name config).withLogin opener) e
    rw [result] at hstocked
    obtain ⟨k, rfl⟩ := ho.stocked hstocked
    exact ⟨⟨horderly, he.nodup, he.apart,
      fun m c hc => Nat.lt_of_lt_of_le (he.opened m c hc) (Nat.le_add_right ..), he.outside⟩,
      World.grows_opened .., fun _ _ hc => .inl hc⟩
  | disconnect current => exact he.later_disconnect current

theorem Sound.reaches_of (he : Sound ((vendor lang name config).withLogin opener) e)
    (ho : Numbers opener) (h : Engine.Reaches ((vendor lang name config).withLogin opener) e e') :
    Later ((vendor lang name config).withLogin opener) e e' := by
  induction h with
  | refl => exact .refl he
  | tail _ move ih => exact ih.trans (ih.sound.move ho move)

theorem Sound.reaches (he : Sound (vendor lang name config) e)
    (h : Engine.Reaches (vendor lang name config) e e') : Later (vendor lang name config) e e' := by
  have he : Sound ((vendor lang name config).withLogin login) e := he
  exact he.reaches_of numbers_login h

/-- Whatever it is asked for, an engine stays sound. -/
theorem sound_run (he : Sound (vendor lang name config) e) (ops : List Engine.Op) :
    Sound (vendor lang name config) (e.run (vendor lang name config) ops) :=
  (he.reaches (Engine.reaches_run e ops)).sound

end SqlKit.Sqlite
