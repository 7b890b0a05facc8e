import Mathlib.Data.List.Induction
import SqlKit.Proofs.Builder.Coherence

/-!
# What calls ask of a statement

Most calls ask something of the statement under way: a source, a condition, a row, a limit.  All of it
is kept in the statement, whatever the statement's kind may write of it later.  A later demand takes the
place of an earlier one where there is room for one only: a limit, an offset, a query whose rows are
inserted, and a window of each name.

    a demand goes to its slot, and leaves the others alone             (inSlot_put)
    what a call asks for is put to what was there                      (held_edits, demands_restricts)
    a statement keeps what its calls ask for                           (keeps_run)
-/

namespace SqlKit

/-! ## Demands -/

/-- One thing that is asked of a statement. -/
inductive Demand where
  | source (s : Source)
  | join (kind : JoinKind) (source : Source)
  /-- A condition of the last join. -/
  | on (c : Condition)
  | condition (c : Condition)
  | group (e : Expr)
  | window (w : WindowDef)
  | order (o : OrderItem)
  | limit (n : Nat)
  | offset (n : Nat)
  | row (values : List Value)
  /-- A query whose rows are inserted. -/
  | query (q : Statement)

/-- Where a statement keeps what is asked of it. -/
inductive Slot where
  | source | join | condition | group | window | order | limit | offset | row | query
deriving DecidableEq

namespace Demand

def slot : Demand → Slot
  | source _ => .source
  | join _ _ | on _ => .join
  | condition _ => .condition
  | group _ => .group
  | window _ => .window
  | order _ => .order
  | limit _ => .limit
  | offset _ => .offset
  | row _ => .row
  | query _ => .query

/-- What a demand contributes to a statement that writes it. -/
def draft : Demand → Draft
  | source s => s.draft
  | join kind s => .text (kind.sql ++ " ") ++ s.draft
  | on c | condition c => c.draft
  | group e => e.draft
  | window w => w.draft
  | order o => o.draft
  | limit n => .text (" LIMIT " ++ Digits.text n)
  | offset n => .text (" OFFSET " ++ Digits.text n)
  | row values => .paren (boundList values)
  | query q => q.draft

/-- The demand takes the place of another. -/
def replaces : Demand → Demand → Bool
  | limit _, limit _ | offset _, offset _ | query _, query _ => true
  | window w, window v => v.name = w.name
  | _, _ => false

/-- Puts a demand in the place of the one that it replaces, or behind the others. -/
def put (d : Demand) : List Demand → List Demand
  | [] => [d]
  | e :: es => if d.replaces e then d :: es else e :: put d es

/-- Puts demands one after another. -/
def putAll (ds es : List Demand) : List Demand := es.foldl (fun ds e => e.put ds) ds

/-- The demands of a slot. -/
def inSlot (k : Slot) (ds : List Demand) : List Demand := ds.filter fun d => d.slot = k

end Demand

/-- A join with the conditions asked of it, which grow together one by one. -/
structure Joining where
  kind : JoinKind
  source : Source
  conditions : List Condition

namespace Joining

def join (j : Joining) : Join :=
  ⟨j.kind, j.source, j.conditions.foldl (fun on c => some (Builder.conjoin on c)) none⟩

def demands (j : Joining) : List Demand := .join j.kind j.source :: j.conditions.map .on

end Joining

/-- Joins are as demands say. -/
def AsDemanded (js : List Join) (ds : List Demand) : Prop :=
  ∃ gs : List Joining, js = gs.map Joining.join ∧ ds = gs.flatMap Joining.demands

namespace Builder

/-- What a call asks for. -/
def Step.demands : Step → List Demand
  | .addSource s => [.source s]
  | .addSources ss => ss.map .source
  | .join kind s => [.join kind s]
  | .on p => p.condition?.toOption.toList.map .on
  | .where p | .and p => p.condition?.toOption.toList.map .condition
  | .groupBy es => es.map .group
  | .window name spec => [.window ⟨name, spec⟩]
  | .orderBy os => os.map .order
  | .limit n => [.limit n]
  | .offset n => [.offset n]
  | .limitOffset n m => [.limit n, .offset m]
  | .values rows => rows.map .row
  | .insertFrom q => [.query q]
  | _ => []

/-- What stands of all that calls ask for. -/
def demanded (calls : List Step) : List Demand := Demand.putAll [] (calls.flatMap Step.demands)

end Builder

namespace Statement

/-- What a statement holds in a slot, but for joins, whose conditions it has grown together. -/
def held (t : Statement) : Slot → List Demand
  | .source => t.sources.map .source
  | .join => []
  | .condition => t.wheres.map .condition
  | .group => t.groups.map .group
  | .window => t.windows.map .window
  | .order => t.orders.map .order
  | .limit => t.limit.toList.map .limit
  | .offset => t.offset.toList.map .offset
  | .row => t.insertRows.map .row
  | .query => t.insertQuery.toList.map .query

/-- A statement keeps what is asked of it.  Sources that it was not given it may have from its
columns. -/
structure Keeps (t : Statement) (ds : List Demand) : Prop where
  sources : t.held .source = Demand.inSlot .source ds ∨
    t.kind = .select ∧ Demand.inSlot .source ds = []
  joins : AsDemanded t.joins (Demand.inSlot .join ds)
  others : ∀ k, k ≠ .source → k ≠ .join → t.held k = Demand.inSlot k ds

end Statement

/-! ## Demands and their slots -/

namespace Demand

variable {d e : Demand} {ds es : List Demand} {k : Slot}

/-- A demand takes the place of one of its own slot only. -/
theorem slot_of_replaces (h : d.replaces e = true) : d.slot = e.slot := by
  cases d <;> cases e <;> first | rfl | cases h

theorem put_of_forall (h : ∀ e ∈ ds, d.replaces e = false) : d.put ds = ds ++ [d] := by
  induction ds with
  | nil => rfl
  | cons e es ih =>
    have he : d.replaces e = false := h e (by simp)
    rw [put, he, if_neg Bool.false_ne_true, ih fun x hx => h x (by simp [hx])]
    rfl

theorem putAll_append (ds es fs : List Demand) : putAll ds (es ++ fs) = putAll (putAll ds es) fs :=
  List.foldl_append

/-- Demands that never take a place are put behind the others. -/
theorem putAll_of_forall (h : ∀ e ∈ es, ∀ d, e.replaces d = false) : putAll ds es = ds ++ es := by
  induction es generalizing ds with
  | nil => exact (List.append_nil ds).symm
  | cons e es ih =>
    have hput : e.put ds = ds ++ [e] := put_of_forall fun d _ => h e (by simp) d
    show putAll (e.put ds) es = _
    rw [hput, ih fun x hx => h x (by simp [hx]), List.append_assoc]
    rfl

@[simp] theorem inSlot_nil (k : Slot) : inSlot k [] = [] := rfl

theorem inSlot_append (k : Slot) (ds es : List Demand) :
    inSlot k (ds ++ es) = inSlot k ds ++ inSlot k es := List.filter_append ds es

theorem inSlot_put (k : Slot) (d : Demand) (ds : List Demand) :
    inSlot k (d.put ds) = if d.slot = k then d.put (inSlot k ds) else inSlot k ds := by
  unfold inSlot
  induction ds with
  | nil =>
    rw [put, List.filter_singleton]
    by_cases hd : d.slot = k <;> simp [hd, put]
  | cons e es ih =>
    rw [put]
    by_cases hreplaces : d.replaces e = true
    · have hslot := slot_of_replaces hreplaces
      rw [if_pos hreplaces]
      by_cases hd : d.slot = k
      · have he : e.slot = k := hslot ▸ hd
        simp [hd, he, put, hreplaces]
      · have he : ¬e.slot = k := hslot ▸ hd
        simp [hd, he]
    · rw [if_neg hreplaces, List.filter_cons, List.filter_cons, ih]
      by_cases hd : d.slot = k
      · by_cases he : e.slot = k <;> simp [hd, he, put, hreplaces]
      · by_cases he : e.slot = k <;> simp [hd, he]

theorem inSlot_putAll (k : Slot) (ds es : List Demand) :
    inSlot k (putAll ds es) = putAll (inSlot k ds) (inSlot k es) := by
  induction es generalizing ds with
  | nil => rfl
  | cons e es ih =>
    show inSlot k (putAll (e.put ds) es) = _
    rw [ih, inSlot_put]
    unfold inSlot
    rw [List.filter_cons]
    by_cases he : e.slot = k <;> simp [he, putAll]

theorem inSlot_inSlot (k l : Slot) (ds : List Demand) :
    inSlot k (inSlot l ds) = if k = l then inSlot k ds else [] := by
  unfold inSlot
  rw [List.filter_filter]
  by_cases h : k = l
  · subst h
    simp
  · rw [if_neg h, List.filter_eq_nil_iff]
    intro d _ hd
    simp only [Bool.and_eq_true, decide_eq_true_eq] at hd
    exact h (hd.1.symm.trans hd.2)

section

variable {α : Type} {f : α → Demand}

theorem inSlot_map (hf : ∀ a, (f a).slot = k) (l : List α) : inSlot k (l.map f) = l.map f := by
  refine List.filter_eq_self.mpr fun d hd => ?_
  obtain ⟨a, -, rfl⟩ := List.mem_map.mp hd
  exact decide_eq_true (hf a)

theorem inSlot_map_of_ne (hf : ∀ a, (f a).slot ≠ k) (l : List α) : inSlot k (l.map f) = [] := by
  refine List.filter_eq_nil_iff.mpr fun d hd => ?_
  obtain ⟨a, -, rfl⟩ := List.mem_map.mp hd
  simpa using hf a

/-- Items are put behind those that are there. -/
theorem map_append_eq_putAll (hslot : ∀ a, (f a).slot = k) (hf : ∀ a d, (f a).replaces d = false)
    (l m : List α) : (l ++ m).map f = putAll (l.map f) (inSlot k (m.map f)) := by
  have hall : ∀ e ∈ m.map f, ∀ d, e.replaces d = false := by
    intro e he d
    obtain ⟨a, -, rfl⟩ := List.mem_map.mp he
    exact hf a d
  rw [inSlot_map hslot, putAll_of_forall hall, List.map_append]

/-- Where there is room for one, the last one has it. -/
theorem toList_eq_putAll (hf : ∀ a b, (f a).replaces (f b) = true) (o : Option α) (a : α) :
    (some a).toList.map f = putAll (o.toList.map f) [f a] := by
  cases o with
  | none => rfl
  | some b =>
    show [f a] = (f a).put [f b]
    rw [put, if_pos (hf a b)]

end

theorem map_putWindow (w : WindowDef) (ws : List WindowDef) :
    (Statement.putWindow w ws).map window = (window w).put (ws.map window) := by
  induction ws with
  | nil => rfl
  | cons v ws ih =>
    rw [Statement.putWindow, List.map_cons, put]
    by_cases hname : v.name = w.name
    · simp [hname, replaces]
    · simp [hname, replaces, ih]

end Demand

namespace Builder

open Demand

variable {b b' : Builder} {s : Step} {c : Clause} {t t' : Statement} {calls : List Step}

theorem demanded_append (calls : List Step) (s : Step) :
    demanded (calls ++ [s]) = putAll (demanded calls) s.demands := by
  rw [demanded, demanded, List.flatMap_append, List.flatMap_singleton, putAll_append]

theorem inSlot_demanded_append (k : Slot) (calls : List Step) (s : Step) :
    inSlot k (demanded (calls ++ [s])) = putAll (inSlot k (demanded calls)) (inSlot k s.demands) := by
  rw [demanded_append, inSlot_putAll]

/-! ## Call by call -/

/-- What a call that keeps to its statement asks for is put to what was there. -/
theorem held_edits (h : Edits t s c t') {k : Slot} (hk : k ≠ .join) :
    t'.held k = putAll (t.held k) (inSlot k s.demands) := by
  cases h with
  | groupBy items =>
    cases k with
    | group => exact map_append_eq_putAll (f := Demand.group) (fun _ => rfl) (fun _ _ => rfl) ..
    | _ =>
      rw [Step.demands, inSlot_map_of_ne nofun]
      rfl
  | orderBy items =>
    cases k with
    | order => exact map_append_eq_putAll (f := Demand.order) (fun _ => rfl) (fun _ _ => rfl) ..
    | _ =>
      rw [Step.demands, inSlot_map_of_ne nofun]
      rfl
  | values kind filled width =>
    cases k with
    | row => exact map_append_eq_putAll (f := Demand.row) (fun _ => rfl) (fun _ _ => rfl) ..
    | _ =>
      rw [Step.demands, inSlot_map_of_ne nofun]
      rfl
  | on condition last kind =>
    have hnone := inSlot_map_of_ne (f := Demand.on) (fun _ => hk.symm)
    rw [Step.demands, hnone]
    cases k <;> rfl
  | join kind source =>
    cases k <;> first | rfl | exact absurd rfl hk
  | limit n =>
    cases k with
    | limit => exact toList_eq_putAll (fun _ _ => rfl) ..
    | _ => rfl
  | offset n =>
    cases k with
    | offset => exact toList_eq_putAll (fun _ _ => rfl) ..
    | _ => rfl
  | limitOffset n m =>
    cases k with
    | limit => exact toList_eq_putAll (fun _ _ => rfl) ..
    | offset => exact toList_eq_putAll (fun _ _ => rfl) ..
    | _ => rfl
  | insertFrom kind =>
    cases k with
    | query => exact toList_eq_putAll (fun _ _ => rfl) ..
    | _ => rfl
  | window name spec =>
    cases k with
    | window => exact map_putWindow ..
    | _ => rfl
  | returning _ | addCte _ _ | onConflict _ | set _ _ => cases k <;> rfl

/-- A condition goes to the last join. -/
theorem asDemanded_on {js : List Join} {ds : List Demand} (h : AsDemanded js ds) {j : Join}
    (hj : js.getLast? = some j) (w : Condition) :
    AsDemanded (js.dropLast ++ [{ j with on := some (conjoin j.on w) }]) (ds ++ [.on w]) := by
  obtain ⟨gs, rfl, rfl⟩ := h
  induction gs using List.reverseRecOn with
  | nil => cases hj
  | append_singleton gs g =>
    rw [List.map_append, List.map_singleton, List.getLast?_concat] at hj
    obtain rfl := Option.some.inj hj
    refine ⟨gs ++ [{ g with conditions := g.conditions ++ [w] }], ?_, ?_⟩
    · simp [Joining.join]
    · simp [Joining.demands]

theorem joins_edits {ds : List Demand} (h : Edits t s c t') (ht : AsDemanded t.joins ds) :
    AsDemanded t'.joins (ds ++ inSlot .join s.demands) := by
  cases h with
  | join kind source =>
    obtain ⟨gs, hjoins, rfl⟩ := ht
    refine ⟨gs ++ [⟨kind, source, []⟩], ?_, ?_⟩
    · rw [hjoins, List.map_append]
      rfl
    · rw [List.flatMap_append]
      rfl
  | @on p w j condition last kind =>
    rw [Step.demands, condition]
    exact asDemanded_on ht last w
  | groupBy items | orderBy items | values kind filled width =>
    rw [Step.demands, inSlot_map_of_ne nofun, List.append_nil]
    exact ht
  | _ =>
    rw [show inSlot Slot.join _ = [] from rfl, List.append_nil]
    exact ht

theorem demands_names {sources : List Source} (h : Names s sources) :
    s.demands = sources.map .source := by
  cases h <;> rfl

theorem demands_restricts {w : Condition} (h : Restricts s c w) : s.demands = [.condition w] := by
  cases h with
  | «where» condition | and condition =>
    rw [Step.demands, condition]
    rfl

theorem demands_selects {items : List Expr} {distinct : Bool} (h : Selects s items distinct) :
    s.demands = [] := by
  cases h <;> rfl

/-- What a call that opens a statement leaves as it was. -/
theorem demands_opens (h : Opens t s c t') :
    s.demands = [] ∧ t'.joins = t.joins ∧ t'.sources = t.sources ∧ ∀ k, t'.held k = t.held k := by
  cases h <;> exact ⟨rfl, rfl, rfl, fun k => by cases k <;> rfl⟩

/-- The statement under way keeps what its calls ask for; it has its sources from its columns only if it
was not given any. -/
structure Serves (b : Builder) (calls : List Step) : Prop where
  coherent : b.statement.Coherent
  joins : AsDemanded b.statement.joins (inSlot .join (demanded calls))
  others : ∀ k, k ≠ .source → k ≠ .join → b.statement.held k = inSlot k (demanded calls)
  given : b.fromImplied = false → b.statement.held .source = inSlot .source (demanded calls)
  implied : b.fromImplied = true →
    b.statement.kind = .select ∧ b.statement.sources ≠ [] ∧ inSlot .source (demanded calls) = []

theorem serves_empty (hstatement : b.statement = .empty) (hflag : b.fromImplied = false) :
    Serves b [] := by
  refine ⟨hstatement ▸ Statement.coherent_empty, ?_, fun k _ _ => ?_, fun _ => ?_, fun h => ?_⟩
  · rw [hstatement]
    exact ⟨[], rfl, rfl⟩
  · rw [hstatement]
    cases k <;> rfl
  · rw [hstatement]
    rfl
  · rw [hflag] at h
    cases h

theorem Serves.settle (h : Serves b calls) : Serves b.settle calls := by
  have hcoherent := coherent_settle h.coherent
  rw [settle_eq] at hcoherent ⊢
  by_cases hfresh : b.freshSources = []
  · rw [if_pos hfresh]
    exact h
  · rw [if_neg hfresh] at hcoherent ⊢
    obtain ⟨hkind, hfree, -⟩ := freshSources_of_ne_nil hfresh
    refine ⟨hcoherent, h.joins, fun k hsource hjoin => ?_, nofun, fun _ => ⟨hkind, hfresh, ?_⟩⟩
    · rw [← h.others k hsource hjoin]
      cases k <;> first | rfl | contradiction
    · cases hflag : b.fromImplied with
      | true => exact (h.implied hflag).2.2
      | false =>
        have hnone : b.statement.sources = [] := by simpa [hflag] using hfree
        rw [← h.given hflag, Statement.held, hnone]
        rfl

/-- A call that asks for things to be put to what is there, or for sources. -/
theorem Serves.next (h : Serves b calls) (hcoherent : b'.statement.Coherent)
    (hjoins : AsDemanded b'.statement.joins (inSlot .join (demanded calls) ++ inSlot .join s.demands))
    (hothers : ∀ k, k ≠ .source → k ≠ .join →
      b'.statement.held k = putAll (b.statement.held k) (inSlot k s.demands))
    (hsources : b'.fromImplied = b.fromImplied ∧ inSlot .source s.demands = [] ∧
        b'.statement.sources = b.statement.sources ∧
        (b.fromImplied = true → b'.statement.kind = b.statement.kind) ∨
      b'.fromImplied = false ∧
        b'.statement.held .source = inSlot .source (demanded calls) ++ inSlot .source s.demands) :
    Serves b' (calls ++ [s]) := by
  have hbehind (k : Slot) (hk : k = .source ∨ k = .join) : inSlot k (demanded (calls ++ [s])) =
      inSlot k (demanded calls) ++ inSlot k s.demands := by
    rw [inSlot_demanded_append, putAll_of_forall]
    intro e he d
    have hslot : e.slot = k := by simpa using (List.mem_filter.mp he).2
    cases e <;> first | rfl | (rcases hk with rfl | rfl <;> cases hslot)
  refine ⟨hcoherent, ?_, fun k hsource hjoin => ?_, fun hflag => ?_, fun hflag => ?_⟩
  · rw [hbehind .join (.inr rfl)]
    exact hjoins
  · rw [inSlot_demanded_append, ← h.others k hsource hjoin]
    exact hothers k hsource hjoin
  · rw [hbehind .source (.inl rfl)]
    rcases hsources with ⟨hsame, hnone, hleft, -⟩ | ⟨-, hheld⟩
    · rw [hnone, List.append_nil, ← h.given (hsame.symm.trans hflag), Statement.held, hleft]
      rfl
    · exact hheld
  · rcases hsources with ⟨hsame, hnone, hleft, hkind⟩ | ⟨hnot, -⟩
    · have hbefore : b.fromImplied = true := hsame.symm.trans hflag
      obtain ⟨hselect, hfilled, hgiven⟩ := h.implied hbefore
      refine ⟨(hkind hbefore).trans hselect, hleft ▸ hfilled, ?_⟩
      rw [hbehind .source (.inl rfl), hgiven, hnone]
      rfl
    · rw [hnot] at hflag
      cases hflag

/-- A call that asks for nothing and leaves what is kept as it is. -/
theorem Serves.silent (h : Serves b calls) (hcoherent : b'.statement.Coherent)
    (hnone : s.demands = []) (hjoins : b'.statement.joins = b.statement.joins)
    (hheld : ∀ k, b'.statement.held k = b.statement.held k)
    (hsources : b'.fromImplied = b.fromImplied ∧ b'.statement.sources = b.statement.sources ∧
      (b.fromImplied = true → b'.statement.kind = b.statement.kind)) : Serves b' (calls ++ [s]) := by
  refine h.next hcoherent ?_ (fun k _ _ => ?_)
    (.inl ⟨hsources.1, by rw [hnone]; rfl, hsources.2⟩)
  · rw [hnone, hjoins, inSlot_nil, List.append_nil]
    exact h.joins
  · rw [hnone]
    exact hheld k

theorem leaves_edits (h : Edits t s c t') :
    inSlot .source s.demands = [] ∧ t'.sources = t.sources ∧ t'.kind = t.kind := by
  cases h with
  | on _ _ _ | groupBy items | orderBy items | values _ _ _ =>
    exact ⟨inSlot_map_of_ne nofun _, rfl, rfl⟩
  | _ => exact ⟨rfl, rfl, rfl⟩

/-- Sources that are given stand behind those given before. -/
theorem serves_names {sources : List Source} (h : Names s sources) (hb : Serves b calls)
    (hcoherent : b'.statement.Coherent)
    (hb' : b' = (b.step .from).dropImplied.modify fun t => { t with sources := t.sources ++ sources }) :
    Serves b' (calls ++ [s]) := by
  have hgiven : b'.fromImplied = false ∧
      b'.statement.held .source = inSlot .source (demanded calls) ++ sources.map .source := by
    subst hb'
    unfold dropImplied
    cases hflag : b.fromImplied with
    | true =>
      rw [if_pos (show (b.step .from).fromImplied = true from hflag), (hb.implied hflag).2.2]
      exact ⟨rfl, rfl⟩
    | false =>
      rw [if_neg (show ¬(b.step .from).fromImplied = true by simp [step, hflag]), ← hb.given hflag]
      exact ⟨hflag, List.map_append⟩
  have hleft : b'.statement.joins = b.statement.joins ∧
      ∀ k, k ≠ .source → b'.statement.held k = b.statement.held k := by
    subst hb'
    unfold dropImplied
    split <;> exact ⟨rfl, fun k hk => by cases k <;> first | rfl | contradiction⟩
  have hdemands := demands_names h
  refine hb.next hcoherent ?_ (fun k hsource _ => ?_) (.inr ⟨hgiven.1, ?_⟩)
  · rw [hdemands, inSlot_map_of_ne nofun, List.append_nil, hleft.1]
    exact hb.joins
  · rw [hdemands, inSlot_map_of_ne (f := Demand.source) fun _ => hsource.symm]
    exact hleft.2 k hsource
  · rw [hdemands, inSlot_map (f := Demand.source) fun _ => rfl]
    exact hgiven.2

/-- Whatever call is accepted, the statement keeps what its calls ask for. -/
theorem serves_acts (h : b.Acts s b') (hb : Serves b calls) : Serves b' (calls ++ [s]) := by
  have hcoherent := coherent_acts h hb.coherent
  cases h with
  | strict on | as name => exact hb.silent hcoherent rfl rfl (fun _ => rfl) ⟨rfl, rfl, fun _ => rfl⟩
  | edits edits =>
    obtain ⟨hnone, hsources, hkind⟩ := leaves_edits edits
    exact hb.next hcoherent (joins_edits edits hb.joins) (fun k _ hjoin => held_edits edits hjoin)
      (.inl ⟨rfl, hnone, hsources, fun _ => hkind⟩)
  | names names => exact serves_names names hb hcoherent rfl
  | restricts restricts =>
    have hdemands := demands_restricts restricts
    have hkept := hb.coherent
    refine Serves.settle (hb.next ⟨hkept.kind, hkept.windows, hkept.cross, hkept.insert, hkept.update,
      hkept.delete⟩ ?_ (fun k _ _ => ?_) (.inl ⟨rfl, ?_, rfl, fun _ => rfl⟩))
    · rw [hdemands, show inSlot Slot.join [Demand.condition _] = [] from rfl, List.append_nil]
      exact hb.joins
    · rw [hdemands]
      cases k with
      | condition => exact map_append_eq_putAll (f := Demand.condition) (fun _ => rfl) (fun _ _ => rfl) ..
      | _ => rfl
    · rw [hdemands]
      rfl
  | selects selects clean =>
    have hkind := (eq_of_isDirty_eq_false clean).1
    exact hb.silent hcoherent (demands_selects selects) rfl (fun k => by cases k <;> rfl)
      ⟨rfl, rfl, fun _ => hkind.symm⟩
  | opens opens clean =>
    obtain ⟨hnone, hjoins, hsources, hheld⟩ := demands_opens opens
    have hunsourced := (eq_of_isDirty_eq_false clean).2.2
    exact hb.silent hcoherent hnone hjoins hheld
      ⟨rfl, hsources, fun hflag => absurd hunsourced (hb.implied hflag).2.1⟩

theorem Serves.keeps (h : Serves b calls) : b.statement.Keeps (demanded calls) := by
  refine ⟨?_, h.joins, h.others⟩
  cases hflag : b.fromImplied with
  | true =>
    obtain ⟨hkind, -, hnone⟩ := h.implied hflag
    exact .inr ⟨hkind, hnone⟩
  | false => exact .inl (h.given hflag)

/-- **Statements keep what they are asked for.**  Whatever is called, each statement of a run keeps what
stands of the demands of its calls, and is coherent. -/
theorem keeps_run (d : Dialect) (steps : List Step) :
    List.Forall₂ (fun calls t => t.Keeps (demanded calls) ∧ t.Coherent) (callsOf d steps)
      ((Builder.new d).run steps).statements :=
  calls_induction (P := Serves)
    (fun _ => serves_empty rfl rfl)
    (fun _ _ h => ⟨h.settle.keeps, h.settle.coherent⟩)
    (fun _ _ _ => serves_empty rfl rfl)
    (fun _ _ _ _ hb h => serves_acts h hb)
    d steps

end Builder

end SqlKit
