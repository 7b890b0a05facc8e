import SqlKit.Proofs.Calendar.Texts
import SqlKit.Proofs.Engine.Runs
import SqlKit.Proofs.Sqlite.Sessions
import SqlKit.Sqlite.Tables
import SqlKit.Sqlite.Vendor

/-!
# Values in storage

A value that is bound as a parameter becomes a datum, and a datum becomes a value again in the row
that is read.  Kinds without a datum of their own are stored as their text or as a number, so they
come back only because the reader of their type understands that form.

    Uuid.parse? u.text = some u                                        (Uuid.parse?_text)
    a bound value is read back as x ↔ its datum is read as x           (readsBack_iff)
    all come back but a float that is no number                        (stored_values_come_back)
-/

namespace SqlKit

/-! ## Identifiers -/

theorem Digits.length_hexOf (b : Bytes) : (Digits.hexOf b).length = 2 * b.length := by
  simp [Digits.hexOf, Digits.hexPair, List.length_flatMap, Nat.mul_comm]

namespace Uuid

theorem length_hyphenate {ds : List Char} (h : ds.length = 32) : (hyphenate ds).length = 36 := by
  simp [hyphenate, h]

/-- The five groups of digits make up all of them. -/
theorem groups_append (ds : List Char) :
    ds.take 8 ++ ((ds.drop 8).take 4 ++ ((ds.drop 12).take 4 ++
      ((ds.drop 16).take 4 ++ ds.drop 20))) = ds := by
  have hgroup (k : Nat) : (ds.drop k).take 4 ++ ds.drop (k + 4) = ds.drop k := by
    rw [← List.drop_drop, List.take_append_drop]
  simp only [hgroup, List.take_append_drop]

/-- The hyphens come out where they were put in. -/
theorem unhyphenate?_hyphenate {ds : List Char} (h : ds.length = 32) :
    unhyphenate? (hyphenate ds) = some ds := by
  have hgroups : (hyphenate ds).take 8 ++ ((hyphenate ds).drop 9).take 4 ++
      ((hyphenate ds).drop 14).take 4 ++ ((hyphenate ds).drop 19).take 4 ++
      (hyphenate ds).drop 24 = ds := by
    simp [hyphenate, List.drop_append, List.drop_take, h, groups_append]
  simp only [unhyphenate?, hgroups]
  rw [if_pos ⟨length_hyphenate h, trivial⟩]

/-- Every identifier is read back from its text. -/
theorem parse?_text (u : Uuid) : parse? u.text = some u := by
  have hdigits : (Digits.hexOf u.bytes).length = 32 := by
    rw [Digits.length_hexOf, u.length_eq]
  have hlength := length_hyphenate hdigits
  simp only [parse?, text, String.toList_ofList, hlength]
  simp [unhyphenate?_hyphenate hdigits, ofDigits?, Digits.hexBytes?_hexOf, ofBytes?, u.length_eq]

end Uuid

namespace Sqlite

open Calendar

/-! ## Selecting a parameter -/

/-- A row with the parameter in it. -/
def echo : String := "SELECT ? AS c"

/-- Whatever the tables hold, the row of a bound value is the datum that it is stored as. -/
theorem meaning_echo (ts : Tables) (v : Value) :
    Tables.language.meaning ts echo [v] = .ok (["c"], .give [[Datum.ofValue v]]) := by
  have htokens : Token.ofText echo =
      [(0, .key "SELECT"), (7, .symbol "?"), (9, .key "AS"), (12, .name "c")] := by decide +kernel
  have hread : Statement.ofText? echo = .ok (.values ["c"] [[.mark]]) := by
    rw [Statement.ofText?, htokens]
    rfl
  have hprepare : Tables.language echo ts =
      .ok ⟨1, ["c"], fun args => .give (Tables.fillRows [[.mark]] args)⟩ := by
    unfold Tables.language
    rw [hread]
    rfl
  unfold Language.meaning
  rw [hprepare]
  rfl

variable (name : String) (config : PoolConfig) {e : Engine (World Tables)} {who : Holder} {c : Nat}

/-- A handle that holds a connection gets one row with one column. -/
theorem fetchAll_echo (hc : e.held? who = some c) (v : Value) :
    (((Engine.session (vendor Tables.language name config) who).fetchAll echo [v]).on e).1 =
      .ok [⟨["c"], [(Datum.ofValue v).toValue], rfl⟩] := by
  show ((Engine.query (vendor Tables.language name config) who echo [v] none).on e).1 = _
  have hfetch : ((vendor Tables.language name config).fetch c echo [v] none).on e.world =
      (.ok [⟨["c"], [(Datum.ofValue v).toValue], rfl⟩], e.world) := by
    refine (World.on_fetch Tables.language c echo [v] none e.world).trans ?_
    rw [meaning_echo]
    rfl
  rw [Engine.on_query _ hc, hfetch]

/-- A value, bound and selected unchanged, is read back as `x`: on every database, whatever it holds,
and by every handle that holds a connection. -/
def ReadsBack {α : Type} [FromValue α] (v : Value) (x : α) : Prop :=
  ∀ (name : String) (config : PoolConfig) (e : Engine (World Tables)) (who : Holder) (c : Nat),
    e.held? who = some c →
    ∃ row, (((Engine.session (vendor Tables.language name config) who).fetchAll echo [v]).on e).1 =
        .ok [row] ∧
      row.get? α "c" = .ok x

/-- An engine with one handle, which holds a connection to an empty database in memory. -/
def ready : Engine (World Tables) :=
  let v := vendor Tables.language memory ⟨0, 1, ⟨0⟩, none⟩
  (Engine.new v (.new .own [])).run v [.connect, .connection "a", .begin "a"]

theorem held?_ready : ready.held? (.handle "a") = some 0 := by decide +kernel

/-- What is read depends on the datum alone. -/
theorem readsBack_iff {α : Type} [FromValue α] {v : Value} {x : α} :
    ReadsBack v x ↔ FromValue.ofValue? (Datum.ofValue v).toValue = .ok x := by
  constructor
  · intro h
    obtain ⟨row, hrow, hget⟩ := h memory ⟨0, 1, ⟨0⟩, none⟩ ready (.handle "a") 0 held?_ready
    rw [fetchAll_echo memory _ held?_ready] at hrow
    obtain rfl := List.head_eq_of_cons_eq (Except.ok.inj hrow)
    exact hget
  · intro h name config e who c hc
    exact ⟨_, fetchAll_echo name config hc v, h⟩

/-! ## Types -/

/-- A value of a type is read back, by itself and as one that may be missing. -/
structure ComesBack {α : Type} [FromValue α] (make : α → Value) (x : α) : Prop where
  value : ReadsBack (make x) x
  present : ReadsBack (Value.ofOption make (some x)) (some x)
  absent : ReadsBack (Value.ofOption make none) (none : Option α)

/-- What is not stored as null and is read back by itself is read back anyhow. -/
theorem comesBack_of {α : Type} [FromValue α] {make : α → Value} {x : α} (v : Value)
    (hstored : (Datum.ofValue (make x)).toValue = v) (hnull : v.isNull = false)
    (hread : FromValue.ofValue? v = .ok x) : ComesBack make x where
  value := readsBack_iff.2 (hstored ▸ hread)
  present := by
    have hsome : (FromValue.ofValue? v : Result (Option α)) = .ok (some x) := by
      cases v with
      | null => cases hnull
      | _ => exact congrArg (Except.map some) hread
    exact readsBack_iff.2 (hstored ▸ hsome)
  absent := readsBack_iff.2 rfl

/-- Truth values are stored as integers. -/
theorem comesBack_bool (b : Bool) : ComesBack .bool b :=
  comesBack_of (.int (if b then 1 else 0)) rfl rfl (by cases b <;> rfl)

/-- A float that is no number is stored as null. -/
theorem comesBack_float_iff (x : Binary64) : ComesBack .float x ↔ x.isNaN = false := by
  constructor
  · intro h
    rw [Bool.eq_false_iff]
    intro hnan
    have hread := readsBack_iff.1 h.value
    simp only [Datum.ofValue, hnan, if_true] at hread
    cases hread
  · intro hx
    exact comesBack_of (.float x) (by simp only [Datum.ofValue, hx]; rfl) rfl rfl

/-- What is stored as its text. -/
theorem comesBack_text {α : Type} [FromValue α] {make : α → Value} {x : α} {text : String}
    {parse? : String → Option α} {fault : Error}
    (hstored : Datum.ofValue (make x) = .text text)
    (hread : FromValue.ofValue? (.string text) = FromValue.parsed (parse? text) fault)
    (hparse : parse? text = some x) : ComesBack make x :=
  comesBack_of (.string text) (by rw [hstored]; rfl) rfl (by rw [hread, hparse]; rfl)

/-- **What is stored can be had back.**  Truth values, integers, floats unless they are no number,
texts, bytes, identifiers, dates and points in time of the whole calendar, and the same where they may
be missing. -/
theorem stored_values_come_back :
    (∀ b, ComesBack .bool b) ∧ (∀ i, ComesBack .int i) ∧
      (∀ x, ComesBack .float x ↔ x.isNaN = false) ∧ (∀ s, ComesBack .string s) ∧
      (∀ b, ComesBack .bytes b) ∧ (∀ u, ComesBack .uuid u) ∧ (∀ d, ComesBack .date d) ∧
      ∀ t, ComesBack .dateTime t :=
  ⟨comesBack_bool,
    fun i => comesBack_of (.int i) rfl rfl rfl,
    comesBack_float_iff,
    fun s => comesBack_of (.string s) rfl rfl rfl,
    fun b => comesBack_of (.bytes b) rfl rfl rfl,
    fun u => comesBack_text rfl rfl u.parse?_text,
    fun d => comesBack_text rfl rfl d.parse?_text,
    fun t => comesBack_text rfl rfl t.parse?_text⟩

/-- A leap second with a fraction, in a year of five digits. -/
theorem stored_values_come_back_leap :
    let t : DateTime := ⟨⟨12345, 12, 31, by decide⟩, ⟨23, 59, 59, 1500000000, by decide⟩⟩
    let session := Engine.session (vendor Tables.language memory ⟨0, 1, ⟨0⟩, none⟩) (.handle "a")
    t.text = "+12345-12-31 23:59:60.500" ∧ ready.held? (.handle "a") = some 0 ∧
      ∃ row, ((session.fetchAll echo [.dateTime t]).on ready).1 = .ok [row] ∧
        row.get? DateTime "c" = .ok t := by
  intro t session
  obtain ⟨-, -, -, -, -, -, -, hpoints⟩ := stored_values_come_back
  exact ⟨by decide +kernel, held?_ready, (hpoints t).value memory _ ready _ 0 held?_ready⟩

end Sqlite

end SqlKit
