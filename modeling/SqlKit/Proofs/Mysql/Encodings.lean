import SqlKit.Mysql.Session
import SqlKit.Proofs.Mysql.Kinds
import SqlKit.Proofs.Number.Shortest

/-!
# Results as text and in binary

A server answers a statement that is sent as a text with a result whose cells are texts, and a
prepared one with a result whose cells have the forms of their types.  A `ResultSet` is what both
describe.  The two are read as the same rows only as far as cells are bytes by nature, or have no
value of their own kind and are written the way the server writes them.

    x.text c and x.binary are read as one value ↔ x.Agrees c           (Content.toValue_eq_iff)
    a query gives the same rows both ways ↔ rs.Concurs                 (fetch_eq_iff)
-/

namespace SqlKit.Mysql

/-! ## What a server holds -/

/-- A column of a result. -/
structure Column where
  name : String
  type : ColumnType
  /-- How many places the seconds of a time have. -/
  places : Nat := 0
  places_le : places ≤ 6

/-- A span of time, as long as a server can hold. -/
structure Span where
  isNegative : Bool
  hours : Nat
  minutes : Nat
  seconds : Nat
  micros : Nat
  valid : hours ≤ 838 ∧ minutes < 60 ∧ seconds < 60 ∧ micros < 1000000

/-- What a cell holds. -/
inductive Content where
  | null
  /-- Text, bytes, JSON and decimal numbers. -/
  | bytes (b : Bytes)
  | int (i : Int64)
  | uint (n : UInt64)
  /-- A number, and how the server writes it. -/
  | float (x : Binary32) (written : String)
  | double (x : Binary64) (written : String)
  | moment (year : UInt16) (month day hour minute second : UInt8) (micros : UInt32)
  | span (t : Span)

/-- A result: its columns, and rows with a cell for each of them. -/
structure ResultSet where
  columns : List Column
  rows : List (List Content)
  columns_ne : columns ≠ []
  width : ∀ row ∈ rows, row.length = columns.length

/-! ## Its two encodings -/

/-- The part of a second, with so many places. -/
def placesText (places micros : Nat) : String :=
  if places = 0 then "" else "." ++ Digits.padText places (micros / 10 ^ (6 - places))

def Span.text (t : Span) (places : Nat) : String :=
  (if t.isNegative then "-" else "") ++ Digits.padText 2 t.hours ++ ":" ++
    Digits.padText 2 t.minutes ++ ":" ++ Digits.padText 2 t.seconds ++ placesText places t.micros

namespace Content

/-- A cell as a text. -/
def text (c : Column) : Content → Datum
  | null => .null
  | bytes b => .bytes b
  | int i => .ofText (Digits.intText i.toInt)
  | uint n => .ofText (Digits.text n.toNat)
  | float _ written | double _ written => .ofText written
  | moment y mo d h mi s us =>
    let date := Digits.padText 4 y.toNat ++ "-" ++ Digits.padText 2 mo.toNat ++ "-" ++
      Digits.padText 2 d.toNat
    let time := Digits.padText 2 h.toNat ++ ":" ++ Digits.padText 2 mi.toNat ++ ":" ++
      Digits.padText 2 s.toNat ++ placesText c.places us.toNat
    .ofText (if c.type = .date then date else date ++ " " ++ time)
  | span t => .ofText (t.text c.places)

/-- A cell in the form of its type; hours are split into days. -/
def binary : Content → Datum
  | null => .null
  | bytes b => .bytes b
  | int i => .int i
  | uint n => .uint n
  | float x _ => .float x
  | double x _ => .double x
  | moment y mo d h mi s us => .date y mo d h mi s us
  | span t => .time t.isNegative (.ofNat (t.hours / 24)) (.ofNat (t.hours % 24)) (.ofNat t.minutes)
      (.ofNat t.seconds) (.ofNat t.micros)

/-- The cells that are read alike in both encodings. -/
def Agrees (c : Column) : Content → Prop
  | null | bytes _ => True
  | uint n => c.type ≠ .json ∧ 0x8000000000000000 ≤ n.toNat
  | span t => c.type ≠ .json ∧ c.places = 6 ∧ (t.isNegative = true ∨ 24 ≤ t.hours)
  | int _ | float .. | double .. | moment .. => False

end Content

namespace ResultSet

/-- The answer that carries a result. -/
def reply (rs : ResultSet) (form : Column → Content → Datum) (params : Option Nat) : Reply where
  columns := rs.columns.map fun c => (c.name, c.type)
  rows := rs.rows.map fun row => (rs.columns.zip row).map fun e => form e.1 e.2
  params

/-- The answer to a statement that was sent as a text. -/
def asText (rs : ResultSet) : Reply := rs.reply Content.text none

/-- The answer to a prepared statement that takes so many parameters. -/
def asBinary (rs : ResultSet) (params : Nat) : Reply :=
  rs.reply (fun _ => Content.binary) (some params)

/-- All cells are read alike. -/
def Concurs (rs : ResultSet) : Prop :=
  ∀ row ∈ rs.rows, ∀ e ∈ rs.columns.zip row, e.2.Agrees e.1

end ResultSet

/-! ## Spans -/

theorem length_padText {width n : Nat} (hpos : 0 < width) (h : n < 10 ^ width) :
    (Digits.padText width n).length = width := by
  rw [Digits.padText, String.length_ofList, Digits.length_padded_of_lt hpos h]

theorem length_placesText {places micros : Nat} (h : micros < 1000000) (hle : places ≤ 6) :
    (placesText places micros).length = if places = 0 then 0 else places + 1 := by
  unfold placesText
  split
  · rfl
  · next hne =>
    have hpow : 10 ^ (6 - places) * 10 ^ places = 1000000 := by
      rw [← Nat.pow_add, Nat.sub_add_cancel hle]
    have hlt : micros / 10 ^ (6 - places) < 10 ^ places :=
      Nat.div_lt_of_lt_mul (by rw [hpow]; exact h)
    rw [String.length_append, length_padText (Nat.pos_of_ne_zero hne) hlt, Nat.add_comm]
    rfl

/-- The texts of a span differ by their places. -/
theorem Span.text_eq_iff (t : Span) {places : Nat} (hle : places ≤ 6) :
    t.text places = t.text 6 ↔ places = 6 := by
  constructor
  · intro h
    obtain ⟨-, -, -, hmicros⟩ := t.valid
    have hlen := congrArg String.length h
    simp only [text, String.length_append, length_placesText hmicros hle,
      length_placesText hmicros (Nat.le_refl 6)] at hlen
    have hplaces := Nat.add_left_cancel hlen
    rw [if_neg (by decide : ¬ 6 = 0)] at hplaces
    split at hplaces <;> omega
  · rintro rfl
    rfl

/-- The hours that a client makes of days and hours. -/
theorem Span.toNat_hours (t : Span) :
    (UInt32.ofNat (t.hours / 24) * 24 + (UInt8.ofNat (t.hours % 24)).toUInt32).toNat = t.hours := by
  obtain ⟨hhours, -⟩ := t.valid
  rw [UInt32.toNat_add, UInt32.toNat_mul, UInt32.toNat_ofNat', UInt8.toNat_toUInt32,
    UInt8.toNat_ofNat']
  simp only [UInt32.reduceToNat]
  omega

theorem Span.toNat_fields (t : Span) :
    (UInt8.ofNat t.minutes).toNat = t.minutes ∧ (UInt8.ofNat t.seconds).toNat = t.seconds ∧
      (UInt32.ofNat t.micros).toNat = t.micros := by
  obtain ⟨-, hminutes, hseconds, hmicros⟩ := t.valid
  rw [UInt8.toNat_ofNat', UInt8.toNat_ofNat', UInt32.toNat_ofNat']
  omega

/-- A span is a time of day if it is not negative and shorter than a day. -/
theorem Span.fits_iff (t : Span) (c : ColumnType) :
    (Content.span t).binary.Fits c ↔ t.isNegative = false ∧ t.hours < 24 := by
  obtain ⟨-, hminutes, hseconds, hmicros⟩ := t.valid
  obtain ⟨hmi, hs, hus⟩ := t.toNat_fields
  simp only [Content.binary, Datum.Fits, t.toNat_hours, hmi, hs, hus, Calendar.IsTime,
    Calendar.nanosPerSecond]
  refine and_congr_right fun _ => ?_
  omega

theorem placesText_six (micros : Nat) : placesText 6 micros = "." ++ Digits.padText 6 micros := by
  rw [placesText, if_neg (by decide), Nat.sub_self, Nat.pow_zero, Nat.div_one]

/-- Any other span is read from the binary encoding as a text with six places. -/
theorem Span.toValue_of_not_fits (t : Span) {c : ColumnType}
    (h : ¬ (Content.span t).binary.Fits c) :
    (Content.span t).binary.toValue c = .string (t.text 6) := by
  obtain ⟨hmi, hs, hus⟩ := t.toNat_fields
  rw [Content.binary, Datum.toValue, Datum.valueOfTime_of_not_fits h, t.toNat_hours, hmi, hs, hus,
    Span.text, placesText_six]
  simp only [String.append_assoc]

/-! ## Cells -/

section Cells

variable {c : Column}

/-- Bytes are never read as a number or a time. -/
theorem kind_toValue_bytes (t : ColumnType) (b : Bytes) :
    (Datum.toValue t (.bytes b)).kind ∈ [Value.Kind.json, .string, .bytes] := by
  obtain ⟨hreads, hnot⟩ := Datum.kind_toValue (t := t) (.bytes b)
  by_cases h : (Datum.bytes b).Fits t
  · rw [hreads h]
    simp only [Datum.form, Form.own]
    split <;> decide
  · rw [hnot h]
    exact List.mem_of_mem_tail (List.mem_of_mem_tail (List.mem_singleton_self _))

theorem toValue_bytes_ne {t : ColumnType} {b : Bytes} {v : Value} {k : Value.Kind}
    (hv : v.kind = k) (hk : k ∉ [Value.Kind.json, .string, .bytes]) :
    Datum.toValue t (.bytes b) ≠ v := by
  rintro rfl
  rw [← hv] at hk
  exact hk (kind_toValue_bytes t b)

theorem toValue_ofText (ht : c.type ≠ .json) (s : String) :
    (Datum.ofText s).toValue c.type = .string s :=
  Datum.valueOfBytes_utf8 ht s

/-- In a column of JSON no text is read as a text. -/
theorem toValue_bytes_ne_string (b : Bytes) (s : String) :
    Datum.toValue .json (.bytes b) ≠ .string s := by
  intro h
  obtain ⟨hreads, hnot⟩ := Datum.kind_toValue (t := .json) (.bytes b)
  rw [h] at hreads hnot
  by_cases hfits : (Datum.bytes b).Fits .json
  · cases hreads hfits
  · cases hnot hfits

/-- A text is read as a text exactly in a column of another type than JSON. -/
theorem toValue_ofText_eq_iff {s r : String} :
    (Datum.ofText s).toValue c.type = .string r ↔ c.type ≠ .json ∧ s = r := by
  by_cases ht : c.type = .json
  · rw [ht]
    simp only [ne_eq, not_true, false_and, iff_false]
    exact toValue_bytes_ne_string (utf8 s) r
  · rw [toValue_ofText ht, Value.string.injEq]
    simp only [ne_eq, ht, not_false_eq_true, true_and]

/-- A cell is read as one value from both encodings exactly if it is one that agrees. -/
theorem Content.toValue_eq_iff (x : Content) :
    (x.text c).toValue c.type = x.binary.toValue c.type ↔ x.Agrees c := by
  cases x with
  | null => exact iff_of_true rfl trivial
  | bytes b => exact iff_of_true rfl trivial
  | int i => exact iff_of_false (toValue_bytes_ne (k := .int) rfl (by decide)) not_false
  | uint n =>
    rcases Nat.lt_or_ge n.toNat 0x8000000000000000 with h | h
    · rw [binary, Datum.toValue, if_pos h]
      refine iff_of_false (toValue_bytes_ne (k := .int) rfl (by decide)) fun hagrees => ?_
      have := hagrees.2
      omega
    · rw [text, binary, Datum.toValue, if_neg (Nat.not_lt.2 h), toValue_ofText_eq_iff]
      simp only [Agrees, h]
  | float x written =>
    exact iff_of_false (toValue_bytes_ne (k := .float) rfl (by decide)) not_false
  | double x written =>
    exact iff_of_false (toValue_bytes_ne (k := .float) rfl (by decide)) not_false
  | moment y mo d h mi s us =>
    refine iff_of_false ?_ not_false
    obtain ⟨hfits, hnot⟩ := Datum.kind_toValue (t := c.type) (.date y mo d h mi s us)
    by_cases h : (Datum.date y mo d h mi s us).Fits c.type
    · refine toValue_bytes_ne (hfits h) ?_
      simp only [Datum.form, Form.own]
      split <;> decide
    · exact toValue_bytes_ne (k := .null) (hnot h) (by decide)
  | span t =>
    by_cases h : (span t).binary.Fits c.type
    · have hkind := (Datum.kind_toValue _).1 h
      refine iff_of_false (toValue_bytes_ne (k := .time) hkind (by decide)) fun hagrees => ?_
      obtain ⟨hsign, hhours⟩ := (t.fits_iff c.type).1 h
      rcases hagrees.2.2 with hneg | hlong
      · rw [hsign] at hneg
        cases hneg
      · omega
    · rw [t.toValue_of_not_fits h, text, toValue_ofText_eq_iff, t.text_eq_iff c.places_le]
      rw [t.fits_iff, not_and_or, Bool.not_eq_false, Nat.not_lt] at h
      simp only [Agrees, h, and_true]

end Cells

/-! ## Rows -/

/-- Two readings of a list that both succeed give the same exactly if they agree on each element. -/
theorem exists_mapM_eq_iff {ε α β : Type} {l : List α} {f g : α → Except ε β}
    (hf : ∀ x ∈ l, ∃ y, f x = .ok y) (hg : ∀ x ∈ l, ∃ y, g x = .ok y) :
    ∃ ys zs, l.mapM f = .ok ys ∧ l.mapM g = .ok zs ∧ (ys = zs ↔ ∀ x ∈ l, f x = g x) := by
  induction l with
  | nil => exact ⟨[], [], rfl, rfl, by simp⟩
  | cons x l ih =>
    obtain ⟨y, hy⟩ := hf x List.mem_cons_self
    obtain ⟨z, hz⟩ := hg x List.mem_cons_self
    obtain ⟨ys, zs, hys, hzs, hiff⟩ := ih (fun x' h => hf x' (List.mem_cons_of_mem _ h))
      fun x' h => hg x' (List.mem_cons_of_mem _ h)
    refine ⟨y :: ys, z :: zs, ?_, ?_, ?_⟩
    · rw [List.mapM_cons, hy, hys]
      rfl
    · rw [List.mapM_cons, hz, hzs]
      rfl
    · rw [List.cons.injEq, hiff, List.forall_mem_cons, hy, hz, Except.ok.injEq]

theorem ofLists?_eq_iff {columns : List String} {vs ws : List Value}
    (hv : columns.length = vs.length) (hw : columns.length = ws.length) :
    Row.ofLists? columns vs = Row.ofLists? columns ws ↔ vs = ws := by
  rw [Row.ofLists?, dif_pos hv, Row.ofLists?, dif_pos hw]
  simp only [Except.ok.injEq, Row.mk.injEq, true_and]

namespace ResultSet

variable (rs : ResultSet)

/-- The values of a row, by the form that its cells have. -/
def values (form : Column → Content → Datum) (row : List Content) : List Value :=
  (rs.columns.zip row).map fun e => (form e.1 e.2).toValue e.1.type

/-- The row that is read from a row of the result. -/
def read (form : Column → Content → Datum) (row : List Content) : Result Row :=
  Row.ofLists? (rs.columns.map (·.name)) (rs.values form row)

/-- A client reads the cells of a row by the types of their columns. -/
theorem map_zip_cells {columns : List Column} (row : List Content)
    (form : Column → Content → Datum) :
    ((columns.map fun c => (c.name, c.type)).zip ((columns.zip row).map fun e => form e.1 e.2)).map
        (fun e => e.2.toValue e.1.2) =
      (columns.zip row).map fun e => (form e.1 e.2).toValue e.1.type := by
  induction columns generalizing row with
  | nil => rfl
  | cons c columns ih =>
    cases row with
    | nil => rfl
    | cons x row => simp only [List.map_cons, List.zip_cons_cons, ih row]

theorem rowsOf_reply (form : Column → Content → Datum) (params : Option Nat) :
    rowsOf (rs.reply form params) = rs.rows.mapM (rs.read form) := by
  have hne : (rs.reply form params).columns.isEmpty = false := by
    simpa [reply, List.isEmpty_eq_false_iff] using rs.columns_ne
  rw [rowsOf, hne, if_neg (by decide)]
  simp only [reply, List.mapM_map, List.map_map]
  refine congrArg (fun f => rs.rows.mapM f) (funext fun row => ?_)
  rw [read, values, ← map_zip_cells]
  rfl

theorem length_values {row : List Content} (h : row ∈ rs.rows) (form : Column → Content → Datum) :
    (rs.columns.map (·.name)).length = (rs.values form row).length := by
  simp [values, rs.width row h]

theorem exists_read {row : List Content} (h : row ∈ rs.rows) (form : Column → Content → Datum) :
    ∃ r, rs.read form row = .ok r := by
  rw [read, Row.ofLists?, dif_pos (rs.length_values h form)]
  exact ⟨_, rfl⟩

theorem read_eq_iff {row : List Content} (h : row ∈ rs.rows) :
    rs.read Content.text row = rs.read (fun _ => Content.binary) row ↔
      ∀ e ∈ rs.columns.zip row, e.2.Agrees e.1 := by
  rw [read, read, ofLists?_eq_iff (rs.length_values h _) (rs.length_values h _), values, values,
    List.map_inj_left]
  simp only [Content.toValue_eq_iff]

/-- Both answers are read, and as the same rows exactly if all cells are read alike. -/
theorem rowsOf_eq_iff (params : Nat) :
    ∃ rows rows', rowsOf rs.asText = .ok rows ∧ rowsOf (rs.asBinary params) = .ok rows' ∧
      (rows = rows' ↔ rs.Concurs) := by
  rw [asText, asBinary, rowsOf_reply, rowsOf_reply]
  obtain ⟨rows, rows', hrows, hrows', hiff⟩ := exists_mapM_eq_iff
    (fun row h => rs.exists_read h Content.text)
    (fun row h => rs.exists_read h fun _ => Content.binary)
  refine ⟨rows, rows', hrows, hrows', hiff.trans ?_⟩
  exact forall₂_congr fun row h => rs.read_eq_iff h

end ResultSet

/-! ## Queries -/

section Queries

variable {τ : Type} {s : Server τ Reply Datum Fault} {c : Nat} {w : Wire τ} {sql : String}
  {r : Reply}

theorem run_checkOpen (h : w.isLost c = false) :
    (checkOpen c : Exchange Fault τ Unit).run.run w = (.ok (), w) := by
  show (if w.isLost c = true then _ else _ : Exchange Fault τ Unit) w = _
  rw [h]
  rfl

/-- An answer without a fault is taken. -/
theorem run_accept (hfault : r.fault = none) (hhang : r.hangsUp = false) :
    (accept c r).run.run w = (.ok r, w) := by
  simp only [accept, hhang, hfault]
  rfl

/-- The wire when the server has answered a statement and got a message. -/
def told (s : Server τ Reply Datum Fault) (c : Nat) (sql : String) (m : Message Datum)
    (w : Wire τ) : Wire τ :=
  { w with server := s.receive c m (s.answer c sql w.server).2 }

theorem run_text (hopen : w.isLost c = false) (hr : (s.answer c sql w.server).1 = r)
    (hfault : r.fault = none) (hhang : r.hangsUp = false) :
    (text s c sql).run.run w = (.ok r, told s c sql (.text sql) w) := by
  subst hr
  rw [text, Exchange.run_bind, run_checkOpen hopen]
  exact run_accept hfault hhang

theorem run_prepared {params : List Value} (hopen : w.isLost c = false)
    (hr : (s.answer c sql w.server).1 = r) (hprepare : r.prepareFault = none)
    (hcount : r.params = some params.length) (hfault : r.fault = none) (hhang : r.hangsUp = false) :
    (prepared s c sql params).run.run w =
      (.ok r, told s c sql (.prepared sql (params.map Datum.ofValue)) w) := by
  have hask : (s.ask c sql : Exchange Fault τ Reply).run.run w =
      (.ok r, { w with server := (s.answer c sql w.server).2 }) := by
    subst hr
    rfl
  rw [prepared, Exchange.run_bind, run_checkOpen hopen]
  simp only []
  rw [Exchange.run_bind, hask]
  simp only [hprepare, hcount, Option.getD_some, ne_eq, not_true, if_false]
  exact run_accept hfault hhang

/-- An exchange that succeeds gives the same as an action. -/
theorem on_adapt {α : Type} {x : Exchange Fault τ α} {a : α} {w' : Wire τ}
    (h : x.run.run w = (.ok a, w')) :
    Action.on (ExceptT.adapt Fault.toError x) w = (.ok a, w') := by
  have hon : Action.on (ExceptT.adapt Fault.toError x) w =
      ((x.run.run w).1.mapError Fault.toError, (x.run.run w).2) := rfl
  rw [hon, h]
  rfl

theorem on_fetch {params : List Value} {w' : Wire τ}
    (h : (request s c sql params).on w = (.ok r, w')) :
    (fetch s c sql params).on w = (rowsOf r, w') := by
  rw [fetch, Action.on_bind, h]
  rfl

/-- A query without parameters gives the rows of the text answer. -/
theorem on_fetch_text (hopen : w.isLost c = false)
    (hr : (s.answer c (withMarks sql) w.server).1 = r) (hfault : r.fault = none)
    (hhang : r.hangsUp = false) : ((fetch s c sql []).on w).1 = rowsOf r := by
  have hrequest : (request s c sql []).on w =
      (.ok r, told s c (withMarks sql) (.text (withMarks sql)) w) :=
    on_adapt (run_text hopen hr hfault hhang)
  rw [on_fetch hrequest]

/-- A query with parameters gives the rows of the binary answer. -/
theorem on_fetch_prepared {params : List Value} (hparams : params ≠ []) (hopen : w.isLost c = false)
    (hr : (s.answer c (withMarks sql) w.server).1 = r) (hprepare : r.prepareFault = none)
    (hcount : r.params = some params.length) (hfault : r.fault = none) (hhang : r.hangsUp = false) :
    ((fetch s c sql params).on w).1 = rowsOf r := by
  have hrequest : (request s c sql params).on w = (.ok r,
      told s c (withMarks sql) (.prepared (withMarks sql) (params.map Datum.ofValue)) w) := by
    rw [request, if_neg (by simpa using hparams)]
    exact on_adapt (run_prepared hopen hr hprepare hcount hfault hhang)
  rw [on_fetch hrequest]

/-- A query and its like with parameters, whose answers carry one result, both give rows.  These are
the same exactly if all cells of the result are read alike. -/
theorem fetch_eq_iff (rs : ResultSet) {c' : Nat} {w' : Wire τ} {sql' : String}
    {params : List Value} (hopen : w.isLost c = false) (hopen' : w'.isLost c' = false)
    (hparams : params ≠ []) (htext : (s.answer c (withMarks sql) w.server).1 = rs.asText)
    (hbinary : (s.answer c' (withMarks sql') w'.server).1 = rs.asBinary params.length) :
    ∃ rows rows', ((fetch s c sql []).on w).1 = .ok rows ∧
      ((fetch s c' sql' params).on w').1 = .ok rows' ∧ (rows = rows' ↔ rs.Concurs) := by
  rw [on_fetch_text hopen htext rfl rfl, on_fetch_prepared hparams hopen' hbinary rfl rfl rfl rfl]
  exact rs.rowsOf_eq_iff params.length

end Queries

/-! ## A number both ways -/

/-- The number 1 in a column of integers. -/
def ResultSet.one : ResultSet where
  columns := [⟨"n", .longlong, 0, by decide⟩]
  rows := [[.int 1]]
  columns_ne := by decide
  width := by decide

/-- A server that has it, connected. -/
def oneWire : Wire (Playbook Reply Datum Fault) where
  server :=
    { rules := [⟨.exact "SELECT n FROM t", none, ResultSet.one.asText⟩,
        ⟨.exact "SELECT n FROM t WHERE n = ?", none, ResultSet.one.asBinary 1⟩]
      otherwise := {} }
  opened := 1

theorem answer_one (c : Nat) :
    ((Playbook.server Reply Datum Fault).answer c (withMarks "SELECT n FROM t")
        oneWire.server).1 = ResultSet.one.asText ∧
      ((Playbook.server Reply Datum Fault).answer c (withMarks "SELECT n FROM t WHERE n = %s")
        oneWire.server).1 = ResultSet.one.asBinary 1 := by
  have htext : withMarks "SELECT n FROM t" = "SELECT n FROM t" := by decide
  have hbinary : withMarks "SELECT n FROM t WHERE n = %s" = "SELECT n FROM t WHERE n = ?" := by
    decide
  rw [htext, hbinary]
  exact ⟨rfl, rfl⟩

theorem fetch_eq_iff_one :
    oneWire.isLost 0 = false ∧ [Value.int 1] ≠ [] ∧
      ∃ rows rows',
        ((fetch (Playbook.server Reply Datum Fault) 0 "SELECT n FROM t" []).on oneWire).1 =
          .ok rows ∧
        ((fetch (Playbook.server Reply Datum Fault) 0 "SELECT n FROM t WHERE n = %s"
          [.int 1]).on oneWire).1 = .ok rows' ∧
        (rows = rows' ↔ ResultSet.one.Concurs) :=
  ⟨rfl, by simp, fetch_eq_iff ResultSet.one rfl rfl (by simp) (answer_one 0).1 (answer_one 0).2⟩

/-- The number comes as a text from the one query and as a number from the other. -/
theorem fetch_one :
    ((fetch (Playbook.server Reply Datum Fault) 0 "SELECT n FROM t" []).on oneWire).1 =
        .ok [⟨["n"], [.string "1"], rfl⟩] ∧
      ((fetch (Playbook.server Reply Datum Fault) 0 "SELECT n FROM t WHERE n = %s"
        [.int 1]).on oneWire).1 = .ok [⟨["n"], [.int 1], rfl⟩] := by
  obtain ⟨htext, hbinary⟩ := answer_one 0
  constructor
  · have hvalues : ResultSet.one.values Content.text [.int 1] = [.string "1"] := by
      have hone : (Datum.ofText "1").toValue .longlong = .string "1" :=
        Datum.valueOfBytes_utf8 (t := .longlong) (by decide) "1"
      exact congrArg (fun v => [v]) hone
    rw [on_fetch_text rfl htext rfl rfl, ResultSet.asText, ResultSet.rowsOf_reply]
    show [_].mapM _ = _
    simp only [List.mapM_cons, List.mapM_nil, ResultSet.read, hvalues]
    rfl
  · rw [on_fetch_prepared (by simp) rfl hbinary rfl rfl rfl rfl, ResultSet.asBinary,
      ResultSet.rowsOf_reply]
    rfl

end SqlKit.Mysql
