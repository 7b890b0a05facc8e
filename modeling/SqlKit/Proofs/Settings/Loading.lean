import SqlKit.Proofs.Settings.Documents

/-!
# Loading settings over the defaults

What a document says about a setting is loaded as it stands, and a setting that it does not speak of
has its default, that of a new database if the document brings the database in.

    the document has v at the path of a setting → so have the settings (ChangedBy.said)
    it has nothing there → the settings have the default               (ChangedBy.unsaid)
    ofText format text = .ok s → the document changes s in this way    (changedBy_of_ofText)
-/

namespace SqlKit

/-! ## Records -/

namespace Assoc

variable {α : Type}

theorem get?_foldl_insert {k : String} {es : List (String × α)} (h : k ∉ es.map Prod.fst)
    (m : Assoc α) : get? k (es.foldl (fun m e => insert e.1 e.2 m) m) = get? k m := by
  induction es generalizing m with
  | nil => rfl
  | cons e es ih =>
    rw [List.map_cons, List.mem_cons, not_or] at h
    rw [List.foldl_cons, ih h.2, get?_insert_of_ne h.1]

theorem get?_ofList_of_mem {es : List (String × α)} (hkeys : (es.map Prod.fst).Nodup) {k : String}
    {v : α} (h : (k, v) ∈ es) : get? k (ofList es) = some v := by
  suffices hm : ∀ m : Assoc α,
      get? k (es.foldl (fun m e => insert e.1 e.2 m) m) = some v from hm []
  induction es with
  | nil => cases h
  | cons e es ih =>
    intro m
    rw [List.map_cons, List.nodup_cons] at hkeys
    rcases List.mem_cons.1 h with rfl | h
    · rw [List.foldl_cons, get?_foldl_insert hkeys.1, get?_insert_self]
    · exact ih hkeys.2 h _

theorem get?_map {β : Type} (f : α → β) (k : String) (m : Assoc α) :
    get? k (m.map fun e => (e.1, f e.2)) = (get? k m).map f := by
  induction m with
  | nil => rfl
  | cons e es ih =>
    rw [List.map_cons, get?, get?]
    split
    · rfl
    · exact ih

end Assoc

namespace Json

theorem at?_singleton (k : String) (ms : Assoc Json) : at? [k] (.object ms) = Assoc.get? k ms := by
  rw [at?_cons_object]
  cases Assoc.get? k ms <;> rfl

theorem at?_ofList {es : List (String × Json)} (hkeys : (es.map Prod.fst).Nodup) {k : String}
    {v : Json} (h : (k, v) ∈ es) (p : List String) :
    at? (k :: p) (.object (Assoc.ofList es)) = at? p v := by
  rw [at?_cons_object, Assoc.get?_ofList_of_mem hkeys h, Option.bind_some]

/-- A member that is a value given or a default is so in a record of such members. -/
theorem at?_ofList_or {es ds : List (String × Json)} (hes : (es.map Prod.fst).Nodup)
    (hds : (ds.map Prod.fst).Nodup) {k : String} {v d : Json} {given : Option Json}
    (h : some v = given.or (some d)) (hv : (k, v) ∈ es) (hd : (k, d) ∈ ds) :
    at? [k] (.object (Assoc.ofList es)) = given.or (at? [k] (.object (Assoc.ofList ds))) := by
  rw [at?_ofList hes hv, at?_ofList hds hd]
  exact h

/-- A field that is read without loss is written as it was given, or has its default. -/
theorem write_of_fieldOr {α : Type} {read : Json → Option α} {write : α → Json}
    (hread : ∀ {v a}, read v = some a → write a = v) {d a : α} {place : Nat} {key : String}
    {ms : Assoc Json} (h : fieldOr d read place key (.object ms) = some a) :
    some (write a) = (at? [key] (.object ms)).or (some (write d)) := by
  rw [fieldOr, field?] at h
  rw [at?_singleton]
  cases hv : Assoc.get? key ms with
  | none =>
    rw [hv] at h
    cases h
    rfl
  | some v =>
    rw [hv] at h
    exact congrArg some (hread h)

theorem write_of_bool? {v : Json} {b : Bool} (h : v.bool? = some b) : .bool b = v := by
  unfold bool? at h
  split at h
  · cases h
    rfl
  · cases h

theorem write_of_string? {v : Json} {s : String} (h : v.string? = some s) : .string s = v := by
  unfold string? at h
  split at h
  · cases h
    rfl
  · cases h

theorem write_of_natBelow? {bound n : Nat} {v : Json} (h : v.natBelow? bound = some n) :
    n < bound ∧ .int n = v := by
  unfold natBelow? at h
  split at h
  · split at h
    · next hlt =>
      cases h
      exact ⟨hlt, rfl⟩
    · cases h
  · cases h

theorem write_of_uInt16? {n : Nat} {v : Json} (h : v.natBelow? UInt16.size = some n) :
    .int (UInt16.ofNat n).toNat = v := by
  obtain ⟨hlt, rfl⟩ := write_of_natBelow? h
  rw [UInt16.toNat_ofNat_of_lt' hlt]

theorem write_of_uInt32? {n : Nat} {v : Json} (h : v.natBelow? UInt32.size = some n) :
    .int (UInt32.ofNat n).toNat = v := by
  obtain ⟨hlt, rfl⟩ := write_of_natBelow? h
  rw [UInt32.toNat_ofNat_of_lt' hlt]

theorem write_of_uInt64? {n : Nat} {v : Json} (h : v.natBelow? UInt64.size = some n) :
    .int (UInt64.ofNat n).toNat = v := by
  obtain ⟨hlt, rfl⟩ := write_of_natBelow? h
  rw [UInt64.toNat_ofNat_of_lt' hlt]

/-- Members that are read one by one are found under their keys. -/
theorem get?_of_assocOf? {α : Type} {read : Json → Option α} {ms : Assoc Json} {es : Assoc α}
    (h : assocOf? read (.object ms) = some es) (k : String) :
    (Assoc.get? k ms = none ∧ Assoc.get? k es = none) ∨
      ∃ v a, Assoc.get? k ms = some v ∧ read v = some a ∧ Assoc.get? k es = some a := by
  rw [assocOf?] at h
  induction ms generalizing es with
  | nil =>
    cases h
    exact .inl ⟨rfl, rfl⟩
  | cons m ms ih =>
    obtain ⟨k', v⟩ := m
    simp only [List.mapM_cons, Option.bind_eq_bind, Option.bind_eq_some_iff,
      Option.map_eq_some_iff] at h
    obtain ⟨_, ⟨a, ha, rfl⟩, es', hes', h⟩ := h
    cases h
    rw [Assoc.get?, Assoc.get?]
    by_cases hk : k' = k
    · rw [if_pos hk, if_pos hk]
      exact .inr ⟨v, a, rfl, ha, rfl⟩
    · rw [if_neg hk, if_neg hk]
      exact ih hes'

/-! ## Paths to settings -/

/-- As far as the path leads, it leads through objects, and not to an object. -/
def Fits : List String → Json → Prop
  | [], j => j.isObject = false
  | k :: p, .object ms => ∀ v, Assoc.get? k ms = some v → Fits p v
  | _ :: _, _ => False

theorem Fits.not_bars {p : List String} {j : Json} (h : Fits p j) : ¬ j.Bars p := by
  rintro ⟨q, r, v, rfl, hr, hv, hobject⟩
  induction q generalizing j with
  | nil =>
    obtain rfl := Option.some.inj hv
    cases r with
    | nil => exact hr rfl
    | cons k r =>
      cases j with
      | object ms => cases hobject
      | null | bool _ | int _ | float _ | string _ | array _ => exact h
  | cons k q ih =>
    cases j with
    | object ms =>
      obtain ⟨w, hw, hv⟩ := Option.bind_eq_some_iff.1 hv
      exact ih (h w hw) hv
    | null | bool _ | int _ | float _ | string _ | array _ => exact h

theorem Fits.isObject {p : List String} {j v : Json} (h : Fits p j) (hv : at? p j = some v) :
    v.isObject = false := by
  induction p generalizing j with
  | nil =>
    obtain rfl := Option.some.inj hv
    exact h
  | cons k p ih =>
    cases j with
    | object ms =>
      obtain ⟨w, hw, hv⟩ := Option.bind_eq_some_iff.1 hv
      exact ih (h w hw) hv
    | null | bool _ | int _ | float _ | string _ | array _ => exact h.elim

theorem fits_ofList {es : List (String × Json)} (hkeys : (es.map Prod.fst).Nodup) {k : String}
    {v : Json} (h : (k, v) ∈ es) {p : List String} (hv : Fits p v) :
    Fits (k :: p) (.object (Assoc.ofList es)) := by
  intro w hw
  rw [Assoc.get?_ofList_of_mem hkeys h] at hw
  cases hw
  exact hv

/-- What bars a path in a merged value, bars it in one of the two. -/
theorem bars_of_bars_merge {base doc : Json} (hdoc : doc.Ordered) {p : List String}
    (h : (base.merge doc).Bars p) : base.Bars p ∨ doc.Bars p := by
  obtain ⟨q, r, w, rfl, hr, hw, hobject⟩ := h
  have hlaid := laidOver_merge base hdoc
  by_cases hbars : doc.Bars q
  · rw [hlaid.barred hbars] at hw
    cases hw
  cases hv : at? q doc with
  | none =>
    rw [hlaid.unsaid hv hbars] at hw
    exact .inl ⟨q, r, w, rfl, hr, hw, hobject⟩
  | some v =>
    cases hvobject : v.isObject with
    | false => exact .inr ⟨q, r, v, rfl, hr, hv, hvobject⟩
    | true =>
      obtain ⟨w', hw', hobject'⟩ := hlaid.object hv hvobject
      obtain rfl := Option.some.inj (hw.symm.trans hw')
      rw [hobject] at hobject'
      cases hobject'

theorem Bars.append {p : List String} {j : Json} (h : j.Bars p) (q : List String) :
    j.Bars (p ++ q) := by
  obtain ⟨q', r, v, rfl, hr, hv, hobject⟩ := h
  exact ⟨q', r ++ q, v, List.append_assoc .., by simp [hr], hv, hobject⟩

end Json

open Json

/-! ## Pools -/

namespace PoolSettings

/-- The keys of a pool's settings. -/
def keys : List String := ["pool_min_size", "pool_max_size", "pool_timeout", "pool_recycle"]

theorem mem_keys {k : String} : k ∈ keys ↔
    k = "pool_min_size" ∨ k = "pool_max_size" ∨ k = "pool_timeout" ∨ k = "pool_recycle" := by
  simp [keys]

/-- The age at which connections are replaced, as it is written. -/
def ageToJson : Option UInt64 → Json
  | some n => .int n.toNat
  | none => .null

theorem toJson_eq (s : PoolSettings) : s.toJson = .object (Assoc.ofList
    [("pool_min_size", .int s.minSize.toNat), ("pool_max_size", .int s.maxSize.toNat),
      ("pool_timeout", .int s.timeout.toNat), ("pool_recycle", ageToJson s.recycle)]) := rfl

theorem fits_toJson (s : PoolSettings) {k : String} (hk : k ∈ keys) : Fits [k] s.toJson := by
  rw [toJson_eq]
  rcases mem_keys.1 hk with rfl | rfl | rfl | rfl
  · exact fits_ofList (by simp) (v := .int s.minSize.toNat) (by simp) rfl
  · exact fits_ofList (by simp) (v := .int s.maxSize.toNat) (by simp) rfl
  · exact fits_ofList (by simp) (v := .int s.timeout.toNat) (by simp) rfl
  · exact fits_ofList (by simp) (v := ageToJson s.recycle) (by simp) (by cases s.recycle <;> rfl)

/-- Each setting of a pool is the one given, or the default. -/
theorem at?_toJson_of_ofJson? {ms : Assoc Json} {s : PoolSettings}
    (h : ofJson? (.object ms) = some s) {k : String} (hk : k ∈ keys) :
    at? [k] s.toJson = (at? [k] (.object ms)).or (at? [k] ({} : PoolSettings).toJson) := by
  simp only [ofJson?, Option.bind_eq_bind, isRecord, Bool.not_true, Bool.false_eq_true, if_false,
    Option.bind_eq_some_iff] at h
  obtain ⟨minSize, hmin, maxSize, hmax, timeout, htimeout, recycle, hrecycle, h⟩ := h
  cases h
  rw [toJson_eq, toJson_eq]
  rcases mem_keys.1 hk with rfl | rfl | rfl | rfl
  · exact at?_ofList_or (by simp) (by simp) (write_of_fieldOr write_of_uInt32? hmin)
      (by simp) (by simp)
  · exact at?_ofList_or (by simp) (by simp) (write_of_fieldOr write_of_uInt32? hmax)
      (by simp) (by simp)
  · exact at?_ofList_or (by simp) (by simp) (write_of_fieldOr write_of_uInt64? htimeout)
      (by simp) (by simp)
  · refine at?_ofList_or (v := ageToJson recycle) (d := ageToJson none) (by simp) (by simp)
      (write_of_fieldOr (fun hv => ?_) hrecycle) (by simp) (by simp)
    split at hv
    · cases hv
      rfl
    · obtain ⟨n, hn, rfl⟩ := Option.map_eq_some_iff.1 hv
      exact write_of_uInt64? hn

end PoolSettings

/-! ## Databases -/

namespace DatabaseSettings

/-- The path of a setting of a database. -/
inductive IsSetting : List String → Prop
  | engine : IsSetting ["engine"]
  | name : IsSetting ["name"]
  | user : IsSetting ["user"]
  | password : IsSetting ["password"]
  | host : IsSetting ["host"]
  | port : IsSetting ["port"]
  | pool {k : String} (hk : k ∈ PoolSettings.keys) : IsSetting ["pool", k]
  | option (k : String) : IsSetting ["options", k]

theorem IsSetting.ne_nil {p : List String} (h : IsSetting p) : p ≠ [] := by
  cases h <;> exact List.cons_ne_nil _ _

/-- Options as they are written. -/
def optionsToJson (options : Assoc String) : Json :=
  .object (options.map fun e => (e.1, .string e.2))

theorem toJson_eq (s : DatabaseSettings) : s.toJson = .object (Assoc.ofList
    [("engine", .string s.engine), ("name", .string s.name), ("user", .string s.user),
      ("password", .string s.password), ("host", .string s.host), ("port", .int s.port.toNat),
      ("pool", s.pool.toJson), ("options", optionsToJson s.options)]) := rfl

theorem at?_optionsToJson (options : Assoc String) (k : String) :
    at? [k] (optionsToJson options) = (options.get? k).map .string := by
  rw [optionsToJson, at?_singleton, Assoc.get?_map]

theorem fits_toJson (s : DatabaseSettings) {p : List String} (hp : IsSetting p) :
    Fits p s.toJson := by
  rw [toJson_eq]
  cases hp with
  | engine => exact fits_ofList (by simp) (v := .string s.engine) (by simp) rfl
  | name => exact fits_ofList (by simp) (v := .string s.name) (by simp) rfl
  | user => exact fits_ofList (by simp) (v := .string s.user) (by simp) rfl
  | password => exact fits_ofList (by simp) (v := .string s.password) (by simp) rfl
  | host => exact fits_ofList (by simp) (v := .string s.host) (by simp) rfl
  | port => exact fits_ofList (by simp) (v := .int s.port.toNat) (by simp) rfl
  | pool hk => exact fits_ofList (by simp) (v := s.pool.toJson) (by simp) (s.pool.fits_toJson hk)
  | option k =>
    refine fits_ofList (by simp) (v := optionsToJson s.options) (by simp) fun v hv => ?_
    rw [Assoc.get?_map] at hv
    obtain ⟨_, -, rfl⟩ := Option.map_eq_some_iff.1 hv
    rfl

/-- Each setting of a database is the one given, or the default. -/
theorem at?_toJson_of_ofJson? {j : Json} {s : DatabaseSettings} (h : ofJson? j = some s)
    {p : List String} (hp : IsSetting p) (hbars : ¬ j.Bars p) :
    at? p s.toJson = (at? p j).or (at? p ({} : DatabaseSettings).toJson) := by
  cases j with
  | null | bool _ | int _ | float _ | string _ | array _ =>
    exact absurd (bars_of_not_isObject rfl hp.ne_nil) hbars
  | object ms =>
    simp only [ofJson?, Option.bind_eq_bind, isRecord, Bool.not_true, Bool.false_eq_true, if_false,
      Option.bind_eq_some_iff] at h
    obtain ⟨engine, hengine, name, hname, user, huser, password, hpassword, host, hhost, port,
      hport, pool, hpool, options, hoptions, h⟩ := h
    cases h
    rw [toJson_eq, toJson_eq]
    cases hp with
    | engine =>
      exact at?_ofList_or (by simp) (by simp) (write_of_fieldOr write_of_string? hengine)
        (by simp) (by simp)
    | name =>
      exact at?_ofList_or (by simp) (by simp) (write_of_fieldOr write_of_string? hname)
        (by simp) (by simp)
    | user =>
      exact at?_ofList_or (by simp) (by simp) (write_of_fieldOr write_of_string? huser)
        (by simp) (by simp)
    | password =>
      exact at?_ofList_or (by simp) (by simp) (write_of_fieldOr write_of_string? hpassword)
        (by simp) (by simp)
    | host =>
      exact at?_ofList_or (by simp) (by simp) (write_of_fieldOr write_of_string? hhost)
        (by simp) (by simp)
    | port =>
      exact at?_ofList_or (by simp) (by simp) (write_of_fieldOr write_of_uInt16? hport)
        (by simp) (by simp)
    | pool hk =>
      rw [at?_ofList (by simp) (v := pool.toJson) (by simp),
        at?_ofList (by simp) (v := ({} : PoolSettings).toJson) (by simp), at?_cons_object]
      rw [fieldOr, field?] at hpool
      cases hv : Assoc.get? "pool" ms with
      | none =>
        rw [hv] at hpool
        cases hpool
        rfl
      | some v =>
        rw [hv] at hpool
        cases v with
        | object ps => exact PoolSettings.at?_toJson_of_ofJson? hpool hk
        | null | bool _ | int _ | float _ | string _ | array _ =>
          exact absurd ((bars_of_not_isObject rfl (List.cons_ne_nil _ _)).cons hv) hbars
    | option k =>
      rw [at?_ofList (by simp) (v := optionsToJson options) (by simp),
        at?_ofList (by simp) (v := optionsToJson []) (by simp), at?_cons_object,
        at?_optionsToJson]
      rw [fieldOr, field?] at hoptions
      cases hv : Assoc.get? "options" ms with
      | none =>
        rw [hv] at hoptions
        cases hoptions
        rfl
      | some v =>
        rw [hv] at hoptions
        cases v with
        | object os =>
          rw [Option.bind_some, at?_singleton]
          obtain ⟨hos, hnone⟩ | ⟨w, a, hos, hread, hsome⟩ := get?_of_assocOf? hoptions k
          · rw [hos, hnone]
            rfl
          · rw [hos, hsome, Option.map_some, write_of_string? hread]
            rfl
        | null | bool _ | int _ | float _ | string _ | array _ =>
          exact absurd ((bars_of_not_isObject rfl (List.cons_ne_nil _ _)).cons hv) hbars

end DatabaseSettings

/-! ## Settings -/

namespace Settings

/-- The path of a setting. -/
inductive IsSetting : List String → Prop
  | debug : IsSetting ["debug"]
  | logLevel : IsSetting ["log_level"]
  | database (key : String) {p : List String} (hp : DatabaseSettings.IsSetting p) :
    IsSetting ("databases" :: key :: p)

theorem IsSetting.ne_nil {p : List String} (h : IsSetting p) : p ≠ [] := by
  cases h <;> exact List.cons_ne_nil _ _

/-- Databases as they are written. -/
def databasesToJson (databases : Assoc DatabaseSettings) : Json :=
  .object (databases.map fun e => (e.1, e.2.toJson))

theorem toJson_eq (s : Settings) : s.toJson = .object (Assoc.ofList
    [("debug", .bool s.debug), ("log_level", .string s.logLevel),
      ("databases", databasesToJson s.databases)]) := rfl

theorem at?_database (s : Settings) (key : String) (p : List String) :
    at? ("databases" :: key :: p) s.toJson =
      (s.databases.get? key).bind fun d => at? p d.toJson := by
  rw [toJson_eq, at?_ofList (by simp) (v := databasesToJson s.databases) (by simp),
    databasesToJson, at?_cons_object, Assoc.get?_map, Option.bind_map]
  rfl

theorem fits_toJson (s : Settings) {p : List String} (hp : IsSetting p) : Fits p s.toJson := by
  rw [toJson_eq]
  cases hp with
  | debug => exact fits_ofList (by simp) (v := .bool s.debug) (by simp) rfl
  | logLevel => exact fits_ofList (by simp) (v := .string s.logLevel) (by simp) rfl
  | database key hp =>
    refine fits_ofList (by simp) (v := databasesToJson s.databases) (by simp) fun v hv => ?_
    rw [Assoc.get?_map] at hv
    obtain ⟨d, -, rfl⟩ := Option.map_eq_some_iff.1 hv
    exact d.fits_toJson hp

theorem fields_of_ofJson? {ms : Assoc Json} {s : Settings} (h : ofJson? (.object ms) = some s) :
    fieldOr false bool? 0 "debug" (.object ms) = some s.debug ∧
    fieldOr "info" string? 1 "log_level" (.object ms) = some s.logLevel ∧
    fieldOr [("default", {})] (assocOf? DatabaseSettings.ofJson?) 2 "databases" (.object ms) =
      some s.databases := by
  simp only [ofJson?, Option.bind_eq_bind, isRecord, Bool.not_true, Bool.false_eq_true, if_false,
    Option.bind_eq_some_iff] at h
  obtain ⟨debug, hdebug, logLevel, hlogLevel, databases, hdatabases, h⟩ := h
  cases h
  exact ⟨hdebug, hlogLevel, hdatabases⟩

theorem at?_debug_of_ofJson? {ms : Assoc Json} {s : Settings} (h : ofJson? (.object ms) = some s) :
    at? ["debug"] s.toJson = (at? ["debug"] (.object ms)).or (some (.bool false)) := by
  rw [toJson_eq, at?_ofList (by simp) (v := .bool s.debug) (by simp) []]
  exact write_of_fieldOr write_of_bool? (fields_of_ofJson? h).1

theorem at?_logLevel_of_ofJson? {ms : Assoc Json} {s : Settings}
    (h : ofJson? (.object ms) = some s) :
    at? ["log_level"] s.toJson = (at? ["log_level"] (.object ms)).or (some (.string "info")) := by
  rw [toJson_eq, at?_ofList (by simp) (v := .string s.logLevel) (by simp) []]
  exact write_of_fieldOr write_of_string? (fields_of_ofJson? h).2.1

/-- The databases of an object that names some: each has the settings given, or the defaults. -/
theorem at?_database_of_ofJson? {ms : Assoc Json} {d : Json} {s : Settings}
    (h : ofJson? (.object ms) = some s) (hd : Assoc.get? "databases" ms = some d)
    {key : String} {p : List String} (hp : DatabaseSettings.IsSetting p)
    (hbars : ¬ (object ms).Bars ("databases" :: key :: p)) :
    at? ("databases" :: key :: p) s.toJson =
      (at? ["databases", key] (.object ms)).bind fun v =>
        (at? p v).or (at? p ({} : DatabaseSettings).toJson) := by
  have hread := (fields_of_ofJson? h).2.2
  rw [fieldOr, field?, hd] at hread
  rw [at?_database, at?_cons_object, hd, Option.bind_some]
  have hbars' : ¬ d.Bars (key :: p) := fun hbars' => hbars (hbars'.cons hd)
  cases d with
  | object ds =>
    rw [at?_singleton]
    obtain ⟨hds, hnone⟩ | ⟨v, a, hds, hv, hsome⟩ := get?_of_assocOf? hread key
    · rw [hds, hnone]
      rfl
    · rw [hds, hsome]
      exact a.at?_toJson_of_ofJson? hv hp fun hbars => hbars' (hbars.cons hds)
  | null | bool _ | int _ | float _ | string _ | array _ =>
    exact absurd (bars_of_not_isObject rfl (List.cons_ne_nil _ _)) hbars'

/-- What a setting is by default in a database that the document brings in. -/
def newDatabase? (doc : Json) : List String → Option Json
  | field :: key :: p =>
    if field = "databases" ∧ (at? [field, key] doc).isSome then at? p ({} : DatabaseSettings).toJson
    else none
  | _ => none

/-- The settings are the defaults but for what the document says. -/
structure ChangedBy (doc : Json) (s : Settings) : Prop where
  /-- What the document says about a setting stands. -/
  said : ∀ {p v}, IsSetting p → at? p doc = some v → at? p s.toJson = some v
  /-- What it says nothing about has its default. -/
  unsaid : ∀ {p}, IsSetting p → at? p doc = none → ¬ doc.Bars p →
    at? p s.toJson = (at? p ({} : Settings).toJson).or (newDatabase? doc p)

theorem newDatabase?_of_none {doc : Json} {p : List String}
    (h : at? p ({} : DatabaseSettings).toJson = none) (key : String) :
    newDatabase? doc ("databases" :: key :: p) = none := by
  rw [newDatabase?, h, ite_self]

theorem newDatabase?_database {doc doc' : Json} {key : String}
    (h : (at? ["databases", key] doc).isSome = (at? ["databases", key] doc').isSome)
    (p : List String) :
    newDatabase? doc ("databases" :: key :: p) = newDatabase? doc' ("databases" :: key :: p) := by
  rw [newDatabase?, newDatabase?, h]

/-- The defaults name one database. -/
theorem at?_databases_default (key : String) :
    at? ["databases", key] ({} : Settings).toJson =
      if "default" = key then some ({} : DatabaseSettings).toJson else none := by
  have hdatabase := at?_database {} key []
  rw [hdatabase, Assoc.get?]
  split <;> rfl

section Merged

variable {doc : Json} {s : Settings}

/-- What is read has the settings of the merged value, and defaults where a database lacks some. -/
theorem at?_toJson_of_merge (hdoc : doc.Ordered)
    (h : ofJson? (({} : Settings).toJson.merge doc) = some s) {p : List String}
    (hp : IsSetting p) (hbars : ¬ doc.Bars p) :
    at? p s.toJson = (at? p (({} : Settings).toJson.merge doc)).or
      (newDatabase? (({} : Settings).toJson.merge doc) p) := by
  generalize hm : ({} : Settings).toJson.merge doc = m at h ⊢
  obtain ⟨ms, rfl⟩ : ∃ ms, m = object ms := by
    cases doc with
    | object ds => exact ⟨_, hm.symm.trans (merge_object _ ds)⟩
    | null | bool _ | int _ | float _ | string _ | array _ =>
      exact absurd (bars_of_not_isObject rfl hp.ne_nil) hbars
  have hkept {p : List String} {v : Json} (hv : at? p ({} : Settings).toJson = some v)
      (hbars : ¬ doc.Bars p) : ∃ w, at? p (object ms) = some w := by
    rw [← hm]
    cases hd : at? p doc with
    | some d => exact ⟨_, at?_merge_of_some hdoc hd⟩
    | none => exact ⟨v, (at?_merge_of_none hdoc hd hbars).trans hv⟩
  cases hp with
  | debug =>
    obtain ⟨w, hw⟩ := hkept (v := .bool false) (at?_ofList (by simp) (by simp) []) hbars
    rw [at?_debug_of_ofJson? h, hw]
    rfl
  | logLevel =>
    obtain ⟨w, hw⟩ := hkept (v := .string "info") (at?_ofList (by simp) (by simp) []) hbars
    rw [at?_logLevel_of_ofJson? h, hw]
    rfl
  | @database key q hq =>
    have hroot : ¬ doc.Bars ["databases"] := fun h => hbars (h.append (key :: q))
    obtain ⟨d, hd⟩ := hkept (v := databasesToJson [("default", {})])
      (at?_ofList (by simp) (by simp [databasesToJson]) []) hroot
    rw [at?_singleton] at hd
    have hmbars : ¬ (object ms).Bars ("databases" :: key :: q) := by
      rw [← hm]
      exact fun h =>
        (bars_of_bars_merge hdoc h).elim (fits_toJson _ (.database key hq)).not_bars hbars
    have happend : at? ("databases" :: key :: q) (object ms) = _ :=
      at?_append ["databases", key] q (object ms)
    rw [at?_database_of_ofJson? h hd hq hmbars, newDatabase?, happend]
    cases at? ["databases", key] (object ms) with
    | none => simp
    | some v => simp

/-- Merged over the defaults and read, a document changes what it says. -/
theorem changedBy_of_merge (hdoc : doc.Ordered)
    (h : ofJson? (({} : Settings).toJson.merge doc) = some s) : ChangedBy doc s where
  said {p v} hp hv := by
    have hbars : ¬ doc.Bars p := fun hbars => by
      rw [at?_eq_none_of_bars hbars] at hv
      cases hv
    have hs := at?_toJson_of_merge hdoc h hp hbars
    rw [at?_merge_of_some hdoc hv, Option.some_or] at hs
    have hobject : v.isObject = false := by
      refine Bool.eq_false_iff.2 fun htrue => ?_
      have hover := (s.fits_toJson hp).isObject hs
      rw [isObject_mergeOver htrue] at hover
      cases hover
    rw [hs, mergeOver_of_not_isObject hobject]
  unsaid {p} hp hnone hbars := by
    have hs := at?_toJson_of_merge hdoc h hp hbars
    rw [at?_merge_of_none hdoc hnone hbars] at hs
    rw [hs]
    cases hp with
    | debug | logLevel => rfl
    | @database key q hq =>
      have hdefault := at?_database {} key q
      cases hd : at? q ({} : DatabaseSettings).toJson with
      | none => rw [newDatabase?_of_none hd, newDatabase?_of_none hd]
      | some w =>
        by_cases hkey : "default" = key
        · rw [Assoc.get?, if_pos hkey, Option.bind_some, hd] at hdefault
          rw [hdefault, Option.some_or, Option.some_or]
        · refine congrArg _ (newDatabase?_database ?_ q)
          cases hdoc' : at? ["databases", key] doc with
          | some d => rw [at?_merge_of_some hdoc hdoc', Option.isSome_some, Option.isSome_some]
          | none =>
            have hbars' : ¬ doc.Bars ["databases", key] := fun h => hbars (h.append q)
            rw [at?_merge_of_none hdoc hdoc' hbars', at?_databases_default, if_neg hkey]

end Merged

/-- Settings that a document gives are the defaults but for what it says. -/
theorem changedBy_of_ofText {format : Format} {text : String} {s : Settings}
    (h : ofText format text = .ok s) :
    ∃ doc, format.parse? text = some doc ∧ doc.Ordered ∧ ChangedBy doc s := by
  unfold ofText at h
  split at h
  · cases h
  · next doc hparse =>
    split at h
    · cases h
    · next hread =>
      cases h
      have hdoc : doc.Ordered := by
        cases format with
        | toml => exact Toml.ordered_of_parse? hparse
        | json => exact Json.ordered_of_parse? hparse
      exact ⟨doc, hparse, hdoc, changedBy_of_merge hdoc hread⟩

/-- A document is laid over a value path by path, once and for all; and loaded over the defaults it
changes what it says and nothing else. -/
theorem documents_change_what_they_say {base doc : Json} (hbase : base.Ordered)
    (hdoc : doc.Ordered) :
    LaidOver base doc (base.merge doc) ∧ (base.merge doc).merge doc = base.merge doc ∧
    ∀ {format : Format} {text : String} {s : Settings}, ofText format text = .ok s →
      ∃ d, format.parse? text = some d ∧ d.Ordered ∧ ChangedBy d s :=
  ⟨laidOver_merge base hdoc, merge_merge hbase hdoc, changedBy_of_ofText⟩

/-- A document that says the port of a database. -/
theorem documents_change_what_they_say_port :
    let base := object [("databases", .object [("a", .object [("host", .string "h")])])]
    let doc := object [("databases", .object [("a", .object [("port", .int 1)])])]
    ∃ s, ofText .toml "[databases.a]\nport = 1" = .ok s ∧
      at? ["databases", "a", "port"] s.toJson = some (.int 1) ∧
      at? ["databases", "a", "engine"] s.toJson = some (.string "sqlite") ∧
      at? ["databases", "a", "port"] (base.merge doc) = some (.int 1) ∧
      at? ["databases", "a", "host"] (base.merge doc) = some (.string "h") ∧
      (base.merge doc).merge doc = base.merge doc := by
  intro base doc
  have htext : "[databases.a]\nport = 1" = String.ofList ['[', 'd', 'a', 't', 'a', 'b', 'a', 's', 'e',
    's', '.', 'a', ']', '\n', 'p', 'o', 'r', 't', ' ', '=', ' ', '1'] := rfl
  have hparse : Format.parse? .toml "[databases.a]\nport = 1" = some doc := by
    rw [Format.parse?, Toml.parse?, Toml.read?, htext, String.toList_ofList]
    rfl
  have hload : ofText .toml "[databases.a]\nport = 1" =
      .ok { databases := [("a", { port := 1 }), ("default", {})] } := by
    rw [ofText, hparse]
    rfl
  have hbase : base.Ordered := by simp [base, Ordered, OrderedMembers, Assoc.IsSorted]
  have hdoc : doc.Ordered := Toml.ordered_of_parse? hparse
  obtain ⟨hlaid, hagain, hchange⟩ := documents_change_what_they_say hbase hdoc
  obtain ⟨d, hd, -, hsaid, hunsaid⟩ := hchange hload
  obtain rfl := Option.some.inj (hparse.symm.trans hd)
  have hbars {k : String} (hk : k ≠ "port") : ¬ doc.Bars ["databases", "a", k] := by
    refine Fits.not_bars fun v hv => ?_
    cases hv
    intro v hv
    cases hv
    intro v hv
    rw [Assoc.get?, if_neg hk.symm] at hv
    cases hv
  refine ⟨_, hload, hsaid (.database "a" .port) rfl, ?_, hlaid.value rfl rfl, ?_, hagain⟩
  · rw [hunsaid (.database "a" .engine) rfl (hbars (by simp))]
    rfl
  · exact (hlaid.unsaid rfl (hbars (by simp))).trans rfl

end Settings

end SqlKit
