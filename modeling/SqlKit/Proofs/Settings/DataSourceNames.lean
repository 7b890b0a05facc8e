import SqlKit.Proofs.Url.Written
import SqlKit.Settings.Dsn

/-!
# Data source names as they are written

Settings are written as a name with all text escaped, and the name is read.  Pool and options of a
server's name always come back.  User, password, host and name come back if and only if nothing in them
had to be escaped, and so do the options of a file's name.

    ofDsn of a server's name by what is said about its host            (ofDsn_serverName)
    ofDsn (serverName e scheme s) = .ok s ↔ e.Plain s                  (ofDsn_serverName_iff)
    a file's options come back ↔ nothing in them is escaped            (ofList_escapedOptions_iff)
-/

namespace SqlKit

/-! ## Entries in order -/

namespace Assoc

variable {α : Type}

/-- A key behind all others is put at the end. -/
theorem insert_eq_append {k : String} {v : α} {m : Assoc α} (h : ∀ e ∈ m, e.1 < k) :
    insert k v m = m ++ [(k, v)] := by
  induction m with
  | nil => rfl
  | cons e es ih =>
    obtain ⟨k', v'⟩ := e
    obtain ⟨hlt, hes⟩ := List.forall_mem_cons.1 h
    have hne : k' ≠ k := by
      rintro rfl
      exact String.lt_irrefl k' hlt
    rw [insert, if_neg hne, if_neg (String.lt_asymm hlt), ih hes, List.cons_append]

theorem foldl_insert_eq_append {m es : Assoc α} (h : IsSorted (m ++ es)) :
    es.foldl (fun m e => insert e.1 e.2 m) m = m ++ es := by
  induction es generalizing m with
  | nil => rw [List.foldl_nil, List.append_nil]
  | cons e es ih =>
    have hlast : ∀ e' ∈ m, e'.1 < e.1 := fun e' he' =>
      (List.pairwise_append.1 h).2.2 e' he' e (List.mem_cons_self ..)
    rw [List.foldl_cons, insert_eq_append hlast, ih, List.append_assoc, List.singleton_append]
    rwa [List.append_assoc, List.singleton_append]

/-- Entries in order are put in as they stand. -/
theorem ofList_of_isSorted {m : Assoc α} (h : IsSorted m) : ofList m = m :=
  foldl_insert_eq_append (m := []) h

/-- How long all keys and values are together. -/
def size : Assoc String → Nat
  | [] => 0
  | e :: m => e.1.length + e.2.length + size m

theorem size_cons (e : String × String) (m : Assoc String) :
    size (e :: m) = e.1.length + e.2.length + size m := rfl

theorem size_insert {k v : String} {m : Assoc String} (h : get? k m = none) :
    size (insert k v m) = k.length + v.length + size m := by
  induction m with
  | nil => rfl
  | cons e es ih =>
    obtain ⟨k', v'⟩ := e
    rw [get?] at h
    split at h
    · cases h
    · next hne =>
      rw [insert, if_neg hne]
      split
      · rw [size_cons]
      · rw [size_cons, ih h, size_cons]
        omega

theorem size_foldl_insert {es m : Assoc String} (hkeys : (es.map Prod.fst).Nodup)
    (hnew : ∀ e ∈ es, get? e.1 m = none) :
    size (es.foldl (fun m e => insert e.1 e.2 m) m) = size es + size m := by
  induction es generalizing m with
  | nil => exact (Nat.zero_add _).symm
  | cons e es ih =>
    rw [List.map_cons, List.nodup_cons] at hkeys
    obtain ⟨hfirst, hrest⟩ := List.forall_mem_cons.1 hnew
    have hnew' : ∀ e' ∈ es, get? e'.1 (insert e.1 e.2 m) = none := by
      intro e' he'
      have hne : e'.1 ≠ e.1 := fun heq => hkeys.1 (heq ▸ List.mem_map_of_mem he')
      rw [get?_insert_of_ne hne, hrest e' he']
    rw [List.foldl_cons, ih hkeys.2 hnew', size_insert hfirst, size_cons]
    omega

theorem size_ofList {es : Assoc String} (hkeys : (es.map Prod.fst).Nodup) :
    size (ofList es) = size es := size_foldl_insert hkeys fun _ _ => rfl

end Assoc

/-! ## Numbers -/

namespace Digits

theorem go_of_valueFrom? {bound n : Nat} (hn : n < bound) {cs : List Char} {acc : Nat}
    (h : valueFrom? acc cs = some n) : natBelow?.go bound acc cs = .ok n := by
  induction cs generalizing acc with
  | nil =>
    obtain rfl := Option.some.inj h
    rfl
  | cons c cs ih =>
    obtain ⟨d, hd, h⟩ := Option.bind_eq_some_iff.1 h
    have hle := Url.le_of_valueFrom? h
    rw [natBelow?.go, hd]
    simp only [if_pos (show 10 * acc + d < bound by omega), ih h]

theorem natBelow?_text {bound n : Nat} (h : n < bound) : natBelow? bound (text n) = .ok n := by
  have hvalue := valueFrom?_digits n
  have hgo := go_of_valueFrom? h hvalue
  rw [natBelow?, text, String.toList_ofList]
  split
  · next hnil => exact absurd hnil (digits_ne_nil n)
  · next hplus =>
    rw [hplus] at hvalue
    cases hvalue
  · next cs hplus =>
    rw [hplus] at hvalue
    cases hvalue
  · exact hgo

end Digits

namespace DatabaseSettings

/-! ## Options -/

theorem number_text (key : String) {n : Nat} (h : n < UInt64.size) :
    number key (Digits.text n) = .ok n := by
  rw [number, Digits.natBelow?_text h]

theorem count_text (key : String) (n : UInt32) : count key (Digits.text n.toNat) = .ok n := by
  have hn : n.toNat < UInt32.size := n.toNat_lt_size
  have hlt : n.toNat < UInt64.size := Nat.lt_trans hn (by decide)
  rw [count, number_text key hlt]
  simp only [bind, Except.bind, if_pos hn, UInt32.ofNat_toNat]
  rfl

/-- The options that set up a pool. -/
def poolPairs (p : PoolSettings) : List (String × String) :=
  [("pool_min_size", Digits.text p.minSize.toNat), ("pool_max_size", Digits.text p.maxSize.toNat),
    ("pool_timeout", Digits.text p.timeout.toNat)] ++
  (p.recycle.map fun n => ("pool_recycle", Digits.text n.toNat)).toList

theorem withOptions_append (xs ys : List (String × String)) (s : DatabaseSettings) :
    withOptions (xs ++ ys) s = (withOptions xs s).bind (withOptions ys) := by
  rw [withOptions, List.foldlM_append]
  rfl

section

variable (s : DatabaseSettings)

theorem withOption_minSize (n : UInt32) :
    s.withOption "pool_min_size" (Digits.text n.toNat) = .ok { s with pool.minSize := n } := by
  simp only [withOption, count_text, bind, Except.bind]
  rfl

theorem withOption_maxSize (n : UInt32) :
    s.withOption "pool_max_size" (Digits.text n.toNat) = .ok { s with pool.maxSize := n } := by
  simp only [withOption, count_text, bind, Except.bind]
  rfl

theorem withOption_timeout (n : UInt64) :
    s.withOption "pool_timeout" (Digits.text n.toNat) = .ok { s with pool.timeout := n } := by
  simp only [withOption, number_text _ n.toNat_lt_size, bind, Except.bind, UInt64.ofNat_toNat]
  rfl

theorem withOption_recycle (n : UInt64) :
    s.withOption "pool_recycle" (Digits.text n.toNat) =
      .ok { s with pool.recycle := some n } := by
  simp only [withOption, number_text _ n.toNat_lt_size, bind, Except.bind, UInt64.ofNat_toNat]
  rfl

end

/-- The options of a pool set it up. -/
theorem withOptions_poolPairs (p : PoolSettings) {s : DatabaseSettings}
    (h : s.pool.recycle = none) : withOptions (poolPairs p) s = .ok { s with pool := p } := by
  obtain ⟨minSize, maxSize, timeout, recycle⟩ := p
  have hsizes : withOptions [("pool_min_size", Digits.text minSize.toNat),
      ("pool_max_size", Digits.text maxSize.toNat), ("pool_timeout", Digits.text timeout.toNat)] s =
      .ok { s with pool := ⟨minSize, maxSize, timeout, none⟩ } := by
    simp only [withOptions, List.foldlM_cons, List.foldlM_nil, withOption_minSize,
      withOption_maxSize, withOption_timeout, bind, Except.bind, h]
    rfl
  rw [poolPairs, withOptions_append, hsizes]
  cases recycle with
  | none => rfl
  | some n =>
    simp only [Except.bind, Option.map_some, Option.toList_some, withOptions, List.foldlM_cons,
      List.foldlM_nil, withOption_recycle, bind]
    rfl

/-- Options that mean nothing for the pool are kept. -/
theorem withOptions_of_unknown {options : List (String × String)}
    (h : ∀ p ∈ options, p.1 ∉ poolKeys) (s : DatabaseSettings) :
    withOptions options s =
      .ok { s with options := options.foldl (fun m e => m.insert e.1 e.2) s.options } := by
  induction options generalizing s with
  | nil => rfl
  | cons p options ih =>
    obtain ⟨hp, hrest⟩ := List.forall_mem_cons.1 h
    rw [withOptions, List.foldlM_cons, withOption_of_unknown hp]
    exact ih hrest _

/-- Options in order are kept as they stand, and those of the pool set it up. -/
theorem withOptions_pairs (p : PoolSettings) {options : Assoc String}
    (hkeys : ∀ e ∈ options, e.1 ∉ poolKeys) {s : DatabaseSettings} (hpool : s.pool.recycle = none)
    (hoptions : s.options = []) :
    withOptions (poolPairs p ++ options) s =
      .ok { s with pool := p, options := Assoc.ofList options } := by
  rw [withOptions_append, withOptions_poolPairs p hpool]
  simp only [Except.bind, withOptions_of_unknown hkeys, hoptions]
  rfl

end DatabaseSettings

open DatabaseSettings

/-! ## Writing -/

theorem Url.mem_of_mem_intercalate {sep c : Char} {ps : List (List Char)}
    (h : c ∈ [sep].intercalate ps) : c = sep ∨ ∃ p ∈ ps, c ∈ p := by
  induction ps with
  | nil => cases h
  | cons p ps ih =>
    cases ps with
    | nil =>
      rw [List.intercalate_singleton] at h
      exact .inr ⟨p, List.mem_cons_self .., h⟩
    | cons q qs =>
      rw [List.intercalate_cons_cons, List.append_assoc, List.singleton_append] at h
      rcases List.mem_append.1 h with h | h
      · exact .inr ⟨p, List.mem_cons_self .., h⟩
      · rcases List.mem_cons.1 h with h | h
        · exact .inl h
        · exact (ih h).imp id fun ⟨r, hr, hc⟩ => ⟨r, List.mem_cons_of_mem _ hr, hc⟩

namespace Url.Escaping

variable (e : Escaping)

/-- A key and a value as they are written. -/
def writePair (p : String × String) : List Char × List Char :=
  (e.write .query p.1.toList, e.write .query p.2.toList)

/-- Pairs as a query. -/
def query (pairs : List (String × String)) : List Char :=
  ['&'].intercalate ((pairs.map e.writePair).map fun p => p.1 ++ '=' :: p.2)

theorem rawPairs_query (pairs : List (String × String)) :
    rawPairs (e.query pairs) = pairs.map e.writePair := by
  refine rawPairs_intercalate fun p hp => ?_
  obtain ⟨q, -, rfl⟩ := List.mem_map.1 hp
  exact ⟨fun h => (query_letters _ (e.mem_write h)).1 rfl,
    fun h => (query_letters _ (e.mem_write h)).2.1 rfl,
    fun h => (query_letters _ (e.mem_write h)).1 rfl⟩

theorem formText_write (s : String) : formText (e.write .query s.toList) = s := by
  have hescaped {c : Char} (hc : c ∉ Part.query.allowed) : (!e.kept .query c) = true := by
    rw [Bool.not_eq_true']
    exact Bool.eq_false_iff.2 fun hkept => hc (e.allowed_of_kept hkept)
  rw [write, formText_encode (hescaped (by decide)) (hescaped (by decide)), String.ofList_toList]

/-- The pairs of a query are found again. -/
theorem formPairs_query (pairs : List (String × String)) : formPairs (e.query pairs) = pairs := by
  rw [formPairs, rawPairs_query, List.map_map]
  refine (List.map_congr_left fun p _ => ?_).trans (List.map_id _)
  rw [Function.comp_apply, writePair, formText_write, formText_write]
  rfl

theorem mem_query {pairs : List (String × String)} {c : Char} (h : c ∈ e.query pairs) :
    c ≠ '#' ∧ 0x20 < c.toNat := by
  rcases mem_of_mem_intercalate h with rfl | ⟨p, hp, hc⟩
  · decide
  · obtain ⟨q, hq, rfl⟩ := List.mem_map.1 hp
    obtain ⟨r, -, rfl⟩ := List.mem_map.1 hq
    rcases List.mem_append.1 hc with hc | hc
    · exact (query_letters c (e.mem_write hc)).2.2
    · rcases List.mem_cons.1 hc with rfl | hc
      · decide
      · exact (query_letters c (e.mem_write hc)).2.2

end Url.Escaping

namespace DatabaseSettings

open Url

/-- All options that settings are written with. -/
def pairs (s : DatabaseSettings) : List (String × String) := poolPairs s.pool ++ s.options

/-- A server's settings as a name. -/
def serverName (e : Escaping) (scheme : String) (s : DatabaseSettings) : String :=
  scheme ++ "://" ++ String.ofList (e.locator s.user.toList s.password.toList s.host.toList
    s.port.toNat s.name.toList (e.query s.pairs))

/-- A file's settings as a name. -/
def fileName (e : Escaping) (scheme path : String) (s : DatabaseSettings) : String :=
  scheme ++ "://" ++ String.ofList (path.toList ++ '?' :: e.query s.pairs)

/-- Settings that need no escapes. -/
structure Plain (e : Escaping) (s : DatabaseSettings) : Prop where
  user : ∀ c ∈ s.user.toList, e.kept .user c = true ∧ isCredentialUnsafe c = false
  password : ∀ c ∈ s.password.toList, e.kept .password c = true ∧ isCredentialUnsafe c = false
  host : e.PlainHost s.host.toList
  name : e.PlainPath s.name.toList

/-! ## Servers -/

/-- The engine a scheme stands for. -/
def engine? : String → Option String
  | "postgres" | "postgresql" => some "postgres"
  | "mysql" => some "mysql"
  | _ => none

theorem splitScheme?_append {scheme : String} (h : ':' ∉ scheme.toList) (rest : List Char) :
    splitScheme? (scheme ++ "://" ++ String.ofList rest) = some (scheme.toList, rest) := by
  have hlist : (scheme ++ "://" ++ String.ofList rest).toList =
      scheme.toList ++ (':' :: ['/', '/'] ++ rest) := by
    simp
  rw [splitScheme?, hlist]
  exact Text.splitOnceAt?_append h ['/', '/'] rest

theorem ofDsn_of_engine? {scheme engine : String} (h : engine? scheme = some engine)
    (rest : List Char) :
    ofDsn (scheme ++ "://" ++ String.ofList rest) =
      ofUrl engine (scheme ++ "://" ++ String.ofList rest) rest := by
  unfold engine? at h
  split at h
  · cases h
    rw [ofDsn, splitScheme?_append (by decide)]
    rfl
  · cases h
    rw [ofDsn, splitScheme?_append (by decide)]
    rfl
  · cases h
    rw [ofDsn, splitScheme?_append (by decide)]
    rfl
  · cases h

/-- What is read of a server's settings. -/
def readBack (e : Escaping) (s : DatabaseSettings) (host : String) : DatabaseSettings :=
  { s with
    user := String.ofList (encode isCredentialUnsafe (e.write .user s.user.toList))
    password := String.ofList (encode isCredentialUnsafe (e.write .password s.password.toList))
    host
    name := String.ofList (e.readPath s.name.toList) }

theorem ofDsn_serverName (e : Escaping) {scheme : String} {s : DatabaseSettings}
    (hengine : engine? scheme = some s.engine) (hsorted : s.options.IsSorted)
    (hkeys : ∀ p ∈ s.options, p.1 ∉ poolKeys) :
    ofDsn (serverName e scheme s) =
      match host? (e.writeHost s.host.toList) with
      | .error fault => .error (invalid (serverName e scheme s) fault.message)
      | .ok none => .error (invalid (serverName e scheme s) Fault.emptyHost.message)
      | .ok (some host) => .ok (readBack e s host) := by
  rw [serverName, ofDsn_of_engine? hengine, ofUrl,
    read?_locator e _ _ _ _ s.port.toNat_lt fun c hc => e.mem_query hc]
  cases host? (e.writeHost s.host.toList) with
  | error fault => rfl
  | ok found =>
    cases found with
    | none => rfl
    | some host =>
      simp only [e.pathText_write, e.formPairs_query, String.toList_ofList, e.dropWhile_readPath]
      rw [pairs, withOptions_pairs s.pool hkeys rfl rfl, Assoc.ofList_of_isSorted hsorted]
      simp only [Option.getD_some, UInt16.ofNat_toNat]
      rfl

theorem ofList_eq_iff {cs : List Char} {t : String} : String.ofList cs = t ↔ cs = t.toList := by
  rw [← String.toList_inj, String.toList_ofList]

theorem credential_iff (e : Escaping) {part : Part} {t : String} :
    String.ofList (encode isCredentialUnsafe (e.write part t.toList)) = t ↔
      ∀ c ∈ t.toList, e.kept part c = true ∧ isCredentialUnsafe c = false := by
  rw [ofList_eq_iff, Escaping.write, encode_encode_eq_self_iff]
  simp only [Bool.not_eq_false']

theorem readBack_eq_self_iff (e : Escaping) {s : DatabaseSettings} {host : String} :
    readBack e s host = s ↔
      (∀ c ∈ s.user.toList, e.kept .user c = true ∧ isCredentialUnsafe c = false) ∧
      (∀ c ∈ s.password.toList, e.kept .password c = true ∧ isCredentialUnsafe c = false) ∧
      host = s.host ∧ e.PlainPath s.name.toList := by
  rw [← credential_iff, ← credential_iff, ← e.readPath_eq_self_iff, ← ofList_eq_iff]
  obtain ⟨engine, name, user, password, host', port, pool, options⟩ := s
  simp only [readBack, mk.injEq, true_and, and_true]
  constructor
  · rintro ⟨hname, huser, hpassword, hhost⟩
    exact ⟨huser, hpassword, hhost, hname⟩
  · rintro ⟨huser, hpassword, hhost, hname⟩
    exact ⟨hname, huser, hpassword, hhost⟩

/-- The name of a server's settings is read as the settings if they need no escapes, and only then. -/
theorem ofDsn_serverName_iff (e : Escaping) {scheme : String} {s : DatabaseSettings}
    (hengine : engine? scheme = some s.engine) (hsorted : s.options.IsSorted)
    (hkeys : ∀ p ∈ s.options, p.1 ∉ poolKeys) :
    ofDsn (serverName e scheme s) = .ok s ↔ Plain e s := by
  have hhost := host?_writeHost_iff e s.host.toList
  rw [String.ofList_toList] at hhost
  rw [ofDsn_serverName e hengine hsorted hkeys]
  constructor
  · intro h
    split at h
    · cases h
    · cases h
    · next host hread =>
      obtain ⟨huser, hpassword, rfl, hname⟩ :=
        (readBack_eq_self_iff e).1 (Except.ok.inj h)
      exact ⟨huser, hpassword, hhost.1 hread, hname⟩
  · rintro ⟨huser, hpassword, hplain, hname⟩
    rw [hhost.2 hplain]
    exact congrArg Except.ok ((readBack_eq_self_iff e).2 ⟨huser, hpassword, rfl, hname⟩)

/-! ## Files -/

/-- Options as a file's name keeps them. -/
def escapedOptions (e : Escaping) (options : Assoc String) : List (String × String) :=
  options.map fun p =>
    (String.ofList (e.write .query p.1.toList), String.ofList (e.write .query p.2.toList))

theorem size_escapedOptions_cons (e : Escaping) (p : String × String) (options : Assoc String) :
    Assoc.size (escapedOptions e (p :: options)) =
      (String.ofList (e.write .query p.1.toList)).length +
        (String.ofList (e.write .query p.2.toList)).length +
        Assoc.size (escapedOptions e options) := rfl

theorem ofList_write_injective (e : Escaping) {k k' : String}
    (h : String.ofList (e.write .query k.toList) = String.ofList (e.write .query k'.toList)) :
    k = k' := by
  rw [← e.formText_write k, String.ofList_injective h, e.formText_write]

/-- What needs no escapes is written as it is. -/
theorem ofList_write_of_kept (e : Escaping) {k : String}
    (h : ∀ c ∈ k.toList, e.kept .query c = true) :
    String.ofList (e.write .query k.toList) = k := by
  rw [e.write_eq_self_iff.2 h, String.ofList_toList]

theorem kept_of_mem_poolKeys (e : Escaping) {k : String} (hk : k ∈ poolKeys) :
    ∀ c ∈ k.toList, e.kept .query c = true := by
  have hletters : ∀ k ∈ poolKeys, k.toList.all unreserved.contains = true := by decide
  intro c hc
  exact e.kept_of_unreserved (List.contains_iff_mem.1 (List.all_eq_true.1 (hletters k hk) c hc))

theorem kept_of_mem_text (e : Escaping) (n : Nat) :
    ∀ c ∈ (Digits.text n).toList, e.kept .query c = true := by
  intro c hc
  rw [Digits.text, String.toList_ofList] at hc
  exact e.kept_of_unreserved (mem_unreserved_of_mem_digits hc)

theorem escapedOptions_poolPairs (e : Escaping) (p : PoolSettings) :
    escapedOptions e (poolPairs p) = poolPairs p := by
  have hkept : ∀ q ∈ poolPairs p, q.1 ∈ poolKeys ∧ ∃ n, q.2 = Digits.text n := by
    intro q hq
    simp only [poolPairs, List.mem_append, List.mem_cons, List.not_mem_nil, or_false,
      Option.mem_toList, Option.map_eq_some_iff] at hq
    rcases hq with (rfl | rfl | rfl) | ⟨n, -, rfl⟩
    · exact ⟨by simp [poolKeys], _, rfl⟩
    · exact ⟨by simp [poolKeys], _, rfl⟩
    · exact ⟨by simp [poolKeys], _, rfl⟩
    · exact ⟨by simp [poolKeys], _, rfl⟩
  refine (List.map_congr_left fun q hq => ?_).trans (List.map_id _)
  obtain ⟨hkey, n, hvalue⟩ := hkept q hq
  rw [ofList_write_of_kept e (kept_of_mem_poolKeys e hkey),
    ofList_write_of_kept e (hvalue ▸ kept_of_mem_text e n)]
  rfl

/-- An escaped key is not taken for one of the pool's. -/
theorem not_mem_poolKeys_of_mem_escapedOptions (e : Escaping) {options : Assoc String}
    (hkeys : ∀ p ∈ options, p.1 ∉ poolKeys) :
    ∀ p ∈ escapedOptions e options, p.1 ∉ poolKeys := by
  intro p hp hkey
  obtain ⟨q, hq, rfl⟩ := List.mem_map.1 hp
  have hsame := ofList_write_of_kept e (kept_of_mem_poolKeys e hkey)
  exact hkeys q hq (ofList_write_injective e hsame ▸ hkey)

theorem ofDsn_of_sqlite {scheme : String} (h : scheme ∈ ["sqlite", "sqlite3"])
    (rest : List Char) :
    ofDsn (scheme ++ "://" ++ String.ofList rest) =
      ofPath (scheme ++ "://" ++ String.ofList rest) rest := by
  simp only [List.mem_cons, List.not_mem_nil, or_false] at h
  rcases h with rfl | rfl
  · rw [ofDsn, splitScheme?_append (by decide)]
    rfl
  · rw [ofDsn, splitScheme?_append (by decide)]
    rfl

theorem ofDsn_fileName (e : Escaping) {scheme : String} (hscheme : scheme ∈ ["sqlite", "sqlite3"])
    {path : String} (hpath : path ≠ "") (hmark : '?' ∉ path.toList) {s : DatabaseSettings}
    (hkeys : ∀ p ∈ s.options, p.1 ∉ poolKeys) :
    ofDsn (fileName e scheme path s) = .ok
      { sqlite path with pool := s.pool, options := Assoc.ofList (escapedOptions e s.options) } := by
  have hnonempty : ¬ path.toList.isEmpty = true := by simpa using hpath
  have hpairs : ((e.query s.pairs |> rawPairs).map fun p =>
      (String.ofList p.1, String.ofList p.2)) =
        poolPairs s.pool ++ escapedOptions e s.options := by
    rw [e.rawPairs_query, List.map_map, pairs, List.map_append]
    exact congrArg (· ++ _) (escapedOptions_poolPairs e s.pool)
  rw [fileName, ofDsn_of_sqlite hscheme, ofPath, Text.splitOnce?_append hmark, Option.getD_some]
  simp only [if_neg hnonempty, hpairs, String.ofList_toList]
  exact withOptions_pairs s.pool (not_mem_poolKeys_of_mem_escapedOptions e hkeys) rfl rfl

theorem nodup_escapedOptions (e : Escaping) {options : Assoc String} (h : options.IsSorted) :
    ((escapedOptions e options).map Prod.fst).Nodup := by
  rw [escapedOptions, List.map_map, List.Nodup, List.pairwise_map]
  refine List.Pairwise.imp (fun hlt heq => ?_) h
  rw [ofList_write_injective e heq] at hlt
  exact String.lt_irrefl _ hlt

theorem length_le_length_write (e : Escaping) (t : String) :
    t.length ≤ (String.ofList (e.write .query t.toList)).length := by
  have hle := length_le_length_encode (fun c => !e.kept .query c) t.toList
  rwa [String.length_toList, ← String.length_ofList] at hle

theorem kept_of_length_le (e : Escaping) {t : String}
    (h : (String.ofList (e.write .query t.toList)).length ≤ t.length) :
    ∀ c ∈ t.toList, e.kept .query c = true := by
  rw [String.length_ofList, ← String.length_toList] at h
  exact fun c hc => by simpa using safe_of_length_encode_le h c hc

theorem size_le_size_escapedOptions (e : Escaping) (options : Assoc String) :
    Assoc.size options ≤ Assoc.size (escapedOptions e options) := by
  induction options with
  | nil => exact Nat.le_refl _
  | cons p options ih =>
    have hkey := length_le_length_write e p.1
    have hvalue := length_le_length_write e p.2
    rw [size_escapedOptions_cons, Assoc.size_cons]
    omega

/-- Escapes make options longer. -/
theorem kept_of_size_le (e : Escaping) {options : Assoc String}
    (h : Assoc.size (escapedOptions e options) ≤ Assoc.size options) :
    ∀ p ∈ options, (∀ c ∈ p.1.toList, e.kept .query c = true) ∧
      ∀ c ∈ p.2.toList, e.kept .query c = true := by
  induction options with
  | nil => exact fun p hp => absurd hp List.not_mem_nil
  | cons p options ih =>
    have hkey := length_le_length_write e p.1
    have hvalue := length_le_length_write e p.2
    have hrest := size_le_size_escapedOptions e options
    rw [size_escapedOptions_cons, Assoc.size_cons] at h
    exact List.forall_mem_cons.2
      ⟨⟨kept_of_length_le e (by omega), kept_of_length_le e (by omega)⟩, ih (by omega)⟩

theorem ofList_escapedOptions_iff (e : Escaping) {options : Assoc String}
    (h : options.IsSorted) : Assoc.ofList (escapedOptions e options) = options ↔
      ∀ p ∈ options, (∀ c ∈ p.1.toList, e.kept .query c = true) ∧
        ∀ c ∈ p.2.toList, e.kept .query c = true := by
  constructor
  · intro heq
    refine kept_of_size_le e (Nat.le_of_eq ?_)
    rw [← Assoc.size_ofList (nodup_escapedOptions e h), heq]
  · intro hkept
    have hsame : escapedOptions e options = options := by
      refine (List.map_congr_left fun p hp => ?_).trans (List.map_id _)
      rw [ofList_write_of_kept e (hkept p hp).1, ofList_write_of_kept e (hkept p hp).2]
      rfl
    rw [hsame, Assoc.ofList_of_isSorted h]

/-! ## Names -/

/-- What is written of settings is read: always the pool and a server's options, all else if nothing
in it had to be escaped, and only then. -/
theorem written_names_read_back_iff (e : Escaping) {scheme : String} {s : DatabaseSettings}
    (hengine : engine? scheme = some s.engine) (hsorted : s.options.IsSorted)
    (hkeys : ∀ p ∈ s.options, p.1 ∉ poolKeys) :
    (ofDsn (serverName e scheme s) = .ok s ↔ Plain e s) ∧
    (∀ {t}, ofDsn (serverName e scheme s) = .ok t →
      t.port = s.port ∧ t.pool = s.pool ∧ t.options = s.options) ∧
    ∀ {file path}, file ∈ ["sqlite", "sqlite3"] → path ≠ "" → '?' ∉ path.toList →
      ∃ t, ofDsn (fileName e file path s) = .ok t ∧ t.name = path ∧ t.pool = s.pool ∧
        (t.options = s.options ↔ ∀ p ∈ s.options,
          (∀ c ∈ p.1.toList, e.kept .query c = true) ∧
            ∀ c ∈ p.2.toList, e.kept .query c = true) := by
  refine ⟨ofDsn_serverName_iff e hengine hsorted hkeys, fun h => ?_, fun hfile hpath hmark => ?_⟩
  · rw [ofDsn_serverName e hengine hsorted hkeys] at h
    split at h
    · cases h
    · cases h
    · cases h
      exact ⟨rfl, rfl, rfl⟩
  · exact ⟨_, ofDsn_fileName e hfile hpath hmark hkeys, rfl, rfl,
      ofList_escapedOptions_iff e hsorted⟩

/-- Settings without anything to escape. -/
theorem written_names_read_back_iff_plain :
    let s := { postgres "h" 5432 "d" "u" "p" with options := [("charset", "utf8mb4")] }
    serverName .sparing "postgres" s = "postgres://u:p@h:5432/d?pool_min_size=1" ++
      "&pool_max_size=10&pool_timeout=60&charset=utf8mb4" ∧
    ofDsn (serverName .sparing "postgres" s) = .ok s ∧
    ∃ t, ofDsn (fileName .sparing "sqlite" "a.db" s) = .ok t ∧ t.pool = s.pool ∧
      t.options = s.options := by
  intro s
  have hhost : Escaping.PlainHost .sparing s.host.toList := by
    rw [Escaping.PlainHost, if_neg (by decide)]
    exact ⟨by decide, forall_mem_of_all (by decide)⟩
  have hname : Escaping.PlainPath .sparing s.name.toList :=
    ⟨forall_mem_of_all (by decide), by decide, by decide⟩
  have hengine : engine? "postgres" = some s.engine := rfl
  have hsorted : s.options.IsSorted := List.pairwise_singleton ..
  obtain ⟨hserver, -, hfile⟩ := written_names_read_back_iff .sparing hengine hsorted (by decide)
  have hscheme : "sqlite" ∈ ["sqlite", "sqlite3"] := by decide
  have hpath : "a.db" ≠ "" := by decide
  obtain ⟨t, ht, -, hpool, hoptions⟩ := hfile hscheme hpath (by decide)
  have huser : ∀ c ∈ s.user.toList, Escaping.sparing.kept .user c = true ∧
      isCredentialUnsafe c = false := forall_mem_of_all (by decide)
  have hpassword : ∀ c ∈ s.password.toList, Escaping.sparing.kept .password c = true ∧
      isCredentialUnsafe c = false := forall_mem_of_all (by decide)
  have hkept : ∀ p ∈ s.options, (∀ c ∈ p.1.toList, Escaping.sparing.kept .query c = true) ∧
      ∀ c ∈ p.2.toList, Escaping.sparing.kept .query c = true :=
    List.forall_mem_singleton.2
      ⟨forall_mem_of_all (by decide), forall_mem_of_all (by decide)⟩
  exact ⟨by decide +kernel, hserver.2 ⟨huser, hpassword, hhost, hname⟩, t, ht, hpool,
    hoptions.2 hkept⟩

/-- A password with an at sign, and an option with a blank: one is read with its escape, the other
without it from a server's name and with it from a file's. -/
theorem names_keep_escapes :
    let s := { postgres "h" 5432 "d" "u" "p@ss" with options := [("x", " y")] }
    serverName .sparing "postgres" s = "postgres://u:p%40ss@h:5432/d?pool_min_size=1" ++
      "&pool_max_size=10&pool_timeout=60&x=%20y" ∧
    ofDsn (serverName .sparing "postgres" s) = .ok { s with password := "p%40ss" } ∧
    ofDsn (serverName .sparing "postgres" s) ≠ .ok s ∧
    fileName .sparing "sqlite" "a" s =
      "sqlite://a?pool_min_size=1&pool_max_size=10&pool_timeout=60&x=%20y" ∧
    ofDsn (fileName .sparing "sqlite" "a" s) =
      .ok { sqlite "a" with options := [("x", "%20y")] } := by
  intro s
  have hhost : Escaping.PlainHost .sparing s.host.toList := by
    rw [Escaping.PlainHost, if_neg (by decide)]
    exact ⟨by decide, forall_mem_of_all (by decide)⟩
  have hread := (host?_writeHost_iff .sparing s.host.toList).2 hhost
  rw [String.ofList_toList] at hread
  have hsorted : s.options.IsSorted := List.pairwise_singleton ..
  have hkeys : ∀ p ∈ s.options, p.1 ∉ poolKeys := by decide
  have hserver : ofDsn (serverName .sparing "postgres" s) = .ok { s with password := "p%40ss" } := by
    rw [ofDsn_serverName .sparing rfl hsorted hkeys, hread]
    exact congrArg Except.ok (by decide +kernel)
  have hfile : ofDsn (fileName .sparing "sqlite" "a" s) =
      .ok { sqlite "a" with options := [("x", "%20y")] } := by
    rw [ofDsn_fileName .sparing (by decide) (by decide) (by decide) hkeys]
    exact congrArg Except.ok (by decide +kernel)
  refine ⟨by decide +kernel, hserver, fun heq => ?_, by decide +kernel, hfile⟩
  rw [hserver] at heq
  exact absurd (Except.ok.inj heq) (by decide)

end DatabaseSettings

end SqlKit
