import SqlKit.Proofs.Url.Escaped
import SqlKit.Url

/-!
# Locators as they are written

A locator is written part by part, each with its own characters and all others escaped, and it is
read part by part: credentials and path stay as they are written, host and port are found again.

    read? (locator …) by what is said about its host                   (read?_locator)
    host? (e.writeHost h) = .ok (some h) ↔ the host is plain           (host?_writeHost_iff)
    what is read of a path is the path ↔ the path is plain             (readPath_eq_self_iff)
-/

namespace SqlKit.Url

theorem forall_mem_of_all {p : Char → Prop} [DecidablePred p] {cs : List Char}
    (h : (cs.all fun c => decide (p c)) = true) : ∀ c ∈ cs, p c :=
  fun c hc => of_decide_eq_true (List.all_eq_true.1 h c hc)

/-! ## Escapings -/

/-- The parts of a locator that may hold any text. -/
inductive Part where
  | user
  | password
  | host
  | path
  /-- A key or a value of the query. -/
  | query
deriving DecidableEq, Repr

/-- The characters that are never escaped. -/
def unreserved : List Char :=
  "ABCDEFGHIJKLMNOPQRSTUVWXYZabcdefghijklmnopqrstuvwxyz0123456789-._~".toList

/-- The characters that may stand for themselves in some parts. -/
def delimiters : List Char := ['!', '$', '\'', '(', ')', '*', ',', ';']

/-- The characters that may stand for themselves in a part. -/
def Part.allowed : Part → List Char
  | user => unreserved ++ delimiters ++ ['&', '+', '=']
  | password => unreserved ++ delimiters ++ ['&', '+', '=', ':']
  | host => unreserved ++ delimiters ++ ['&', '+', '=']
  | path => unreserved ++ delimiters ++ ['&', '+', '=', ':', '@']
  | query => unreserved ++ delimiters ++ [':', '@', '/', '?']

/-- The characters that a part is written with. -/
def Part.letters (part : Part) : List Char := '%' :: part.allowed

theorem mem_unreserved_of_mem_digits {n : Nat} {c : Char} (h : c ∈ Digits.digits n) :
    c ∈ unreserved := by
  have hdigit : c.isDigit = true := Nat.isDigit_of_mem_toDigits (by decide) (by decide) h
  have key : ∀ n < 58, 48 ≤ n → Char.ofNat n ∈ unreserved := by decide
  simp only [Char.isDigit, Bool.and_eq_true, decide_eq_true_eq] at hdigit
  have hlo : 48 ≤ c.toNat := hdigit.1
  have hhi : c.toNat ≤ 57 := hdigit.2
  rw [← Char.ofNat_toNat c]
  exact key c.toNat (by omega) hlo

/-- A way to escape text: which characters stand for themselves in a part. -/
structure Escaping where
  kept : Part → Char → Bool
  /-- What never has to be escaped is not. -/
  kept_of_unreserved : ∀ {part c}, c ∈ unreserved → kept part c = true
  /-- What has to be escaped is. -/
  allowed_of_kept : ∀ {part c}, kept part c = true → c ∈ part.allowed

namespace Escaping

/-- The escaping that escapes nothing without need. -/
def sparing : Escaping where
  kept part c := part.allowed.contains c
  kept_of_unreserved {part c} hc := by
    cases part <;> simp [Part.allowed, hc]
  allowed_of_kept hkept := List.contains_iff_mem.1 hkept

variable (e : Escaping)

/-- The text of a part. -/
def write (part : Part) (cs : List Char) : List Char := encode (fun c => !e.kept part c) cs

theorem mem_write {part : Part} {c : Char} {cs : List Char} (h : c ∈ e.write part cs) :
    c ∈ part.letters := by
  rcases mem_encode h with ⟨-, hkept⟩ | hmark
  · exact List.mem_cons_of_mem _ (e.allowed_of_kept (by simpa using hkept))
  · have hmarks : ∀ c ∈ escapeMarks, c = '%' ∨ c ∈ unreserved :=
      forall_mem_of_all (by decide)
    rcases hmarks c hmark with rfl | hc
    · exact List.mem_cons_self ..
    · exact List.mem_cons_of_mem _ (e.allowed_of_kept (e.kept_of_unreserved hc))

theorem write_eq_self_iff {part : Part} {cs : List Char} :
    e.write part cs = cs ↔ ∀ c ∈ cs, e.kept part c = true := by
  rw [write, encode_eq_self_iff]
  simp

theorem write_nil (part : Part) : e.write part [] = [] := rfl

theorem write_eq_nil_iff {part : Part} {cs : List Char} : e.write part cs = [] ↔ cs = [] := by
  constructor
  · intro h
    have hle := length_le_length_encode (fun c => !e.kept part c) cs
    rw [← write, h] at hle
    exact List.eq_nil_of_length_eq_zero (Nat.le_zero.1 hle)
  · rintro rfl
    rfl

end Escaping

/-! ## What the letters are -/

theorem user_letters : ∀ c ∈ Part.user.letters,
    c ≠ ':' ∧ c ≠ '@' ∧ endsAuthority c = false ∧ 0x20 < c.toNat := forall_mem_of_all (by decide)

theorem password_letters : ∀ c ∈ Part.password.letters,
    c ≠ '@' ∧ endsAuthority c = false ∧ 0x20 < c.toNat := forall_mem_of_all (by decide)

theorem host_letters : ∀ c ∈ Part.host.letters,
    c ≠ ':' ∧ c ≠ '@' ∧ c ≠ '[' ∧ endsAuthority c = false ∧ 0x20 < c.toNat ∧ isControl c = false ∧
      ['\x00', '\t', '\n', '\r', ' ', '#', '/', ':', '<', '>', '?', '@', '[', '\\', ']',
        '^', '|'].contains c = false := forall_mem_of_all (by decide)

theorem path_letters : ∀ c ∈ Part.path.letters,
    c ≠ '/' ∧ c ≠ '?' ∧ c ≠ '#' ∧ 0x20 < c.toNat ∧ isPathUnsafe c = false :=
  forall_mem_of_all (by decide)

theorem path_allowed : ∀ c ∈ Part.path.allowed, c.toLower ≠ '%' ∧ (c.toLower = '.' → c = '.') :=
  forall_mem_of_all (by decide)

theorem query_letters : ∀ c ∈ Part.query.letters,
    c ≠ '&' ∧ c ≠ '=' ∧ c ≠ '#' ∧ 0x20 < c.toNat := forall_mem_of_all (by decide)

/-! ## Hosts -/

/-- The characters of an address in brackets. -/
def addressLetters : List Char := "0123456789ABCDEFabcdef:.".toList

/-- Is the host an address in brackets? -/
def isAddress : List Char → Bool
  | '[' :: cs => cs.getLast? == some ']' && cs.dropLast.all addressLetters.contains
  | _ => false

/-- An address is written as it is, any other host with escapes. -/
def Escaping.writeHost (e : Escaping) (host : List Char) : List Char :=
  if isAddress host then host else e.write .host host

theorem eq_of_isAddress {host : List Char} (h : isAddress host = true) :
    ∃ address, host = '[' :: (address ++ [']']) ∧ ∀ c ∈ address, c ∈ addressLetters := by
  unfold isAddress at h
  split at h
  · next cs =>
    rw [Bool.and_eq_true, beq_iff_eq, List.all_eq_true] at h
    obtain ⟨hlast, hall⟩ := h
    obtain ⟨address, rfl⟩ := List.getLast?_eq_some_iff.1 hlast
    rw [List.dropLast_concat] at hall
    exact ⟨address, rfl, fun c hc => List.contains_iff_mem.1 (hall c hc)⟩
  · cases h

theorem address_letters : ∀ c ∈ '[' :: ']' :: addressLetters,
    c ≠ '@' ∧ endsAuthority c = false ∧ 0x20 < c.toNat := forall_mem_of_all (by decide)

theorem Escaping.writeHost_letters (e : Escaping) {host : List Char} {c : Char}
    (h : c ∈ e.writeHost host) : c ≠ '@' ∧ endsAuthority c = false ∧ 0x20 < c.toNat := by
  unfold writeHost at h
  split at h
  · next haddress =>
    obtain ⟨address, rfl, hall⟩ := eq_of_isAddress haddress
    refine address_letters c ?_
    simp only [List.mem_cons, List.mem_append, List.not_mem_nil, or_false] at h ⊢
    rcases h with h | h | h
    · exact .inl h
    · exact .inr (.inr (hall c h))
    · exact .inr (.inl h)
  · obtain ⟨-, hat, -, hends, hgraphic, -⟩ := host_letters c (e.mem_write h)
    exact ⟨hat, hends, hgraphic⟩

theorem splitHost_append {host : List Char} (h : ∀ c ∈ host, c ≠ ':' ∧ c ≠ '[') (rest : List Char) :
    splitHost false (host ++ ':' :: rest) = (host, ':' :: rest) := by
  induction host with
  | nil => rfl
  | cons c cs ih =>
    obtain ⟨⟨hcolon, hbracket⟩, hcs⟩ := List.forall_mem_cons.1 h
    rw [List.cons_append, splitHost, if_neg (by simp [hcolon])]
    simp only [hbracket, decide_false, Bool.false_and, Bool.or_false, ih hcs]

/-- Within brackets colons do not count. -/
theorem splitHost_brackets {address : List Char} (h : ∀ c ∈ address, c ≠ ']') (rest : List Char) :
    splitHost true (address ++ ']' :: ':' :: rest) = (address ++ [']'], ':' :: rest) := by
  induction address with
  | nil => rfl
  | cons c cs ih =>
    obtain ⟨hbracket, hcs⟩ := List.forall_mem_cons.1 h
    rw [List.cons_append, splitHost, if_neg (by simp)]
    simp only [hbracket, ne_eq, not_false_eq_true, decide_true, Bool.and_self, Bool.or_true, ih hcs]
    rfl

theorem splitHost_writeHost (e : Escaping) (host rest : List Char) :
    splitHost false (e.writeHost host ++ ':' :: rest) = (e.writeHost host, ':' :: rest) := by
  unfold Escaping.writeHost
  split
  · next haddress =>
    obtain ⟨address, rfl, hall⟩ := eq_of_isAddress haddress
    have hletters : ∀ c ∈ addressLetters, c ≠ ']' := forall_mem_of_all (by decide)
    rw [List.cons_append, List.append_assoc, List.singleton_append, splitHost, if_neg (by simp)]
    simp only [decide_true, Bool.true_or, splitHost_brackets fun c hc => hletters c (hall c hc)]
  · refine splitHost_append (fun c hc => ?_) rest
    obtain ⟨hcolon, -, hbracket, -⟩ := host_letters c (e.mem_write hc)
    exact ⟨hcolon, hbracket⟩

/-- A host that is read as it is. -/
def Escaping.PlainHost (e : Escaping) (host : List Char) : Prop :=
  if isAddress host then
    ∃ gs, Ipv6.read? (host.drop 1).dropLast = some gs ∧
      (Ipv6.text gs).toList = (host.drop 1).dropLast
  else host ≠ [] ∧ ∀ c ∈ host, e.kept .host c = true

theorem host?_write (e : Escaping) {host : List Char} (h : host ≠ []) :
    host? (e.write .host host) = .ok (some (String.ofList (e.write .host host))) := by
  have hne : e.write .host host ≠ [] := fun heq => h (e.write_eq_nil_iff.1 heq)
  have hletters {c : Char} (hc : c ∈ e.write .host host) := host_letters c (e.mem_write hc)
  have hbracket : (e.write .host host).head? ≠ some '[' := fun heq =>
    (hletters (List.mem_of_mem_head? heq)).2.2.1 rfl
  rw [host?, if_neg (by simpa using hne), if_neg hbracket, if_neg,
    encode_of_safe fun c hc => (hletters hc).2.2.2.2.2.1]
  rw [Bool.not_eq_true, List.any_eq_false]
  intro c hc
  rw [(hletters hc).2.2.2.2.2.2]
  exact Bool.false_ne_true

theorem host?_address_iff {address : List Char} {h : String} :
    host? ('[' :: (address ++ [']'])) = .ok (some h) ↔
      ∃ gs, Ipv6.read? address = some gs ∧ "[" ++ Ipv6.text gs ++ "]" = h := by
  have hlast : ('[' :: (address ++ [']'])).getLast? = some ']' := by
    rw [← List.cons_append, List.getLast?_concat]
  rw [host?, if_neg (by simp), if_pos List.head?_cons, if_pos hlast, List.drop_one, List.tail_cons,
    List.dropLast_concat]
  cases Ipv6.read? address with
  | none => simp
  | some gs => simp

/-- A host is found again if it is plain. -/
theorem host?_writeHost_iff (e : Escaping) (host : List Char) :
    host? (e.writeHost host) = .ok (some (String.ofList host)) ↔ e.PlainHost host := by
  unfold Escaping.writeHost Escaping.PlainHost
  split
  · next haddress =>
    obtain ⟨address, rfl, -⟩ := eq_of_isAddress haddress
    have htext {t : String} : "[" ++ t ++ "]" = String.ofList ('[' :: (address ++ [']'])) ↔
        t.toList = address := by
      rw [← String.toList_inj]
      simp
    simp only [host?_address_iff, List.drop_one, List.tail_cons, List.dropLast_concat, htext]
  · by_cases hnil : host = []
    · subst hnil
      simp [Escaping.write_nil, host?]
    · rw [host?_write e hnil, and_iff_right hnil, ← e.write_eq_self_iff, Except.ok.injEq,
        Option.some.injEq, String.ofList_inj]

/-! ## Ports -/

theorem le_of_valueFrom? {cs : List Char} {acc n : Nat} (h : Digits.valueFrom? acc cs = some n) :
    acc ≤ n := by
  induction cs generalizing acc with
  | nil => exact Nat.le_of_eq (Option.some.inj h)
  | cons c cs ih =>
    obtain ⟨d, -, h⟩ := Option.bind_eq_some_iff.1 h
    have hle := ih h
    omega

theorem port?_of_valueFrom? {cs : List Char} {acc n : Nat}
    (h : Digits.valueFrom? acc cs = some n) (hn : n < 65536) :
    port? (some acc) cs = .ok (some n, []) := by
  induction cs generalizing acc with
  | nil =>
    obtain rfl := Option.some.inj h
    rfl
  | cons c cs ih =>
    obtain ⟨d, hd, h⟩ := Option.bind_eq_some_iff.1 h
    have hle := le_of_valueFrom? h
    rw [port?, hd]
    simp only [Option.getD_some, if_pos (show 10 * acc + d < 65536 by omega), ih h]

/-- A port is found again. -/
theorem port?_digits {n : Nat} (h : n < 65536) :
    port? none (Digits.digits n) = .ok (some n, []) := by
  have hvalue := Digits.valueFrom?_digits n
  cases hcs : Digits.digits n with
  | nil => exact absurd hcs (Digits.digits_ne_nil n)
  | cons c cs =>
    rw [hcs] at hvalue
    obtain ⟨d, hd, hvalue⟩ := Option.bind_eq_some_iff.1 hvalue
    have hle := le_of_valueFrom? hvalue
    rw [port?, hd]
    simp only [Option.getD_none, if_pos (show 10 * 0 + d < 65536 by omega),
      port?_of_valueFrom? hvalue h]

/-! ## Paths -/

/-- A path of one segment is read as it is, but dots leave nothing of it. -/
theorem pathText_segment {segment : List Char} (h : ∀ c ∈ segment, c ∈ Part.path.letters) :
    pathText ('/' :: segment) =
      String.ofList ('/' :: if isDot segment ∨ isDoubleDot segment then [] else segment) := by
  have hslash : '/' ∉ segment := fun hc => (path_letters _ (h _ hc)).1 rfl
  have hsafe : encode isPathUnsafe segment = segment :=
    encode_of_safe fun c hc => (path_letters c (h c hc)).2.2.2.2
  rw [pathText, if_neg (by simp)]
  simp only [List.head?_cons, if_true, List.drop_one, List.tail_cons, hsafe,
    Text.splitAll_of_not_mem hslash, resolve]
  cases isDoubleDot segment <;> cases isDot segment <;> simp [leave]

/-- Of text without percent signs only dots are dots. -/
theorem isDot_or_isDoubleDot_iff {segment : List Char} (h : ∀ c ∈ segment, c ∈ Part.path.allowed) :
    (isDot segment = true ∨ isDoubleDot segment = true) ↔
      segment = ['.'] ∨ segment = ['.', '.'] := by
  have hpercent : '%' ∉ Text.lowerAscii segment := fun hc => by
    obtain ⟨c, hc, heq⟩ := List.mem_map.1 hc
    exact (path_allowed c (h c hc)).1 heq
  have hno {ds : List Char} (hds : '%' ∈ ds) (heq : Text.lowerAscii segment = ds) : False :=
    hpercent (heq ▸ hds)
  have hdots {ds : List Char} (hds : ∀ d ∈ ds, d = '.') (heq : Text.lowerAscii segment = ds) :
      segment = ds := by
    subst heq
    refine Eq.symm ((List.map_congr_left fun c hc => ?_).trans (List.map_id _))
    have hlower := hds _ (List.mem_map_of_mem hc)
    exact hlower.trans ((path_allowed c (h c hc)).2 hlower).symm
  constructor
  · rintro (hdot | hdouble)
    · have hmem := List.contains_iff_mem.1 hdot
      simp only [List.mem_cons, List.not_mem_nil, or_false] at hmem
      rcases hmem with heq | heq
      · exact .inl (hdots (forall_mem_of_all (by decide)) heq)
      · exact (hno (by decide) heq).elim
    · have hmem := List.contains_iff_mem.1 hdouble
      simp only [List.mem_cons, List.not_mem_nil, or_false] at hmem
      rcases hmem with heq | heq | heq | heq
      · exact .inr (hdots (forall_mem_of_all (by decide)) heq)
      · exact (hno (by decide) heq).elim
      · exact (hno (by decide) heq).elim
      · exact (hno (by decide) heq).elim
  · rintro (rfl | rfl)
    · exact .inl (by decide)
    · exact .inr (by decide)

/-- What is read of a path of one segment. -/
def Escaping.readPath (e : Escaping) (path : List Char) : List Char :=
  if isDot (e.write .path path) ∨ isDoubleDot (e.write .path path) then [] else e.write .path path

theorem Escaping.pathText_write (e : Escaping) (path : List Char) :
    pathText ('/' :: e.write .path path) = String.ofList ('/' :: e.readPath path) :=
  pathText_segment fun _ hc => e.mem_write hc

theorem Escaping.dropWhile_readPath (e : Escaping) (path : List Char) :
    ('/' :: e.readPath path).dropWhile (fun c => decide (c = '/')) = e.readPath path := by
  have hslash : ∀ c ∈ e.readPath path, c ≠ '/' := by
    intro c hc
    unfold readPath at hc
    split at hc
    · cases hc
    · exact (path_letters c (e.mem_write hc)).1
  rw [List.dropWhile_cons_of_pos (by decide)]
  cases hpath : e.readPath path with
  | nil => rfl
  | cons c rest =>
    have hc := hslash c (hpath ▸ List.mem_cons_self ..)
    exact List.dropWhile_cons_of_neg (by simpa using hc)

/-- A path of one segment that is read as it is. -/
def Escaping.PlainPath (e : Escaping) (path : List Char) : Prop :=
  (∀ c ∈ path, e.kept .path c = true) ∧ path ≠ ['.'] ∧ path ≠ ['.', '.']

theorem Escaping.readPath_eq_self_iff (e : Escaping) (path : List Char) :
    e.readPath path = path ↔ e.PlainPath path := by
  unfold readPath
  constructor
  · intro h
    split at h
    · next hdots =>
      subst h
      rw [e.write_nil] at hdots
      exact absurd hdots (by decide)
    · next hdots =>
      refine ⟨e.write_eq_self_iff.1 h, ?_, ?_⟩
      · rintro rfl
        exact hdots (.inl (by rw [h]; decide))
      · rintro rfl
        exact hdots (.inr (by rw [h]; decide))
  · rintro ⟨hkept, hdot, hdouble⟩
    rw [e.write_eq_self_iff.2 hkept, if_neg]
    rw [isDot_or_isDoubleDot_iff fun c hc => e.allowed_of_kept (hkept c hc), not_or]
    exact ⟨hdot, hdouble⟩

/-! ## Locators -/

/-- What stands behind `scheme://`: all parts, the port also where it is zero. -/
def Escaping.locator (e : Escaping) (user password host : List Char) (port : Nat)
    (path query : List Char) : List Char :=
  ((e.write .user user ++ ':' :: e.write .password password) ++
    '@' :: (e.writeHost host ++ ':' :: Digits.digits port)) ++
  '/' :: (e.write .path path ++ '?' :: query)

theorem digits_letters {n : Nat} : ∀ c ∈ Digits.digits n,
    c ≠ '@' ∧ endsAuthority c = false ∧ 0x20 < c.toNat := by
  have hletters : ∀ c ∈ unreserved, c ≠ '@' ∧ endsAuthority c = false ∧ 0x20 < c.toNat :=
    forall_mem_of_all (by decide)
  exact fun c hc => hletters c (mem_unreserved_of_mem_digits hc)

theorem clean_eq_self {cs : List Char} (h : ∀ c ∈ cs, 0x20 < c.toNat) : clean cs = cs := by
  have hkept {c : Char} (hc : c ∈ cs) : c ≠ '\t' ∧ c ≠ '\n' ∧ c ≠ '\r' := by
    have hlt := h c hc
    refine ⟨?_, ?_, ?_⟩
    all_goals
      rintro rfl
      revert hlt
      decide
  have hdrop : cs.reverse.dropWhile (fun c => decide (c.toNat ≤ 0x20)) = cs.reverse := by
    cases hcs : cs.reverse with
    | nil => rfl
    | cons c rest =>
      have hlt := h c (List.mem_reverse.1 (hcs ▸ List.mem_cons_self ..))
      exact List.dropWhile_cons_of_neg (by simpa using hlt)
  rw [clean, hdrop, List.reverse_reverse, List.filter_eq_self]
  exact fun c hc => by simpa using hkept hc

theorem splitCredentials_append {host : List Char} (h : '@' ∉ host) (credentials : List Char) :
    splitCredentials (credentials ++ '@' :: host) = (some credentials, host) := by
  have hreverse : '@' ∉ host.reverse := by rwa [List.mem_reverse]
  rw [splitCredentials, List.reverse_append, List.reverse_cons, List.append_assoc,
    List.singleton_append, Text.splitOnce?_append hreverse]
  simp only [List.reverse_reverse]

theorem credentials_append {user : List Char} (h : ':' ∉ user) (password : List Char) :
    credentials (user ++ ':' :: password) =
      (String.ofList (encode isCredentialUnsafe user),
        String.ofList (encode isCredentialUnsafe password)) := by
  rw [credentials, Text.splitOnce?_append h]

section

variable (e : Escaping) {user password host path query : List Char} {port : Nat}

/-- The letters of an authority: nothing in it ends it. -/
theorem Escaping.authority_letters {c : Char}
    (hc : c ∈ (e.write .user user ++ ':' :: e.write .password password) ++
      '@' :: (e.writeHost host ++ ':' :: Digits.digits port)) :
    endsAuthority c = false ∧ 0x20 < c.toNat := by
  simp only [List.mem_append, List.mem_cons] at hc
  rcases hc with (hc | rfl | hc) | rfl | hc | rfl | hc
  · exact (user_letters c (e.mem_write hc)).2.2
  · decide
  · exact (password_letters c (e.mem_write hc)).2
  · decide
  · exact (e.writeHost_letters hc).2
  · decide
  · exact (digits_letters c hc).2

/-- There is nothing to be cleaned in a locator. -/
theorem Escaping.clean_locator (hquery : ∀ c ∈ query, 0x20 < c.toNat) :
    clean (e.locator user password host port path query) =
      e.locator user password host port path query := by
  refine clean_eq_self fun c hc => ?_
  rcases List.mem_append.1 hc with hc | hc
  · exact (e.authority_letters hc).2
  · simp only [List.mem_append, List.mem_cons] at hc
    rcases hc with rfl | hc | rfl | hc
    · decide
    · exact (path_letters c (e.mem_write hc)).2.2.2.1
    · decide
    · exact hquery c hc

/-- Behind the credentials there is no further at sign. -/
theorem Escaping.not_mem_writeHost_append : '@' ∉ e.writeHost host ++ ':' :: Digits.digits port := by
  intro hc
  simp only [List.mem_append, List.mem_cons] at hc
  rcases hc with hc | hc | hc
  · exact (e.writeHost_letters hc).1 rfl
  · cases hc
  · exact (digits_letters _ hc).1 rfl

/-- A path ends where the query begins. -/
theorem Escaping.takeWhile_path :
    ('/' :: (e.write .path path ++ '?' :: query)).takeWhile
      (fun c => decide (c ≠ '?' ∧ c ≠ '#')) = '/' :: e.write .path path := by
  have hpath : ∀ c ∈ '/' :: e.write .path path, decide (c ≠ '?' ∧ c ≠ '#') = true := by
    intro c hc
    rcases List.mem_cons.1 hc with rfl | hc
    · decide
    · obtain ⟨-, hmark, hfragment, -⟩ := path_letters c (e.mem_write hc)
      simp [hmark, hfragment]
  rw [← List.cons_append, List.takeWhile_append_of_pos hpath,
    List.takeWhile_cons_of_neg (by decide), List.append_nil]

end

theorem takeWhile_query {query : List Char} (h : ∀ c ∈ query, c ≠ '#') :
    query.takeWhile (fun c => decide (c ≠ '#')) = query := by
  have happend : (query ++ []).takeWhile (fun c => decide (c ≠ '#')) = query ++ [] :=
    List.takeWhile_append_of_pos fun c hc => decide_eq_true (h c hc)
  rwa [List.append_nil] at happend

/-- A locator is read part by part. -/
theorem read?_locator (e : Escaping) (user password host path : List Char) {port : Nat}
    (hport : port < 65536) {query : List Char} (hquery : ∀ c ∈ query, c ≠ '#' ∧ 0x20 < c.toNat) :
    read? (e.locator user password host port path query) =
      match host? (e.writeHost host) with
      | .error fault => .error fault
      | .ok none => .error .emptyHost
      | .ok (some h) => .ok
        { user := String.ofList (encode isCredentialUnsafe (e.write .user user))
          password := String.ofList (encode isCredentialUnsafe (e.write .password password))
          host := some h
          port := some port
          path := pathText ('/' :: e.write .path path)
          query := formPairs query } := by
  have huser : ':' ∉ e.write .user user := fun hc => (user_letters _ (e.mem_write hc)).1 rfl
  have hdrop : ('/' :: (e.write .path path ++ '?' :: query)).drop
      ('/' :: e.write .path path).length = '?' :: query := by
    rw [← List.cons_append, List.drop_left]
  have hquery' := takeWhile_query fun c hc => (hquery c hc).1
  rw [read?, e.clean_locator fun c hc => (hquery c hc).2, Escaping.locator]
  -- The authority goes up to the first slash.
  rw [List.takeWhile_append_of_pos (fun c hc => by rw [(e.authority_letters hc).1]; rfl),
    List.dropWhile_append_of_pos (fun c hc => by rw [(e.authority_letters hc).1]; rfl),
    List.takeWhile_cons_of_neg (by decide), List.dropWhile_cons_of_neg (by decide),
    List.append_nil]
  simp only [splitCredentials_append e.not_mem_writeHost_append, Option.getD_some,
    credentials_append huser, splitHost_writeHost, List.isEmpty_cons, List.drop_one,
    List.tail_cons, port?_digits hport, reduceCtorEq, Option.some.injEq, List.append_eq_nil_iff,
    false_and, and_false, if_false, Bool.not_false, true_or, and_true]
  cases host? (e.writeHost host) with
  | error fault => rfl
  | ok found =>
    cases found with
    | none => rfl
    | some h =>
      simp only [bind, Except.bind, Option.isNone_some, Bool.false_eq_true, if_false,
        List.nil_append, e.takeWhile_path, hdrop, hquery']
      rfl

end SqlKit.Url
