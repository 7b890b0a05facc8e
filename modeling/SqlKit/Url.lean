import SqlKit.Url.Percent
import SqlKit.Text.Blank
import SqlKit.Url.Ipv6

/-!
# Locators

The part of a URL behind `scheme://`, for schemes without rules of their own: credentials, host, port,
path and query.  Credentials and path stay percent-encoded, with everything that must be escaped
escaped; dot segments of the path are resolved; a fragment is dropped.

    resolve [] segs of plain segments joins them behind slashes        (resolve_plain)
-/

namespace SqlKit

/-- What a URL says behind `scheme://`. -/
structure Url where
  user : String
  password : String
  /-- Absent when nothing is said about it. -/
  host : Option String
  port : Option Nat
  path : String
  query : List (String × String)
deriving DecidableEq, Repr

namespace Url

/-- Why a text is no URL. -/
inductive Fault where
  | emptyHost
  | badPort
  | badAddress
  | badHostCharacter
deriving DecidableEq, Repr

/-- The wording of a fault. -/
def Fault.message : Fault → String
  | emptyHost => "empty host"
  | badPort => "invalid port number"
  | badAddress => "invalid IPv6 address"
  | badHostCharacter => "invalid domain character"

/-! ## Cutting -/

/-- Drops what no URL holds: blanks and controls at the end, tabs and line ends everywhere. -/
def clean (cs : List Char) : List Char :=
  ((cs.reverse.dropWhile fun c => c.toNat ≤ 0x20).reverse).filter fun c =>
    c ≠ '\t' ∧ c ≠ '\n' ∧ c ≠ '\r'

/-- Does the authority end here? -/
def endsAuthority (c : Char) : Bool := c = '/' || c = '?' || c = '#'

/-- Cuts at the last `@`; nothing in front of it if there is none. -/
def splitCredentials (authority : List Char) : Option (List Char) × List Char :=
  match Text.splitOnce? '@' authority.reverse with
  | some (after, before) => (some before.reverse, after.reverse)
  | none => (none, authority)

/-- Cuts off the host: up to a colon outside brackets. -/
def splitHost (inBrackets : Bool) : List Char → List Char × List Char
  | [] => ([], [])
  | c :: cs =>
    if c = ':' ∧ !inBrackets then ([], c :: cs)
    else
      let (h, r) := splitHost (c = '[' || (inBrackets && c ≠ ']')) cs
      (c :: h, r)

/-! ## Parts -/

/-- A host in its canonical text; the empty text is no host. -/
def host? (cs : List Char) : Except Fault (Option String) :=
  if cs.isEmpty then .ok none
  else if cs.head? = some '[' then
    if cs.getLast? = some ']' then
      match Ipv6.read? (cs.drop 1).dropLast with
      | some gs => .ok (some ("[" ++ Ipv6.text gs ++ "]"))
      | none => .error .badAddress
    else .error .badAddress
  else if cs.any ['\x00', '\t', '\n', '\r', ' ', '#', '/', ':', '<', '>', '?', '@', '[', '\\', ']',
      '^', '|'].contains then .error .badHostCharacter
  else .ok (some (String.ofList (encode isControl cs)))

/-- A port in front of a path: digits up to the end of the authority or a backslash.  Gives what
follows. -/
def port? (acc : Option Nat) : List Char → Except Fault (Option Nat × List Char)
  | [] => .ok (acc, [])
  | c :: cs =>
    match Digits.digit? c with
    | some d =>
      let n := 10 * acc.getD 0 + d
      if n < 65536 then port? (some n) cs else .error .badPort
    | none => if endsAuthority c || c = '\\' then .ok (acc, c :: cs) else .error .badPort

/-- Is the segment a dot, escaped or not? -/
def isDot (segment : List Char) : Bool :=
  [".".toList, "%2e".toList].contains (Text.lowerAscii segment)

/-- Are the segments two dots, escaped or not? -/
def isDoubleDot (segment : List Char) : Bool :=
  ["..".toList, "%2e.".toList, ".%2e".toList, "%2e%2e".toList].contains (Text.lowerAscii segment)

/-- A letter and a colon or bar name a drive, which two dots do not leave. -/
def isDrive (segment : List Char) : Bool :=
  match segment with
  | [c, m] => c.isAlpha && (m = ':' || m = '|')
  | _ => false

/-- The segments in front of the last one. -/
def leave (segments : List (List Char)) : List (List Char) :=
  match segments.getLast? with
  | some s => if isDrive s then segments else segments.dropLast
  | none => []

/-- Resolves dot segments behind the segments `before`.  A dot segment at the end leaves an empty
segment there. -/
def resolve (before : List (List Char)) : List (List Char) → List (List Char)
  | [] => before
  | s :: rest =>
    let before' :=
      if isDoubleDot s then leave before
      else if isDot s then before
      else before ++ [s]
    if rest.isEmpty ∧ (isDoubleDot s ∨ isDot s) then before' ++ [[]] else resolve before' rest

/-- The text of a path; what does not start with a slash gets one, but the empty path stays empty. -/
def pathText (cs : List Char) : String :=
  if cs.isEmpty then ""
  else
    let segments := Text.splitAll '/' (encode isPathUnsafe (if cs.head? = some '/' then cs.drop 1 else cs))
    String.ofList ((resolve [] segments).flatMap fun s => '/' :: s)

/-- The text of name and password; a password needs a colon and something behind it. -/
def credentials (cs : List Char) : String × String :=
  let enc (cs : List Char) := String.ofList (encode isCredentialUnsafe cs)
  match Text.splitOnce? ':' cs with
  | some (user, password) => (enc user, enc password)
  | none => (enc cs, "")

/-! ## Reading -/

/-- Reads what stands behind `scheme://`. -/
def read? (text : List Char) : Except Fault Url := do
  let cs := clean text
  let (creds, rest) := splitCredentials (cs.takeWhile fun c => !endsAuthority c)
  let tail := cs.dropWhile fun c => !endsAuthority c
  let (user, password) := credentials (creds.getD [])
  let (hostText, portText) := splitHost false rest
  if creds = some [] ∧ rest.isEmpty ∧ !tail.isEmpty then throw .emptyHost
  let host ← host? hostText
  if host.isNone ∧ (!portText.isEmpty ∨ user ≠ "" ∨ password ≠ "") then throw .emptyHost
  let (port, behind) ← port? none (portText.drop 1)
  let path := (behind ++ tail).takeWhile fun c => c ≠ '?' ∧ c ≠ '#'
  let query := match (behind ++ tail).drop path.length with
    | '?' :: q => q.takeWhile (· ≠ '#')
    | _ => []
  return ⟨user, password, host, port, pathText path, formPairs query⟩

/-! ## Lemmas -/

theorem resolve_plain (before segments : List (List Char))
    (h : ∀ s ∈ segments, isDot s = false ∧ isDoubleDot s = false) :
    resolve before segments = before ++ segments := by
  induction segments generalizing before with
  | nil => simp [resolve]
  | cons s rest ih =>
    have hs := h s (by simp)
    simp [resolve, hs.1, hs.2, ih _ fun t ht => h t (by simp [ht])]

end Url

end SqlKit
