import SqlKit.Json.Basic

/-!
# TOML scalars

Strings, numbers, dates and times of TOML 1.0.  A reader takes one scalar off the front of a text and
gives the JSON value it becomes: dates and times become their text, infinities and not-a-number null.

    digitRun? p (cs of digits that satisfy p) takes all of cs          (digitRun?_of_all)
-/

namespace SqlKit.Toml

/-! ## Characters -/

def isBlank (c : Char) : Bool := c = ' ' || c = '\t'

def skipBlanks (cs : List Char) : List Char := cs.dropWhile isBlank

/-- May the character stand in a comment or string? -/
def isText (c : Char) : Bool := c = '\t' || (0x20 ≤ c.toNat && c.toNat ≠ 0x7F)

/-- May the character stand in an unquoted key? -/
def isBare (c : Char) : Bool := c.isAlphanum || c = '_' || c = '-'

def isDigit (c : Char) : Bool := (Digits.digit? c).isSome

def isHexDigit (c : Char) : Bool := (Digits.hexDigit? c).isSome

/-- Reads a line end. -/
def newline? : List Char → Option (List Char)
  | '\n' :: r => some r
  | '\r' :: '\n' :: r => some r
  | _ => none

/-! ## Strings -/

/-- A part of a string in double quotes: a character, or one behind a backslash. -/
inductive Token where
  | plain (c : Char)
  | escaped (c : Char)
deriving DecidableEq, Repr

/-- What the tokens before have left open. -/
inductive Context where
  | none
  /-- Hexadecimal digits are due. -/
  | number (missing value : Nat)
  /-- Blanks and a line end are due. -/
  | lineEnd
  /-- Blanks and line ends are dropped. -/
  | margin
deriving DecidableEq, Repr

/-- Is the number a character's? -/
def isScalar (n : Nat) : Bool := n < 0xD800 || (0xE000 ≤ n && n < 0x110000)

/-- What an escape stands for, or what has to follow it. -/
def escape? (c : Char) : Option (List Char × Context) :=
  match c with
  | 'b' => some ([Char.ofNat 8], .none)
  | 't' => some (['\t'], .none)
  | 'n' => some (['\n'], .none)
  | 'f' => some ([Char.ofNat 12], .none)
  | 'r' => some (['\r'], .none)
  | '"' => some (['"'], .none)
  | '\\' => some (['\\'], .none)
  | 'u' => some ([], .number 4 0)
  | 'U' => some ([], .number 8 0)
  | '\n' => some ([], .margin)
  | ' ' | '\t' => some ([], .lineEnd)
  | _ => none

/-- The characters that tokens stand for. -/
def decode? : Context → List Token → Option (List Char)
  | .none, [] | .margin, [] => some []
  | .number .., [] | .lineEnd, [] => none
  | .none, .plain c :: ts => (decode? .none ts).map (c :: ·)
  | .margin, .plain c :: ts =>
    if isBlank c ∨ c = '\n' then decode? .margin ts else (decode? .none ts).map (c :: ·)
  | .lineEnd, .plain c :: ts =>
    if c = '\n' then decode? .margin ts
    else if isBlank c then decode? .lineEnd ts
    else none
  | .number missing value, .plain c :: ts => do
    let d ← Digits.hexDigit? c
    let value := 16 * value + d
    if missing ≠ 1 then decode? (.number (missing - 1) value) ts
    else if isScalar value then (decode? .none ts).map (Char.ofNat value :: ·)
    else none
  | .none, .escaped c :: ts | .margin, .escaped c :: ts => do
    let (out, context) ← escape? c
    let rest ← decode? context ts
    return out ++ rest
  | .number .., .escaped _ :: _ | .lineEnd, .escaped _ :: _ => none

/-- Cuts off a string in double quotes behind its opening quote. -/
def basicTokens? : List Char → Option (List Token × List Char)
  | '"' :: r => some ([], r)
  | '\\' :: c :: r =>
    if isText c then (basicTokens? r).map fun p => (.escaped c :: p.1, p.2) else none
  | c :: r => if isText c then (basicTokens? r).map fun p => (.plain c :: p.1, p.2) else none
  | [] => none

/-- Cuts off a string of several lines behind its three quotes.  It ends at three quotes, of which
the last three count. -/
def basicLines? : List Char → Option (List Token × List Char)
  | '"' :: '"' :: '"' :: r =>
    match r with
    | '"' :: '"' :: r => some ([.plain '"', .plain '"'], r)
    | '"' :: r => some ([.plain '"'], r)
    | r => some ([], r)
  | '\\' :: '\r' :: '\n' :: r => (basicLines? r).map fun p => (.escaped '\n' :: p.1, p.2)
  | '\\' :: c :: r =>
    if isText c ∨ c = '\n' then (basicLines? r).map fun p => (.escaped c :: p.1, p.2) else none
  | '\r' :: '\n' :: r => (basicLines? r).map fun p => (.plain '\n' :: p.1, p.2)
  | c :: r =>
    if isText c ∨ c = '\n' then (basicLines? r).map fun p => (.plain c :: p.1, p.2) else none
  | [] => none

/-- Reads a string in single quotes behind its opening quote. -/
def literal? : List Char → Option (List Char × List Char)
  | '\'' :: r => some ([], r)
  | c :: r => if isText c then (literal? r).map fun p => (c :: p.1, p.2) else none
  | [] => none

/-- Reads a string of several lines behind its three single quotes. -/
def literalLines? : List Char → Option (List Char × List Char)
  | '\'' :: '\'' :: '\'' :: r =>
    match r with
    | '\'' :: '\'' :: r => some (['\'', '\''], r)
    | '\'' :: r => some (['\''], r)
    | r => some ([], r)
  | '\r' :: '\n' :: r => (literalLines? r).map fun p => ('\n' :: p.1, p.2)
  | c :: r => if isText c ∨ c = '\n' then (literalLines? r).map fun p => (c :: p.1, p.2) else none
  | [] => none

/-- Reads a string of one line. -/
def line? : List Char → Option (List Char × List Char)
  | '"' :: r => do
    let (ts, rest) ← basicTokens? r
    return (← decode? .none ts, rest)
  | '\'' :: r => literal? r
  | _ => none

/-- Reads a string.  A line end right behind three quotes is no part of it. -/
def string? (cs : List Char) : Option (List Char × List Char) :=
  match cs with
  | '"' :: '"' :: '"' :: r => do
    let (ts, rest) ← basicLines? ((newline? r).getD r)
    return (← decode? .none ts, rest)
  | '\'' :: '\'' :: '\'' :: r => literalLines? ((newline? r).getD r)
  | cs => line? cs

/-! ## Numbers -/

/-- Takes further digits; an underscore may stand between two of them. -/
def digitRun? (p : Char → Bool) : List Char → Option (List Char × List Char)
  | [] => some ([], [])
  | '_' :: r =>
    match r with
    | c :: _ => if p c then digitRun? p r else none
    | [] => none
  | c :: r => if p c then (digitRun? p r).map fun q => (c :: q.1, q.2) else some ([], c :: r)

/-- Takes at least one digit. -/
def digits? (p : Char → Bool) (cs : List Char) : Option (List Char × List Char) :=
  match cs with
  | c :: _ => if p c then digitRun? p cs else none
  | [] => none

/-- Takes a sign: is it negative? -/
def sign : List Char → Bool × List Char
  | '-' :: r => (true, r)
  | '+' :: r => (false, r)
  | r => (false, r)

/-- Takes a whole number; a zero stands alone. -/
def whole? : List Char → Option (List Char × List Char)
  | '0' :: r => some (['0'], r)
  | cs => digits? isDigit cs

/-- The number of digits in a base. -/
def valueIn (base : Nat) (ds : List Char) : Nat :=
  ds.foldl (fun n d => base * n + (Digits.hexDigit? d).getD 0) 0

/-- A number of 64 bits with a sign. -/
def integer? (negative : Bool) (n : Nat) : Option Json :=
  let i : Int := if negative then -(n : Int) else n
  if Int64.minValue.toInt ≤ i ∧ i ≤ Int64.maxValue.toInt then some (.int i)
  else none

/-- Reads an integer in a base behind its two-letter mark. -/
def marked? (base : Nat) (p : Char → Bool) (cs : List Char) : Option (Json × List Char) := do
  let (ds, rest) ← digits? p cs
  return (← integer? false (valueIn base ds), rest)

/-- Reads an exponent, if there is one. -/
def exponent? : List Char → Option (Int × List Char)
  | e :: r =>
    if e = 'e' ∨ e = 'E' then do
      let (negative, r) := sign r
      let (ds, rest) ← digits? isDigit r
      let n : Int := valueIn 10 ds
      return (if negative then -n else n, rest)
    else some (0, e :: r)
  | [] => some (0, [])

/-- The double nearest to digits scaled by a power of ten; plus infinity is out of range. -/
def float? (negative : Bool) (ds : List Char) (scale : Int) : Option Json :=
  let x := Binary64.ofDecimal negative (valueIn 10 ds) scale
  if x.isInfinite ∧ !negative then none else some (Json.ofFloat x)

/-- Reads a decimal number: an integer, or a double if a point or an exponent follows. -/
def decimal? (cs : List Char) : Option (Json × List Char) := do
  let (negative, r) := sign cs
  let (ds, rest) ← whole? r
  match rest with
  | '.' :: r => do
    let (fs, r) ← digits? isDigit r
    let (e, r) ← exponent? r
    return (← float? negative (ds ++ fs) (e - fs.length), r)
  | c :: r =>
    if c = 'e' ∨ c = 'E' then do
      let (e, r) ← exponent? (c :: r)
      return (← float? negative ds e, r)
    else return (← integer? negative (valueIn 10 ds), rest)
  | [] => return (← integer? negative (valueIn 10 ds), rest)

/-- Takes a fixed word. -/
def word? (word : String) (cs : List Char) : Option (List Char) :=
  if word.toList.isPrefixOf cs then some (cs.drop word.length) else none

/-- Reads a number. -/
def number? (cs : List Char) : Option (Json × List Char) :=
  match cs with
  | '0' :: 'x' :: r => marked? 16 isHexDigit r
  | '0' :: 'o' :: r => marked? 8 (fun c => isDigit c && c < '8') r
  | '0' :: 'b' :: r => marked? 2 (fun c => c = '0' || c = '1') r
  | _ =>
    let r := (sign cs).2
    match (word? "inf" r).orElse fun _ => word? "nan" r with
    | some rest => some (.null, rest)
    | none => decimal? cs

/-! ## Dates and times -/

/-- Takes exactly `width` digits whose number lies in a range. -/
def field? (width lo hi : Nat) (cs : List Char) : Option (Nat × List Char) := do
  let n ← Digits.value? (cs.take width)
  if cs.length < width ∨ n < lo ∨ hi < n then none else return (n, cs.drop width)

/-- Takes one character. -/
def mark? (c : Char) : List Char → Option (List Char)
  | d :: r => if d = c then some r else none
  | [] => none

def daysIn (year month : Nat) : Nat :=
  if month = 2 then if year % 4 = 0 ∧ (year % 100 ≠ 0 ∨ year % 400 = 0) then 29 else 28
  else if month = 4 ∨ month = 6 ∨ month = 9 ∨ month = 11 then 30
  else 31

/-- Reads a date; gives its text. -/
def date? (cs : List Char) : Option (String × List Char) := do
  let (y, r) ← field? 4 0 9999 cs
  let (m, r) ← field? 2 1 12 (← mark? '-' r)
  let (d, r) ← field? 2 1 (daysIn y m) (← mark? '-' r)
  return (Digits.padText 4 y ++ "-" ++ Digits.padText 2 m ++ "-" ++ Digits.padText 2 d, r)

/-- A fraction of a second: at most nine digits count, zeros at the end are left out. -/
def fractionText (ds : List Char) : String :=
  let kept := ((ds.take 9).reverse.dropWhile (· = '0')).reverse
  if kept.isEmpty then "" else "." ++ String.ofList kept

/-- Reads a time of day; gives its text. -/
def time? (cs : List Char) : Option (String × List Char) := do
  let (h, r) ← field? 2 0 23 cs
  let (m, r) ← field? 2 0 59 (← mark? ':' r)
  let (s, r) ← field? 2 0 60 (← mark? ':' r)
  let base := Digits.padText 2 h ++ ":" ++ Digits.padText 2 m ++ ":" ++ Digits.padText 2 s
  match r with
  | '.' :: f =>
    let ds := f.takeWhile isDigit
    if ds.isEmpty then none else return (base ++ fractionText ds, f.drop ds.length)
  | _ => return (base, r)

/-- Reads the distance from UTC, if there is one. -/
def offset? (cs : List Char) : Option (String × List Char) :=
  match cs with
  | c :: r =>
    if c = 'Z' ∨ c = 'z' then some ("Z", r)
    else if c = '+' ∨ c = '-' then do
      let (h, r) ← field? 2 0 23 r
      let (m, r) ← field? 2 0 59 (← mark? ':' r)
      let mark := if c = '-' ∧ (h ≠ 0 ∨ m ≠ 0) then "-" else "+"
      return (mark ++ Digits.padText 2 h ++ ":" ++ Digits.padText 2 m, r)
    else some ("", cs)
  | [] => some ("", [])

/-- Reads a date, a time of day or both. -/
def dateTime? (cs : List Char) : Option (String × List Char) :=
  match date? cs with
  | none => time? cs
  | some (date, rest) =>
    match rest with
    | c :: r =>
      if c = 'T' ∨ c = 't' ∨ c = ' ' then
        match time? r with
        | some (time, r) => (offset? r).map fun o => (date ++ "T" ++ time ++ o.1, o.2)
        | none => some (date, rest)
      else some (date, rest)
    | [] => some (date, [])

/-! ## Scalars -/

/-- Reads a scalar. -/
def scalar? (cs : List Char) : Option (Json × List Char) :=
  match cs with
  | [] => none
  | c :: _ =>
    if c = '"' ∨ c = '\'' then (string? cs).map fun p => (.string (String.ofList p.1), p.2)
    else if c = 't' then (word? "true" cs).map fun r => (.bool true, r)
    else if c = 'f' then (word? "false" cs).map fun r => (.bool false, r)
    else match dateTime? cs with
      | some (text, rest) => some (.string text, rest)
      | none => number? cs

/-! ## Lemmas -/

theorem digitRun?_of_all {p : Char → Bool} {ds : List Char} (h : ∀ d ∈ ds, p d = true)
    (hu : '_' ∉ ds) : digitRun? p ds = some (ds, []) := by
  induction ds with
  | nil => rfl
  | cons d ds ih =>
    have hd := h d (by simp)
    have hne : d ≠ '_' := fun e => hu (by simp [e])
    have ih' := ih (fun x hx => h x (by simp [hx])) fun hm => hu (by simp [hm])
    unfold digitRun?
    split
    · contradiction
    · next heq => exact absurd (List.cons.inj heq).1 hne
    · next heq =>
      obtain ⟨rfl, rfl⟩ := List.cons.inj heq
      simp [hd, ih']

end SqlKit.Toml
