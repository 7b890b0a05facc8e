import SqlKit.Text.Digits

/-!
# Unique identifiers of 16 bytes

Written as 32 lower-case hexadecimal digits in groups of 8, 4, 4, 4 and 12.  Read in four forms: bare
digits, hyphenated, hyphenated in braces, hyphenated behind `urn:uuid:`; letters in either case.

    parse? of 32 bare digits = ofBytes? of their bytes                 (parse?_bare)
-/

namespace SqlKit

/-- An identifier of 16 bytes. -/
structure Uuid where
  bytes : Bytes
  length_eq : bytes.length = 16
deriving DecidableEq

namespace Uuid

/-! ## Algorithm -/

def ofBytes? (b : Bytes) : Option Uuid := if h : b.length = 16 then some ⟨b, h⟩ else none

/-- Hyphens after 8, 12, 16 and 20 digits. -/
def hyphenate (ds : List Char) : List Char :=
  ds.take 8 ++ '-' :: (ds.drop 8).take 4 ++ '-' :: (ds.drop 12).take 4 ++
    '-' :: (ds.drop 16).take 4 ++ '-' :: ds.drop 20

/-- The hyphenated text. -/
def text (u : Uuid) : String := String.ofList (hyphenate (Digits.hexOf u.bytes))

/-- Takes the hyphens out again; each has to stand at its place. -/
def unhyphenate? (s : List Char) : Option (List Char) :=
  let ds := s.take 8 ++ (s.drop 9).take 4 ++ (s.drop 14).take 4 ++ (s.drop 19).take 4 ++ s.drop 24
  if s.length = 36 ∧ hyphenate ds = s then some ds else none

def ofDigits? (ds : List Char) : Option Uuid := (Digits.hexBytes? ds).bind ofBytes?

/-- Reads any of the four forms. -/
def parse? (s : String) : Option Uuid :=
  let cs := s.toList
  if cs.length = 32 then ofDigits? cs
  else
    let inner :=
      if cs.length = 38 ∧ cs.head? = some '{' ∧ cs.getLast? = some '}' then (cs.drop 1).dropLast
      else if cs.length = 45 ∧ (cs.take 9).map Char.toLower = "urn:uuid:".toList then cs.drop 9
      else cs
    (unhyphenate? inner).bind ofDigits?

/-! ## Lemmas -/

theorem parse?_bare {s : String} (h : s.toList.length = 32) :
    parse? s = (Digits.hexBytes? s.toList).bind ofBytes? := by
  simp only [parse?, h, if_pos, ofDigits?]

end Uuid

end SqlKit
