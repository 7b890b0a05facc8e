import SqlKit.Json.Written
import SqlKit.Settings
import SqlKit.Toml.Document

/-!
# Settings documents

A document in TOML or JSON says what differs from the default settings: it is merged over them, then
read as settings.  A record may be given as an object, whose unknown keys are ignored, or as an array
of its fields in order; what is missing has its default.

    merge base doc = doc   unless both are objects                     (merge_of_not_isObject)
    read (merge defaults {}) = defaults                                (ofJson?_default)
-/

namespace SqlKit

/-! ## Merging -/

namespace Json

mutual

/-- `doc` over `base`: objects are merged key by key, of all else `doc` has the say. -/
def merge (base : Json) : Json → Json
  | .object doc =>
    match base with
    | .object ms => .object (mergeMembers ms doc)
    | _ => .object doc
  | doc => doc

/-- Merges members one after another into an object. -/
def mergeMembers (base : Assoc Json) : List (String × Json) → Assoc Json
  | [] => base
  | (k, v) :: doc =>
    mergeMembers (base.insert k (match base.get? k with
      | some b => merge b v
      | none => v)) doc

end

/-! ## Reading records -/

/-- The field of a record, by its key in an object or by its place in an array. -/
def field? (place : Nat) (key : String) : Json → Option Json
  | .object ms => Assoc.get? key ms
  | .array js => js[place]?
  | _ => none

/-- May the value stand for a record of `width` fields? -/
def isRecord (width : Nat) : Json → Bool
  | .object _ => true
  | .array js => js.length ≤ width
  | _ => false

/-- Reads a field of a record; a missing one has its default. -/
def fieldOr {α : Type} (d : α) (read : Json → Option α) (place : Nat) (key : String) (j : Json) :
    Option α :=
  match j.field? place key with
  | some v => read v
  | none => some d

def bool? : Json → Option Bool
  | .bool b => some b
  | _ => none

def string? : Json → Option String
  | .string s => some s
  | _ => none

/-- A natural number below a bound. -/
def natBelow? (bound : Nat) : Json → Option Nat
  | .int (.ofNat n) => if n < bound then some n else none
  | _ => none

/-- The members of an object, each read in the same way. -/
def assocOf? {α : Type} (read : Json → Option α) : Json → Option (Assoc α)
  | .object ms => ms.mapM fun m => (read m.2).map fun a => (m.1, a)
  | _ => none

end Json

/-! ## Settings -/

namespace PoolSettings

def toJson (s : PoolSettings) : Json :=
  .object (Assoc.ofList [("pool_min_size", .int s.minSize.toNat),
    ("pool_max_size", .int s.maxSize.toNat), ("pool_timeout", .int s.timeout.toNat),
    ("pool_recycle", match s.recycle with
      | some n => .int n.toNat
      | none => .null)])

def ofJson? (j : Json) : Option PoolSettings := do
  let d : PoolSettings := {}
  let recycle? : Json → Option (Option UInt64)
    | .null => some none
    | j => (j.natBelow? UInt64.size).map fun n => some (UInt64.ofNat n)
  if !j.isRecord 4 then none
  return {
    minSize := UInt32.ofNat (← j.fieldOr d.minSize.toNat (Json.natBelow? UInt32.size) 0 "pool_min_size")
    maxSize := UInt32.ofNat (← j.fieldOr d.maxSize.toNat (Json.natBelow? UInt32.size) 1 "pool_max_size")
    timeout := UInt64.ofNat (← j.fieldOr d.timeout.toNat (Json.natBelow? UInt64.size) 2 "pool_timeout")
    recycle := ← j.fieldOr d.recycle recycle? 3 "pool_recycle" }

end PoolSettings

namespace DatabaseSettings

def toJson (s : DatabaseSettings) : Json :=
  .object (Assoc.ofList [("engine", .string s.engine), ("name", .string s.name),
    ("user", .string s.user), ("password", .string s.password), ("host", .string s.host),
    ("port", .int s.port.toNat), ("pool", s.pool.toJson),
    ("options", .object (s.options.map fun e => (e.1, .string e.2)))])

def ofJson? (j : Json) : Option DatabaseSettings := do
  let d : DatabaseSettings := {}
  if !j.isRecord 8 then none
  return {
    engine := ← j.fieldOr d.engine Json.string? 0 "engine"
    name := ← j.fieldOr d.name Json.string? 1 "name"
    user := ← j.fieldOr d.user Json.string? 2 "user"
    password := ← j.fieldOr d.password Json.string? 3 "password"
    host := ← j.fieldOr d.host Json.string? 4 "host"
    port := UInt16.ofNat (← j.fieldOr d.port.toNat (Json.natBelow? UInt16.size) 5 "port")
    pool := ← j.fieldOr d.pool PoolSettings.ofJson? 6 "pool"
    options := ← j.fieldOr d.options (Json.assocOf? Json.string?) 7 "options" }

end DatabaseSettings

namespace Settings

def toJson (s : Settings) : Json :=
  .object (Assoc.ofList [("debug", .bool s.debug), ("log_level", .string s.logLevel),
    ("databases", .object (s.databases.map fun e => (e.1, e.2.toJson)))])

def ofJson? (j : Json) : Option Settings := do
  let d : Settings := {}
  if !j.isRecord 3 then none
  return {
    debug := ← j.fieldOr d.debug Json.bool? 0 "debug"
    logLevel := ← j.fieldOr d.logLevel Json.string? 1 "log_level"
    databases := ← j.fieldOr d.databases (Json.assocOf? DatabaseSettings.ofJson?) 2 "databases" }

/-- The form of a document. -/
inductive Format where
  | toml
  | json
deriving DecidableEq, Repr

def Format.name : Format → String
  | toml => "TOML"
  | json => "JSON"

/-- The value of a document. -/
def Format.parse? : Format → String → Option Json
  | toml, text => Toml.parse? text
  | json, text => Json.parse? text

/-- The settings a document says, over the defaults. -/
def ofText (format : Format) (text : String) : Result Settings :=
  match format.parse? text with
  | none => .error (.configuration ("Failed to parse " ++ format.name))
  | some doc =>
    match ofJson? (({} : Settings).toJson.merge doc) with
    | none => .error (.configuration ("Failed to deserialize settings from " ++ format.name))
    | some s => .ok s

/-- The settings in a file with this content, if there is such a file. -/
def ofFile (format : Format) (path : String) : Option String → Result Settings
  | some text => ofText format text
  | none => .error (.configuration ("Failed to read " ++ format.name ++ " file '" ++ path ++
      "': No such file or directory (os error 2)"))

end Settings

/-! ## Lemmas -/

theorem Json.merge_of_not_isObject {base doc : Json} (h : doc.isObject = false) :
    base.merge doc = doc := by
  cases doc <;> simp_all [Json.merge, Json.isObject]

/-- The default settings read back. -/
theorem Settings.ofJson?_default :
    ofJson? (({} : Settings).toJson.merge (.object [])) = some {} := by
  rfl

end SqlKit
