/-!
# PostgreSQL's types

The types of parameters and columns, by their names on the server.

    ofName t.name = t   for every type with a constructor of its own   (ofName_name)
-/

namespace SqlKit.Postgres

/-- A type of the server. -/
inductive DataType where
  | bool
  | int2
  | int4
  | int8
  | float4
  | float8
  | bytea
  | uuid
  | date
  | timestamp
  | timestamptz
  | time
  | json
  | jsonb
  | text
  | varchar
  | bpchar
  | name
  | unknown
  /-- Any other type, by its name. -/
  | other (typeName : String)
deriving DecidableEq, Repr

namespace DataType

/-- The types with a constructor of their own, by name. -/
def table : List (String × DataType) :=
  [("bool", bool), ("int2", int2), ("int4", int4), ("int8", int8), ("float4", float4),
    ("float8", float8), ("bytea", bytea), ("uuid", uuid), ("date", date),
    ("timestamp", timestamp), ("timestamptz", timestamptz), ("time", time), ("json", json),
    ("jsonb", jsonb), ("text", text), ("varchar", varchar), ("bpchar", bpchar),
    ("name", name), ("unknown", unknown)]

/-- The type with a name. -/
def ofName (s : String) : DataType :=
  ((table.find? fun e => e.1 = s).map (·.2)).getD (other s)

/-- Is a datum of the type a text? -/
def isText : DataType → Bool
  | text | varchar | bpchar | name | unknown => true
  | _ => false

theorem ofName_name : ∀ e ∈ table, ofName e.1 = e.2 := by decide

end DataType

end SqlKit.Postgres
