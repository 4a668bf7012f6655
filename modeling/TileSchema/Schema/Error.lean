import TileSchema.Filter.Basic
import TileSchema.Table.Field

/-!
# Errors of a schema

What can be wrong with a schema whose documents are all in order: a filter that makes no sense, a
column that cannot be read, or a field name with two types.  A malformed filter names the place
where it stands, from the inside to the outside; the other errors carry their place with them.
-/

namespace TileSchema

open Table (FieldType)

/-- Why a schema cannot be compiled. -/
inductive SchemaError where
  | malformedFilter (place : String) (fault : Filter.Fault)
  | unsupportedColumnKind (table column kind : String)
  | missingColumnKey (table column kind : String)
  | conflictingFieldType (field : String) (existing found : FieldType) (table : String)
  deriving Repr, DecidableEq

namespace SchemaError

/-- A malformed filter at no known place. -/
def malformed (fault : Filter.Fault) : SchemaError := .malformedFilter "" fault

/-- An error with the name of what was being compiled: a place is inside the one given next. -/
def inContext (e : SchemaError) (outer : String) : SchemaError :=
  match e with
  | .malformedFilter inner fault =>
    .malformedFilter (if inner.isEmpty then outer else inner ++ " of " ++ outer) fault
  | e => e

/-- The wording of an error. -/
def message : SchemaError → String
  | .malformedFilter place fault =>
    "Malformed filter" ++ (if place.isEmpty then "" else " in " ++ place) ++ ": " ++ fault.reason
  | .unsupportedColumnKind table column kind =>
    "Unsupported column kind '" ++ kind ++ "' for column '" ++ column ++ "' in table '" ++ table ++
      "'"
  | .missingColumnKey table column kind =>
    "Column '" ++ column ++ "' of kind '" ++ kind ++ "' in table '" ++ table ++ "' has no key"
  | .conflictingFieldType field existing found table =>
    "Field '" ++ field ++ "' has both " ++ existing.name ++ " and " ++ found.name ++
      " types (table '" ++ table ++ "')"

end SchemaError

/-- A filter's result as a result about a schema, the place being given. -/
def liftFault {α : Type} (place : String) (r : Except Filter.Fault α) : Except SchemaError α :=
  r.mapError fun fault => (SchemaError.malformed fault).inContext place

/-- Naming a place does not change whether there is a result, nor which. -/
@[simp] theorem liftFault_eq_ok_iff {α : Type} {place : String} {r : Except Filter.Fault α} {a : α} :
    liftFault place r = .ok a ↔ r = .ok a := by
  cases r with
  | ok b => exact ⟨fun h => by cases h; rfl, fun h => by cases h; rfl⟩
  | error fault => exact ⟨nofun, nofun⟩

/-- A result whose error names the place around it. -/
def within {α : Type} (place : String) (r : Except SchemaError α) : Except SchemaError α :=
  r.mapError (·.inContext place)

end TileSchema
