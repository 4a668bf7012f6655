import TileSchema.Filter.Compile
import TileSchema.Schema.Model

/-!
# The elements of a table

A table takes the elements of its type that satisfy its mapping, all parts of what it requires and
no part of what it rejects.  With a mapping for each of several types, it takes the elements that
one of them takes.  Types are written in the plural or not; an `s` at the end does not count.
-/

namespace TileSchema.Table

open TileSchema.Filter (Expression optionalParts)

/-- A type without an `s` at its end. -/
def singular (kind : String) : String :=
  match kind.toList.reverse with
  | 's' :: cs => String.ofList cs.reverse
  | _ => kind

/-- What the elements of a type have to satisfy, not simplified. -/
def rawSelection (kind : String) (mapping : Option Filter) (r : Restrictions) :
    Except Filter.Fault Expression := do
  let wanted ← optionalParts mapping
  let required ← optionalParts r.require
  let rejected ← optionalParts r.reject
  return .and [.or wanted, .and required, .not (.or rejected), .matchType (singular kind)]

/-- The expression for the elements of a type that satisfy a mapping and its restrictions. -/
def selection (kind : String) (mapping : Option Filter) (r : Restrictions) :
    Except Filter.Fault Expression :=
  (rawSelection kind mapping r).map Expression.simplify

/-- The expressions of several types. -/
def selections (r : Restrictions) : List (String × Filter) → Except Filter.Fault (List Expression)
  | [] => .ok []
  | (kind, mapping) :: es => do
    let e ← selection kind (some mapping) r
    let rest ← selections r es
    return e :: rest

/-- The expression for the elements that one of several types takes. -/
def selectionOfTypes (mappings : List (String × Filter)) (r : Restrictions) :
    Except Filter.Fault Expression :=
  (selections r mappings).map fun es => (Expression.or es).simplify

/-- The expression for the elements of a table. -/
def tableSelection (t : TableSpec) : Except Filter.Fault Expression :=
  match t.typeMappings with
  | some mappings => selectionOfTypes mappings.entries t.restrictions
  | none => selection t.kind t.mapping t.restrictions

end TileSchema.Table
