import TileSchema.Rules.FieldValues
import TileSchema.Table.Columns
import TileSchema.Table.Selection
import TileSchema.Text.Identifier

/-!
# Compiled tables

A table is compiled into the fields of its rows and the expression of its elements.  The tables of
a schema are compiled in order, each one first registering its fields.  What happens to the
registered types does not depend on whether the compilation succeeds, so they are a result of their
own.

The row index leads from an element to the rows it becomes, leaving out relation members, whose
rows are not built from elements alone.
-/

namespace TileSchema.Table

open TileSchema.Filter (Expression)
open Ordered (Dict)

/-- The row that an element becomes in a table. -/
structure RowTarget where
  table : String
  rowType : String
  deriving Repr, DecidableEq

/-- A table after compilation. -/
structure Compiled where
  key : String
  /-- The name of the table in a database. -/
  tableName : String
  rowType : String
  kind : String
  expression : Expression
  fields : List Field

/-- Whether the rows of a table are the members of relations. -/
def Compiled.isRelationMember (t : Compiled) : Bool := t.kind == relationMember

/-- The row of a table. -/
def Compiled.target (t : Compiled) : RowTarget := ⟨t.tableName, t.rowType⟩

/-- The place of an error in the filters of a table. -/
def tablePlace (key : String) : String := "table '" ++ key ++ "'"

/-- The name in a database of the table with a key. -/
def databaseName (key : String) : String := "osm_" ++ key

/-- A table with fields and an expression. -/
def Compiled.of (key : String) (t : TableSpec) (e : Expression) (fields : List Field) : Compiled where
  key
  tableName := databaseName key
  rowType := Text.upperCamel (databaseName key)
  kind := t.kind
  expression := e
  fields

/-- One table compiled, and the types with its fields. -/
def compileOne (types : FieldTypes) (key : String) (t : TableSpec) :
    FieldTypes × Except SchemaError Compiled :=
  match fields key t with
  | .error e => (types, .error e)
  | .ok fs =>
    match types.register key fs with
    | (types, .error e) => (types, .error e)
    | (types, .ok ()) =>
      (types, (liftFault (tablePlace key) (tableSelection t)).map fun e => .of key t e fs)

/-- The tables compiled in order, and the types with all their fields. -/
def compileAll (types : FieldTypes) :
    List (String × TableSpec) → FieldTypes × Except SchemaError (List Compiled)
  | [] => (types, .ok [])
  | (key, t) :: rest =>
    match compileOne types key t with
    | (types, .error e) => (types, .error e)
    | (types, .ok c) =>
      match compileAll types rest with
      | (types, .error e) => (types, .error e)
      | (types, .ok cs) => (types, .ok (c :: cs))

/-- The tables of a schema compiled. -/
def compile (types : FieldTypes) (tables : Dict TableSpec) :
    FieldTypes × Except SchemaError (List Compiled) := compileAll types tables.entries

/-- The rows that an element becomes. -/
def rowIndex (tables : List Compiled) : RuleIndex RowTarget :=
  ⟨(tables.filter (!·.isRelationMember)).map fun t => ⟨t.expression, t.target⟩⟩

end TileSchema.Table
