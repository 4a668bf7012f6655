import TileSchema.Filter.Basic
import TileSchema.Ordered.Dict

/-!
# Schema documents

A schema is spread over documents of three kinds: the tileset, which lists its layers; a layer,
which describes its fields and names its data sources; and a mapping, which defines tables.  This
file holds what each of them says, and the whole schema that they add up to.
-/

namespace TileSchema

open Ordered (Dict)

/-- The tileset as a whole. -/
structure Tileset where
  /-- References of the layer documents. -/
  layers : List String := []
  name : String := ""
  description : String := ""
  version : String := ""
  attribution : String := ""
  languages : List String := []
  deriving Repr, DecidableEq

/-- What a layer says of one of its fields: a description alone, or with the values it takes. -/
inductive FieldSpec where
  | described (description : String)
  | detailed (description : String) (values : Option Filter)
  deriving Repr

/-- The description of a field. -/
def FieldSpec.description : FieldSpec → String
  | .described d => d
  | .detailed d _ => d

/-- The values of a field. -/
def FieldSpec.values : FieldSpec → Option Filter
  | .described _ => none
  | .detailed _ v => v

/-- A layer of the tileset. -/
structure Layer where
  id : String := ""
  description : String := ""
  bufferSize : Float := 0.0
  fields : Dict FieldSpec := .empty

/-- Where the data of a layer comes from. -/
structure Datasource where
  kind : String := ""
  mappingFile : Option String := none
  deriving Repr, DecidableEq

/-- The kind of data source whose mapping documents define tables. -/
def mappedKind : String := "imposm3"

/-- A layer document. -/
structure LayerDocument where
  layer : Layer := {}
  datasources : List Datasource := []

/-- A column of a table. -/
structure Column where
  kind : String := ""
  name : String := ""
  key : Option String := none
  /-- Whether the value comes from the member and not from the relation. -/
  fromMember : Bool := false
  deriving Repr, DecidableEq

/-- What further restricts the elements of a table. -/
structure Restrictions where
  require : Option Filter := none
  reject : Option Filter := none
  deriving Repr, Inhabited

/-- A table before it is compiled. -/
structure TableSpec where
  kind : String := ""
  columns : List Column := []
  mapping : Option Filter := none
  /-- A filter for each of several element types, which replaces the mapping. -/
  typeMappings : Option (Dict Filter) := none
  filters : Option Restrictions := none

/-- The restrictions of a table. -/
def TableSpec.restrictions (t : TableSpec) : Restrictions := t.filters.getD {}

/-- The kind of table whose rows are the members of relations. -/
def relationMember : String := "relation_member"

/-- Whether the rows of a table are the members of relations. -/
def TableSpec.isRelationMember (t : TableSpec) : Bool := t.kind == relationMember

/-- All that a schema says. -/
structure Schema where
  tileset : Tileset
  layers : List Layer
  tables : Dict TableSpec

end TileSchema
