import TileSchema.Artifact.Build
import TileSchema.Code.Scope
import TileSchema.Text.Identifier
import TileSchema.Text.Quoted

/-!
# Declarations of the rows

Each table whose rows are built from elements becomes a row type: a structure with its fields, the
expression that selects its elements, a constructor, a handler trait for those who want its rows,
and an implementation of the accessor trait of each field.

The accessor traits themselves are made from the types of all fields, those of relation members
included.  The index of rows and the dispatch to subscribers have one entry for each row type.
-/

namespace TileSchema.Code

open Artifact (ArtifactSet)
open TileSchema.Filter (Expression)
open Table (Compiled Extraction Field FieldType FieldTypes)

/-! ### Types and values -/

/-- The type in which a row keeps a field. -/
def storedType : FieldType → String
  | .string => "Option<String>"
  | .boolean => "bool"
  | .integer => "i64"
  | .rawElement => "SourceFeature"

/-- The type in which an accessor gives a field. -/
def accessorType : FieldType → String
  | .string => "Option<&str>"
  | .boolean => "bool"
  | .integer => "i64"
  | .rawElement => "&SourceFeature"

/-- The expression by which an accessor gives a field. -/
def accessorBody (type : FieldType) (ident : String) : String :=
  match type with
  | .string => "self." ++ ident ++ ".as_deref()"
  | .boolean | .integer => "self." ++ ident
  | .rawElement => "&self." ++ ident

/-- The expression by which a constructor reads a field. -/
def extractionCode : Extraction → String
  | .attribute key => "source.get_string(" ++ Text.quote key ++ ")"
  | .attributeAsBool key => "source.get_bool(" ++ Text.quote key ++ ")"
  | .attributeAsInt key => "source.get_long(" ++ Text.quote key ++ ")"
  | .wayZOrder => "source.way_zorder()"
  | .direction key => "source.direction(" ++ Text.quote key ++ ")"
  | .mappingKey => "Some(mapping_key.to_string())"
  | .mappingValue => "source.get_string(mapping_key)"
  | .sourceElement => "source.clone()"

/-- The trait for the rows that have a field. -/
def accessorTrait (field : String) : String := Text.upperCamel ("with_" ++ field)

/-- The trait for the handlers of a row type. -/
def handlerTrait (rowType : String) : String := rowType ++ "Handler"

/-! ### Row types -/

/-- A field of a row type, and what the constructor puts into it. -/
structure Member where
  ident : String
  type : String
  deriving Repr, DecidableEq

/-- What a constructor puts into a field. -/
structure Initializer where
  ident : String
  value : String
  deriving Repr, DecidableEq

/-- An implementation of an accessor trait. -/
structure AccessorImpl where
  trait : String
  method : String
  type : String
  body : String
  deriving Repr, DecidableEq

/-- A row type. -/
structure RowDeclaration where
  rowType : String
  table : String
  members : List Member
  expression : Expression
  /-- The name by which the constructor knows the mapping key. -/
  keyParameter : String
  initializers : List Initializer
  handler : String
  accessors : List AccessorImpl

/-- A field of a row type. -/
def memberOf (f : Field) : Member := ⟨Text.snakeIdent f.name, storedType f.type⟩

/-- How a constructor reads a field. -/
def initializerOf (f : Field) : Initializer :=
  ⟨Text.snakeIdent f.name, extractionCode f.extraction⟩

/-- The implementation of the accessor trait of a field. -/
def accessorImplOf (f : Field) : AccessorImpl :=
  let ident := Text.snakeIdent f.name
  ⟨accessorTrait f.name, ident, accessorType f.type, accessorBody f.type ident⟩

/-- The name of the mapping key, marked if the fields have no use for it. -/
def keyParameterOf (fields : List Field) : String :=
  if fields.any (·.extraction.usesMappingKey) then "mapping_key" else "_mapping_key"

/-- The row type of a table. -/
def rowDeclaration (t : Compiled) : RowDeclaration where
  rowType := t.rowType
  table := t.tableName
  members := t.fields.map memberOf
  expression := t.expression
  keyParameter := keyParameterOf t.fields
  initializers := t.fields.map initializerOf
  handler := handlerTrait t.rowType
  accessors := t.fields.map accessorImplOf

/-! ### Traits and dispatch -/

/-- An accessor trait. -/
structure AccessorDeclaration where
  field : String
  fieldType : FieldType
  trait : String
  method : String
  type : String
  deriving Repr, DecidableEq

/-- The accessor trait of a field. -/
def accessorDeclaration (field : String) (type : FieldType) : AccessorDeclaration :=
  ⟨field, type, accessorTrait field, Text.snakeIdent field, accessorType type⟩

/-- The method by which a subscriber gives its handler of a table. -/
structure SubscriberMethod where
  method : String
  handler : String
  deriving Repr, DecidableEq

/-- The branch of the dispatch that asks a subscriber for its handler of a table. -/
structure DispatchBranch where
  method : String
  rowType : String
  deriving Repr, DecidableEq

/-- Everything that is declared for the tables. -/
structure RowModule where
  rows : List RowDeclaration
  accessors : List AccessorDeclaration
  /-- The row types that the index of rows leads to. -/
  entries : List String
  methods : List SubscriberMethod
  branches : List DispatchBranch

/-- The tables whose rows are built from elements. -/
def elementTables (tables : List Compiled) : List Compiled := tables.filter (!·.isRelationMember)

/-- The types asked for by a table: that of its rows, and that of their handlers. -/
def typeDeclarationsOf (t : Compiled) : List (Declaration Unit) :=
  [⟨t.rowType, t.key, ()⟩, ⟨handlerTrait t.rowType, t.key, ()⟩]

/-- The types asked for by tables. -/
def typeDeclarations (tables : List Compiled) : List (Declaration Unit) :=
  tables.flatMap typeDeclarationsOf

/-- The accessor traits asked for by the fields. -/
def traitDeclarations (types : FieldTypes) : List (Declaration Unit) :=
  types.entries.map fun e => ⟨accessorTrait e.1, e.1, ()⟩

/-- Everything that is declared for the tables of a schema, unless two types or two traits
collide. -/
def rowModule (a : ArtifactSet) : Except RenderError RowModule := do
  let tables := elementTables a.tables
  requireDistinct .sameType (typeDeclarations tables)
  requireDistinct .sameTrait (traitDeclarations a.fieldTypes)
  return {
    rows := tables.map rowDeclaration
    accessors := a.fieldTypes.entries.map fun e => accessorDeclaration e.1 e.2
    entries := a.rowIndex.rules.map (·.result.rowType)
    methods := tables.map fun t => ⟨Text.snakeIdent t.tableName, handlerTrait t.rowType⟩
    branches := tables.map fun t => ⟨Text.snakeIdent t.tableName, t.rowType⟩ }

end TileSchema.Code
