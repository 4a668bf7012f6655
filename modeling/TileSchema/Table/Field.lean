/-!
# Row fields

A row of a table has typed fields, each read from the element in one of a few ways.  The last field
of every row is the element itself.
-/

namespace TileSchema.Table

/-- The type of a field. -/
inductive FieldType where
  | string
  | boolean
  | integer
  | rawElement
  deriving Repr, DecidableEq

/-- The name of a type. -/
def FieldType.name : FieldType → String
  | .string => "String"
  | .boolean => "Boolean"
  | .integer => "Integer"
  | .rawElement => "RawElement"

/-- How the value of a field is read from an element. -/
inductive Extraction where
  /-- A tag as it is. -/
  | attribute (key : String)
  /-- A tag read as a boolean. -/
  | attributeAsBool (key : String)
  /-- A tag read as an integer. -/
  | attributeAsInt (key : String)
  /-- The drawing order that the tags of a way ask for. -/
  | wayZOrder
  /-- The direction of travel that a tag gives. -/
  | direction (key : String)
  /-- The key whose tag satisfied the mapping. -/
  | mappingKey
  /-- The value of that tag. -/
  | mappingValue
  /-- The element itself. -/
  | sourceElement
  deriving Repr, DecidableEq

/-- Whether the mapping key has to be known. -/
def Extraction.usesMappingKey : Extraction → Bool
  | .mappingKey | .mappingValue => true
  | _ => false

/-- A field of a row. -/
structure Field where
  type : FieldType
  name : String
  extraction : Extraction
  deriving Repr, DecidableEq

/-- The field that holds the element itself. -/
def Field.source : Field := ⟨.rawElement, "source", .sourceElement⟩

end TileSchema.Table
