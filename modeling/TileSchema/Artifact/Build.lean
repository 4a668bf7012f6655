import TileSchema.Rules.FieldValues
import TileSchema.Schema.Model
import TileSchema.Table.Compile
import TileSchema.Trace

/-!
# Artifacts

Everything that is written about a schema, after it has been compiled and before it has a format:
the layers with their documented values and value rules, the tables with their expressions, the
types of all fields and the index of rows.

The layers of a schema are compiled first, field by field, and then its tables.  The first error
ends the work, and names the field, the layer or the table it was met in.
-/

namespace TileSchema.Artifact

open Table (Compiled FieldTypes RowTarget)

/-- A field of a layer. -/
structure LayerField where
  name : String
  description : String
  /-- The documented values. -/
  allowedValues : List String
  /-- The rules that give the value to an element, if the schema has them. -/
  mapping : Option (RuleIndex String)

/-- A layer with its fields compiled. -/
structure LayerArtifact where
  id : String
  description : String
  bufferSize : Float
  fields : List LayerField

/-- All that is written about a schema. -/
structure ArtifactSet where
  /-- Where the schema came from. -/
  source : String
  tileset : Tileset
  layers : List LayerArtifact
  tables : List Compiled
  fieldTypes : FieldTypes
  rowIndex : RuleIndex RowTarget

/-! ### Compiling a schema -/

/-- The place of an error in a field of a layer. -/
def fieldPlace (layer field : String) : String :=
  "field '" ++ field ++ "' of layer '" ++ layer ++ "'"

/-- The values of a field: those documented, and the rules if it is given by filters. -/
def fieldValues (place : String) :
    Option Filter → Except SchemaError (List String × Option (RuleIndex String))
  | none => .ok ([], none)
  | some values => do
    let allowed ← liftFault place (allowedValues values)
    match valueFilters? values with
    | none => return (allowed, none)
    | some entries =>
      let index ← within place (fieldMapping entries)
      return (allowed, some index)

/-- A field of a layer compiled. -/
def compileField (layer name : String) (spec : FieldSpec) : Except SchemaError LayerField := do
  let (allowed, mapping) ← fieldValues (fieldPlace layer name) spec.values
  return ⟨name, spec.description, allowed, mapping⟩

/-- A layer compiled. -/
def compileLayer (layer : Layer) : Except SchemaError LayerArtifact := do
  let fields ← layer.fields.entries.mapM fun e => compileField layer.id e.1 e.2
  return ⟨layer.id, layer.description, layer.bufferSize, fields⟩

/-- A schema compiled, `source` saying where it came from. -/
def compileSchema (schema : Schema) (source : String) : Except SchemaError ArtifactSet := do
  let layers ← schema.layers.mapM compileLayer
  let (types, result) := Table.compile .empty schema.tables
  let tables ← result
  return ⟨source, schema.tileset, layers, tables, types, Table.rowIndex tables⟩

/-- What is reported of the artifacts. -/
def ArtifactSet.summary (a : ArtifactSet) : String :=
  "Compiled " ++ toString a.layers.length ++ " layers, " ++ toString a.tables.length ++
    " tables (" ++ toString a.rowIndex.size ++ " dispatch rules), " ++
    toString a.fieldTypes.size ++ " distinct fields"

/-- A schema compiled, with a report of it. -/
def build (schema : Schema) (source : String) : Traced SchemaError ArtifactSet := do
  let artifacts ← Traced.ofExcept (compileSchema schema source)
  Traced.info artifacts.summary
  return artifacts

end TileSchema.Artifact
