import TileSchema.Artifact.Build
import TileSchema.Code.LayersText
import TileSchema.Code.RowsText
import TileSchema.Manifest.Json

/-!
# Rendering the artifacts

The artifacts are rendered as one manifest or as two files of code.  The result is the files with
their names; nothing is written yet.

The manifest is one JSON document that says all there is to say about a schema.  A value with
alternatives is an object whose one member is named for the alternative, or the name alone if
nothing goes with it.  A buffer size that is not finite has no JSON number, and is null.
-/

namespace TileSchema.Manifest

open Artifact (ArtifactSet LayerArtifact LayerField)
open TileSchema.Filter (Expression)
open Table (Compiled Extraction Field FieldTypes RowTarget)

/-- An array of strings. -/
def encodeTexts (texts : List String) : Json := .array (texts.map .string)

/-- A floating-point number, or null if it is not finite. -/
def encodeNumber (x : Float) : Json := if Decimal.isFinite x then .number x else .null

/-- An alternative that something goes with. -/
def variant (name : String) (value : Json) : Json := .object [(name, value)]

mutual

/-- An expression. -/
def encodeExpression : Expression → Json
  | .group op es => variant op.word (.array (encodeMembers es))
  | .not e => variant "not" (encodeExpression e)
  | .matchField key => variant "match_field" (.string key)
  | .matchAny key values => variant "match_any" (.array [.string key, encodeTexts values.toList])
  | .matchType kind => variant "match_type" (.string kind)

/-- The members of a group. -/
def encodeMembers : List Expression → List Json
  | [] => []
  | e :: es => encodeExpression e :: encodeMembers es

end

/-- The rules of an index. -/
def encodeIndex {α : Type} (encodeResult : α → Json) (index : RuleIndex α) : Json :=
  .array (index.rules.map fun r =>
    .object [("expression", encodeExpression r.expression), ("result", encodeResult r.result)])

/-- The way in which a field is read. -/
def encodeExtraction : Extraction → Json
  | .attribute key => variant "attribute" (.string key)
  | .attributeAsBool key => variant "attribute_as_bool" (.string key)
  | .attributeAsInt key => variant "attribute_as_int" (.string key)
  | .wayZOrder => .string "way_z_order"
  | .direction key => variant "direction" (.string key)
  | .mappingKey => .string "mapping_key"
  | .mappingValue => .string "mapping_value"
  | .sourceElement => .string "source_element"

/-- A field of a row. -/
def encodeField (f : Field) : Json :=
  .object [("declared_type", .string f.type.name), ("name", .string f.name),
    ("extraction", encodeExtraction f.extraction)]

/-- A table. -/
def encodeTable (t : Compiled) : Json :=
  .object [("key", .string t.key), ("table_name", .string t.tableName),
    ("row_type", .string t.rowType), ("table_type", .string t.kind),
    ("expression", encodeExpression t.expression), ("fields", .array (t.fields.map encodeField))]

/-- The row of a table. -/
def encodeTarget (r : RowTarget) : Json :=
  .object [("table", .string r.table), ("row_type", .string r.rowType)]

/-- The types of all fields. -/
def encodeFieldTypes (types : FieldTypes) : Json :=
  .object (types.entries.map fun e => (e.1, .string e.2.name))

/-- A field of a layer. -/
def encodeLayerField (f : LayerField) : Json :=
  .object [("name", .string f.name), ("description", .string f.description),
    ("allowed_values", encodeTexts f.allowedValues),
    ("mapping", match f.mapping with
      | some index => encodeIndex .string index
      | none => .null)]

/-- A layer. -/
def encodeLayer (l : LayerArtifact) : Json :=
  .object [("id", .string l.id), ("description", .string l.description),
    ("buffer_size", encodeNumber l.bufferSize), ("fields", .array (l.fields.map encodeLayerField))]

/-- The tileset as a whole. -/
def encodeTileset (t : Tileset) : Json :=
  .object [("layers", encodeTexts t.layers), ("name", .string t.name),
    ("description", .string t.description), ("version", .string t.version),
    ("attribution", .string t.attribution), ("languages", encodeTexts t.languages)]

/-- The manifest of a schema. -/
def encode (a : ArtifactSet) : Json :=
  .object [("source", .string a.source), ("tileset", encodeTileset a.tileset),
    ("layers", .array (a.layers.map encodeLayer)), ("tables", .array (a.tables.map encodeTable)),
    ("field_types", encodeFieldTypes a.fieldTypes),
    ("row_index", encodeIndex encodeTarget a.rowIndex)]

/-- The manifest as a text that ends its last line. -/
def text (a : ArtifactSet) : String := (encode a).text ++ "\n"

end TileSchema.Manifest

namespace TileSchema.Artifact

open Code (RenderError)

/-- The formats in which the artifacts can be rendered. -/
inductive OutputFormat where
  /-- Two files of code. -/
  | code
  /-- One manifest. -/
  | manifest
  deriving Repr, DecidableEq

/-- A file before it is written. -/
structure RenderedFile where
  name : String
  contents : String
  deriving Repr, DecidableEq

/-- The artifacts as files of code. -/
def renderCode (a : ArtifactSet) : Traced RenderError (List RenderedFile) := do
  let layers ← Code.layerFile a
  let rows ← Traced.ofExcept (Code.rowFile a)
  return [⟨"schema.rs", layers⟩, ⟨"tables.rs", rows⟩]

/-- The artifacts as a manifest. -/
def renderManifest (a : ArtifactSet) : List RenderedFile := [⟨"schema.json", Manifest.text a⟩]

/-- The artifacts in a format. -/
def render (format : OutputFormat) (a : ArtifactSet) : Traced RenderError (List RenderedFile) :=
  match format with
  | .code => renderCode a
  | .manifest => pure (renderManifest a)

end TileSchema.Artifact
