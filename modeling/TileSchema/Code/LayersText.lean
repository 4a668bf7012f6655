import TileSchema.Code.Layers
import TileSchema.Code.Notice
import TileSchema.Decimal.Notation
import TileSchema.Text.Repertoire

/-!
# The file of the layers

The lines of the first generated file: the constants of the tileset, and the modules of its layers.
-/

namespace TileSchema.Code

open Artifact (ArtifactSet LayerField)

/-- A line so many levels in. -/
def indent (level : Nat) (line : String) : String :=
  String.ofList (List.replicate (4 * level) ' ') ++ line

/-- The constant of a text. -/
def textConstant (ident text : String) : String :=
  "pub const " ++ ident ++ ": &str = " ++ Text.quote text ++ ";"

/-- The constant of a list of texts. -/
def listConstant (ident : String) (texts : List String) : String :=
  "pub const " ++ ident ++ ": &[&str] = &" ++ Text.quoteList texts ++ ";"

/-! ### Layers -/

/-- The comment on the name of a field. -/
def fieldDoc (f : LayerField) : List String :=
  let description := Text.oneLine f.description
  (if description.isEmpty then [] else ["/// " ++ description]) ++
    if f.allowedValues.isEmpty then []
    else
      (if description.isEmpty then [] else ["///"]) ++ "/// Allowed values:" ::
        f.allowedValues.map fun v => "/// - \x60" ++ v ++ "\x60"

/-- The constant for the name of a field. -/
def fieldLines (d : Declaration LayerField) : List String :=
  fieldDoc d.item ++ [textConstant d.ident d.name]

/-- The constant for a value, or for all values, of a field. -/
def valueLine (d : Declaration ValueItem) : String :=
  match d.item with
  | .value v => textConstant d.ident v
  | .list vs => listConstant d.ident vs

/-- The function for the rules of a field. -/
def mappingLines (d : Declaration (RuleIndex String)) : List String :=
  ["", indent 2 ("pub fn " ++ d.ident ++ "() -> MultiExpression<&'static str> \x7b"),
    indent 3 "MultiExpression::of(vec!["] ++
  d.item.rules.map (fun r =>
    indent 4 ("(" ++ Text.quote r.result ++ ", " ++ r.expression.text ++ "),")) ++
  [indent 3 "])", indent 2 "\x7d"]

/-- The comment on a layer, if there is something to say of it. -/
def layerDoc (description : String) : List String :=
  if Text.isBlankText description then [] else ["/// " ++ Text.oneLine description]

/-- The comment on the names of the fields of a layer. -/
def fieldsDoc (id : String) : String :=
  "/// Attribute names for map elements in the " ++ id ++ " layer."

/-- The comment on the values of the fields of a layer. -/
def valuesDoc (id : String) : String :=
  "/// Attribute values for map elements in the " ++ id ++ " layer."

/-- The comment on the rules of the fields of a layer. -/
def mappingsDoc (id : String) : String :=
  "/// Mappings from OSM element tags to attribute values in the " ++ id ++ " layer."

/-- The module of a layer. -/
def LayerModule.lines (m : LayerModule) : List String :=
  layerDoc m.description ++
  ["pub mod " ++ m.ident ++ " \x7b",
    indent 1 "use super::*;",
    "",
    indent 1 (textConstant "LAYER_NAME" m.id),
    indent 1 ("pub const BUFFER_SIZE: f64 = " ++ Decimal.text Decimal.codeStyle m.bufferSize ++
      ";"),
    "",
    indent 1 (fieldsDoc m.id),
    indent 1 "pub mod fields \x7b"] ++
  (m.fields.flatMap fieldLines).map (indent 2) ++
  [indent 1 "\x7d",
    "",
    indent 1 (valuesDoc m.id),
    indent 1 "pub mod field_values \x7b"] ++
  m.values.map (fun d => indent 2 (valueLine d)) ++
  [indent 1 "\x7d",
    "",
    indent 1 (mappingsDoc m.id),
    indent 1 "pub mod field_mappings \x7b",
    indent 2 "use super::*;"] ++
  m.mappings.flatMap mappingLines ++
  [indent 1 "\x7d", "\x7d"]

/-! ### The file -/

/-- The constants of the tileset. -/
def tilesetLines (a : ArtifactSet) : List String :=
  [textConstant "NAME" a.tileset.name,
    textConstant "DESCRIPTION" a.tileset.description,
    textConstant "VERSION" a.tileset.version,
    textConstant "ATTRIBUTION" a.tileset.attribution,
    listConstant "LANGUAGES" a.tileset.languages,
    listConstant "LAYERS" (a.layers.map (·.id))]

/-- The lines of the file, given the modules of the layers. -/
def layerFileLines (a : ArtifactSet) (modules : List LayerModule) : List String :=
  preamble ++
  ["//! Vector tile layer definitions, attributes and allowed values generated",
    "//! from the OpenMapTiles schema " ++ Text.oneLine a.source ++ ".",
    "",
    lintLine,
    "",
    expressionImports,
    ""] ++
  tilesetLines a ++ modules.flatMap fun m => "" :: m.lines

/-- The file of the layers, with warnings of the declarations left out. -/
def layerFile (a : ArtifactSet) : Traced RenderError String := do
  let modules ← layerModules [] a.layers
  return unlines (layerFileLines a modules)

end TileSchema.Code
