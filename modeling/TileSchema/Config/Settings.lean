import TileSchema.Artifact.Render
import TileSchema.Config.CommandLine
import TileSchema.Config.File

/-!
# Settings

The settings of a run come in layers: what holds by default, a settings file, the environment, and
the command line.  A later layer wins, setting by setting.  On the command line, a base URL also
takes back the schema directory of the layers below, so that the schema comes from the URL.
-/

namespace TileSchema.Config

open Artifact (OutputFormat)

/-- The settings of a run. -/
structure Settings where
  /-- The release of the schema. -/
  tag : String
  /-- Where documents are fetched from. -/
  baseUrl : Option String
  /-- A directory with the documents, which goes before fetching them. -/
  schemaDir : Option String
  output : String
  format : OutputFormat
  deriving Repr, DecidableEq

/-- Why there are no settings. -/
inductive SettingsError where
  | arguments (fault : ArgumentFault)
  /-- The settings file is not there or not readable. -/
  | file (path : String)
  /-- A setting has a value that it cannot have. -/
  | setting (name : String)
  deriving Repr, DecidableEq

/-- What is said when the layers do not make up settings. -/
def configurationMessage : String := "CLI: Failed to load configuration"

/-! ### Formats -/

/-- The name of a format. -/
def formatName : OutputFormat → String
  | .code => "rust"
  | .manifest => "json"

/-- The format with a name. -/
def format? (name : String) : Option OutputFormat :=
  if name = formatName .code then some .code
  else if name = formatName .manifest then some .manifest
  else none

/-! ### Layers -/

/-- What holds unless a layer says otherwise. -/
def defaultLayer : SettingLayer :=
  [("tag", .text "v3.12.2"), ("output", .text "generated"), ("format", .text "rust")]

/-- The start of the variables that are settings. -/
def variableStart : List Char := "tilegen_".toList

/-- The setting that a variable is, if it is one; the case of its name does not count. -/
def variableSetting? (name value : String) : Option (String × Setting) :=
  let cs := name.toList.map Char.toLower
  if variableStart.isPrefixOf cs then
    some (settingUnder (String.ofList (cs.drop variableStart.length)) (.text value))
  else none

/-- The settings of an environment. -/
def environmentLayer (env : List (String × String)) : SettingLayer :=
  env.filterMap fun e => variableSetting? e.1 e.2

/-- What layers say of a setting, the layer that wins coming first. -/
def settingOf (layers : List SettingLayer) (name : String) : Option Setting :=
  layers.findSome? (·.lookup name)

/-- A setting that has to be a text. -/
def requiredText (layers : List SettingLayer) (name : String) : Except SettingsError String :=
  match settingOf layers name with
  | some (.text s) => .ok s
  | _ => .error (.setting name)

/-- A setting that may be absent. -/
def optionalText (layers : List SettingLayer) (name : String) :
    Except SettingsError (Option String) :=
  match settingOf layers name with
  | none | some .absent => .ok none
  | some (.text s) => .ok (some s)
  | _ => .error (.setting name)

/-- The format, given by its name or by a mapping with this one name. -/
def requiredFormat (layers : List SettingLayer) : Except SettingsError OutputFormat :=
  let name := match settingOf layers "format" with
    | some (.text s) => some s
    | some (.table [s]) => some s
    | _ => none
  match name.bind format? with
  | some f => .ok f
  | none => .error (.setting "format")

/-- The settings that layers add up to. -/
def Settings.ofLayers (layers : List SettingLayer) : Except SettingsError Settings := do
  let tag ← requiredText layers "tag"
  let baseUrl ← optionalText layers "base_url"
  let schemaDir ← optionalText layers "schema_dir"
  let output ← requiredText layers "output"
  let format ← requiredFormat layers
  return ⟨tag, baseUrl, schemaDir, output, format⟩

/-- The layers below the command line. -/
def layersOf (w : Workspace) (config : Option String) (env : List (String × String)) :
    Except SettingsError (List SettingLayer) :=
  match config with
  | none => .ok [environmentLayer env, defaultLayer]
  | some path =>
    match SettingLayer.ofFile w path with
    | some layer => .ok [environmentLayer env, layer, defaultLayer]
    | none => .error (.file path)

/-! ### The command line -/

/-- Settings with what the command line says. -/
def Settings.withArguments (s : Settings) (a : Arguments) : Settings where
  tag := a.tag.getD s.tag
  baseUrl := a.baseUrl.or s.baseUrl
  schemaDir := a.schemaDir.or (if a.baseUrl.isSome then none else s.schemaDir)
  output := a.output.getD s.output
  format := (a.format.bind format?).getD s.format

/-- The settings of a run, from its command line and environment and the files there are. -/
def Settings.resolve (w : Workspace) (args : List String) (env : List (String × String)) :
    Except SettingsError Settings := do
  let a ← (Arguments.ofList args env).mapError .arguments
  let layers ← layersOf w a.config env
  let s ← Settings.ofLayers layers
  return s.withArguments a

/-! ### Where the schema comes from -/

/-- Where the releases of the schema are published. -/
def releaseBase : String := "https://raw.githubusercontent.com/openmaptiles/openmaptiles"

/-- A URL that ends in a slash. -/
def withSlash (url : String) : String :=
  if url.toList.getLast? = some '/' then url else url ++ "/"

/-- The URL that references are added to. -/
def Settings.fetchBase (s : Settings) : String :=
  withSlash (s.baseUrl.getD (releaseBase ++ "/" ++ s.tag ++ "/"))

/-- Where the schema comes from: a directory or a URL. -/
inductive SchemaPlace where
  | directory (path : String)
  | url (base : String)
  deriving Repr, DecidableEq

/-- Where the schema of a run comes from. -/
def Settings.place (s : Settings) : SchemaPlace :=
  match s.schemaDir with
  | some path => .directory path
  | none => .url s.fetchBase

/-- The name of a place. -/
def SchemaPlace.label : SchemaPlace → String
  | .directory path => path
  | .url base => base

end TileSchema.Config
