import TileSchema.Artifact.Build
import TileSchema.Config.Settings
import TileSchema.Schema.Crawl
import TileSchema.Workspace.Output

/-!
# Generating

One run reads a schema from a directory of the workspace, compiles it, renders it and replaces the
output.  Nothing is written before all of it has been rendered, so an error in the schema leaves
the workspace as it was.
-/

namespace TileSchema

open Artifact (OutputFormat RenderedFile)
open Code (RenderError)
open Workspace (Action OutputError)

/-- Why nothing was generated. -/
inductive GenerateError where
  | crawl (source : String) (e : FetchError)
  | schema (e : SchemaError)
  | render (e : RenderError)
  | output (e : OutputError)

/-- The wording of an error, from the whole to its causes. -/
def GenerateError.chain : GenerateError → List String
  | .crawl source e => ["Crawl: Failed to read schema from " ++ source, e.message, e.cause]
  | .schema e => ["Compile: Invalid schema", e.message]
  | .render e => ["Emit: Failed to render output", e.message]
  | .output e => [e.message, e.cause.message]

/-- The documents in a directory of a workspace. -/
def directorySource (w : Workspace) (directory : String) : Source where
  fetch reference :=
    let path := Workspace.Path.join directory reference
    match w.read path with
    | .ok text => readDocument reference text
    | .error cause => .error (.read path cause)
  announce reference :=
    [(.info, "Reading " ++ Text.quotePath (Workspace.Path.join directory reference))]

/-- The files that a source gives, not yet written. -/
def renderSchema (source : Source) (label : String) (format : OutputFormat) :
    Traced GenerateError (List RenderedFile) := do
  let schema ← (crawl source rootReference).mapError (.crawl label)
  let artifacts ← (Artifact.build schema label).mapError .schema
  (Artifact.render format artifacts).mapError .render

/-- What is reported before a schema is read. -/
def sourceMessage (label : String) : String := "Reading schema from " ++ label

/-- The schema in a directory generated to an output; the result is the number of files. -/
def generate (directory output : String) (format : OutputFormat) : Action GenerateError Nat := do
  Action.info (sourceMessage directory)
  let files ← Action.look fun w => renderSchema (directorySource w directory) directory format
  Action.mapError .output (Workspace.replaceOutput .willing output files)
  return files.length

end TileSchema
