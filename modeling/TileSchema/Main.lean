import TileSchema.Generate

/-!
# The program

Reads a schema from a directory and writes its artifacts, as the command line, the environment and
a settings file say.  The files that a run asks for are read into a workspace until none is
missing; what is done with them is done there.  A schema at a URL is not fetched.
-/

namespace TileSchema.Program

open Config (ArgumentFault Arguments Settings)

/-! ### Reading -/

/-- The variables that are asked for. -/
def variableNames : List String :=
  ["TILEGEN_CONFIG", "TILEGEN_TAG", "TILEGEN_BASE_URL", "TILEGEN_SCHEMA_DIR", "TILEGEN_OUTPUT",
    "TILEGEN_FORMAT"]

/-- The variables that are set. -/
def readEnvironment : IO (List (String × String)) := do
  let found ← variableNames.mapM fun name => do return (← IO.getEnv name).map fun v => (name, v)
  return found.filterMap id

/-- The workspace with a file from the disk, if it is there. -/
def readInto (w : Workspace) (path : String) : IO Workspace := do
  try
    let text ← IO.FS.readFile path
    match w.writeBelow path text with
    | .ok w => return w
    | .error _ => return w
  catch _ => return w

/-- The workspace with the files that a settings file may be. -/
def readSettingsFile (path : String) : IO Workspace :=
  (path :: Config.extensions.map fun e => path ++ "." ++ e).foldlM readInto .fresh

/-- The workspace with all documents that a run asks for, those in `tried` having been read. -/
partial def readDocuments (directory : String) (tried : List String) (w : Workspace) :
    IO Workspace := do
  let run := crawl (directorySource w directory) rootReference
  match (Traced.requests run.events).filter (· ∉ tried) with
  | [] => return w
  | new =>
    let w ← new.foldlM (fun w r => readInto w (Workspace.Path.join directory r)) w
    readDocuments directory (tried ++ new) w

/-! ### Writing -/

/-- The files put in the place of the output, by way of a directory beside it. -/
def writeOutput (output : String) (files : List Artifact.RenderedFile) : IO Unit := do
  let parent := Workspace.outputParent output
  IO.FS.createDirAll parent
  let stamp ← IO.monoNanosNow
  let staging := Workspace.Path.join parent (".tilegen-" ++ toString stamp)
  let aside := Workspace.Path.join parent (".tilegen-old-" ++ toString stamp)
  IO.FS.createDir staging
  for f in files do
    IO.FS.writeFile (Workspace.Path.join staging f.name) f.contents
  let hadOutput ← try
      IO.FS.rename output aside
      pure true
    catch _ => pure false
  IO.FS.rename staging output
  if hadOutput then IO.FS.removeDirAll aside

/-- The reports of a run, those of ordinary progress only if they are asked for. -/
def printReports (verbose : Bool) (events : List Event) : IO Unit := do
  for (level, message) in Traced.reports events do
    match level with
    | .warn => IO.eprintln (" WARN " ++ message)
    | .info => if verbose then IO.eprintln (" INFO " ++ message)

/-- The lines of the causes of an error, numbered if there are several. -/
def causeLines : List String → List String
  | [cause] => ["    " ++ cause]
  | causes => causes.zipIdx.map fun c =>
    let number := toString c.2
    String.ofList (List.replicate (5 - number.length) ' ') ++ number ++ ": " ++ c.1

/-- An error with its causes; the result is the exit code. -/
def printChain (chain : List String) : IO UInt32 := do
  match chain with
  | [] => return 1
  | first :: causes =>
    IO.eprintln ("Error: " ++ first)
    if !causes.isEmpty then
      IO.eprintln "\nCaused by:"
      (causeLines causes).forM fun line => IO.eprintln line
    return 1

/-! ### Running -/

/-- The summary of the command line. -/
def usage : String :=
  "Usage: tilegen [--config FILE] [--tag TAG] [--base-url URL | --schema-dir DIR] " ++
    "[--output DIR] [--format rust|json] [--verbose]"

/-- A command line that is not run; the result is the exit code. -/
def printFault : ArgumentFault → IO UInt32
  | .helpWanted => do
    IO.println usage
    return 0
  | .versionWanted => do
    IO.println "tilegen 0.1.0"
    return 0
  | _ => do
    IO.eprintln usage
    return 2

/-- A run with its settings; the result is the exit code. -/
def runWith (verbose : Bool) (s : Settings) : IO UInt32 := do
  match s.place with
  | .url base => printChain ["Crawl: Failed to read schema from " ++ base, "nothing is fetched"]
  | .directory directory =>
    let w ← readDocuments directory [] .fresh
    let run := renderSchema (directorySource w directory) directory s.format
    printReports verbose (.report .info (sourceMessage directory) :: run.events)
    match run.result with
    | .error e => printChain e.chain
    | .ok files =>
      writeOutput s.output files
      printReports verbose [.report .info ("Done! Wrote " ++ toString files.length ++
        " files to " ++ Text.quotePath s.output)]
      return 0

/-- A run from its command line; the result is the exit code. -/
def run (args : List String) : IO UInt32 := do
  let env ← readEnvironment
  match Arguments.ofList args env with
  | .error fault => printFault fault
  | .ok a =>
    let w ← match a.config with
      | some path => readSettingsFile path
      | none => pure .fresh
    match Settings.resolve w args env with
    | .error (.arguments fault) => printFault fault
    | .error _ => printChain [Config.configurationMessage]
    | .ok s => runWith a.verbose s

end TileSchema.Program

/-- The program. -/
def main (args : List String) : IO UInt32 := TileSchema.Program.run args
