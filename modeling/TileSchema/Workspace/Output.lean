import TileSchema.Artifact.Render
import TileSchema.Workspace.Action

/-!
# Replacing the output

The output directory is replaced as a whole.  Its files are first written to a directory beside
it; then what stood at its place is moved aside, and the new directory takes the place.  If that
fails, the old output is moved back.  The two directories beside it have names that nothing else
has, and are gone at the end whatever happens.

So the output never holds a mixture of two runs, and a failure leaves it as it was.  Directories
above the output that were made on the way stay.
-/

namespace TileSchema.Workspace

open Artifact (RenderedFile)

/-! ### Errors -/

/-- The steps of replacing an output. -/
inductive OutputStep where
  | makeParent
  | makeStaging
  | writeFile
  | makeAside
  | moveAside
  | restore
  | moveInto
  deriving Repr, DecidableEq

/-- What is said of a step that failed. -/
def OutputStep.label : OutputStep → String
  | .makeParent => "Emit: Failed to create directory "
  | .makeStaging => "Emit: Failed to create staging directory in "
  | .writeFile => "Emit: Failed to write "
  | .makeAside => "Emit: Failed to create directory in "
  | .moveAside => "Emit: Failed to move aside "
  | .restore => "Emit: Failed to restore "
  | .moveInto => "Emit: Failed to move output into "

/-- A step that failed, with the path it was about. -/
structure OutputError where
  step : OutputStep
  path : String
  cause : SystemError
  deriving Repr, DecidableEq

/-- The wording of an error, without its cause. -/
def OutputError.message (e : OutputError) : String := e.step.label ++ Text.quotePath e.path

/-- A result of a step. -/
def inStep {α : Type} (step : OutputStep) (path : String) (r : Except SystemError α) :
    Except OutputError α := r.mapError fun cause => ⟨step, path, cause⟩

/-! ### Choices of the system -/

/-- What a system decides: the operations that it refuses, and the temporary names. -/
structure System where
  /-- Why an operation is refused: the one of a step that comes after so many others of it. -/
  refuse : OutputStep → Nat → Option SystemError
  /-- The end of a temporary name, given its start and the names that are taken. -/
  suffix : String → List String → String
  suffix_isAlphanum : ∀ stem taken, ∀ c ∈ (suffix stem taken).toList, c.isAlphanum = true

/-- The result of an operation of a step, unless the system refuses it. -/
def System.attempt {α : Type} (sys : System) (step : OutputStep) (n : Nat)
    (r : Except SystemError α) : Except SystemError α := unlessRefused (sys.refuse step n) r

/-- So many letters. -/
def letters (n : Nat) : String := String.ofList (List.replicate n 'x')

/-- Six letters or more that end a name which is not taken: of more such names than there are taken
ones, one is free. -/
def freshLetters (stem : String) (taken : List String) : String :=
  letters (((List.range (taken.length + 1)).find? fun n => stem ++ letters (n + 6) ∉ taken).getD 0 + 6)

/-- The system that refuses nothing. -/
def System.willing : System where
  refuse _ _ := none
  suffix := freshLetters
  suffix_isAlphanum stem taken c hc := by
    rw [freshLetters, letters, String.toList_ofList] at hc
    rw [List.eq_of_mem_replicate hc]
    decide

/-! ### Directories beside the output -/

/-- An empty directory of a temporary name in a directory; the result is its location. -/
def makeTemporary (sys : System) (step : OutputStep) (parent stem : String) :
    Action OutputError Location := fun w =>
  match inStep step parent (sys.attempt step 0 (w.addTemporary (sys.suffix stem) parent stem)) with
  | .ok (w, there) => (w, pure there)
  | .error e => (w, .ofExcept (.error e))

/-- The absolute path of a location. -/
def pathOf (here : Location) : String := "/" ++ Path.ofSegments here.reverse

/-! ### Steps -/

/-- The directory beside which the output stands. -/
def outputParent (output : String) : String :=
  match Path.parent? output with
  | some p => if p.isEmpty then "." else p
  | none => "."

/-- The files written into a directory, so many others having been written before. -/
def writeFiles (sys : System) (directory : String) : Nat → List RenderedFile → Action OutputError Unit
  | _, [] => pure ()
  | n, f :: fs => do
    let path := Path.join directory f.name
    Action.change fun w =>
      inStep .writeFile path (sys.attempt .writeFile n (w.write path f.contents))
    writeFiles sys directory (n + 1) fs

/-- Something moved to a path. -/
def moveTo (sys : System) (step : OutputStep) (about source destination : String) :
    Action OutputError Unit :=
  Action.change fun w => inStep step about (sys.attempt step 0 (w.move source destination))

/-- The new output moved to its place; if that fails, the old one is moved back. -/
def moveInto (sys : System) (staging aside output : String) (hadOutput : Bool) :
    Action OutputError Unit := fun w =>
  match sys.attempt .moveInto 0 (w.move staging output) with
  | .ok w => (w, pure ())
  | .error cause =>
    let failure : OutputError := ⟨.moveInto, output, cause⟩
    if hadOutput then (moveTo sys .restore output aside output).andThen
      (fun _ => Action.look fun _ => .ofExcept (.error failure)) w
    else (w, .ofExcept (.error failure))

/-- The new output put in the place of the old one, which is moved aside and lost. -/
def swapOutput (sys : System) (staging output : String) : Action OutputError Unit := do
  let aside ← makeTemporary sys .makeAside (outputParent output) ".tilegen-old-"
  Action.clearing aside do
    let old := Path.join (pathOf aside) "output"
    let hadOutput ← Action.look fun w => pure (w.contains output)
    if hadOutput then
      Action.info ("Replacing " ++ Text.quotePath output)
      moveTo sys .moveAside output output old
    moveInto sys staging old output hadOutput

/-- What is reported of a file that was written. -/
def writtenMessage (output : String) (f : RenderedFile) : String :=
  "Wrote " ++ Text.quotePath (Path.join output f.name) ++ " (" ++
    toString f.contents.utf8ByteSize ++ " bytes)"

/-- The reports of files that were written. -/
def reportFiles (output : String) : List RenderedFile → Action OutputError Unit
  | [] => pure ()
  | f :: fs => do
    Action.info (writtenMessage output f)
    reportFiles output fs

/-- The output replaced by a directory that holds the files and nothing else. -/
def replaceOutput (sys : System) (output : String) (files : List RenderedFile) :
    Action OutputError Unit := do
  let parent := outputParent output
  Action.changeAnyway fun w =>
    let (w, r) := w.makeDirectories (sys.refuse .makeParent) parent
    (w, inStep .makeParent parent r)
  let staging ← makeTemporary sys .makeStaging parent ".tilegen-"
  Action.clearingOnError staging do
    writeFiles sys (pathOf staging) 0 files
    swapOutput sys (pathOf staging) output
  reportFiles output files

end TileSchema.Workspace
