import TileSchema.Workspace.Path
import TileSchema.Workspace.Tree

/-!
# Workspaces

A workspace is a tree of files and the directory in it from which relative paths start.  A path is
followed segment by segment: a name leads to the entry of that name, two dots lead up and one dot
stays, and each step needs a directory to start from.

The operations on files either succeed or leave the workspace as it was.
-/

namespace TileSchema

/-- A place in a tree by the names that lead to it, the innermost first. -/
abbrev Workspace.Location := List String

/-- A tree of files with the directory that relative paths start from. -/
structure Workspace where
  tree : Workspace.Tree
  home : Workspace.Location
  home_isEntryName : ∀ n ∈ home, Workspace.Path.isEntryName n = true
  deriving Repr

namespace Workspace

/-- What stands at a location. -/
def at? (w : Workspace) (here : Location) : Option Tree := w.tree.find? here.reverse

/-- The workspace with something else, or nothing, at a location. -/
def putAt (w : Workspace) (here : Location) (t : Option Tree) : Workspace :=
  { w with tree := w.tree.put here.reverse t }

/-- The entry of a directory. -/
def child? (w : Workspace) (here : Location) (name : String) : Option Tree := w.at? (name :: here)

/-- The workspace whose home is a directory with nothing in it and nothing around it that
matters. -/
def fresh : Workspace := ⟨.directory [("work", .empty)], ["work"], by decide⟩

/-- The files of the home directory. -/
def paths (w : Workspace) : List String := ((w.at? w.home).getD .empty).paths

/-! ### Following paths -/

/-- The longest name that an entry can have, in bytes. -/
def maxNameBytes : Nat := 255

/-- The longest path that can be followed, in bytes. -/
def maxPathBytes : Nat := 4095

/-- One step along a path. -/
def step (w : Workspace) (here : Location) (segment : String) : Except SystemError Location :=
  match w.at? here with
  | some (.directory _) =>
    if Path.isIdle segment then .ok here
    else if segment = ".." then .ok (here.drop 1)
    else if maxNameBytes < segment.utf8ByteSize then .error .nameTooLong
    else if (w.child? here segment).isSome then .ok (segment :: here)
    else .error .noEntry
  | _ => .error .notDirectory

/-- The location at the end of segments. -/
def walk (w : Workspace) (here : Location) (segments : List String) :
    Except SystemError Location := segments.foldlM w.step here

/-- Where a path starts. -/
def startOf (w : Workspace) (path : String) : Location := if Path.isAbsolute path then [] else w.home

/-- Whether a path can be followed at all. -/
def checkPath (path : String) : Except SystemError Unit :=
  if path.toList.contains '\x00' then .error .nulInPath
  else if path.isEmpty then .error .noEntry
  else if maxPathBytes < path.utf8ByteSize then .error .nameTooLong
  else .ok ()

/-- The location that a path leads to. -/
def locate (w : Workspace) (path : String) : Except SystemError Location := do
  checkPath path
  w.walk (w.startOf path) (Path.segments path)

/-- Whether a path leads to something. -/
def contains (w : Workspace) (path : String) : Bool := (w.locate path).isOk

/-- What a path leads to. -/
def get (w : Workspace) (path : String) : Except SystemError Tree := do
  let here ← w.locate path
  match w.at? here with
  | some t => return t
  | none => throw .noEntry

/-- Whether a path leads to a file. -/
def isFile (w : Workspace) (path : String) : Bool :=
  match w.get path with
  | .ok (.file _) => true
  | _ => false

/-- Whether a path leads to a directory. -/
def isDirectory (w : Workspace) (path : String) : Bool :=
  match w.get path with
  | .ok (.directory _) => true
  | _ => false

/-! ### The last part of a path -/

/-- A path cut before its last part. -/
structure Target where
  /-- The directory that the path leads to without its last part. -/
  directory : Location
  /-- The last part if it is a name. -/
  name : Option String
  /-- Whether a slash follows it. -/
  slash : Bool

/-- A path cut before its last part, which need not be there. -/
def target (w : Workspace) (path : String) : Except SystemError Target := do
  checkPath path
  let ss := Path.segments path
  let parts := (ss.reverse.dropWhile String.isEmpty).reverse
  let here ← w.walk (w.startOf path) parts.dropLast
  match w.at? here with
  | some (.directory _) =>
    let name := parts.getLast?.filter fun s => s ≠ "." && s ≠ ".."
    if name.any fun s => maxNameBytes < s.utf8ByteSize then throw .nameTooLong
    return ⟨here, name, ss.length ≠ parts.length⟩
  | _ => throw .notDirectory

/-! ### Operations -/

/-- The text of a file. -/
def read (w : Workspace) (path : String) : Except SystemError String := do
  match ← w.get path with
  | .file s => return s
  | .directory _ => throw .isDirectory

/-- A new directory. -/
def makeDirectory (w : Workspace) (path : String) : Except SystemError Workspace := do
  let t ← w.target path
  match t.name with
  | none => throw .exists_
  | some name =>
    if (w.child? t.directory name).isSome then throw .exists_
    return w.putAt (name :: t.directory) (some .empty)

/-- A text written to a file, which is made if it is not there. -/
def write (w : Workspace) (path text : String) : Except SystemError Workspace := do
  let t ← w.target path
  match t.name with
  | none => throw .isDirectory
  | some name =>
    if t.slash then throw .isDirectory
    match w.child? t.directory name with
    | some (.directory _) => throw .isDirectory
    | _ => return w.putAt (name :: t.directory) (some (.file text))

/-- Whether something of the first kind may take the place of the second. -/
def checkReplace (moved : Tree) : Option Tree → Except SystemError Unit
  | none => .ok ()
  | some (.file _) => if moved.isDirectory then .error .notDirectory else .ok ()
  | some (.directory es) =>
    if !moved.isDirectory then .error .isDirectory
    else if es.isEmpty then .ok () else .error .notEmpty

/-- A file or directory moved to another place, where it may replace a file or an empty
directory. -/
def move (w : Workspace) (source destination : String) : Except SystemError Workspace := do
  let s ← w.target source
  let d ← w.target destination
  match s.name, d.name with
  | some old, some new =>
    let here := old :: s.directory
    let there := new :: d.directory
    match w.at? here with
    | none => throw .noEntry
    | some t =>
      if !t.isDirectory && (s.slash || d.slash) then throw .notDirectory
      if here = there then return w
      if here.isSuffixOf there then throw .invalid
      if there.isSuffixOf here then throw .notEmpty
      checkReplace t (w.at? there)
      return (w.putAt here none).putAt there (some t)
  | _, _ => throw .busy

/-- All that stands at a path removed, and whether there was anything. -/
def remove (w : Workspace) (path : String) : Workspace × Bool :=
  match w.locate path with
  | .ok here => (w.putAt here none, true)
  | .error _ => (w, false)

/-! ### Directories with those above them -/

/-- The result of an operation, unless the operation is refused. -/
def unlessRefused {α : Type} (refusal : Option SystemError) (r : Except SystemError α) :
    Except SystemError α :=
  match refusal with
  | some e => .error e
  | none => r

/-- Directories made in the opposite order, as far as they are not there.  Each of them is tried
once, and once more when those above it have been made; the attempts are numbered from the last
directory on, and each of them may be refused. -/
def makeEach (refuse : Nat → Option SystemError) (w : Workspace) :
    List String → Workspace × Except SystemError Unit
  | [] => (w, .ok ())
  | path :: above =>
    match unlessRefused (refuse (2 * above.length)) (w.makeDirectory path) with
    | .ok w => (w, .ok ())
    | .error .noEntry =>
      match makeEach refuse w above with
      | (w, .error e) => (w, .error e)
      | (w, .ok ()) =>
        match unlessRefused (refuse (2 * above.length + 1)) (w.makeDirectory path) with
        | .ok w => (w, .ok ())
        | .error e => (w, if w.isDirectory path then .ok () else .error e)
    | .error e => (w, if w.isDirectory path then .ok () else .error e)

/-- A directory made with all directories above it, as far as they are not there.  Those made
before an error stay. -/
def makeDirectories (refuse : Nat → Option SystemError) (w : Workspace) (path : String) :
    Workspace × Except SystemError Unit := w.makeEach refuse (Path.ancestors path)

/-- A file written after the directories above it have been made. -/
def writeBelow (w : Workspace) (path text : String) : Except SystemError Workspace := do
  match w.makeDirectories (fun _ => none) ((Path.parent? path).getD "") with
  | (w, .ok ()) => w.write path text
  | (_, .error e) => throw e

/-- An empty directory added to a directory under a new name, which starts as given and ends as it
is chosen among the names that are taken; the result is also its location. -/
def addTemporary (w : Workspace) (suffix : List String → String) (directory stem : String) :
    Except SystemError (Workspace × Location) := do
  let here ← w.locate directory
  match w.at? here with
  | some (.directory es) =>
    let name := stem ++ suffix (es.map Prod.fst)
    if (w.child? here name).isSome then throw .exists_
    return (w.putAt (name :: here) (some .empty), name :: here)
  | _ => throw .notDirectory

end Workspace

end TileSchema
