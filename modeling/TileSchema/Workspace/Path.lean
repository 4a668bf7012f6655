import TileSchema.Schema.Reference

/-!
# Paths

A path is a text with slashes.  What it leads to depends on the files there are, and is said
elsewhere; this file holds what can be read off the text alone: its segments, the path above it,
and the path of something inside it.

A path that starts with a slash is absolute.  Empty segments, and single dots anywhere but in
front, do not count as parts of a path, though the text keeps them.
-/

namespace TileSchema.Workspace.Path

/-- The segments of a path. -/
def segments (path : String) : List String :=
  (Reference.segments path.toList).map String.ofList

/-- The path of segments. -/
def ofSegments (ss : List String) : String := "/".intercalate ss

/-- Whether a path starts at the root. -/
def isAbsolute (path : String) : Bool := path.toList.head? == some '/'

/-- Whether a segment that is not the first one counts for nothing. -/
def isIdle (s : String) : Bool := s == "" || s == "."

/-- Whether a segment is the name of an entry of a directory. -/
def isEntryName (s : String) : Bool := !isIdle s && s != ".." && !s.toList.contains '/'

/-- Segments without the idle ones at their end. -/
def dropIdle (ss : List String) : List String := (ss.reverse.dropWhile isIdle).reverse

/-- The path above a path: its text up to its last part, without the slashes there.  The root and
the empty path have none above. -/
def parent? (path : String) : Option String :=
  match segments path with
  | [] => none
  | first :: rest =>
    match dropIdle rest with
    | [] => if first.isEmpty then none else some ""
    | parts =>
      match dropIdle parts.dropLast with
      | [] => some (if first.isEmpty then "/" else first)
      | above => some (ofSegments (first :: above))

/-- The paths above a path, the nearest first, up to the first part. -/
def above : Nat → String → List String
  | 0, _ => []
  | fuel + 1, path =>
    match parent? path with
    | none => []
    | some p => if p.isEmpty || (parent? p).isNone then [] else p :: above fuel p

/-- A path and the paths above it, the nearest first: each can be made once the next one is
there. -/
def ancestors (path : String) : List String :=
  if path.isEmpty || (parent? path).isNone then [] else path :: above path.length path

/-- The path of something inside a directory.  An absolute path stands for itself. -/
def join (directory path : String) : String :=
  if isAbsolute path || directory.isEmpty then path
  else if directory.toList.getLast? == some '/' then directory ++ path
  else directory ++ "/" ++ path

/-- A name cut at its last dot, if something stands in front of the dot. -/
def splitName (name : String) : String × Option String :=
  let extension := name.toList.reverse.takeWhile (· ≠ '.')
  match name.toList.reverse.drop extension.length with
  | '.' :: c :: cs =>
    if name = ".." then (name, none)
    else (String.ofList (c :: cs).reverse, some (String.ofList extension.reverse))
  | _ => (name, none)

/-- The extension of the last part of a path. -/
def extension? (path : String) : Option String :=
  match (dropIdle (segments path)).getLast? with
  | some name => (splitName name).2
  | none => none

end TileSchema.Workspace.Path
