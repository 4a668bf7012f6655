/-!
# References between documents

A reference is a path with slashes.  One document refers to another relative to its own place, and
the reference of the other is found by walking: a name goes down, two dots go up, one dot and an
empty segment stay.  Going up from the top leaves two dots in front.
-/

namespace TileSchema.Reference

/-- A part of a path between slashes. -/
abbrev Segment := List Char

/-- The segments of a path. -/
def segments : List Char → List Segment
  | [] => [[]]
  | c :: cs =>
    if c = '/' then [] :: segments cs
    else match segments cs with
      | s :: ss => (c :: s) :: ss
      | [] => [[c]]

/-- Segments with slashes between them. -/
def joinSegments : List Segment → List Char
  | [] => []
  | [s] => s
  | s :: ss => s ++ '/' :: joinSegments ss

/-- The segment that goes up. -/
def up : Segment := ['.', '.']

/-- Whether a segment stays where it is. -/
def stays (s : Segment) : Bool := s == [] || s == ['.']

/-- One step from a place, given by its segments from the last to the first. -/
def walk (place : List Segment) (s : Segment) : List Segment :=
  if stays s then place
  else if s = up then
    match place with
    | [] => [up]
    | last :: rest => if last = up then up :: last :: rest else rest
  else s :: place

/-- The place reached from the directory of a reference along a relative path.  The segments of the
directory itself are taken as they are, and those that stay are left out at the end. -/
def resolveSegments (reference relative : List Segment) : List Segment :=
  let directory := reference.reverse.drop 1
  ((relative.foldl walk directory).reverse).filter (!stays ·)

/-- The reference of a document that another one refers to by a relative path. -/
def resolve (reference relative : String) : String :=
  String.ofList
    (joinSegments (resolveSegments (segments reference.toList) (segments relative.toList)))

end TileSchema.Reference
