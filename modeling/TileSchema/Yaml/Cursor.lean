/-!
# A place in a text

The readers of this folder walk through a text with a cursor: the characters ahead, and the line,
column and index of the first of them.  A line ends with a carriage return, a line feed, the two
together, or one of three further characters of Unicode; this file says so once.
-/

namespace TileSchema.Yaml

/-- A character that ends a line. -/
def isLineBreak (c : Char) : Bool :=
  c = '\r' || c = '\n' || c = '\x85' || c = '\u2028' || c = '\u2029'

/-- A space or a tab. -/
def isGap (c : Char) : Bool := c = ' ' || c = '\t'

/-- The end of the text, a gap or a line break. -/
def isGapOrEnd : Option Char → Bool
  | none => true
  | some c => isGap c || isLineBreak c

/-- The end of the text or a line break. -/
def isBreakOrEnd : Option Char → Bool
  | none => true
  | some c => isLineBreak c

/-- The characters ahead and where the first of them stands. -/
structure Cursor where
  rest : List Char
  line : Nat
  column : Nat
  index : Nat
  /-- The number of characters of the whole text, which bounds every loop over it. -/
  size : Nat
  deriving Repr

namespace Cursor

/-- The cursor in front of a whole text. -/
def start (cs : List Char) : Cursor := ⟨cs, 0, 0, 0, cs.length⟩

/-- The character ahead. -/
def head? (c : Cursor) : Option Char := c.rest.head?

/-- The character `n` places further than the one ahead. -/
def ahead (c : Cursor) (n : Nat) : Option Char := c.rest[n]?

/-- Whether the character ahead is the given one. -/
def isAt (c : Cursor) (ch : Char) : Bool := c.head? == some ch

/-- Past one character that is no line break. -/
def advance (c : Cursor) : Cursor :=
  { c with rest := c.rest.drop 1, column := c.column + 1, index := c.index + 1 }

/-- Past a number of characters, none of them a line break. -/
def advanceBy (c : Cursor) (n : Nat) : Cursor :=
  { c with rest := c.rest.drop n, column := c.column + n, index := c.index + n }

/-- Past the line break ahead. -/
def nextLine (c : Cursor) : Cursor :=
  match c.rest with
  | '\r' :: '\n' :: r => { c with rest := r, line := c.line + 1, column := 0, index := c.index + 2 }
  | _ :: r => { c with rest := r, line := c.line + 1, column := 0, index := c.index + 1 }
  | [] => c

/-- What the line break ahead leaves in a scalar: a line feed, but the line and paragraph
separators stay as they are. -/
def breakText (c : Cursor) : List Char :=
  match c.rest with
  | ch :: _ => if ch = '\u2028' || ch = '\u2029' then [ch] else if isLineBreak ch then ['\n'] else []
  | [] => []

/-- The longest run of characters with a property, and the cursor behind it. -/
def takeWhile (c : Cursor) (p : Char → Bool) : List Char × Cursor :=
  let run := c.rest.takeWhile p
  (run, c.advanceBy run.length)

/-- Past the longest run of characters with a property. -/
def skipWhile (c : Cursor) (p : Char → Bool) : Cursor := (c.takeWhile p).2

/-- Past the gap ahead. -/
def skipGap (c : Cursor) : Cursor := c.skipWhile isGap

/-- Past a comment, if one is ahead: up to the end of the line. -/
def skipComment (c : Cursor) : Cursor :=
  if c.isAt '#' then c.skipWhile (!isLineBreak ·) else c

/-- Whether three given characters stand ahead, at the start of a line and followed by a gap or the
end. -/
def isAtMarker (c : Cursor) (ch : Char) : Bool :=
  c.column = 0 && c.isAt ch && c.ahead 1 == some ch && c.ahead 2 == some ch && isGapOrEnd (c.ahead 3)

/-- Whether a document starts or ends on the line ahead. -/
def isAtDocumentMarker (c : Cursor) : Bool := c.isAtMarker '-' || c.isAtMarker '.'

end Cursor

end TileSchema.Yaml
