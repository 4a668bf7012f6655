import TileSchema.Yaml.Cursor
import TileSchema.Yaml.Fault

/-!
# Scalars in a text

The five ways to write a scalar: plain, between single quotes, between double quotes, and the two
block styles.  All of them read characters up to their end and fold line breaks on the way, each
in its own manner: flow scalars turn a single break into a space, literal blocks keep every break,
folded blocks keep those next to an indented line.
-/

namespace TileSchema.Yaml

/-! ### Folding -/

/-- White space between two runs of a flow scalar, not yet known to be inside it. -/
structure Fold where
  /-- The gap in front of the first break. -/
  gap : List Char
  /-- Whether a break has been passed. -/
  broken : Bool
  /-- What the first break leaves. -/
  first : List Char
  /-- What the further breaks leave. -/
  further : List Char

/-- No white space. -/
def Fold.empty : Fold := ⟨[], false, [], []⟩

/-- What the white space is read as: a single break is a space, and with further breaks it is
dropped. -/
def Fold.text (f : Fold) : List Char :=
  if f.broken then
    if f.first = ['\n'] then if f.further.isEmpty then [' '] else f.further
    else f.first ++ f.further
  else f.gap

/-- The white space ahead, added to what has been passed.  In block context a tab may not stand in
front of the column `indent` of a new line. -/
def foldSpace (indent : Option Nat) : Nat → Fold → Cursor → Except Fault (Fold × Cursor)
  | 0, f, c => .ok (f, c)
  | fuel + 1, f, c =>
    match c.head? with
    | none => .ok (f, c)
    | some ch =>
      if isGap ch then
        if f.broken && ch = '\t' && indent.any (c.column < ·) then .error .tabIndentation
        else if f.broken then foldSpace indent fuel f c.advance
        else foldSpace indent fuel { f with gap := f.gap ++ [ch] } c.advance
      else if isLineBreak ch then
        if f.broken then
          foldSpace indent fuel { f with further := f.further ++ c.breakText } c.nextLine
        else foldSpace indent fuel ⟨[], true, c.breakText, f.further⟩ c.nextLine
      else .ok (f, c)

/-! ### Plain scalars -/

/-- The characters that end a plain scalar in a flow collection. -/
def isFlowIndicator (c : Char) : Bool := c ∈ [',', '[', ']', '{', '}']

/-- The number of characters of a plain scalar up to the next white space or indicator. -/
def plainRun (inFlow : Bool) : List Char → Except Fault Nat
  | [] => .ok 0
  | c :: rest =>
    if isGap c || isLineBreak c then .ok 0
    else if inFlow && c = ':' && rest.head?.any (fun d => d = '?' || isFlowIndicator d) then
      .error .misplacedIndicator
    else if c = ':' && isGapOrEnd rest.head? then .ok 0
    else if inFlow && isFlowIndicator c then .ok 0
    else (plainRun inFlow rest).map (· + 1)

/-- The rest of a plain scalar: what has been read, and white space not yet known to be inside. -/
def plainTail (inFlow : Bool) (indent : Nat) :
    Nat → List Char → Fold → Cursor → Except Fault (List Char × Fold × Cursor)
  | 0, text, f, c => .ok (text, f, c)
  | fuel + 1, text, f, c => do
    if c.isAtDocumentMarker || c.isAt '#' then return (text, f, c)
    let n ← plainRun inFlow c.rest
    let (text, f) := if n = 0 then (text, f) else (text ++ f.text ++ c.rest.take n, Fold.empty)
    let c := c.advanceBy n
    if !(c.head?.any fun ch => isGap ch || isLineBreak ch) then return (text, f, c)
    let (f, c) ← foldSpace (some indent) c.size f c
    if !inFlow && c.column < indent then return (text, f, c)
    plainTail inFlow indent fuel text f c

/-- A plain scalar, whether a line break follows it, and the cursor behind both. -/
def readPlain (inFlow : Bool) (indent : Nat) (c : Cursor) :
    Except Fault (String × Bool × Cursor) := do
  let (text, f, c) ← plainTail inFlow indent (c.size + 1) [] Fold.empty c
  return (String.ofList text, f.broken, c)

/-! ### Quoted scalars -/

/-- The value of a hexadecimal digit. -/
def hexValue? (c : Char) : Option Nat :=
  if c.isDigit then some (c.toNat - 48)
  else if 'a' ≤ c && c ≤ 'f' then some (c.toNat - 87)
  else if 'A' ≤ c && c ≤ 'F' then some (c.toNat - 55)
  else none

/-- The number that hexadecimal digits spell. -/
def hexNumber? (cs : List Char) : Option Nat :=
  cs.foldl (fun acc c => acc.bind fun n => (hexValue? c).map (16 * n + ·)) (some 0)

/-- The characters that a letter behind a backslash stands for. -/
def letterEscapes : List (Char × Char) :=
  [('0', '\x00'), ('a', '\x07'), ('b', '\x08'), ('t', '\t'), ('\t', '\t'), ('n', '\n'),
    ('v', '\x0b'), ('f', '\x0c'), ('r', '\r'), ('e', '\x1b'), (' ', ' '), ('"', '"'), ('/', '/'),
    ('\\', '\\'), ('N', '\x85'), ('_', '\xa0'), ('L', '\u2028'), ('P', '\u2029')]

/-- How many hexadecimal digits follow a letter behind a backslash. -/
def codeLengths : List (Char × Nat) := [('x', 2), ('u', 4), ('U', 8)]

/-- The character that an escape stands for, and its length; `cs` starts behind the backslash. -/
def readEscape (cs : List Char) : Except Fault (Char × Nat) :=
  match cs with
  | [] => .error .badEscape
  | letter :: rest =>
    match letterEscapes.lookup letter, codeLengths.lookup letter with
    | some c, _ => .ok (c, 2)
    | none, none => .error .badEscape
    | none, some n =>
      if (rest.take n).length < n then .error .badEscape
      else match hexNumber? (rest.take n) with
        | none => .error .badEscape
        | some code =>
          if 0xD800 ≤ code && code ≤ 0xDFFF || 0x10FFFF < code then .error .badEscape
          else .ok (Char.ofNat code, 2 + n)

/-- The characters of a quoted scalar up to the next white space or the closing quote, the last one
first, and whether an escaped line break ended them. -/
def quotedRun (single : Bool) :
    Nat → List Char → Cursor → Except Fault (List Char × Bool × Cursor)
  | 0, run, c => .ok (run, false, c)
  | fuel + 1, run, c =>
    match c.head? with
    | none => .ok (run, false, c)
    | some ch =>
      if isGap ch || isLineBreak ch then .ok (run, false, c)
      else if single && ch = '\'' && c.ahead 1 == some '\'' then
        quotedRun single fuel ('\'' :: run) (c.advanceBy 2)
      else if ch = (if single then '\'' else '"') then .ok (run, false, c)
      else if !single && ch = '\\' then
        if (c.ahead 1).any isLineBreak then .ok (run, true, c.advance.nextLine)
        else do
          let (d, n) ← readEscape (c.rest.drop 1)
          quotedRun single fuel (d :: run) (c.advanceBy n)
      else quotedRun single fuel (ch :: run) c.advance

/-- The rest of a quoted scalar, the cursor standing behind its opening quote. -/
def quotedTail (single : Bool) : Nat → List Char → Cursor → Except Fault (List Char × Cursor)
  | 0, _, _ => .error .unexpectedEnd
  | fuel + 1, text, c => do
    if c.isAtDocumentMarker then throw .markerInScalar
    if c.head?.isNone then throw .unexpectedEnd
    let (run, escaped, c) ← quotedRun single c.size [] c
    let text := text ++ run.reverse
    if c.isAt (if single then '\'' else '"') then return (text, c.advance)
    let (f, c) ← foldSpace none c.size ⟨[], escaped, [], []⟩ c
    quotedTail single fuel (text ++ f.text) c

/-- A quoted scalar, the cursor standing on its opening quote. -/
def readQuoted (single : Bool) (c : Cursor) : Except Fault (String × Cursor) := do
  let (text, c) ← quotedTail single (c.size + 1) [] c.advance
  return (String.ofList text, c)

/-! ### Block scalars -/

/-- What happens to the line breaks at the end of a block scalar. -/
inductive Chomping where
  | strip
  | clip
  | keep
  deriving Repr, DecidableEq

/-- The chomping that an indicator asks for. -/
def chomping? : Option Char → Option Chomping
  | some '+' => some .keep
  | some '-' => some .strip
  | _ => none

/-- The indentation that an indicator asks for: a digit other than zero. -/
def increment? (c : Cursor) : Except Fault (Option Nat) :=
  match c.head? with
  | some ch =>
    if ch = '0' then .error .badBlockHeader
    else if ch.isDigit then .ok (some (ch.toNat - 48))
    else .ok none
  | none => .ok none

/-- The two indicators of a block scalar, in either order. -/
def readIndicators (c : Cursor) : Except Fault (Chomping × Option Nat × Cursor) := do
  match chomping? c.head? with
  | some chomp =>
    let c := c.advance
    match ← increment? c with
    | some n => return (chomp, some n, c.advance)
    | none => return (chomp, none, c)
  | none =>
    match ← increment? c with
    | some n =>
      let c := c.advance
      match chomping? c.head? with
      | some chomp => return (chomp, some n, c.advance)
      | none => return (.clip, some n, c)
    | none => return (.clip, none, c)

/-- The indentation and the breaks in front of a line of a block scalar.  Without a known
indentation every leading space counts; the deepest line seen is the last result but one. -/
def blockSpace (indent : Option Nat) :
    Nat → Nat → List Char → Cursor → Except Fault (List Char × Nat × Cursor)
  | 0, deepest, breaks, c => .ok (breaks, deepest, c)
  | fuel + 1, deepest, breaks, c =>
    let spaces := (c.rest.takeWhile (· = ' ')).length
    let c := c.advanceBy (match indent with
      | none => spaces
      | some n => min spaces (n - c.column))
    let deepest := max deepest c.column
    if c.isAt '\t' && indent.all (c.column < ·) then .error .tabIndentation
    else if c.head?.any isLineBreak then
      blockSpace indent fuel deepest (breaks ++ c.breakText) c.nextLine
    else .ok (breaks, deepest, c)

/-- The lines of a block scalar: its text, the last break and those behind it. -/
def blockLines (literal : Bool) (indent : Nat) :
    Nat → List Char → List Char → List Char → Bool → Cursor →
      Except Fault (List Char × List Char × List Char × Cursor)
  | 0, text, last, breaks, _, c => .ok (text, last, breaks, c)
  | fuel + 1, text, last, breaks, indented, c => do
    if c.column ≠ indent || c.head?.isNone then return (text, last, breaks, c)
    let blank := c.head?.any isGap
    let joint :=
      if !literal && last = ['\n'] && !indented && !blank then
        if breaks.isEmpty then [' '] else []
      else last
    let (line, c) := c.takeWhile (!isLineBreak ·)
    let text := text ++ joint ++ breaks ++ line
    let last := c.breakText
    let c := if c.head?.isSome then c.nextLine else c
    let (breaks, _, c) ← blockSpace (some indent) (c.size + 1) 0 [] c
    blockLines literal indent fuel text last breaks blank c

/-- A block scalar, the cursor standing on its first indicator.  Its lines are indented deeper than
`parent`, the column of the collection around it, if there is one. -/
def readBlock (literal : Bool) (parent : Option Nat) (c : Cursor) :
    Except Fault (String × Cursor) := do
  let (chomp, increment, c) ← readIndicators c.advance
  let c := c.skipGap.skipComment
  if !isBreakOrEnd c.head? then throw .badBlockHeader
  let c := if c.head?.isSome then c.nextLine else c
  let known := increment.map (parent.getD 0 + ·)
  let (breaks, deepest, c) ← blockSpace known (c.size + 1) 0 [] c
  let least := match parent with
    | some n => n + 1
    | none => 0
  let indent := known.getD (max (max deepest least) 1)
  let (text, last, breaks, c) ← blockLines literal indent (c.size + 1) [] [] breaks false c
  let tail := match chomp with
    | .strip => []
    | .clip => last
    | .keep => last ++ breaks
  return (String.ofList (text ++ tail), c)

end TileSchema.Yaml
