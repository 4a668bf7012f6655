import TileSchema.Yaml.Cursor
import TileSchema.Yaml.Scalar

/-!
# The block text of a value

A value in block style, as it appears when a whole collection has to serve as a name.  Lines are
never folded.  A text is written plain where that reads back as the same text under any reading of
YAML, else between single quotes, with a line break in it as a literal block, and between double
quotes where nothing else can hold it.  A sequence in a mapping is not indented, and a key that is
no short scalar stands behind a question mark.

A value under two tags has no text.
-/

namespace TileSchema.Yaml

/-! ### What a text looks like -/

/-- How a scalar is written. -/
inductive ScalarForm where
  | plain
  | singleQuoted
  | doubleQuoted
  | literal
  deriving Repr, DecidableEq

/-- The words that some readers of YAML take for a boolean or null. -/
def suspiciousWords : List String :=
  ["true", "false", "null", "~", "y", "yes", "n", "no", "on", "off"]

/-- Whether a text could be taken for something else without quotes. -/
def isAmbiguous (s : String) : Bool :=
  let lower := String.ofList (s.toList.map Char.toLower)
  s.isEmpty || lower ∈ suspiciousWords ||
    s.toList.head?.any (fun c => c.isDigit || c ∈ ['-', '.', '+']) ||
    match plainValue s with
    | .ok (.string _) => false
    | _ => true

/-- Whether a character may stand in a scalar without an escape. -/
def isVisible (c : Char) : Bool :=
  let n := c.toNat
  n = 0x0A || 0x20 ≤ n && n ≤ 0x7E || 0xA0 ≤ n && n ≠ 0xFEFF && n ≠ 0xFFFE && n ≠ 0xFFFF

/-- Whether the first of two neighbours has a property and the second another. -/
def hasPair (p q : Char → Bool) (cs : List Char) : Bool :=
  (cs.zip (cs.drop 1)).any fun (a, b) => p a && q b

/-- Whether a text holds an indicator that a plain scalar may not hold at its place. -/
def hasIndicator (cs : List Char) : Bool :=
  let first := match cs with
    | [] => false
    | c :: rest =>
      c ∈ ['#', ',', '[', ']', '{', '}', '&', '*', '!', '|', '>', '\'', '"', '%', '@', '\x60'] ||
        c ∈ ['?', ':', '-'] && isGapOrEnd rest.head?
  let marker := cs.take 3 == ['-', '-', '-'] || cs.take 3 == ['.', '.', '.']
  let colon := hasPair (· = ':') (fun d => isGapOrEnd (some d)) (cs.drop 1) ||
    (1 < cs.length && cs.getLast? == some ':')
  let comment := hasPair (fun d => isGapOrEnd (some d)) (· = '#') cs
  first || marker || colon || comment

/-- What decides the form of a text. -/
structure TextShape where
  multiline : Bool
  plainAllowed : Bool
  singleAllowed : Bool
  blockAllowed : Bool

/-- The shape of a text that is not empty. -/
def TextShape.of (cs : List Char) : TextShape :=
  let space (c : Char) : Bool := c = ' '
  let multiline := cs.any isLineBreak
  let outer := cs.head?.any (fun c => space c || isLineBreak c) ||
    cs.getLast?.any (fun c => space c || isLineBreak c)
  let breakSpace := hasPair isLineBreak space cs
  let special := hasPair space isLineBreak cs || cs.any (!isVisible ·)
  { multiline
    plainAllowed := !(outer || multiline || special || hasIndicator cs)
    singleAllowed := !(breakSpace || special)
    blockAllowed := !(cs.getLast?.any space || special) }

/-- The form of a text. -/
def ScalarForm.of (s : String) (isKey : Bool) : ScalarForm :=
  let cs := s.toList
  if cs.isEmpty then .singleQuoted
  else
    let shape := TextShape.of cs
    let single := if shape.singleAllowed then .singleQuoted else .doubleQuoted
    if isKey && shape.multiline then .doubleQuoted
    else if '\n' ∈ cs then if shape.blockAllowed && !isKey then .literal else .doubleQuoted
    else if isAmbiguous s || !shape.plainAllowed then single
    else .plain

/-! ### Writing -/

/-- Text written so far, and what the last characters were. -/
structure Page where
  /-- The characters, the last one first. -/
  written : List Char
  column : Nat
  /-- Whether a space or a line break was the last. -/
  spaced : Bool
  /-- Whether nothing but indentation stands on the line. -/
  indenting : Bool

namespace Page

/-- An empty page. -/
def empty : Page := ⟨[], 0, true, true⟩

/-- One more character. -/
def put (p : Page) (c : Char) : Page := { p with written := c :: p.written, column := p.column + 1 }

/-- One more line break. -/
def endLine (p : Page) (c : Char) : Page := { p with written := c :: p.written, column := 0 }

/-- The characters of a scalar. -/
def puts (p : Page) (cs : List Char) : Page :=
  { cs.foldl put p with spaced := false, indenting := false }

/-- A space, unless there is one. -/
def separate (p : Page) : Page := if p.spaced then p else p.put ' '

/-- An indicator in front of which a space has to stand or not. -/
def indicator (p : Page) (cs : List Char) (separated spaced indenting : Bool) : Page :=
  let p := if separated then p.separate else p
  { cs.foldl put p with spaced, indenting := p.indenting && indenting }

/-- Up to a column, on a new line where the present one is in use. -/
def indent (p : Page) (column : Nat) : Page :=
  let fresh := !p.indenting || column < p.column || (p.column = column && !p.spaced)
  let p := if fresh then p.endLine '\n' else p
  { (List.replicate (column - p.column) ' ').foldl put p with spaced := true, indenting := true }

/-- The text of a page. -/
def text (p : Page) : String := String.ofList p.written.reverse

end Page

/-- The upper-case hexadecimal digit of a number below sixteen. -/
def upperHexDigit (n : Nat) : Char := if n < 10 then Char.ofNat (48 + n) else Char.ofNat (55 + n)

/-- The last `width` hexadecimal digits of a number. -/
def paddedHex : Nat → Nat → List Char
  | 0, _ => []
  | width + 1, n => paddedHex width (n / 16) ++ [upperHexDigit (n % 16)]

/-- The letters that stand for characters behind a backslash. -/
def writtenEscapes : List (Char × Char) :=
  [('\x00', '0'), ('\x07', 'a'), ('\x08', 'b'), ('\t', 't'), ('\n', 'n'), ('\x0b', 'v'),
    ('\x0c', 'f'), ('\r', 'r'), ('\x1b', 'e'), ('"', '"'), ('\\', '\\'), ('\x85', 'N'),
    ('\u2028', 'L'), ('\u2029', 'P')]

/-- A character between double quotes. -/
def escapeDouble (c : Char) : List Char :=
  let n := c.toNat
  match writtenEscapes.lookup c with
  | some letter => ['\\', letter]
  | none =>
    if isVisible c then [c]
    else if n ≤ 0xFF then '\\' :: 'x' :: paddedHex 2 n
    else if n ≤ 0xFFFF then '\\' :: 'u' :: paddedHex 4 n
    else '\\' :: 'U' :: paddedHex 8 n

/-- The characters between single quotes; behind a line break the column `column` is sought. -/
def Page.putSingle (column : Nat) : Bool → Page → List Char → Page
  | broken, p, [] => if broken then p.indent column else p
  | broken, p, c :: cs =>
    if isLineBreak c then
      let p := if !broken && c = '\n' then p.endLine '\n' else p
      Page.putSingle column true { p.endLine c with indenting := true } cs
    else
      let p := if broken && c ≠ ' ' then p.indent column else p
      let p := if c = '\'' then p.put '\'' else p
      let p := p.put c
      let p := if c = ' ' then p else { p with spaced := false, indenting := false }
      Page.putSingle column (broken && c = ' ') p cs

/-- The lines of a literal block at a column. -/
def Page.putLiteral (column : Nat) : Bool → Page → List Char → Page
  | _, p, [] => p
  | broken, p, c :: cs =>
    if isLineBreak c then Page.putLiteral column true { p.endLine c with indenting := true } cs
    else
      let p := if broken then p.indent column else p
      Page.putLiteral column false { p.put c with indenting := false } cs

/-- The indicators behind the bar of a literal block: its indentation where the first line hides
it, and what happens to the breaks at its end. -/
def literalHints (cs : List Char) : List Char :=
  let hidden := cs.head?.any fun c => c = ' ' || isLineBreak c
  let chomp := match cs.reverse with
    | [] => ['-']
    | last :: before =>
      if !isLineBreak last then ['-']
      else if before.head?.all isLineBreak then ['+']
      else []
  (if hidden then ['2'] else []) ++ chomp

/-- A scalar in a form, the collection around it standing at a column. -/
def Page.scalar (p : Page) (form : ScalarForm) (column : Nat) (s : String) : Page :=
  let cs := s.toList
  match form with
  | .plain => p.separate.puts cs
  | .singleQuoted =>
    let p := p.indicator ['\''] true false false
    (Page.putSingle column false p cs).indicator ['\''] false false false
  | .doubleQuoted =>
    let p := p.indicator ['"'] true false false
    (p.puts (cs.flatMap escapeDouble)).indicator ['"'] false false false
  | .literal =>
    let p := (p.indicator ['|'] true false false).puts (literalHints cs)
    let p := { p.endLine '\n' with spaced := true, indenting := true }
    Page.putLiteral column true p cs

/-- A character of a tag, or its escape. -/
def tagChars (c : Char) : List Char :=
  if c.isAlphanum || c ∈ ['-', ';', '/', '?', ':', '@', '&', '=', '+', '$', ',', '_', '.', '~', '*',
      '\'', '(', ')', '[', ']', '!'] then [c]
  else (String.ofList [c]).toUTF8.toList.flatMap fun b => '%' :: paddedHex 2 b.toNat

/-- A tag. -/
def Page.tag (p : Page) (tag : Option String) : Page :=
  match tag with
  | none => p
  | some name => p.separate.puts ('!' :: name.toList.flatMap tagChars)

/-- The text of a scalar that is no string. -/
def scalarText? : Value → Option String
  | .null => some "null"
  | .bool b => some (if b then "true" else "false")
  | .int n => some (toString n)
  | .float x => some (Decimal.text Decimal.scalarStyle x)
  | _ => none

/-- The number of bytes that a key takes on its line, if it can stand there. -/
def keyLength : Value → Option Nat
  | .string s => if s.toList.any isLineBreak then none else some s.utf8ByteSize
  | .sequence [] => some 0
  | .mapping [] => some 0
  | .tagged tag (.string s) =>
    if s.toList.any isLineBreak then none else some (tag.utf8ByteSize + 1 + s.utf8ByteSize)
  | .tagged tag (.sequence []) => some (tag.utf8ByteSize + 1)
  | .tagged tag (.mapping []) => some (tag.utf8ByteSize + 1)
  | .tagged tag v => (scalarText? v).map fun s => tag.utf8ByteSize + 1 + s.utf8ByteSize
  | v => (scalarText? v).map String.utf8ByteSize

/-- Whether a key needs no question mark. -/
def isSimpleKey (v : Value) : Bool := (keyLength v).any (· ≤ 128)

/-- Where a value stands: the column of the collection around it, whether that is a mapping, and
whether it is a key on its line. -/
structure Place where
  column : Option Nat
  inMapping : Bool
  isKey : Bool

/-- The column of a collection inside another. -/
def Place.inner (at_ : Place) : Nat :=
  match at_.column with
  | none => 0
  | some column => column + 2

mutual

/-- A value on a page, under a tag or not; none if a tag follows a tag. -/
def Value.put (place : Place) (tag : Option String) (p : Page) : Value → Option Page
  | .string s => some ((p.tag tag).scalar (.of s place.isKey) place.inner s)
  | .null => some ((p.tag tag).scalar .plain place.inner "null")
  | .bool b => some ((p.tag tag).scalar .plain place.inner (if b then "true" else "false"))
  | .int n => some ((p.tag tag).scalar .plain place.inner (toString n))
  | .float x =>
    some ((p.tag tag).scalar .plain place.inner (Decimal.text Decimal.scalarStyle x))
  | .sequence items =>
    let p := p.tag tag
    if items.isEmpty then some ((p.indicator ['['] true true false).indicator [']'] false false false)
    else
      let column := if place.inMapping && !p.indenting then place.column.getD 0 else place.inner
      Value.putItems column p items
  | .mapping entries =>
    let p := p.tag tag
    if entries.isEmpty then
      some ((p.indicator ['\x7b'] true true false).indicator ['\x7d'] false false false)
    else Value.putEntries place.inner p entries
  | .tagged name v => if tag.isSome then none else v.put place (some name) p

/-- The items of a sequence at a column. -/
def Value.putItems (column : Nat) (p : Page) : List Value → Option Page
  | [] => some p
  | v :: vs => do
    let p := (p.indent column).indicator ['-'] true false true
    let p ← v.put ⟨some column, false, false⟩ none p
    Value.putItems column p vs

/-- The entries of a mapping at a column. -/
def Value.putEntries (column : Nat) (p : Page) : List (Value × Value) → Option Page
  | [] => some p
  | (k, v) :: es => do
    let p := p.indent column
    let p ←
      if isSimpleKey k then do
        let p ← k.put ⟨some column, true, true⟩ none p
        pure (p.indicator [':'] false false false)
      else do
        let p ← k.put ⟨some column, true, false⟩ none (p.indicator ['?'] true false true)
        pure ((p.indent column).indicator [':'] true false true)
    let p ← v.put ⟨some column, true, false⟩ none p
    Value.putEntries column p es

end

/-- The block text of a value. -/
def Value.blockText (v : Value) : Option String :=
  (v.put ⟨none, false, false⟩ none .empty).map Page.text

end TileSchema.Yaml
