import TileSchema.Yaml.Cursor
import TileSchema.Yaml.Fault

/-!
# Tokens of a YAML text

The tokens say what the characters of a text are for, including the boundaries of block
collections, which the text shows by indentation alone.  There is one token type for block and
flow style.

Read here are the tokens that are neither scalars nor structure: names of nodes, tags of nodes,
and the directives in front of a document.  A tag holds the characters of a URI, of which a
percent sign and two hexadecimal digits spell out one byte; the bytes of one character stand
together.
-/

namespace TileSchema.Yaml

/-- A tag before its handle is looked up.  The part behind the handle is kept in bytes, since
escapes may spell out single bytes of a character. -/
structure RawTag where
  handle : String
  suffix : List UInt8
  deriving Repr, DecidableEq

/-- What a run of characters is for. -/
inductive Token where
  | streamEnd
  | version (major minor : Nat)
  | tagHandle (handle : String) (expansion : List UInt8)
  | documentStart
  | documentEnd
  | blockSequenceStart
  | blockMappingStart
  | blockEnd
  | flowSequenceStart
  | flowSequenceEnd
  | flowMappingStart
  | flowMappingEnd
  | blockEntry
  | flowEntry
  | key
  | value
  | alias (name : String)
  | anchor (name : String)
  | tag (raw : RawTag)
  | scalar (plain : Bool) (text : String)
  deriving Repr, DecidableEq

/-- A character of a name: a letter, a digit, an underscore or a hyphen. -/
def isNameChar (c : Char) : Bool := c.isAlphanum || c = '_' || c = '-'

/-! ### Anchors and aliases -/

/-- The name behind the indicator of an anchor or alias. -/
def readName (c : Cursor) : Except Fault (String × Cursor) :=
  let (name, c) := c.advance.takeWhile isNameChar
  let ended := isGapOrEnd c.head? ||
    c.head?.any (· ∈ ['?', ':', ',', ']', '}', '%', '@', '\x60'])
  if name.isEmpty || !ended then .error .badAnchor else .ok (String.ofList name, c)

/-! ### Tags -/

/-- A character of a URI; a verbatim tag may hold flow indicators too. -/
def isUriChar (verbatim : Bool) (c : Char) : Bool :=
  isNameChar c ||
    c ∈ [';', '/', '?', ':', '@', '&', '=', '+', '$', '.', '%', '!', '~', '*', '\'', '(', ')'] ||
    verbatim && c ∈ [',', '[', ']']

/-- The value of two hexadecimal digits. -/
def hexByte? (high low : Char) : Option Nat :=
  let digit (c : Char) : Option Nat :=
    if c.isDigit then some (c.toNat - 48)
    else if 'a' ≤ c && c ≤ 'f' then some (c.toNat - 87)
    else if 'A' ≤ c && c ≤ 'F' then some (c.toNat - 55)
    else none
  match digit high, digit low with
  | some h, some l => some (16 * h + l)
  | _, _ => none

/-- The number of bytes of a character by its first byte. -/
def byteCount? (first : Nat) : Option Nat :=
  if first < 0x80 then some 1
  else if 0xC0 ≤ first && first < 0xE0 then some 2
  else if 0xE0 ≤ first && first < 0xF0 then some 3
  else if 0xF0 ≤ first && first < 0xF8 then some 4
  else none

/-- The bytes of a URI and what follows it.  `pending` counts the bytes that the last escape still
asks for. -/
def uriBytes (verbatim : Bool) : Nat → List Char → Except Fault (List UInt8 × List Char)
  | pending, [] => if pending = 0 then .ok ([], []) else .error .badTag
  | pending, c :: rest =>
    if pending ≠ 0 && c ≠ '%' then .error .badTag
    else if c = '%' then
      match rest with
      | high :: low :: rest =>
        match hexByte? high low with
        | none => .error .badTag
        | some byte =>
          let left := if pending = 0 then (byteCount? byte).map (· - 1)
            else if 0x80 ≤ byte && byte < 0xC0 then some (pending - 1) else none
          match left with
          | none => .error .badTag
          | some left =>
            (uriBytes verbatim left rest).map fun (bytes, rest) => (byte.toUInt8 :: bytes, rest)
      | _ => .error .badTag
    else if isUriChar verbatim c then
      (uriBytes verbatim 0 rest).map fun (bytes, rest) => (c.toNat.toUInt8 :: bytes, rest)
    else .ok ([], c :: rest)

/-- The URI ahead. -/
def readUri (verbatim : Bool) (c : Cursor) : Except Fault (List UInt8 × Cursor) :=
  (uriBytes verbatim 0 c.rest).map fun (bytes, rest) =>
    (bytes, c.advanceBy (c.rest.length - rest.length))

/-- The bytes of a text. -/
def bytesOf (s : String) : List UInt8 := s.toUTF8.toList

/-- A handle ahead: an exclamation mark, a name, and possibly a second mark. -/
def readHandle (c : Cursor) : String × Bool × Cursor :=
  let (name, c) := c.advance.takeWhile isNameChar
  if c.isAt '!' then ("!" ++ String.ofList name ++ "!", true, c.advance)
  else ("!" ++ String.ofList name, false, c)

/-- A tag, the cursor standing on its exclamation mark. -/
def readTag (inFlow : Bool) (c : Cursor) : Except Fault (RawTag × Cursor) := do
  let (raw, c) ←
    if c.ahead 1 == some '<' then do
      let (uri, c) ← readUri true (c.advanceBy 2)
      if uri.isEmpty || !c.isAt '>' then throw .badTag
      pure (⟨"", uri⟩, c.advance)
    else do
      let (handle, closed, c) := readHandle c
      let (uri, c) ← readUri false c
      if closed then
        if uri.isEmpty then throw .badTag
        pure (⟨handle, uri⟩, c)
      else
        -- What looked like a handle is the first part of a tag in the primary handle.
        let suffix := bytesOf (String.ofList (handle.toList.drop 1)) ++ uri
        pure (if suffix.isEmpty then ⟨"", bytesOf "!"⟩ else ⟨"!", suffix⟩, c)
  if isGapOrEnd c.head? || inFlow && c.isAt ',' then return (raw, c) else throw .badTag

/-! ### Directives -/

/-- A number of at most nine digits. -/
def readVersionNumber (c : Cursor) : Except Fault (Nat × Cursor) :=
  let (digits, c) := c.takeWhile Char.isDigit
  if digits.isEmpty || 9 < digits.length then .error .badDirective
  else .ok (digits.foldl (fun n d => 10 * n + (d.toNat - 48)) 0, c)

/-- The two numbers of a version. -/
def readVersion (c : Cursor) : Except Fault (Token × Cursor) := do
  let (major, c) ← readVersionNumber c.skipGap
  if !c.isAt '.' then throw .badDirective
  let (minor, c) ← readVersionNumber c.advance
  return (.version major minor, c)

/-- A handle and what it stands for. -/
def readTagHandle (c : Cursor) : Except Fault (Token × Cursor) := do
  let c := c.skipGap
  if !c.isAt '!' then throw .badDirective
  let (handle, closed, c) := readHandle c
  if !closed && handle ≠ "!" then throw .badDirective
  if !c.head?.any isGap then throw .badDirective
  let (uri, c) ← readUri true c.skipGap
  if uri.isEmpty || !isGapOrEnd c.head? then throw .badDirective
  return (.tagHandle handle uri, c)

/-- A directive, the cursor standing on its percent sign, up to the end of its line. -/
def readDirective (c : Cursor) : Except Fault (Token × Cursor) := do
  let (name, c) := c.advance.takeWhile isNameChar
  if name.isEmpty || !isGapOrEnd c.head? then throw .badDirective
  let (token, c) ←
    if name = "YAML".toList then readVersion c
    else if name = "TAG".toList then readTagHandle c
    else throw .badDirective
  let c := c.skipGap.skipComment
  if !isBreakOrEnd c.head? then throw .badDirective
  return (token, if c.head?.isSome then c.nextLine else c)

end TileSchema.Yaml
