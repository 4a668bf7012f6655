import TileSchema.Yaml.Token.Property
import TileSchema.Yaml.Token.Scalar

/-!
# The tokens of a text

Tokens are read one after the other, and two kinds of tokens are added that no character stands
for.  Indentation opens and closes block collections.  And since a simple key is only known to be
one when its colon comes, every place where one may begin is kept as a pending key, and the key
token is put in front of it afterwards.  A pending key ends with its line, or 1024 characters
later.

A text that goes wrong somewhere has tokens up to there, except that a pending key holds back the
tokens from its place on.
-/

namespace TileSchema.Yaml

/-- A place where a simple key may have begun. -/
structure PendingKey where
  /-- Whether nothing but a key may stand here. -/
  required : Bool
  /-- The number of tokens in front of it. -/
  position : Nat
  line : Nat
  column : Nat
  index : Nat

/-- Whether a key that began there can no longer end before the cursor. -/
def PendingKey.isStale (k : PendingKey) (c : Cursor) : Bool :=
  k.line < c.line || k.index + 1024 < c.index

/-- How far a text has been read. -/
structure Reading where
  cursor : Cursor
  tokens : Array Token
  /-- The columns of the open block collections, the innermost first. -/
  indents : List Nat
  /-- Whether a simple key may begin at the next token. -/
  keyAllowed : Bool
  /-- The pending key outside all flow collections. -/
  blockKey : Option PendingKey
  /-- The pending keys of the open flow collections, the innermost first. -/
  flowKeys : List (Option PendingKey)

namespace Reading

/-- The beginning of a text. -/
def start (cs : List Char) : Reading := ⟨.start cs, #[], [], true, none, []⟩

/-- Whether a flow collection is open. -/
def inFlow (r : Reading) : Bool := !r.flowKeys.isEmpty

/-- The pending key of the innermost open collection. -/
def pending (r : Reading) : Option PendingKey :=
  match r.flowKeys with
  | [] => r.blockKey
  | k :: _ => k

/-- Another pending key for the innermost open collection. -/
def setPending (r : Reading) (k : Option PendingKey) : Reading :=
  match r.flowKeys with
  | [] => { r with blockKey := k }
  | _ :: ks => { r with flowKeys := k :: ks }

/-- One more token. -/
def push (r : Reading) (t : Token) : Reading := { r with tokens := r.tokens.push t }

/-! ### Pending keys -/

/-- A pending key, unless it has become stale. -/
def refresh (c : Cursor) (k : Option PendingKey) : Except Fault (Option PendingKey) :=
  match k with
  | none => .ok none
  | some k =>
    if k.isStale c then if k.required then .error .unfinishedKey else .ok none else .ok (some k)

/-- Without the pending keys that have become stale. -/
def dropStale (r : Reading) : Except Fault Reading := do
  let blockKey ← refresh r.cursor r.blockKey
  let flowKeys ← r.flowKeys.mapM (refresh r.cursor)
  return { r with blockKey, flowKeys }

/-- Without the pending key of the innermost collection. -/
def dropPending (r : Reading) : Except Fault Reading :=
  if r.pending.any (·.required) then .error .unfinishedKey else .ok (r.setPending none)

/-- The place ahead as a pending key, if one may begin there. -/
def savePending (r : Reading) : Except Fault Reading := do
  if !r.keyAllowed then return r
  let c := r.cursor
  let required := !r.inFlow && r.indents.head? == some c.column
  let r ← r.dropPending
  return r.setPending (some ⟨required, r.tokens.size, c.line, c.column, c.index⟩)

/-! ### Indentation -/

/-- A block collection at a column, if that is deeper than the open ones, its first token put
behind the first `position` tokens. -/
def openBlock (r : Reading) (column : Nat) (position : Nat) (t : Token) : Reading :=
  if r.inFlow || !r.indents.head?.all (· < column) then r
  else
    { r with
      indents := column :: r.indents
      tokens := r.tokens.insertIdxIfInBounds position t }

/-- Without the block collections deeper than a column, or without any. -/
def closeBlocks (r : Reading) (column : Option Nat) : Reading :=
  if r.inFlow then r
  else
    let closed := r.indents.takeWhile fun i => column.all (· < i)
    { r with
      indents := r.indents.drop closed.length
      tokens := r.tokens ++ Array.replicate closed.length Token.blockEnd }

/-! ### Single tokens -/

/-- The space, comments and line breaks in front of the next token.  Where a simple key may begin,
a tab is no space. -/
def skipSpace : Nat → Reading → Reading
  | 0, r => r
  | fuel + 1, r =>
    let c := r.cursor
    let c := if c.column = 0 && c.isAt '\ufeff' then c.advance else c
    let c := c.skipWhile fun ch => ch = ' ' || (r.inFlow || !r.keyAllowed) && ch = '\t'
    let c := c.skipComment
    if c.head?.any isLineBreak then
      skipSpace fuel { r with cursor := c.nextLine, keyAllowed := r.keyAllowed || !r.inFlow }
    else { r with cursor := c }

/-- A token of `n` characters. -/
def indicator (r : Reading) (n : Nat) (t : Token) : Reading :=
  { r.push t with cursor := r.cursor.advanceBy n }

/-- A document marker or a directive: all block collections end in front of it. -/
def beginOutside (r : Reading) : Except Fault Reading := do
  let r ← (r.closeBlocks none).dropPending
  return { r with keyAllowed := false }

/-- The opening bracket of a flow collection. -/
def openFlow (r : Reading) (t : Token) : Except Fault Reading := do
  let r ← r.savePending
  return { r.indicator 1 t with flowKeys := none :: r.flowKeys, keyAllowed := true }

/-- The closing bracket of a flow collection. -/
def closeFlow (r : Reading) (t : Token) : Except Fault Reading := do
  let r ← r.dropPending
  return { r.indicator 1 t with flowKeys := r.flowKeys.drop 1, keyAllowed := false }

/-- A comma in a flow collection. -/
def flowEntry (r : Reading) : Except Fault Reading := do
  let r ← r.dropPending
  return { r.indicator 1 .flowEntry with keyAllowed := true }

/-- The hyphen of a block sequence. -/
def blockEntry (r : Reading) : Except Fault Reading := do
  if !r.inFlow && !r.keyAllowed then throw .misplacedIndicator
  let r ← (r.openBlock r.cursor.column r.tokens.size .blockSequenceStart).dropPending
  return { r.indicator 1 .blockEntry with keyAllowed := true }

/-- The question mark of a key. -/
def explicitKey (r : Reading) : Except Fault Reading := do
  if !r.inFlow && !r.keyAllowed then throw .misplacedIndicator
  let r ← (r.openBlock r.cursor.column r.tokens.size .blockMappingStart).dropPending
  return { r.indicator 1 .key with keyAllowed := !r.inFlow }

/-- The colon of a value.  It makes the pending key a key, and otherwise begins a value whose key
was marked or is missing. -/
def valueMark (r : Reading) : Except Fault Reading := do
  match r.pending with
  | some k =>
    let r := { r with tokens := r.tokens.insertIdxIfInBounds k.position .key }
    let r := (r.openBlock k.column k.position .blockMappingStart).setPending none
    return { r.indicator 1 .value with keyAllowed := false }
  | none =>
    if !r.inFlow && !r.keyAllowed then throw .misplacedIndicator
    let r := r.openBlock r.cursor.column r.tokens.size .blockMappingStart
    return { r.indicator 1 .value with keyAllowed := !r.inFlow }

/-- An alias, anchor, tag or flow scalar: a token that may begin a simple key. -/
def inlineToken (r : Reading) (read : Cursor → Except Fault (Token × Bool × Cursor)) :
    Except Fault Reading := do
  let r ← r.savePending
  let (t, keyAllowed, cursor) ← read r.cursor
  return { r.push t with cursor, keyAllowed }

/-- A block scalar. -/
def blockScalar (r : Reading) (literal : Bool) : Except Fault Reading := do
  let r ← r.dropPending
  let (text, cursor) ← readBlock literal r.indents.head? r.cursor
  return { r.push (.scalar false text) with cursor, keyAllowed := true }

/-- Whether a plain scalar may begin with a character. -/
def beginsPlain (r : Reading) (ch : Char) : Bool :=
  let next := r.cursor.ahead 1
  let indicators := ['-', '?', ':', ',', '[', ']', '{', '}', '#', '&', '*', '!', '|', '>', '\'',
    '"', '%', '@', '\x60']
  !(isGap ch || isLineBreak ch || ch ∈ indicators) ||
    ch = '-' && !next.any isGap ||
    !r.inFlow && (ch = '?' || ch = ':') && !isGapOrEnd next

/-- The end of the text. -/
def finish (r : Reading) : Except Fault Reading := do
  let c := r.cursor
  let cursor : Cursor := if c.column = 0 then c else { c with line := c.line + 1, column := 0 }
  let r ← ({ r with cursor }.closeBlocks none).dropPending
  return { r.push .streamEnd with keyAllowed := false }

/-- One more token, by the character that it begins with. -/
def next (r : Reading) : Except Fault Reading := do
  let r ← (r.skipSpace (r.cursor.size + 1)).dropStale
  let r := r.closeBlocks (some r.cursor.column)
  let c := r.cursor
  let spaced := r.inFlow || isGapOrEnd (c.ahead 1)
  match c.head? with
  | none => r.finish
  | some ch =>
    if c.column = 0 && ch = '%' then
      let r ← r.beginOutside
      let (t, cursor) ← readDirective r.cursor
      return { r.push t with cursor }
    else if c.isAtMarker '-' then return (← r.beginOutside).indicator 3 .documentStart
    else if c.isAtMarker '.' then return (← r.beginOutside).indicator 3 .documentEnd
    else if ch = '[' then r.openFlow .flowSequenceStart
    else if ch = '{' then r.openFlow .flowMappingStart
    else if ch = ']' then r.closeFlow .flowSequenceEnd
    else if ch = '}' then r.closeFlow .flowMappingEnd
    else if ch = ',' then r.flowEntry
    else if ch = '-' && isGapOrEnd (c.ahead 1) then r.blockEntry
    else if ch = '?' && spaced then r.explicitKey
    else if ch = ':' && spaced then r.valueMark
    else if ch = '*' then r.inlineToken fun c => do
      let (name, c) ← readName c
      return (.alias name, false, c)
    else if ch = '&' then r.inlineToken fun c => do
      let (name, c) ← readName c
      return (.anchor name, false, c)
    else if ch = '!' then r.inlineToken fun c => do
      let (raw, c) ← readTag r.inFlow c
      return (.tag raw, false, c)
    else if ch = '|' && !r.inFlow then r.blockScalar true
    else if ch = '>' && !r.inFlow then r.blockScalar false
    else if ch = '\'' then r.inlineToken fun c => do
      let (text, c) ← readQuoted true c
      return (.scalar false text, false, c)
    else if ch = '"' then r.inlineToken fun c => do
      let (text, c) ← readQuoted false c
      return (.scalar false text, false, c)
    else if r.beginsPlain ch then r.inlineToken fun c => do
      let indent := match r.indents.head? with
        | some i => i + 1
        | none => 0
      let (text, broken, c) ← readPlain r.inFlow indent c
      return (.scalar true text, broken, c)
    else throw .strayCharacter

/-! ### Whole texts -/

/-- The number of tokens that no pending key holds back. -/
def settled (r : Reading) : Nat :=
  (r.blockKey :: r.flowKeys).foldl
    (fun n k => match k with
      | some k => if k.isStale r.cursor then n else min n k.position
      | none => n)
    r.tokens.size

/-- The tokens up to the end of the stream, or the settled ones and the fault behind them. -/
def all : Nat → Reading → List Token × Option Fault
  | 0, r => (r.tokens.toList, some .unexpectedEnd)
  | fuel + 1, r =>
    match r.next with
    | .error fault => (r.tokens.toList.take r.settled, some fault)
    | .ok r =>
      if r.tokens.back? == some Token.streamEnd then (r.tokens.toList, none) else all fuel r

end Reading

/-- Whether a text may hold a character. -/
def isAllowed (c : Char) : Bool :=
  let n := c.toNat
  n = 0x09 || n = 0x0A || n = 0x0D || 0x20 ≤ n && n ≤ 0x7E || n = 0x85 ||
    0xA0 ≤ n && n ≤ 0xD7FF || 0xE000 ≤ n && n ≤ 0xFFFD || 0x10000 ≤ n

/-- The tokens of a text.  A byte order mark in front is no part of it, and one character that is
not allowed spoils all of it.  Every token but the last takes a character. -/
def Token.ofText (text : String) : List Token × Option Fault :=
  let cs := text.toList
  let cs := if cs.head? == some '\ufeff' then cs.drop 1 else cs
  if cs.all isAllowed then Reading.all (cs.length + 2) (.start cs)
  else ([], some .forbiddenCharacter)

end TileSchema.Yaml
