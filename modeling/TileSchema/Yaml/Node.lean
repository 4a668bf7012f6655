import TileSchema.Yaml.Fault
import TileSchema.Yaml.Token.Property

/-!
# Nodes of a YAML document

The tree that the tokens of a document spell: scalars, sequences and mappings with their anchors
and tags, and aliases still by name.  A missing key or value is an empty plain scalar.

Only the tag decides later what a quoted scalar means, so the tag is resolved here: the handles of
the directives are replaced, and what remains is a tag of the document's own, one of the core
schema, or a foreign one.
-/

namespace TileSchema.Yaml

/-! ### Tags -/

/-- The scalar types of the core schema. -/
inductive CoreTag where
  | null
  | boolean
  | integer
  | float
  deriving Repr, DecidableEq

/-- A tag after its handle has been looked up. -/
inductive Tag where
  /-- A tag of the document's own, without its exclamation mark. -/
  | named (name : String)
  | core (kind : CoreTag)
  /-- Any other tag. -/
  | foreign
  deriving Repr, DecidableEq

/-- The handles that stand for something, with what they stand for. -/
abbrev Handles := List (String × List UInt8)

/-- The expansion of the handle of the core schema. -/
def coreExpansion : String := "tag:yaml.org,2002:"

/-- The handles that every document knows. -/
def Handles.standard : Handles :=
  [("!", [33]), ("!!", coreExpansion.toUTF8.toList)]

/-- The text of UTF-8 bytes. -/
def decodeBytes (bytes : List UInt8) : Option String :=
  String.fromUTF8? ⟨bytes.toArray⟩

/-- A name without the exclamation mark in front of it, if more than the mark is there. -/
def dropMark (name : List Char) : List Char :=
  match name with
  | '!' :: c :: cs => c :: cs
  | cs => cs

/-- The tag that bytes spell.  A tag of the document's own that is no text is no tag at all. -/
def Tag.ofBytes (bytes : List UInt8) : Option Tag :=
  let bytes := bytes.takeWhile (· ≠ 0)
  match bytes, decodeBytes bytes with
  | 33 :: _, none => none
  | _, none => some .foreign
  | 33 :: _, some text => some (.named (String.ofList (dropMark (dropMark text.toList))))
  | _, some text =>
    if text = coreExpansion ++ "null" then some (.core .null)
    else if text = coreExpansion ++ "bool" then some (.core .boolean)
    else if text = coreExpansion ++ "int" then some (.core .integer)
    else if text = coreExpansion ++ "float" then some (.core .float)
    else some .foreign

/-- What a tag in a text stands for: its bytes, after the handle has been looked up. -/
def RawTag.resolve (handles : Handles) (t : RawTag) : Except Fault (List UInt8) :=
  if t.handle.isEmpty then .ok t.suffix
  else match handles.lookup t.handle with
    | some expansion => .ok (expansion ++ t.suffix)
    | none => .error .undeclaredHandle

/-! ### Nodes -/

/-- What stands in front of a node. -/
structure Properties where
  anchor : Option String
  tag : Option Tag
  deriving Repr

/-- No anchor and no tag. -/
def Properties.none : Properties := ⟨.none, .none⟩

/-- A node as its text spells it. -/
inductive Node where
  | scalar (props : Properties) (plain : Bool) (text : String)
  | sequence (props : Properties) (items : List Node)
  | mapping (props : Properties) (entries : List (Node × Node))
  | alias (name : String)
  deriving Repr

/-- A node that is not there. -/
def Node.missing : Node := .scalar .none true ""

/-- Nodes are read from the front of a list of tokens, which leaves the others. -/
abbrev TokenReader (α : Type) := List Token → Except Fault (α × List Token)

/-- The first token; a list that has none was cut off by a fault. -/
def peekToken (ts : List Token) : Except Fault Token :=
  match ts with
  | t :: _ => .ok t
  | [] => .error .unexpectedEnd

/-- The anchor and the tag in front of a node, in either order, the tag still in bytes. -/
def readProperties (handles : Handles) :
    TokenReader (Option String × Option (List UInt8)) := fun ts => do
  match ts with
  | .anchor a :: .tag t :: ts => return ((some a, some (← t.resolve handles)), ts)
  | .anchor a :: ts => return ((some a, none), ts)
  | .tag t :: .anchor a :: ts => return ((some a, some (← t.resolve handles)), ts)
  | .tag t :: ts => return ((none, some (← t.resolve handles)), ts)
  | ts => return ((none, none), ts)

/-- Whether a token ends an entry of a block mapping before its node. -/
def endsBlockNode (t : Token) : Bool := t == .key || t == .value || t == .blockEnd

mutual

/-- A node.  In block context it may be a block collection; as the value of a block mapping it may
also be a sequence whose hyphens are not indented. -/
def readNode (handles : Handles) (block inMapping : Bool) : Nat → TokenReader Node
  | 0, _ => .error .unexpectedEnd
  | fuel + 1, ts => do
    if let .alias name :: ts := ts then return (.alias name, ts)
    let ((anchor, bytes), ts) ← readProperties handles ts
    let props : Properties := ⟨anchor, bytes.bind Tag.ofBytes⟩
    let token ← peekToken ts
    if inMapping && token == .blockEntry then
      let (items, ts) ← readLooseSequence handles fuel ts
      return (.sequence props items, ts)
    match token with
    | .scalar plain text =>
      -- The lone exclamation mark only says that a scalar has no other tag.
      let props := if bytes == some [33] then { props with tag := .none } else props
      return (.scalar props plain text, ts.drop 1)
    | .flowSequenceStart =>
      let (items, ts) ← readFlowSequence handles fuel true (ts.drop 1)
      return (.sequence props items, ts)
    | .flowMappingStart =>
      let (entries, ts) ← readFlowMapping handles fuel true (ts.drop 1)
      return (.mapping props entries, ts)
    | token =>
      if block && token == .blockSequenceStart then
        let (items, ts) ← readBlockSequence handles fuel (ts.drop 1)
        return (.sequence props items, ts)
      else if block && token == .blockMappingStart then
        let (entries, ts) ← readBlockMapping handles fuel (ts.drop 1)
        return (.mapping props entries, ts)
      else if anchor.isSome || bytes.isSome then return (.scalar props true "", ts)
      else throw .missingNode

/-- The items of a block sequence. -/
def readBlockSequence (handles : Handles) : Nat → TokenReader (List Node)
  | 0, _ => .error .unexpectedEnd
  | fuel + 1, ts => do
    match ts with
    | .blockEnd :: ts => return ([], ts)
    | .blockEntry :: ts =>
      let token ← peekToken ts
      let (item, ts) ←
        if token == .blockEntry || token == .blockEnd then pure (Node.missing, ts)
        else readNode handles true false fuel ts
      let (items, ts) ← readBlockSequence handles fuel ts
      return (item :: items, ts)
    | [] => throw .unexpectedEnd
    | _ => throw .brokenCollection

/-- The items of a sequence in a block mapping whose hyphens stand under the key. -/
def readLooseSequence (handles : Handles) : Nat → TokenReader (List Node)
  | 0, _ => .error .unexpectedEnd
  | fuel + 1, ts => do
    match ts with
    | .blockEntry :: ts =>
      let token ← peekToken ts
      let (item, ts) ←
        if token == .blockEntry || endsBlockNode token then pure (Node.missing, ts)
        else readNode handles true false fuel ts
      let (items, ts) ← readLooseSequence handles fuel ts
      return (item :: items, ts)
    | [] => throw .unexpectedEnd
    | ts => return ([], ts)

/-- The entries of a block mapping. -/
def readBlockMapping (handles : Handles) : Nat → TokenReader (List (Node × Node))
  | 0, _ => .error .unexpectedEnd
  | fuel + 1, ts => do
    match ts with
    | .blockEnd :: ts => return ([], ts)
    | .key :: ts =>
      let (key, ts) ← readBlockPart handles fuel ts
      let (value, ts) ←
        match ts with
        | .value :: ts => readBlockPart handles fuel ts
        | [] => throw .unexpectedEnd
        | ts => pure (Node.missing, ts)
      let (entries, ts) ← readBlockMapping handles fuel ts
      return ((key, value) :: entries, ts)
    | [] => throw .unexpectedEnd
    | _ => throw .brokenCollection

/-- The key or the value of a block mapping, behind its mark. -/
def readBlockPart (handles : Handles) : Nat → TokenReader Node
  | 0, _ => .error .unexpectedEnd
  | fuel + 1, ts => do
    if endsBlockNode (← peekToken ts) then return (Node.missing, ts)
    readNode handles true true fuel ts

/-- The items of a flow sequence.  An item with a key or a colon is a mapping of one entry. -/
def readFlowSequence (handles : Handles) : Nat → Bool → TokenReader (List Node)
  | 0, _, _ => .error .unexpectedEnd
  | fuel + 1, first, ts => do
    if let .flowSequenceEnd :: ts := ts then return ([], ts)
    let ts ← readSeparator first ts
    match ts with
    | .flowSequenceEnd :: ts => return ([], ts)
    | .key :: ts =>
      let (entry, ts) ← readFlowPair handles fuel ts
      let (items, ts) ← readFlowSequence handles fuel false ts
      return (.mapping .none [entry] :: items, ts)
    | ts =>
      let (item, ts) ← readNode handles false false fuel ts
      let (items, ts) ← readFlowSequence handles fuel false ts
      return (item :: items, ts)

/-- The entry of a mapping inside a flow sequence, behind the token of its key. -/
def readFlowPair (handles : Handles) : Nat → TokenReader (Node × Node)
  | 0, _ => .error .unexpectedEnd
  | fuel + 1, ts => do
    let token ← peekToken ts
    -- A missing key takes the token behind it away, be it the colon of the value.
    let (key, ts) ←
      if token == .value || token == .flowEntry || token == .flowSequenceEnd then
        pure (Node.missing, ts.drop 1)
      else readNode handles false false fuel ts
    match ts with
    | .value :: ts =>
      let token ← peekToken ts
      if token == .flowEntry || token == .flowSequenceEnd then return ((key, Node.missing), ts)
      let (value, ts) ← readNode handles false false fuel ts
      return ((key, value), ts)
    | [] => throw .unexpectedEnd
    | ts => return ((key, Node.missing), ts)

/-- The entries of a flow mapping. -/
def readFlowMapping (handles : Handles) : Nat → Bool → TokenReader (List (Node × Node))
  | 0, _, _ => .error .unexpectedEnd
  | fuel + 1, first, ts => do
    if let .flowMappingEnd :: ts := ts then return ([], ts)
    let ts ← readSeparator first ts
    match ts with
    | .flowMappingEnd :: ts => return ([], ts)
    | .key :: ts =>
      let token ← peekToken ts
      let (key, ts) ←
        if token == .value || token == .flowEntry || token == .flowMappingEnd then
          pure (Node.missing, ts)
        else readNode handles false false fuel ts
      let (value, ts) ←
        match ts with
        | .value :: ts => do
          let token ← peekToken ts
          if token == .flowEntry || token == .flowMappingEnd then pure (Node.missing, ts)
          else readNode handles false false fuel ts
        | [] => throw .unexpectedEnd
        | ts => pure (Node.missing, ts)
      let (entries, ts) ← readFlowMapping handles fuel false ts
      return ((key, value) :: entries, ts)
    | ts =>
      let (key, ts) ← readNode handles false false fuel ts
      let (entries, ts) ← readFlowMapping handles fuel false ts
      return ((key, Node.missing) :: entries, ts)

/-- The comma in front of every entry of a flow collection but the first. -/
def readSeparator (first : Bool) (ts : List Token) : Except Fault (List Token) :=
  if first then .ok ts
  else match ts with
    | .flowEntry :: ts => .ok ts
    | [] => .error .unexpectedEnd
    | _ => .error .brokenCollection

end

/-! ### Documents -/

/-- The directives in front of a document: at most one version, and no handle twice. -/
def readDirectives : Bool → Handles → TokenReader Handles
  | versioned, handles, .version major minor :: ts =>
    if versioned || major ≠ 1 || (minor ≠ 1 && minor ≠ 2) then .error .badDirective
    else readDirectives true handles ts
  | versioned, handles, .tagHandle handle expansion :: ts =>
    if (handles.lookup handle).isSome then .error .badDirective
    else readDirectives versioned ((handle, expansion) :: handles) ts
  | _, handles, ts => .ok (handles ++ Handles.standard, ts)

/-- Whether a token belongs to the next document or to none. -/
def endsDocument : Token → Bool
  | .version .. | .tagHandle .. | .documentStart | .documentEnd | .streamEnd => true
  | _ => false

/-- Enough fuel for the nodes of a list of tokens: no token is passed more than four times. -/
def nodeFuel (ts : List Token) : Nat := 4 * ts.length + 4

/-- The root node of the first document, if there is a document, and the tokens behind it. -/
def Node.firstOf (ts : List Token) : Except Fault (Option (Node × List Token)) := do
  match ← peekToken ts with
  | .streamEnd => return none
  | .version .. | .tagHandle .. | .documentStart =>
    let (handles, ts) ← readDirectives false [] ts
    match ts with
    | .documentStart :: ts =>
      if endsDocument (← peekToken ts) then return some (.missing, ts)
      return some (← readNode handles true false (nodeFuel ts) ts)
    | [] => throw .unexpectedEnd
    | _ => throw .missingDocumentStart
  | _ => return some (← readNode .standard true false (nodeFuel ts) ts)

/-- Whether anything but the end of the stream follows a document: another document, or a fault. -/
def followedByMore (ts : List Token) : Bool :=
  match ts.dropWhile (· == .documentEnd) with
  | .streamEnd :: _ => false
  | _ => true

/-! ### Size -/

mutual

/-- The number of marks that a node is read from: two around a collection, one for anything else. -/
def Node.marks : Node → Nat
  | .scalar .. => 1
  | .alias _ => 1
  | .sequence _ items => 2 + Node.marksOfItems items
  | .mapping _ entries => 2 + Node.marksOfEntries entries

/-- The marks of all items. -/
def Node.marksOfItems : List Node → Nat
  | [] => 0
  | n :: ns => n.marks + Node.marksOfItems ns

/-- The marks of all keys and values. -/
def Node.marksOfEntries : List (Node × Node) → Nat
  | [] => 0
  | (k, v) :: es => k.marks + v.marks + Node.marksOfEntries es

end

end TileSchema.Yaml
