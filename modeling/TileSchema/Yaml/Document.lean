import TileSchema.Yaml.Anchor
import TileSchema.Yaml.Scalar
import TileSchema.Yaml.Token.Stream

/-!
# Documents

A document is one value.  This file gives its nodes their meaning: aliases are followed, tags of
the document's own stay on their values, and keys are checked to differ.  Two budgets keep this
finite: collections nest at most 128 deep, which also refuses a node that holds itself, and
aliases are followed at most a hundred times as often as the document has marks.

An empty stream means null.  A stream of several documents is refused, but only after the first
one has been found good; whatever is wrong behind the first document counts as another document.
-/

namespace TileSchema.Yaml

/-- Why a text is not one value. -/
inductive DocumentError where
  /-- A fault at some place of the text. -/
  | fault (fault : Fault)
  /-- More aliases than the document may follow. -/
  | tooManyAliases
  /-- Another document behind the first. -/
  | manyDocuments
  deriving Repr, DecidableEq

/-- How many levels of collections a document may have. -/
def maxDepth : Nat := 128

/-- What aliases lead to, and how many may be followed in all. -/
structure AliasTable where
  targets : Targets
  budget : Nat

/-- Values are built while counting the aliases followed. -/
abbrev Building := StateT Nat (Except DocumentError)

/-- The node that an alias stands for; any other node stands for itself. -/
def AliasTable.follow (t : AliasTable) (n : Linked) : Building Linked := do
  match n with
  | .alias target =>
    let count ← get
    if t.budget < count + 1 then throw .tooManyAliases
    set (count + 1)
    match t.targets.lookup target with
    | some n => return n
    | none => throw (.fault .unknownAlias)
  | n => return n

/-- A fault of the text. -/
def failWith {α : Type} (f : Fault) : Building α := throw (.fault f)

/-- A value under the tag of its node, unless that has been read before. -/
def underTag (tag : Option Tag) (tagRead : Bool) (v : Value) : Value :=
  match tag, tagRead with
  | some (.named name), false => .tagged name v
  | _, _ => v

/-- The entries of a mapping one by one, every key being new. -/
def collectEntries (key value : Linked → Building Value) :
    List (Value × Value) → List (Linked × Linked) → Building (List (Value × Value))
  | entries, [] => return entries.reverse
  | entries, (k, v) :: es => do
    let k ← key k
    if Value.hasKey k entries then failWith .duplicateKey
    let v ← value v
    collectEntries key value ((k, v) :: entries) es

/-- The value of a node with `depth` levels of collections left.  The keys of a mapping under a tag
of the document's own are read as if their tags had been read before, unless an alias stands in
between. -/
def AliasTable.value (t : AliasTable) : Nat → Bool → Linked → Building Value
  | depth, tagRead, n => do
    let tagRead := match n with
      | .alias _ => false
      | _ => tagRead
    let n ← t.follow n
    match n, depth with
    | .alias _, _ => failWith .unknownAlias
    | .scalar _ tag plain text, _ =>
      let meaning := match tag, tagRead with
        | some (.named _), _ => .none
        | _, true => .none
        | tag, false => tag
      match scalarValue meaning plain text with
      | .ok v => return underTag tag tagRead v
      | .error f => failWith f
    | .sequence .., 0 => failWith .tooDeep
    | .mapping .., 0 => failWith .tooDeep
    | .sequence _ tag items, depth + 1 =>
      let items ← items.mapM fun item => t.value depth false item
      return underTag tag tagRead (.sequence items)
    | .mapping _ tag entries, depth + 1 =>
      let keysRead := tagRead || match tag with
        | some (.named _) => true
        | _ => false
      let entries ← collectEntries (fun k => t.value depth keysRead k)
        (fun v => t.value depth false v) [] entries
      return underTag tag tagRead (.mapping entries)

/-- The value of the root node of a document. -/
def Node.value (n : Node) : Except DocumentError Value := do
  let linked ← match n.link [] with
    | .ok (linked, _) => pure linked
    | .error f => throw (.fault f)
  let table : AliasTable := ⟨linked.targets [], 100 * n.marks⟩
  return (← (table.value maxDepth false linked).run 0).1

/-- The value of a text that holds one document. -/
def Value.ofText (text : String) : Except DocumentError Value :=
  let (tokens, fault) := Token.ofText text
  match Node.firstOf tokens with
  | .error f => .error (.fault (fault.getD f))
  | .ok none => .ok .null
  | .ok (some (root, rest)) =>
    -- The end of a document is known once the token behind it is.
    if rest.isEmpty then .error (.fault (fault.getD .unexpectedEnd))
    else do
      let v ← root.value
      if followedByMore rest then throw .manyDocuments
      return v

end TileSchema.Yaml
