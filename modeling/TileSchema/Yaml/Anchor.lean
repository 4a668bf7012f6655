import TileSchema.Yaml.Node

/-!
# Anchors and aliases

Anchors are numbered in the order of the text.  A name that is new gets the number of names before
it, and a name that is set again gets the number of names so far, which may be a number that a
later name gets too.  An alias takes the number that its name has at the time, and leads to the
last node of the whole document that got this number.

So the aliases of a document are resolved in two passes over its nodes: one that numbers, and one
that collects which node each number leads to.
-/

namespace TileSchema.Yaml

/-- A node whose anchors and aliases are numbers. -/
inductive Linked where
  | scalar (anchor : Option Nat) (tag : Option Tag) (plain : Bool) (text : String)
  | sequence (anchor : Option Nat) (tag : Option Tag) (items : List Linked)
  | mapping (anchor : Option Nat) (tag : Option Tag) (entries : List (Linked × Linked))
  | alias (target : Nat)
  deriving Repr

/-! ### Numbering -/

/-- The names set so far, each with its number, every name once. -/
abbrev AnchorNames := List (String × Nat)

/-- A name set again or for the first time. -/
def AnchorNames.set (names : AnchorNames) (name : String) : AnchorNames :=
  if (names.lookup name).isSome then
    names.map fun e => if e.1 = name then (name, names.length) else e
  else (name, names.length) :: names

/-- The anchor of a node as a number, and the names with it. -/
def AnchorNames.mark (names : AnchorNames) (anchor : Option String) : Option Nat × AnchorNames :=
  match anchor with
  | none => (none, names)
  | some name => (some names.length, names.set name)

mutual

/-- A node with numbers for names, and the names set in it or before. -/
def Node.link (names : AnchorNames) : Node → Except Fault (Linked × AnchorNames)
  | .scalar props plain text =>
    let (anchor, names) := names.mark props.anchor
    .ok (.scalar anchor props.tag plain text, names)
  | .sequence props items => do
    let (anchor, names) := names.mark props.anchor
    let (items, names) ← Node.linkItems names items
    return (.sequence anchor props.tag items, names)
  | .mapping props entries => do
    let (anchor, names) := names.mark props.anchor
    let (entries, names) ← Node.linkEntries names entries
    return (.mapping anchor props.tag entries, names)
  | .alias name =>
    match names.lookup name with
    | some target => .ok (.alias target, names)
    | none => .error .unknownAlias

/-- All items of a sequence. -/
def Node.linkItems (names : AnchorNames) : List Node → Except Fault (List Linked × AnchorNames)
  | [] => .ok ([], names)
  | n :: ns => do
    let (item, names) ← n.link names
    let (items, names) ← Node.linkItems names ns
    return (item :: items, names)

/-- All entries of a mapping. -/
def Node.linkEntries (names : AnchorNames) :
    List (Node × Node) → Except Fault (List (Linked × Linked) × AnchorNames)
  | [] => .ok ([], names)
  | (k, v) :: es => do
    let (key, names) ← k.link names
    let (value, names) ← v.link names
    let (entries, names) ← Node.linkEntries names es
    return ((key, value) :: entries, names)

end

/-! ### Targets -/

/-- What the numbers lead to, the last node of the text first. -/
abbrev Targets := List (Nat × Linked)

/-- The targets with a node that has an anchor. -/
def Targets.add (targets : Targets) (anchor : Option Nat) (n : Linked) : Targets :=
  match anchor with
  | some i => (i, n) :: targets
  | none => targets

mutual

/-- The targets with all those in a node. -/
def Linked.targets (found : Targets) : Linked → Targets
  | .scalar anchor tag plain text => found.add anchor (.scalar anchor tag plain text)
  | .sequence anchor tag items =>
    Linked.targetsOfItems (found.add anchor (.sequence anchor tag items)) items
  | .mapping anchor tag entries =>
    Linked.targetsOfEntries (found.add anchor (.mapping anchor tag entries)) entries
  | .alias _ => found

/-- The targets with all those in the items of a sequence. -/
def Linked.targetsOfItems (found : Targets) : List Linked → Targets
  | [] => found
  | n :: ns => Linked.targetsOfItems (n.targets found) ns

/-- The targets with all those in the entries of a mapping. -/
def Linked.targetsOfEntries (found : Targets) : List (Linked × Linked) → Targets
  | [] => found
  | (k, v) :: es => Linked.targetsOfEntries (v.targets (k.targets found)) es

end

end TileSchema.Yaml
