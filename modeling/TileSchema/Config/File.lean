import TileSchema.Workspace.Basic
import TileSchema.Yaml.Document

/-!
# Settings files

A settings file is a YAML mapping, or empty.  Its scalars are read by rules of their own, simpler
than those for documents of a schema: only the plainest words are null and booleans, and a decimal
may have zeros in front.  What is read is the text that a setting gets, so a number loses how it
was spelled.

The two words for numbers that are not finite are refused, and so are a null or a collection as a
name.  A name may lead into the value of a setting, by dots and brackets, and then makes it a
mapping or a list.
-/

namespace TileSchema.Config

open Yaml (CoreTag Linked Node Tag Targets Token)

/-- What a layer of the configuration says of a setting. -/
inductive Setting where
  | text (s : String)
  /-- Null, which takes a setting back. -/
  | absent
  /-- A mapping, of which the names are known. -/
  | table (names : List String)
  | list
  deriving Repr, DecidableEq

/-- The settings of a layer by their names. -/
abbrev SettingLayer := List (String × Setting)

/-! ### Names -/

/-- A step into the value of a setting. -/
inductive ValueStep where
  | member (name : String)
  | item
  deriving Repr, DecidableEq

/-- A character of a plain name. -/
def isNameChar (c : Char) : Bool := c.isAlphanum || c == '_' || c == '-'

/-- Whether what stands between brackets is the number of an item. -/
def isItemNumber (cs : List Char) : Bool :=
  let blank (c : Char) : Bool := c == ' ' || c == '\t'
  let cs := ((cs.dropWhile blank).reverse.dropWhile blank).reverse
  let digits := if cs.head? == some '-' then cs.drop 1 else cs
  !digits.isEmpty && digits.all Char.isDigit

/-- The steps behind a plain name: names behind dots, and numbers of items in brackets. -/
def steps? : Nat → List Char → Option (List ValueStep)
  | _, [] => some []
  | fuel + 1, '.' :: cs =>
    let name := cs.takeWhile isNameChar
    if name.isEmpty then none
    else (steps? fuel (cs.drop name.length)).map (.member (String.ofList name) :: ·)
  | fuel + 1, '[' :: cs =>
    let number := cs.takeWhile (· ≠ ']')
    match cs.drop number.length with
    | _ :: rest => if isItemNumber number then (steps? fuel rest).map (.item :: ·) else none
    | [] => none
  | _, _ => none

/-- What a layer says under a name.  A name with steps behind it speaks of the setting in front of
them, and makes that a mapping or a list. -/
def settingUnder (name : String) (s : Setting) : String × Setting :=
  let cs := name.toList
  let plain := cs.takeWhile isNameChar
  if plain.isEmpty then (name, s)
  else match steps? cs.length (cs.drop plain.length) with
    | some (.member inner :: _) => (String.ofList plain, .table [inner])
    | some (.item :: _) => (String.ofList plain, .list)
    | _ => (name, s)

/-! ### Scalars -/

/-- An integer of sixty-four bits, with or without a sign. -/
def word? (base : Nat) (cs : List Char) : Option Int :=
  let n := match cs with
    | '-' :: r => (Yaml.natural? base r).map fun n => -(n : Int)
    | '+' :: r => (Yaml.natural? base r).map fun n => (n : Int)
    | r => (Yaml.natural? base r).map fun n => (n : Int)
  n.filter fun n => -(Int.pow 2 63) ≤ n && n < Int.pow 2 63

/-- An integer in one of the spellings that are tried before anything else. -/
def markedWord? : List Char → Option Int
  | '0' :: 'x' :: r => word? 16 r
  | '0' :: 'o' :: r => word? 8 r
  | '+' :: r => word? 10 r
  | _ => none

/-- A floating-point number, which may have overflowed. -/
def number? (cs : List Char) : Option Float :=
  match cs with
  | '-' :: r => Yaml.decimal? true r
  | '+' :: r => Yaml.decimal? false r
  | r => Yaml.decimal? false r

/-- The words for numbers that are not finite. -/
def unreadableWords : List String :=
  [".inf", ".Inf", ".INF", "+.inf", "+.Inf", "+.INF", "-.inf", "-.Inf", "-.INF", ".nan", ".NaN",
    ".NAN"]

/-- A number without exponent, and without a fraction if it is whole. -/
def numberText (x : Float) : String :=
  let s := (Decimal.text Decimal.messageStyle x).toList
  String.ofList (if ".0".toList.isSuffixOf s then s.take (s.length - 2) else s)

/-- The setting that a plain scalar is, unless it is refused. -/
def plainSetting (s : String) : Option Setting :=
  let cs := s.toList
  match markedWord? cs with
  | some n => some (.text (toString n))
  | none =>
    if s ∈ ["", "~", "null"] then some .absent
    else match word? 10 cs with
      | some n => some (.text (toString n))
      | none =>
        if s ∈ unreadableWords then none
        else match number? cs with
          | some x => some (.text (numberText x))
          | none => some (.text s)

/-- The setting that a plain scalar under a core tag is: nothing if it is not of the type. -/
def coreSetting (kind : CoreTag) (s : String) : Option Setting :=
  match kind with
  | .null => some .absent
  | .boolean => some (if s ∈ ["true", "false"] then .text s else .absent)
  | .integer => some (((word? 10 s.toList).map fun n => .text (toString n)).getD .absent)
  | .float =>
    if s ∈ unreadableWords then none
    else some (((number? s.toList).map fun x => .text (numberText x)).getD .absent)

/-- The setting that a scalar is, unless it is refused. -/
def scalarSetting (tag : Option Tag) (plain : Bool) (s : String) : Option Setting :=
  if !plain then some (.text s)
  else match tag with
    | none => plainSetting s
    | some (.core kind) => coreSetting kind s
    | some _ => some (.text s)

/-! ### Nodes -/

/-- The node that an alias leads to; any other node stands for itself. -/
def follow (targets : Targets) : Linked → Linked
  | .alias target => (targets.lookup target).getD (.scalar none none true "")
  | n => n

/-- The name that a key is, if it is one. -/
def keyName? (targets : Targets) (key : Linked) : Option String :=
  match follow targets key with
  | .scalar _ tag plain s =>
    match scalarSetting tag plain s with
    | some (.text _) => some s
    | _ => none
  | _ => none

/-- The names of entries, which have to be names and all different. -/
def entryNames? (targets : Targets) (entries : List (Linked × Linked)) : Option (List String) := do
  let names ← entries.mapM fun e => keyName? targets e.1
  if names.Nodup then return names
  none

mutual

/-- Whether all that a node holds can be read. -/
def isReadable (targets : Targets) : Linked → Bool
  | .scalar _ tag plain s => (scalarSetting tag plain s).isSome
  | .sequence _ _ items => areReadable targets items
  | .mapping _ _ entries => (entryNames? targets entries).isSome && valuesReadable targets entries
  | .alias _ => true

/-- Whether all items can be read. -/
def areReadable (targets : Targets) : List Linked → Bool
  | [] => true
  | n :: ns => isReadable targets n && areReadable targets ns

/-- Whether all values of entries can be read. -/
def valuesReadable (targets : Targets) : List (Linked × Linked) → Bool
  | [] => true
  | (_, v) :: es => isReadable targets v && valuesReadable targets es

end

/-- The setting that a node is. -/
def nodeSetting (targets : Targets) (n : Linked) : Option Setting :=
  match follow targets n with
  | .scalar _ tag plain s => scalarSetting tag plain s
  | .sequence .. => some .list
  | .mapping _ _ entries => (entryNames? targets entries).map .table
  | .alias _ => some .absent

/-- The settings of a root node. -/
def layerOfNode (root : Node) : Option SettingLayer := do
  let (linked, _) ← (root.link []).toOption
  let targets := linked.targets []
  match linked with
  | .mapping _ _ entries =>
    guard (isReadable targets linked)
    let names ← entryNames? targets entries
    let settings ← entries.mapM fun e => nodeSetting targets e.2
    return names.zipWith settingUnder settings
  | _ => none

/-- The settings of the text of a settings file. -/
def SettingLayer.ofText (text : String) : Option SettingLayer := do
  let (tokens, _) := Token.ofText text
  match ← (Node.firstOf tokens).toOption with
  | none => return []
  | some (root, rest) =>
    guard !(Yaml.followedByMore rest)
    layerOfNode root

/-! ### Files -/

/-- The extensions of files that are read. -/
def extensions : List String := ["yaml", "yml", "json"]

/-- The file that a path stands for: the one at the path, which has to have an extension that is
known, or else one with such an extension added. -/
def settingsFile? (w : Workspace) (path : String) : Option String :=
  if w.isFile path then
    match Workspace.Path.extension? path with
    | some e => if e ∈ extensions then some path else none
    | none => none
  else
    let parts := Workspace.Path.dropIdle (Workspace.Path.segments path)
    if parts.isEmpty || parts.getLast? = some ".." then none
    else (extensions.map fun e => Workspace.Path.ofSegments parts ++ "." ++ e).find? w.isFile

/-- The settings of a file. -/
def SettingLayer.ofFile (w : Workspace) (path : String) : Option SettingLayer := do
  let file ← settingsFile? w path
  let text ← (w.read file).toOption
  SettingLayer.ofText text

end TileSchema.Config
