import TileSchema.Yaml.Value

/-!
# Merge keys

The string key `<<` of a mapping brings in the entries of another mapping, or of several, where
their keys are not there yet.  The key itself is taken out, and the last entry of the mapping moves
into its place.

Every mapping of a document is merged once, from the outside to the inside, so a merge key that
comes in through another one stays an ordinary key.  Of several faults the one in the last value
counts.
-/

namespace TileSchema.Yaml

/-- Why a merge key cannot be resolved. -/
inductive MergeError where
  /-- Neither a mapping nor a sequence. -/
  | scalar
  /-- A scalar in a sequence. -/
  | scalarInSequence
  /-- A sequence in a sequence. -/
  | sequenceInSequence
  /-- A value under a tag. -/
  | tagged
  deriving Repr, DecidableEq

/-- The wording of a merge error. -/
def MergeError.message : MergeError → String
  | .scalar => "expected a mapping or list of mappings for merging, but found scalar"
  | .scalarInSequence => "expected a mapping for merging, but found scalar"
  | .sequenceInSequence => "expected a mapping for merging, but found sequence"
  | .tagged => "unexpected tagged value in merge"

namespace Value

/-! ### One mapping -/

/-- Whether a value is the merge key. -/
def isMergeKey : Value → Bool
  | .string s => s == "<<"
  | _ => false

/-- A list without the entry in front of `after`: the last entry takes its place. -/
def fillGap (before after : List (Value × Value)) : List (Value × Value) :=
  match after.getLast? with
  | some last => before ++ last :: after.dropLast
  | none => before

/-- The value of the merge key and the other entries, if there is one. -/
def takeMergeKey : List (Value × Value) → List (Value × Value) →
    Option (Value × List (Value × Value))
  | _, [] => none
  | before, (k, v) :: after =>
    if isMergeKey k then some (v, fillGap before.reverse after)
    else takeMergeKey ((k, v) :: before) after

/-- The entries with those of another mapping whose keys are new. -/
def addMissing (entries more : List (Value × Value)) : List (Value × Value) :=
  more.foldl (fun es e => if hasKey e.1 es then es else es ++ [e]) entries

/-- The entries with those of all mappings of a sequence. -/
def addAllMissing : List (Value × Value) → List Value →
    Except MergeError (List (Value × Value))
  | entries, [] => .ok entries
  | entries, .mapping more :: rest => addAllMissing (addMissing entries more) rest
  | _, .sequence _ :: _ => .error .sequenceInSequence
  | _, .tagged .. :: _ => .error .tagged
  | _, _ :: _ => .error .scalarInSequence

/-- The entries of a mapping with its merge key resolved. -/
def mergeEntries (entries : List (Value × Value)) : Except MergeError (List (Value × Value)) :=
  match takeMergeKey [] entries with
  | none => .ok entries
  | some (.mapping more, rest) => .ok (addMissing rest more)
  | some (.sequence items, rest) => addAllMissing rest items
  | some (.tagged .., _) => .error .tagged
  | some _ => .error .scalar

/-! ### Whole values -/

mutual

/-- The number of levels below a value that merging can enter. -/
def height : Value → Nat
  | .sequence items => 1 + heightOfItems items
  | .mapping entries => 1 + heightOfEntries entries
  | .tagged _ v => 1 + v.height
  | _ => 0

/-- The greatest height among values. -/
def heightOfItems : List Value → Nat
  | [] => 0
  | v :: vs => max v.height (heightOfItems vs)

/-- The greatest height among the values of entries. -/
def heightOfEntries : List (Value × Value) → Nat
  | [] => 0
  | (_, v) :: es => max v.height (heightOfEntries es)

end

/-- A list of results, computed from the last to the first. -/
def mapFromLast {α β ε : Type} (f : α → Except ε β) : List α → Except ε (List β)
  | [] => .ok []
  | a :: as => do
    let bs ← mapFromLast f as
    let b ← f a
    return b :: bs

/-- A value whose mappings are merged down to a number of levels. -/
def mergeTo : Nat → Value → Except MergeError Value
  | 0, v => .ok v
  | levels + 1, v =>
    match v with
    | .sequence items => (mapFromLast (mergeTo levels) items).map .sequence
    | .tagged tag v => (mergeTo levels v).map (.tagged tag)
    | .mapping entries => do
      let entries ← mergeEntries entries
      let entries ← mapFromLast (fun e => (mergeTo levels e.2).map fun v => (e.1, v)) entries
      return .mapping entries
    | v => .ok v

/-- A value with all its merge keys resolved. -/
def merge (v : Value) : Except MergeError Value := mergeTo v.height v

end Value

end TileSchema.Yaml
