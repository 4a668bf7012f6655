import TileSchema.Ordered.Dict
import TileSchema.Text.Repertoire
import TileSchema.Yaml.Printer

/-!
# Filter documents

A filter document is a YAML value of which only the shape counts: nothing, a literal, a list, or a
mapping from names.  Numbers and booleans are literals as they are written, so that a list of
numbers matches tag values, which are texts.

Any YAML value can be read as a filter document.  Whether it makes sense as a filter is for the
compiler to say.
-/

namespace TileSchema

/-- A filter document. -/
inductive Filter where
  | null
  | scalar (text : String)
  | sequence (items : List Filter)
  | mapping (entries : List (String × Filter))
  deriving Repr, Inhabited

namespace Filter

open Yaml (Value)

/-- The key of a mapping whose filter has to hold in all its parts. -/
def andKey : String := "__AND__"

/-- The key of a mapping whose filter has to hold in some part. -/
def orKey : String := "__OR__"

/-- The literal that stands for any value of a tag. -/
def anyValue : String := "__any__"

/-! ### From YAML -/

/-- The name that a key is read as.  A key that is a collection is read as its block text. -/
def keyText : Value → String
  | .string s => s
  | .tagged _ v => keyText v
  | v =>
    match Yaml.scalarText? v with
    | some s => s
    | none => Text.trim (v.blockText.getD "")

mutual

/-- A YAML value as a filter document.  Tags do not count; of entries with the same name the first
gives the place and the last the value. -/
def ofValue : Value → Filter
  | .string s => .scalar s
  | .bool b => .scalar (if b then "true" else "false")
  | .int n => .scalar (toString n)
  | .float x => .scalar (Decimal.text Decimal.scalarStyle x)
  | .null => .null
  | .tagged _ v => ofValue v
  | .sequence items => .sequence (ofItems items)
  | .mapping entries => .mapping (Ordered.collect (ofEntries entries))

/-- The items of a sequence as filter documents. -/
def ofItems : List Value → List Filter
  | [] => []
  | v :: vs => ofValue v :: ofItems vs

/-- The entries of a mapping with their names. -/
def ofEntries : List (Value × Value) → List (String × Filter)
  | [] => []
  | (k, v) :: es => (keyText k, ofValue v) :: ofEntries es

end

/-! ### Parts -/

mutual

/-- The documents that are no lists, reached through lists in order. -/
def leaves : Filter → List Filter
  | .sequence items => leavesOfItems items
  | f => [f]

/-- The leaves of all items. -/
def leavesOfItems : List Filter → List Filter
  | [] => []
  | f :: fs => leaves f ++ leavesOfItems fs

end

@[simp] theorem leavesOfItems_eq_flatMap (fs : List Filter) :
    leavesOfItems fs = fs.flatMap leaves := by
  induction fs with
  | nil => rfl
  | cons f fs ih => simp [leavesOfItems, ih]

/-- What makes a filter document malformed. -/
inductive Fault where
  /-- A mapping among the literals of a value list. -/
  | mappingAmongLiterals
  /-- A literal where a filter should stand. -/
  | literalAsFilter (text : String)
  /-- A combinator with other keys beside it. -/
  | combinatorNotAlone (key : String)
  /-- Anything else, in words. -/
  | described (reason : String)
  deriving Repr, DecidableEq

/-- The wording of a fault. -/
def Fault.reason : Fault → String
  | .mappingAmongLiterals => "value lists may only contain literals"
  | .literalAsFilter text => "expected a mapping, a list or null, got '" ++ text ++ "'"
  | .combinatorNotAlone key => "cannot combine " ++ key ++ " with other keys"
  | .described reason => reason

/-- The literals among leaves, nulls being left out. -/
def literalsOf : List Filter → Except Fault (List String)
  | [] => .ok []
  | .scalar s :: fs => (literalsOf fs).map (s :: ·)
  | .mapping _ :: _ => .error .mappingAmongLiterals
  | _ :: fs => literalsOf fs

/-- The literals of a value list. -/
def literals (f : Filter) : Except Fault (List String) := literalsOf f.leaves

end Filter

end TileSchema
