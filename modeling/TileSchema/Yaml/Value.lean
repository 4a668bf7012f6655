import TileSchema.Decimal.Notation

/-!
# YAML values

A value is what a document means once its scalars have been read: null, a boolean, a number, a
text, a sequence, a mapping whose keys are values themselves, or a value under a tag.

Mappings keep the order of their entries but are equal in any order, an integer never equals a
floating-point number, and all values that are not numbers are equal to each other.
-/

namespace TileSchema.Yaml

/-- The meaning of a node. -/
inductive Value where
  | null
  | bool (b : Bool)
  | int (n : Int)
  | float (x : Float)
  | string (s : String)
  | sequence (items : List Value)
  | mapping (entries : List (Value × Value))
  | tagged (tag : String) (value : Value)
  deriving Repr, Inhabited

namespace Value

/-- Whether two floating-point numbers are the same as keys. -/
def sameFloat (x y : Float) : Bool :=
  if Decimal.isNan x then Decimal.isNan y else x == y

mutual

/-- Whether two values are the same as keys. -/
def same : Value → Value → Bool
  | .null, .null => true
  | .bool a, .bool b => a == b
  | .int a, .int b => a == b
  | .float a, .float b => sameFloat a b
  | .string a, .string b => a == b
  | .sequence as, .sequence bs => sameItems as bs
  | .mapping as, .mapping bs => as.length == bs.length && sameEntries as bs
  | .tagged t a, .tagged u b => t == u && same a b
  | _, _ => false

/-- Whether two sequences have the same items in the same order. -/
def sameItems : List Value → List Value → Bool
  | [], [] => true
  | a :: as, b :: bs => same a b && sameItems as bs
  | _, _ => false

/-- Whether every entry of the first list is one of the second. -/
def sameEntries : List (Value × Value) → List (Value × Value) → Bool
  | [], _ => true
  | (k, v) :: es, bs => bs.any (fun e => same k e.1 && same v e.2) && sameEntries es bs

end

/-! ### Entries of a mapping -/

/-- Whether a key is among the entries. -/
def hasKey (key : Value) (entries : List (Value × Value)) : Bool :=
  entries.any fun e => same e.1 key

/-- The entries with a key added at their end, or with another value at its place. -/
def insertEntry (key value : Value) : List (Value × Value) → List (Value × Value)
  | [] => [(key, value)]
  | (k, v) :: es => if same k key then (k, value) :: es else (k, v) :: insertEntry key value es

/-- A mapping of entries given in order: a repeated key keeps its place and takes the last value. -/
def mappingOf (entries : List (Value × Value)) : Value :=
  .mapping (entries.foldl (fun es e => insertEntry e.1 e.2 es) [])

/-- The text of a tag. -/
def tagText (tag : String) : String := "!" ++ tag

/-- The name of a tag given with its exclamation mark. -/
def tagName (text : String) : String :=
  match text.toList with
  | '!' :: c :: cs => String.ofList (c :: cs)
  | cs => String.ofList cs

end Value

end TileSchema.Yaml
