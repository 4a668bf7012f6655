import TileSchema.Schema.Decode
import TileSchema.Trace
import TileSchema.Workspace.Tree
import TileSchema.Yaml.Document
import TileSchema.Yaml.Merge

/-!
# Sources of documents

A source leads from a reference to a document.  Every document it hands out is one YAML value with
its merge keys resolved, and is then read as the kind of document that is needed.  An error names
the reference.
-/

namespace TileSchema

open Workspace (SystemError)
open Yaml (DocumentError MergeError Value)

/-! ### Errors -/

/-- Why the text or value of a document is not the document needed. -/
inductive ParseFault where
  | document (e : DocumentError)
  | merge (e : MergeError)
  | decode (e : DecodeError)
  deriving Repr

/-- The wording of a fault.  A fault with a place in the text is not described. -/
def ParseFault.message : ParseFault → String
  | .document (.fault _) => "<yaml>"
  | .document .tooManyAliases => "repetition limit exceeded"
  | .document .manyDocuments =>
    "deserializing from YAML containing more than one document is not supported"
  | .merge e => e.message
  | .decode e => e.message

/-- Why a document cannot be had. -/
inductive FetchError where
  | read (path : String) (cause : SystemError)
  | parse (reference : String) (fault : ParseFault)
  deriving Repr

/-- The wording of the cause alone. -/
def FetchError.cause : FetchError → String
  | .read _ cause => cause.message
  | .parse _ fault => fault.message

/-- The wording of an error. -/
def FetchError.message : FetchError → String
  | .read path cause => "Failed to read " ++ Text.quotePath path ++ ": " ++ cause.message
  | .parse reference fault => "Failed to parse " ++ reference ++ ": " ++ fault.message

/-! ### Documents -/

/-- A value with its merge keys resolved. -/
def mergeDocument (reference : String) (v : Value) : Except FetchError Value :=
  v.merge.mapError fun e => .parse reference (.merge e)

/-- The value of a text. -/
def readDocument (reference text : String) : Except FetchError Value := do
  let v ← (Value.ofText text).mapError fun e => .parse reference (.document e)
  mergeDocument reference v

/-- Where documents come from: the document of each reference, and what is reported when it is
asked for. -/
structure Source where
  fetch : String → Except FetchError Value
  announce : String → List (Level × String) := fun _ => []

/-- The document of a reference, read as what is needed. -/
def Source.read {α : Type} (source : Source) (reader : Reader α) (reference : String) :
    Except FetchError α := do
  let v ← source.fetch reference
  (reader v).mapError fun e => .parse reference (.decode e)

/-- The document of a reference, with the events of asking for it. -/
def Source.load {α : Type} (source : Source) (reader : Reader α) (reference : String) :
    Traced FetchError α :=
  ⟨.request reference :: (source.announce reference).map fun r => .report r.1 r.2,
    source.read reader reference⟩

@[simp] theorem Source.result_load {α : Type} (source : Source) (reader : Reader α)
    (reference : String) : (source.load reader reference).result = source.read reader reference :=
  rfl

end TileSchema
