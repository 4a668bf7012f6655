import TileSchema.Schema.Model
import TileSchema.Text.Quoted

/-!
# Reading schema documents

A YAML value is read as one of the documents of a schema.  Tags are looked through.  Nothing at all
is as good as an empty mapping or list, but not as a text, a number or a boolean.  Members that are
not known are ignored; members are read in the order of the document, and only then the first
missing one is reported.
-/

namespace TileSchema

open Ordered (Dict)
open Yaml (Value)

/-! ### Errors -/

/-- Why a value is not what is expected. -/
inductive DecodeError where
  | missingField (name : String)
  | duplicateField (name : String)
  /-- A value of the wrong type, and the words for what was expected. -/
  | invalidType (found : Value) (expected : String)
  /-- A value that is no field specification. -/
  | noFieldSpec
  /-- A tag inside a field specification. -/
  | taggedFieldSpec
  deriving Repr

/-- A value without its tags. -/
def untagged : Value → Value
  | .tagged _ v => untagged v
  | v => v

/-- How a value is called in a message. -/
def describeValue : Value → String
  | .null => "unit value"
  | .bool b => "boolean \x60" ++ (if b then "true" else "false") ++ "\x60"
  | .int n => "integer \x60" ++ toString n ++ "\x60"
  | .float x => "floating point \x60" ++ Decimal.text Decimal.messageStyle x ++ "\x60"
  | .string s => "string " ++ Text.quote s
  | .sequence _ => "sequence"
  | .mapping _ => "map"
  | .tagged _ v => describeValue v

/-- The wording of an error. -/
def DecodeError.message : DecodeError → String
  | .missingField name => "missing field \x60" ++ name ++ "\x60"
  | .duplicateField name => "duplicate field \x60" ++ name ++ "\x60"
  | .invalidType found expected =>
    "invalid type: " ++ describeValue found ++ ", expected " ++ expected
  | .noFieldSpec => "data did not match any variant of untagged enum FieldSpec"
  | .taggedFieldSpec => "untagged and internally tagged enums do not support enum input"

/-! ### Simple values -/

/-- A way to read a value. -/
abbrev Reader (α : Type) := Value → Except DecodeError α

/-- The error of a value that is not what is expected. -/
def refuse {α : Type} (v : Value) (expected : String) : Except DecodeError α :=
  .error (.invalidType v expected)

/-- A text. -/
def readText : Reader String := fun v =>
  match untagged v with
  | .string s => .ok s
  | v => refuse v "a string"

/-- A boolean. -/
def readBool : Reader Bool := fun v =>
  match untagged v with
  | .bool b => .ok b
  | v => refuse v "a boolean"

/-- A number, integers included. -/
def readNumber : Reader Float := fun v =>
  match untagged v with
  | .int n => .ok (Decimal.ofInteger n)
  | .float x => .ok x
  | v => refuse v "f64"

/-- A filter: any value will do. -/
def readFilter : Reader Filter := fun v => .ok (Filter.ofValue v)

/-- A value that may be absent. -/
def readOptional {α : Type} (read : Reader α) : Reader (Option α) := fun v =>
  match v with
  | .null => .ok none
  | v => (read v).map some

/-- A list. -/
def readList {α : Type} (read : Reader α) : Reader (List α) := fun v =>
  match untagged v with
  | .sequence items => items.mapM read
  | .null => .ok []
  | v => refuse v "a sequence"

/-- A dictionary. -/
def readDict {α : Type} (read : Reader α) : Reader (Dict α) := fun v =>
  match untagged v with
  | .mapping entries => do
    let entries ← entries.mapM fun (k, v) => do
      let name ← readText k
      let value ← read v
      return (name, value)
    return .ofList entries
  | .null => .ok .empty
  | v => refuse v "a map"

/-! ### Records -/

/-- A member of a record, and how its value changes the record. -/
structure Member (α : Type) where
  name : String
  read : α → Value → Except DecodeError α

/-- A member whose value is read and put into the record. -/
def Member.of {α β : Type} (name : String) (read : Reader β) (put : α → β → α) : Member α :=
  ⟨name, fun a v => (read v).map (put a)⟩

/-- The members of a record read one after the other, and the names of those that were there. -/
def readMembers {α : Type} (members : List (Member α)) :
    α → List String → List (Value × Value) → Except DecodeError (α × List String)
  | a, seen, [] => .ok (a, seen)
  | a, seen, (k, v) :: es => do
    match untagged k with
    | .string name =>
      match members.find? (·.name == name) with
      | none => readMembers members a seen es
      | some m =>
        if name ∈ seen then .error (.duplicateField name)
        let a ← m.read a v
        readMembers members a (name :: seen) es
    | k => refuse k "field identifier"

/-- A record: its name, its members, and which of them must be there. -/
def readRecord {α : Type} (name : String) (members : List (Member α)) (required : List String)
    (initial : α) : Reader α := fun v => do
  let entries ← match untagged v with
    | .mapping entries => pure entries
    | .null => pure []
    | v => refuse v ("struct " ++ name)
  let (a, seen) ← readMembers members initial [] entries
  match required.find? (· ∉ seen) with
  | some missing => throw (.missingField missing)
  | none => return a

/-! ### Field specifications -/

mutual

/-- Whether a tag occurs in a value. -/
def holdsTag : Value → Bool
  | .tagged .. => true
  | .sequence items => anyHoldsTag items
  | .mapping entries => anyEntryHoldsTag entries
  | _ => false

/-- Whether a tag occurs in one of the values. -/
def anyHoldsTag : List Value → Bool
  | [] => false
  | v :: vs => holdsTag v || anyHoldsTag vs

/-- Whether a tag occurs in one of the keys or values. -/
def anyEntryHoldsTag : List (Value × Value) → Bool
  | [] => false
  | (k, v) :: es => holdsTag k || holdsTag v || anyEntryHoldsTag es

end

/-- The members of a detailed field specification. -/
inductive DetailMember where
  | description
  | values
  | other
  deriving DecidableEq

/-- The member that a key names, also by its position. -/
def detailMember? : Value → Option DetailMember
  | .string s =>
    some (if s = "description" then .description else if s = "values" then .values else .other)
  | .int n => if n = 0 then some .description else if n = 1 then some .values
    else if 0 < n then some .other else none
  | _ => none

/-- A detailed field specification, none if a member is there twice or is not what it should be. -/
def detailed? : Option String → Option (Option Filter) → List (Value × Value) → Option FieldSpec
  | description, values, [] => some (.detailed (description.getD "") (values.getD none))
  | description, values, (k, v) :: es =>
    match detailMember? k, v, description, values with
    | some .description, .string s, none, values => detailed? (some s) values es
    | some .values, .null, description, none => detailed? description (some none) es
    | some .values, v, description, none => detailed? description (some (some (.ofValue v))) es
    | some .other, _, description, values => detailed? description values es
    | _, _, _, _ => none

/-- A field specification: a text, or a mapping with a description and values. -/
def readFieldSpec : Reader FieldSpec := fun v =>
  if holdsTag v then .error .taggedFieldSpec
  else match v with
    | .string s => .ok (.described s)
    | .mapping entries =>
      match detailed? none none entries with
      | some spec => .ok spec
      | none => .error .noFieldSpec
    | _ => .error .noFieldSpec

/-! ### Documents -/

/-- The tileset. -/
def readTileset : Reader Tileset :=
  readRecord "Tileset"
    [.of "layers" (readList readText) fun t x => { t with layers := x },
      .of "name" readText fun t x => { t with name := x },
      .of "description" readText fun t x => { t with description := x },
      .of "version" readText fun t x => { t with version := x },
      .of "attribution" readText fun t x => { t with attribution := x },
      .of "languages" (readList readText) fun t x => { t with languages := x }]
    [] {}

/-- The tileset of a root document. -/
def readTilesetDocument : Reader Tileset :=
  readRecord "TilesetDocument" [.of "tileset" readTileset fun _ x => x] ["tileset"] {}

/-- A layer. -/
def readLayer : Reader Layer :=
  readRecord "Layer"
    [.of "id" readText fun l x => { l with id := x },
      .of "description" readText fun l x => { l with description := x },
      .of "buffer_size" readNumber fun l x => { l with bufferSize := x },
      .of "fields" (readDict readFieldSpec) fun l x => { l with fields := x }]
    ["id"] {}

/-- A data source. -/
def readDatasource : Reader Datasource :=
  readRecord "Datasource"
    [.of "type" readText fun d x => { d with kind := x },
      .of "mapping_file" (readOptional readText) fun d x => { d with mappingFile := x }]
    ["type"] {}

/-- A layer document. -/
def readLayerDocument : Reader LayerDocument :=
  readRecord "LayerDocument"
    [.of "layer" readLayer fun d x => { d with layer := x },
      .of "datasources" (readList readDatasource) fun d x => { d with datasources := x }]
    ["layer"] {}

/-- A column. -/
def readColumn : Reader Column :=
  readRecord "ColumnConfig"
    [.of "type" readText fun c x => { c with kind := x },
      .of "name" readText fun c x => { c with name := x },
      .of "key" (readOptional readText) fun c x => { c with key := x },
      .of "from_member" readBool fun c x => { c with fromMember := x }]
    ["type", "name"] {}

/-- The restrictions of a table. -/
def readRestrictions : Reader Restrictions :=
  readRecord "FiltersConfig"
    [.of "require" (readOptional readFilter) fun r x => { r with require := x },
      .of "reject" (readOptional readFilter) fun r x => { r with reject := x }]
    [] {}

/-- A table. -/
def readTable : Reader TableSpec :=
  readRecord "TableConfig"
    [.of "type" readText fun t x => { t with kind := x },
      .of "columns" (readList readColumn) fun t x => { t with columns := x },
      .of "mapping" (readOptional readFilter) fun t x => { t with mapping := x },
      .of "type_mappings" (readOptional (readDict readFilter)) fun t x =>
        { t with typeMappings := x },
      .of "filters" (readOptional readRestrictions) fun t x => { t with filters := x }]
    ["type"] {}

/-- The tables of a mapping document. -/
def readTables : Reader (Dict TableSpec) := readDict readTable

/-- A mapping document. -/
def readMappingDocument : Reader (Dict TableSpec) :=
  readRecord "MappingDocument" [.of "tables" readTables fun _ x => x] [] .empty

end TileSchema
