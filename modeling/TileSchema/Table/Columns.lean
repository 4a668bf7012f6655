import TileSchema.Schema.Error
import TileSchema.Schema.Model

/-!
# From columns to fields

The columns of a table say how a database would hold its rows.  Columns that hold what the element
shows anyway, such as its id and geometry, become no field.  Every other column becomes one field,
by its kind; some kinds need to know the key of a tag.  The source element comes last.

A field name has one type in the whole schema.  The types are registered table by table, in the
order in which the names first come.  A field with another type than the one registered is an
error, and what was registered in front of it stays.
-/

namespace TileSchema.Table

/-- What the kind of a column asks for. -/
inductive ColumnKind where
  /-- No field. -/
  | structural
  /-- A field that needs no key. -/
  | plain (type : FieldType) (extraction : Extraction)
  /-- A field that is read from the tag of a key. -/
  | keyed (type : FieldType) (extraction : String → Extraction)

/-- The kinds of columns by name. -/
def columnKind? (kind : String) : Option ColumnKind :=
  match kind with
  | "id" | "validated_geometry" | "area" | "hstore_tags" | "geometry" => some .structural
  | "member_id" | "member_role" | "member_type" | "member_index" => some .structural
  | "mapping_key" => some (.plain .string .mappingKey)
  | "mapping_value" => some (.plain .string .mappingValue)
  | "string" => some (.keyed .string .attribute)
  | "bool" => some (.keyed .boolean .attributeAsBool)
  | "integer" => some (.keyed .integer .attributeAsInt)
  | "wayzorder" => some (.plain .integer .wayZOrder)
  | "direction" => some (.keyed .integer .direction)
  | _ => none

/-- The field of a column of a table, if it becomes one. -/
def columnField (table : String) (c : Column) : Except SchemaError (Option Field) :=
  match columnKind? c.kind with
  | none => .error (.unsupportedColumnKind table c.name c.kind)
  | some .structural => .ok none
  | some (.plain type extraction) => .ok (some ⟨type, c.name, extraction⟩)
  | some (.keyed type extraction) =>
    match c.key with
    | none => .error (.missingColumnKey table c.name c.kind)
    | some key => .ok (some ⟨type, c.name, extraction key⟩)

/-- The fields of columns in order. -/
def columnFields (table : String) : List Column → Except SchemaError (List Field)
  | [] => .ok []
  | c :: cs => do
    let field ← columnField table c
    let rest ← columnFields table cs
    return field.toList ++ rest

/-- The columns that count: in a table of relation members, those of the members do not. -/
def relevantColumns (t : TableSpec) : List Column :=
  t.columns.filter fun c => !(t.isRelationMember && c.fromMember)

/-- The fields of a row of a table, the source element at the end. -/
def fields (table : String) (t : TableSpec) : Except SchemaError (List Field) :=
  (columnFields table (relevantColumns t)).map (· ++ [Field.source])

/-! ### The types of all fields -/

/-- The type of each field name, in the order of registration. -/
structure FieldTypes where
  entries : List (String × FieldType)
  deriving Repr, DecidableEq

namespace FieldTypes

/-- No names yet. -/
def empty : FieldTypes := ⟨[]⟩

/-- The type of a name. -/
def get? (types : FieldTypes) (name : String) : Option FieldType := types.entries.lookup name

/-- The number of names. -/
def size (types : FieldTypes) : Nat := types.entries.length

/-- The types after the fields of a table have been registered, and the error if one of them has
another type already. -/
def register (table : String) (types : FieldTypes) :
    List Field → FieldTypes × Except SchemaError Unit
  | [] => (types, .ok ())
  | f :: fs =>
    match types.get? f.name with
    | some existing =>
      if existing = f.type then register table types fs
      else (types, .error (.conflictingFieldType f.name existing f.type table))
    | none => register table ⟨types.entries ++ [(f.name, f.type)]⟩ fs

end FieldTypes

end TileSchema.Table
