import TileSchema.Artifact.Render
import TileSchema.Proofs.Manifest.Reading

/-!
# The schema that a manifest describes

The decoders go the way back from a document to what it was made from: an alternative is told by
the name of the one member of its object, or by the name alone, and a record by looking up the names
of its members.

A manifest leaves out one thing only.  All sizes that are not finite are null in it, so they come
back as one and the same size (`decode?_text`), and two schemas have one manifest exactly if they
differ in such sizes only (`text_eq_iff`).
-/

namespace TileSchema.Manifest

open Artifact (ArtifactSet LayerArtifact LayerField)
open TileSchema.Filter (Expression)
open Table (Compiled Extraction Field FieldType FieldTypes RowTarget)

variable {α β : Type}

/-! ### Documents by their form -/

/-- The string that a document is. -/
def string? : Json → Option String
  | .string s => some s
  | _ => none

/-- The items of the array that a document is, each of them decoded. -/
def list? (decode : Json → Option α) : Json → Option (List α)
  | .array items => items.mapM decode
  | _ => none

/-- A member of the object that a document is, decoded. -/
def member? (name : String) (decode : Json → Option α) : Json → Option α
  | .object members => (members.lookup name).bind decode
  | _ => none

/-- The strings of the array that a document is. -/
def texts? (j : Json) : Option (List String) := list? string? j

/-- The number that a document is, where null stands for one that is not finite. -/
def number? : Json → Option Float
  | .number x => some x
  | .null => some Float.nan
  | _ => none

/-! ### Parts of a schema -/

/-- A set of texts, which come in some order and without repetition. -/
def textSet? (j : Json) : Option Ordered.TextSet := do
  let texts ← texts? j
  if h : texts.Nodup then some ⟨texts, h⟩ else none

mutual

/-- The expression that a document describes. -/
def expression? : Json → Option Expression
  | .object [("and", .array items)] => (members? items).map (.group .and)
  | .object [("or", .array items)] => (members? items).map (.group .or)
  | .object [("not", j)] => (expression? j).map .not
  | .object [("match_field", .string key)] => some (.matchField key)
  | .object [("match_any", .array [.string key, j])] => (textSet? j).map (.matchAny key)
  | .object [("match_type", .string kind)] => some (.matchType kind)
  | _ => none

/-- The members of a group. -/
def members? : List Json → Option (List Expression)
  | [] => some []
  | j :: items => do
    let e ← expression? j
    let es ← members? items
    some (e :: es)

end

/-- The rule that a document describes. -/
def rule? (decodeResult : Json → Option α) (j : Json) : Option (Rule α) := do
  let expression ← member? "expression" expression? j
  let result ← member? "result" decodeResult j
  some ⟨expression, result⟩

/-- The index of rules that a document describes. -/
def index? (decodeResult : Json → Option α) (j : Json) : Option (RuleIndex α) :=
  (list? (rule? decodeResult) j).map .mk

/-- The type of a field. -/
def type? : Json → Option FieldType
  | .string "String" => some .string
  | .string "Boolean" => some .boolean
  | .string "Integer" => some .integer
  | .string "RawElement" => some .rawElement
  | _ => none

/-- The way in which a field is read. -/
def extraction? : Json → Option Extraction
  | .object [("attribute", .string key)] => some (.attribute key)
  | .object [("attribute_as_bool", .string key)] => some (.attributeAsBool key)
  | .object [("attribute_as_int", .string key)] => some (.attributeAsInt key)
  | .object [("direction", .string key)] => some (.direction key)
  | .string "way_z_order" => some .wayZOrder
  | .string "mapping_key" => some .mappingKey
  | .string "mapping_value" => some .mappingValue
  | .string "source_element" => some .sourceElement
  | _ => none

/-- The field of a row. -/
def field? (j : Json) : Option Field := do
  let type ← member? "declared_type" type? j
  let name ← member? "name" string? j
  let extraction ← member? "extraction" extraction? j
  some ⟨type, name, extraction⟩

/-- The table that a document describes. -/
def table? (j : Json) : Option Compiled := do
  let key ← member? "key" string? j
  let tableName ← member? "table_name" string? j
  let rowType ← member? "row_type" string? j
  let kind ← member? "table_type" string? j
  let expression ← member? "expression" expression? j
  let fields ← member? "fields" (list? field?) j
  some ⟨key, tableName, rowType, kind, expression, fields⟩

/-- The row of a table. -/
def target? (j : Json) : Option RowTarget := do
  let table ← member? "table" string? j
  let rowType ← member? "row_type" string? j
  some ⟨table, rowType⟩

/-- The types of all fields. -/
def fieldTypes? : Json → Option FieldTypes
  | .object members =>
    (members.mapM fun m => (type? m.2).map fun type => (m.1, type)).map .mk
  | _ => none

/-- The rules of a field, or null for a field without them. -/
def mapping? : Json → Option (Option (RuleIndex String))
  | .null => some none
  | j => (index? string? j).map some

/-- The field of a layer. -/
def layerField? (j : Json) : Option LayerField := do
  let name ← member? "name" string? j
  let description ← member? "description" string? j
  let allowedValues ← member? "allowed_values" texts? j
  let mapping ← member? "mapping" mapping? j
  some ⟨name, description, allowedValues, mapping⟩

/-- The layer that a document describes. -/
def layer? (j : Json) : Option LayerArtifact := do
  let id ← member? "id" string? j
  let description ← member? "description" string? j
  let bufferSize ← member? "buffer_size" number? j
  let fields ← member? "fields" (list? layerField?) j
  some ⟨id, description, bufferSize, fields⟩

/-- The tileset as a whole. -/
def tileset? (j : Json) : Option Tileset := do
  let layers ← member? "layers" texts? j
  let name ← member? "name" string? j
  let description ← member? "description" string? j
  let version ← member? "version" string? j
  let attribution ← member? "attribution" string? j
  let languages ← member? "languages" texts? j
  some ⟨layers, name, description, version, attribution, languages⟩

/-- The schema that a document describes. -/
def artifacts? (j : Json) : Option ArtifactSet := do
  let source ← member? "source" string? j
  let tileset ← member? "tileset" tileset? j
  let layers ← member? "layers" (list? layer?) j
  let tables ← member? "tables" (list? table?) j
  let fieldTypes ← member? "field_types" fieldTypes? j
  let rowIndex ← member? "row_index" (index? target?) j
  some ⟨source, tileset, layers, tables, fieldTypes, rowIndex⟩

/-- The schema that the text of a manifest describes. -/
def decode? (s : String) : Option ArtifactSet := do
  let j ← Json.read? s
  artifacts? j

/-! ### Parts decoded -/

theorem mapM_map {γ : Type} {encode : β → γ} {decode : γ → Option α} {f : β → α} {xs : List β}
    (h : ∀ x ∈ xs, decode (encode x) = some (f x)) :
    (xs.map encode).mapM decode = some (xs.map f) := by
  induction xs with
  | nil => rfl
  | cons x xs ih =>
    rw [List.forall_mem_cons] at h
    rw [List.map_cons, List.mapM_cons, h.1, ih h.2]
    rfl

/-- Items that are decoded as what they were made from are an array that is decoded so, too. -/
theorem list?_map_id {encode : α → Json} {decode : Json → Option α}
    (h : ∀ x, decode (encode x) = some x) (xs : List α) :
    list? decode (.array (xs.map encode)) = some xs := by
  have hlist : (xs.map encode).mapM decode = some (xs.map id) := mapM_map fun x _ => h x
  rw [list?, hlist, List.map_id]

theorem member?_cons_self (name : String) (decode : Json → Option α) (j : Json)
    (members : List (String × Json)) :
    member? name decode (.object ((name, j) :: members)) = decode j := by
  simp [member?]

theorem member?_cons_of_ne {name other : String} (h : name ≠ other) (decode : Json → Option α)
    (j : Json) (members : List (String × Json)) :
    member? name decode (.object ((other, j) :: members)) =
      member? name decode (.object members) := by
  simp only [member?, List.lookup_cons, beq_false_of_ne h]

theorem string?_string (s : String) : string? (.string s) = some s := rfl

theorem texts?_encodeTexts (texts : List String) : texts? (encodeTexts texts) = some texts :=
  list?_map_id string?_string texts

theorem textSet?_encodeTexts (texts : Ordered.TextSet) :
    textSet? (encodeTexts texts.toList) = some texts := by
  rw [textSet?, texts?_encodeTexts, Option.bind_eq_bind, Option.bind_some, dif_pos texts.nodup]

mutual

theorem expression?_encodeExpression : ∀ e : Expression, expression? (encodeExpression e) = some e
  | .group .and es => by
    rw [encodeExpression]
    simp only [variant, Filter.Connective.word, expression?, members?_encodeMembers es,
      Option.map_some]
  | .group .or es => by
    rw [encodeExpression]
    simp only [variant, Filter.Connective.word, expression?, members?_encodeMembers es,
      Option.map_some]
  | .not e => by
    rw [encodeExpression]
    simp only [variant, expression?, expression?_encodeExpression e, Option.map_some]
  | .matchField key => by
    rw [encodeExpression]
    simp only [variant, expression?]
  | .matchAny key values => by
    rw [encodeExpression]
    simp only [variant, expression?, textSet?_encodeTexts, Option.map_some]
  | .matchType kind => by
    rw [encodeExpression]
    simp only [variant, expression?]

theorem members?_encodeMembers : ∀ es : List Expression, members? (encodeMembers es) = some es
  | [] => by rw [encodeMembers, members?]
  | e :: es => by
    rw [encodeMembers, members?, expression?_encodeExpression e, members?_encodeMembers es]
    rfl

end

theorem rule?_encode {encodeResult : α → Json} {decodeResult : Json → Option α}
    (h : ∀ x, decodeResult (encodeResult x) = some x) (r : Rule α) :
    rule? decodeResult (.object [("expression", encodeExpression r.expression),
      ("result", encodeResult r.result)]) = some r := by
  simp [rule?, member?_cons_self, member?_cons_of_ne, expression?_encodeExpression, h]

theorem index?_encodeIndex {encodeResult : α → Json} {decodeResult : Json → Option α}
    (h : ∀ x, decodeResult (encodeResult x) = some x) (index : RuleIndex α) :
    index? decodeResult (encodeIndex encodeResult index) = some index := by
  rw [index?, encodeIndex, list?_map_id (rule?_encode h)]
  rfl

theorem type?_name (type : FieldType) : type? (.string type.name) = some type := by
  cases type <;> rfl

theorem extraction?_encodeExtraction (e : Extraction) :
    extraction? (encodeExtraction e) = some e := by
  cases e <;> rfl

theorem field?_encodeField (f : Field) : field? (encodeField f) = some f := by
  simp [field?, encodeField, member?_cons_self, member?_cons_of_ne, type?_name, string?,
    extraction?_encodeExtraction]

theorem table?_encodeTable (t : Compiled) : table? (encodeTable t) = some t := by
  simp [table?, encodeTable, member?_cons_self, member?_cons_of_ne, string?,
    expression?_encodeExpression, list?_map_id field?_encodeField]

theorem target?_encodeTarget (r : RowTarget) : target? (encodeTarget r) = some r := by
  simp [target?, encodeTarget, member?_cons_self, member?_cons_of_ne, string?]

theorem fieldTypes?_encodeFieldTypes (types : FieldTypes) :
    fieldTypes? (encodeFieldTypes types) = some types := by
  have hentries : (types.entries.map fun e => (e.1, Json.string e.2.name)).mapM
      (fun m => (type? m.2).map fun type => (m.1, type)) = some (types.entries.map id) :=
    mapM_map fun e _ => by rw [type?_name]; rfl
  rw [encodeFieldTypes, fieldTypes?, hentries, List.map_id]
  rfl

theorem mapping?_encodeIndex (index : RuleIndex String) :
    mapping? (encodeIndex .string index) = some (some index) := by
  have hindex : index? string? (encodeIndex .string index) = some index :=
    index?_encodeIndex string?_string index
  simp only [mapping?, encodeIndex] at hindex ⊢
  rw [hindex]
  rfl

theorem layerField?_encodeLayerField (f : LayerField) :
    layerField? (encodeLayerField f) = some f := by
  obtain ⟨name, description, allowedValues, mapping⟩ := f
  cases mapping with
  | none =>
    simp [layerField?, encodeLayerField, member?_cons_self, member?_cons_of_ne, string?,
      texts?_encodeTexts, mapping?]
  | some index =>
    simp [layerField?, encodeLayerField, member?_cons_self, member?_cons_of_ne, string?,
      texts?_encodeTexts, mapping?_encodeIndex]

/-! ### Schemas decoded -/

/-- A size as a manifest tells it, one for all that are not finite. -/
def toldSize (x : Float) : Float := if Decimal.isFinite x then x else Float.nan

/-- A layer as a manifest tells it. -/
def toldLayer (l : LayerArtifact) : LayerArtifact := { l with bufferSize := toldSize l.bufferSize }

/-- A schema as a manifest tells it. -/
def told (a : ArtifactSet) : ArtifactSet := { a with layers := a.layers.map toldLayer }

theorem number?_encodeNumber (x : Float) :
    number? (encodeNumber x) = some (toldSize x) := by
  rw [encodeNumber, toldSize]
  split <;> rfl

theorem layer?_encodeLayer (l : LayerArtifact) : layer? (encodeLayer l) = some (toldLayer l) := by
  simp [layer?, encodeLayer, member?_cons_self, member?_cons_of_ne, string?,
    number?_encodeNumber, list?_map_id layerField?_encodeLayerField, toldLayer]

theorem tileset?_encodeTileset (t : Tileset) : tileset? (encodeTileset t) = some t := by
  simp [tileset?, encodeTileset, member?_cons_self, member?_cons_of_ne, string?,
    texts?_encodeTexts]

theorem artifacts?_encode (a : ArtifactSet) : artifacts? (encode a) = some (told a) := by
  have hlayers : list? layer? (.array (a.layers.map encodeLayer)) =
      some (a.layers.map toldLayer) := mapM_map fun l _ => layer?_encodeLayer l
  simp [artifacts?, encode, member?_cons_self, member?_cons_of_ne, string?,
    tileset?_encodeTileset, hlayers, list?_map_id table?_encodeTable,
    fieldTypes?_encodeFieldTypes, index?_encodeIndex target?_encodeTarget, told]

/-! ### Manifests have finite numbers -/

theorem hasNumbers_encodeTexts (texts : List String) : (encodeTexts texts).HasNumbers := by
  simp [encodeTexts]

theorem hasNumbers_encodeNumber (x : Float) : (encodeNumber x).HasNumbers := by
  unfold encodeNumber
  split
  · next h => exact .number h
  · exact .null

mutual

theorem hasNumbers_encodeExpression : ∀ e : Expression, (encodeExpression e).HasNumbers
  | .group op es => by
    simpa [encodeExpression, variant] using hasNumbers_encodeMembers es
  | .not e => by
    simpa [encodeExpression, variant] using hasNumbers_encodeExpression e
  | .matchField key => by simp [encodeExpression, variant]
  | .matchAny key values => by simp [encodeExpression, variant, hasNumbers_encodeTexts]
  | .matchType kind => by simp [encodeExpression, variant]

theorem hasNumbers_encodeMembers : ∀ es : List Expression, ∀ j ∈ encodeMembers es, j.HasNumbers
  | [] => by simp [encodeMembers]
  | e :: es => by
    rw [encodeMembers, List.forall_mem_cons]
    exact ⟨hasNumbers_encodeExpression e, hasNumbers_encodeMembers es⟩

end

theorem hasNumbers_encodeIndex {encodeResult : α → Json} (h : ∀ x, (encodeResult x).HasNumbers)
    (index : RuleIndex α) : (encodeIndex encodeResult index).HasNumbers := by
  simp [encodeIndex, hasNumbers_encodeExpression, h]

theorem hasNumbers_encodeField (f : Field) : (encodeField f).HasNumbers := by
  have hextraction : (encodeExtraction f.extraction).HasNumbers := by
    cases f.extraction <;> simp [encodeExtraction, variant]
  simp [encodeField, hextraction]

theorem hasNumbers_encodeTable (t : Compiled) : (encodeTable t).HasNumbers := by
  simp [encodeTable, hasNumbers_encodeExpression, hasNumbers_encodeField]

theorem hasNumbers_encodeLayerField (f : LayerField) : (encodeLayerField f).HasNumbers := by
  have hindex : ∀ index, (encodeIndex Json.string index).HasNumbers :=
    hasNumbers_encodeIndex Json.HasNumbers.string
  obtain ⟨name, description, allowedValues, mapping⟩ := f
  cases mapping <;> simp [encodeLayerField, hasNumbers_encodeTexts, hindex]

theorem hasNumbers_encodeLayer (l : LayerArtifact) : (encodeLayer l).HasNumbers := by
  simp [encodeLayer, hasNumbers_encodeNumber, hasNumbers_encodeLayerField]

theorem hasNumbers_encodeFieldTypes (types : FieldTypes) :
    (encodeFieldTypes types).HasNumbers := by
  rw [encodeFieldTypes, Json.hasNumbers_object, List.forall_mem_map]
  exact fun e _ => .string e.2.name

theorem hasNumbers_encode (a : ArtifactSet) : (encode a).HasNumbers := by
  have hindex : (encodeIndex encodeTarget a.rowIndex).HasNumbers :=
    hasNumbers_encodeIndex (fun r => by simp [encodeTarget]) a.rowIndex
  simp [encode, encodeTileset, hasNumbers_encodeFieldTypes, hasNumbers_encodeTexts,
    hasNumbers_encodeLayer, hasNumbers_encodeTable, hindex]

/-! ### Manifests and schemas -/

/-- Two layers are the same, or differ in their sizes only, neither of which is finite. -/
structure SameButSize (l m : LayerArtifact) : Prop where
  id : l.id = m.id
  description : l.description = m.description
  bufferSize : l.bufferSize = m.bufferSize ∨
    Decimal.isFinite l.bufferSize = false ∧ Decimal.isFinite m.bufferSize = false
  fields : l.fields = m.fields

/-- Two schemas are the same, but for sizes that are not finite. -/
structure SameButSizes (a b : ArtifactSet) : Prop where
  source : a.source = b.source
  tileset : a.tileset = b.tileset
  layers : List.Forall₂ SameButSize a.layers b.layers
  tables : a.tables = b.tables
  fieldTypes : a.fieldTypes = b.fieldTypes
  rowIndex : a.rowIndex = b.rowIndex

theorem decode?_text (a : ArtifactSet) : decode? (text a) = some (told a) := by
  rw [decode?, text, Json.read?_text (hasNumbers_encode a), Option.bind_eq_bind, Option.bind_some,
    artifacts?_encode]

theorem told_of_isFinite {a : ArtifactSet}
    (h : ∀ l ∈ a.layers, Decimal.isFinite l.bufferSize = true) : told a = a := by
  have hlayers : a.layers.map toldLayer = a.layers.map id :=
    List.map_congr_left fun l hl => by rw [toldLayer, toldSize, if_pos (h l hl), id]
  rw [told, hlayers, List.map_id]

theorem toldSize_eq_iff {x y : Float} : toldSize x = toldSize y ↔
    x = y ∨ Decimal.isFinite x = false ∧ Decimal.isFinite y = false := by
  have hnan : Decimal.isFinite Float.nan = false := by decide
  unfold toldSize
  constructor
  · intro h
    cases hx : Decimal.isFinite x <;> cases hy : Decimal.isFinite y <;>
      simp only [hx, hy, if_true, Bool.false_eq_true, if_false] at h
    · exact .inr ⟨rfl, rfl⟩
    · simp [← h, hnan] at hy
    · simp [h, hnan] at hx
    · exact .inl h
  · rintro (rfl | ⟨hx, hy⟩)
    · rfl
    · simp [hx, hy]

theorem toldLayer_eq_iff {l m : LayerArtifact} : toldLayer l = toldLayer m ↔ SameButSize l m := by
  rw [toldLayer, toldLayer, LayerArtifact.mk.injEq, toldSize_eq_iff]
  exact ⟨fun ⟨hid, hdescription, hsize, hfields⟩ => ⟨hid, hdescription, hsize, hfields⟩,
    fun ⟨hid, hdescription, hsize, hfields⟩ => ⟨hid, hdescription, hsize, hfields⟩⟩

theorem told_eq_iff {a b : ArtifactSet} : told a = told b ↔ SameButSizes a b := by
  have hlayers : a.layers.map toldLayer = b.layers.map toldLayer ↔
      List.Forall₂ SameButSize a.layers b.layers := by
    simp only [← List.forall₂_eq_eq_eq, List.forall₂_map_left_iff, List.forall₂_map_right_iff,
      toldLayer_eq_iff]
  rw [told, told, ArtifactSet.mk.injEq, hlayers]
  exact ⟨fun ⟨h₁, h₂, h₃, h₄, h₅, h₆⟩ => ⟨h₁, h₂, h₃, h₄, h₅, h₆⟩,
    fun ⟨h₁, h₂, h₃, h₄, h₅, h₆⟩ => ⟨h₁, h₂, h₃, h₄, h₅, h₆⟩⟩

/-- What is not told does not show. -/
theorem text_told (a : ArtifactSet) : text (told a) = text a := by
  have hnumber : ∀ x, encodeNumber (toldSize x) = encodeNumber x := by
    intro x
    cases hx : Decimal.isFinite x
    · have hnan : Decimal.isFinite Float.nan = false := by decide
      simp [encodeNumber, toldSize, hx, hnan]
    · simp [toldSize, hx]
  have hlayer : encodeLayer ∘ toldLayer = encodeLayer :=
    funext fun l => by simp [encodeLayer, toldLayer, hnumber]
  simp [text, encode, told, hlayer]

/-- Two schemas have one manifest if they are the same, but for sizes that are not finite. -/
theorem text_eq_iff {a b : ArtifactSet} : text a = text b ↔ SameButSizes a b := by
  rw [← told_eq_iff]
  constructor
  · intro h
    have hdecode : some (told a) = some (told b) := by rw [← decode?_text, h, decode?_text]
    exact Option.some.inj hdecode
  · intro h
    rw [← text_told a, h, text_told b]

/-- The manifest of a schema determines the schema, if its sizes are finite, and else all of it but
the sizes that are not. -/
theorem manifest_determines (a : ArtifactSet) :
    ∃ contents, (Artifact.render .manifest a).result = .ok [⟨"schema.json", contents⟩] ∧
      ((∀ l ∈ a.layers, Decimal.isFinite l.bufferSize = true) → decode? contents = some a) ∧
      ∀ b, (Artifact.render .manifest b).result = .ok [⟨"schema.json", contents⟩] ↔
        SameButSizes a b := by
  have hrender : ∀ b, (Artifact.render .manifest b).result =
      .ok [⟨"schema.json", text b⟩] := fun b => rfl
  refine ⟨text a, hrender a, fun h => ?_, fun b => ?_⟩
  · rw [decode?_text, told_of_isFinite h]
  · rw [hrender b, ← text_eq_iff]
    simp [eq_comm]

/-- A schema with one layer, whose only field takes its value from the tags. -/
def roads : ArtifactSet where
  source := "v1"
  tileset := { layers := ["roads"], name := "Roads" }
  layers := [⟨"roads", "Roads of all kinds", 4.0, [⟨"kind", "The \"kind\" of road", ["path"],
    some ⟨[⟨.not (.group .or [.matchField "area", .matchAny "highway" (.ofList ["steps"])]),
      "path"⟩]⟩⟩]⟩]
  tables := []
  fieldTypes := .empty
  rowIndex := ⟨[]⟩

theorem manifest_determines_roads :
    (∀ l ∈ roads.layers, Decimal.isFinite l.bufferSize = true) ∧
      decode? (text roads) = some roads := by
  have hfinite : ∀ l ∈ roads.layers, Decimal.isFinite l.bufferSize = true := by
    intro l hl
    rw [List.mem_singleton.mp hl]
    decide
  obtain ⟨contents, hrender, hdecode, -⟩ := manifest_determines roads
  have hcontents : text roads = contents := by
    simpa [Artifact.render, Artifact.renderManifest] using hrender
  exact ⟨hfinite, hcontents ▸ hdecode hfinite⟩

end TileSchema.Manifest
