import Mathlib.Data.List.Forall2
import TileSchema.Proofs.Ordered.FirstPlace
import TileSchema.Schema.Crawl

/-!
# What a crawl collects

A crawl that succeeds has asked for the tileset, for the document of every layer listed and then for
every mapping document that those refer to, each of the latter once, at the place of its first
reference.  The schema is what these documents say: `crawlLayers_yields` and `crawlTables_yields`
follow the two loops, and say what they have read, what they have asked for and what came of it.

The tables are put into one dictionary in the order of the mapping documents.  Hence a table has the
place of the first document that defines it, and the definition of the last.
`crawl_collects_in_order` puts these together.
-/

namespace TileSchema

open Ordered (Dict)

/-! ### Runs -/

namespace Traced

variable {ε α β : Type} {asked asked₁ asked₂ : List String} {x : α} {y : β}

/-- A run has a result, and has asked for these documents. -/
structure Yields (a : Traced ε α) (asked : List String) (x : α) : Prop where
  result_eq : a.result = .ok x
  requests_eq : requests a.events = asked

/-- What a sequence of steps yields, step by step. -/
theorem yields_bind_iff {a : Traced ε α} {f : α → Traced ε β} :
    (a >>= f).Yields asked y ↔
      ∃ x asked₁ asked₂, a.Yields asked₁ x ∧ (f x).Yields asked₂ y ∧ asked = asked₁ ++ asked₂ := by
  have hbind : (a >>= f) = andThen a f := rfl
  rw [hbind, andThen]
  cases hresult : a.result with
  | error e =>
    constructor
    · intro h
      exact absurd h.result_eq nofun
    · rintro ⟨x, _, _, hx, -⟩
      rw [hx.result_eq] at hresult
      cases hresult
  | ok x =>
    constructor
    · intro h
      refine ⟨x, _, _, ⟨hresult, rfl⟩, ⟨h.result_eq, rfl⟩, ?_⟩
      rw [← h.requests_eq]
      exact List.filterMap_append
    · rintro ⟨x', asked₁, asked₂, hx, hy, rfl⟩
      obtain rfl : x = x' := Except.ok.inj (hresult.symm.trans hx.result_eq)
      refine ⟨hy.result_eq, ?_⟩
      rw [← hx.requests_eq, ← hy.requests_eq]
      exact List.filterMap_append

/-- Two steps, each with what it yields. -/
theorem Yields.bind {a : Traced ε α} {f : α → Traced ε β} (hx : a.Yields asked₁ x)
    (hy : (f x).Yields asked₂ y) : (a >>= f).Yields (asked₁ ++ asked₂) y :=
  yields_bind_iff.mpr ⟨x, asked₁, asked₂, hx, hy, rfl⟩

/-- A run yields one thing. -/
theorem Yields.unique {a : Traced ε α} {x' : α} (h : a.Yields asked x) (h' : a.Yields asked₁ x') :
    asked = asked₁ ∧ x = x' :=
  ⟨h.requests_eq.symm.trans h'.requests_eq, Except.ok.inj (h.result_eq.symm.trans h'.result_eq)⟩

theorem yields_pure (x : α) : (pure x : Traced ε α).Yields [] x := ⟨rfl, rfl⟩

/-- A report asks for nothing. -/
theorem yields_report (level : Level) (message : String) :
    (report level message : Traced ε Unit).Yields [] () := ⟨rfl, rfl⟩

end Traced

/-- Asking for a document that can be read. -/
theorem Source.yields_load_iff {α : Type} {source : Source} {reader : Reader α}
    {reference : String} {asked : List String} {x : α} :
    (source.load reader reference).Yields asked x ↔
      source.read reader reference = .ok x ∧ asked = [reference] := by
  have hrequests : Traced.requests (source.load reader reference).events = [reference] := by
    simp [Source.load, Traced.requests, List.filterMap_map]
  constructor
  · intro h
    exact ⟨h.result_eq, h.requests_eq.symm.trans hrequests⟩
  · rintro ⟨hx, rfl⟩
    exact ⟨hx, hrequests⟩

/-! ### Layers -/

/-- The mapping document that a data source refers to: the one it names, if it is of the mapped
kind. -/
def mappingFile? (layerFile : String) (d : Datasource) : Option String :=
  if d.kind = mappedKind then d.mappingFile.map (Reference.resolve layerFile) else none

/-- The references of a layer are found without asking for anything. -/
theorem mappingReferences_yields (layerFile : String) (ds : List Datasource) :
    (mappingReferences layerFile ds).Yields [] (ds.filterMap (mappingFile? layerFile)) := by
  induction ds with
  | nil => exact Traced.yields_pure _
  | cons d ds ih =>
    rw [mappingReferences]
    by_cases hkind : d.kind = mappedKind
    · rw [if_pos hkind]
      cases hfile : d.mappingFile with
      | none =>
        have hnone : mappingFile? layerFile d = none := by simp [mappingFile?, hfile]
        rw [List.filterMap_cons_none hnone]
        exact (Traced.yields_report _ _).bind ih
      | some file =>
        have hsome : mappingFile? layerFile d = some (Reference.resolve layerFile file) := by
          simp [mappingFile?, hkind, hfile]
        rw [List.filterMap_cons_some hsome]
        exact ih.bind (Traced.yields_pure _)
    · have hnone : mappingFile? layerFile d = none := by simp [mappingFile?, hkind]
      rw [if_neg hkind, List.filterMap_cons_none hnone]
      exact (Traced.yields_report _ _).bind ih

/-- The mapping documents that layers refer to, given their documents. -/
def mappingFiles (layerFiles : List String) (docs : List LayerDocument) : List String :=
  (layerFiles.zip docs).flatMap fun l => l.2.datasources.filterMap (mappingFile? l.1)

/-- The loop over the layers reads the document of each, in order, and collects the layers and the
references. -/
theorem crawlLayers_yields {source : Source} {files asked refs : List String} {layers : List Layer}
    (h : (crawlLayers source files).Yields asked (layers, refs)) :
    asked = files ∧ ∃ docs : List LayerDocument,
      List.Forall₂ (fun file doc => source.read readLayerDocument file = .ok doc) files docs ∧
      layers = docs.map LayerDocument.layer ∧ refs = mappingFiles files docs := by
  induction files generalizing asked layers refs with
  | nil =>
    obtain ⟨rfl, hpair⟩ := h.unique (Traced.yields_pure _)
    obtain ⟨rfl, rfl⟩ := Prod.mk.inj hpair
    exact ⟨rfl, [], .nil, rfl, rfl⟩
  | cons file files ih =>
    rw [crawlLayers] at h
    obtain ⟨doc, _, _, hload, hbehind, rfl⟩ := Traced.yields_bind_iff.mp h
    obtain ⟨hdoc, rfl⟩ := Source.yields_load_iff.mp hload
    obtain ⟨own, _, _, hown, hloop, rfl⟩ := Traced.yields_bind_iff.mp hbehind
    obtain ⟨rfl, rfl⟩ := hown.unique (mappingReferences_yields file doc.datasources)
    obtain ⟨⟨layers', refs'⟩, _, _, hrest, hpure, rfl⟩ := Traced.yields_bind_iff.mp hloop
    obtain ⟨rfl, docs, hdocs, rfl, rfl⟩ := ih hrest
    obtain ⟨rfl, hpair⟩ := hpure.unique (Traced.yields_pure _)
    obtain ⟨rfl, rfl⟩ := Prod.mk.inj hpair
    exact ⟨by simp, doc :: docs, .cons hdoc hdocs, rfl, rfl⟩

/-! ### Tables -/

/-- The loop over the mapping documents reads each, in order, and puts its tables into the
dictionary. -/
theorem crawlTables_yields {source : Source} {tables tables' : Dict TableSpec}
    {files asked : List String} (h : (crawlTables source tables files).Yields asked tables') :
    asked = files ∧ ∃ mappings : List (Dict TableSpec),
      List.Forall₂ (fun file m => source.read readMappingDocument file = .ok m) files mappings ∧
      tables' = mappings.foldl (fun d m => d.putAll m.entries) tables := by
  induction files generalizing tables asked with
  | nil =>
    obtain ⟨rfl, rfl⟩ := h.unique (Traced.yields_pure _)
    exact ⟨rfl, [], .nil, rfl⟩
  | cons file files ih =>
    rw [crawlTables] at h
    obtain ⟨m, _, _, hload, hrest, rfl⟩ := Traced.yields_bind_iff.mp h
    obtain ⟨hm, rfl⟩ := Source.yields_load_iff.mp hload
    obtain ⟨rfl, mappings, hmappings, rfl⟩ := ih hrest
    exact ⟨rfl, m :: mappings, .cons hm hmappings, rfl⟩

/-! ### Main result -/

/-- What a crawl from a root collects: the documents of the layers listed and the tables of the
mapping documents, which add up to a schema. -/
structure Collects (source : Source) (root : String) (docs : List LayerDocument)
    (mappings : List (Dict TableSpec)) (schema : Schema) : Prop where
  /-- The tileset is that of the root document. -/
  tileset_read : source.read readTilesetDocument root = .ok schema.tileset
  /-- There is one layer document for each listing, in order. -/
  layers_read : List.Forall₂ (fun file doc => source.read readLayerDocument file = .ok doc)
    schema.tileset.layers docs
  /-- The layers are those of the layer documents. -/
  layers_eq : schema.layers = docs.map LayerDocument.layer
  /-- There is one mapping document for each file referred to, in the order of first references. -/
  mappings_read : List.Forall₂ (fun file m => source.read readMappingDocument file = .ok m)
    (mappingFiles schema.tileset.layers docs).eraseDups mappings
  /-- The tables are named as in the mapping documents, in the order in which names first come. -/
  names_eq : schema.tables.names = (mappings.flatMap Dict.names).eraseDups
  /-- The definition of a table is that of the last mapping document which has one. -/
  get?_eq : ∀ name, schema.tables.get? name = mappings.reverse.findSome? (·.get? name)

/-- A crawl that succeeds collects the schema in order: the layers as they are listed, the mapping
documents as they are first referred to, and the tables as they first come, each with its last
definition.  It asks for the root, then for the document of each layer listed, and then for each
mapping document, once. -/
theorem crawl_collects_in_order {source : Source} {root : String} {schema : Schema}
    (h : (crawl source root).result = .ok schema) :
    ∃ docs mappings, Collects source root docs mappings schema ∧
      Traced.requests (crawl source root).events =
        root :: schema.tileset.layers ++ (mappingFiles schema.tileset.layers docs).eraseDups ∧
      (mappingFiles schema.tileset.layers docs).eraseDups.Nodup := by
  obtain ⟨asked, hyields⟩ : ∃ asked, (crawl source root).Yields asked schema := ⟨_, h, rfl⟩
  rw [hyields.requests_eq]
  rw [crawl] at hyields
  obtain ⟨tileset, _, _, hload, hbehind, rfl⟩ := Traced.yields_bind_iff.mp hyields
  obtain ⟨htileset, rfl⟩ := Source.yields_load_iff.mp hload
  obtain ⟨⟨layers, refs⟩, _, _, hlayers, hloop, rfl⟩ := Traced.yields_bind_iff.mp hbehind
  obtain ⟨rfl, docs, hdocs, rfl, rfl⟩ := crawlLayers_yields hlayers
  obtain ⟨tables, _, _, htables, hreport, rfl⟩ := Traced.yields_bind_iff.mp hloop
  obtain ⟨rfl, mappings, hmappings, rfl⟩ := crawlTables_yields htables
  obtain ⟨rfl, rfl⟩ := hreport.unique ((Traced.yields_report _ _).bind (Traced.yields_pure _))
  have hfiles : Ordered.distinct (mappingFiles tileset.layers docs) =
      (mappingFiles tileset.layers docs).eraseDups := Ordered.distinct_eq_eraseDups _
  have hnodup := Ordered.nodup_distinct (mappingFiles tileset.layers docs)
  rw [hfiles] at hmappings hnodup ⊢
  refine ⟨docs, mappings, ?_, by simp, hnodup⟩
  exact {
    tileset_read := htileset
    layers_read := hdocs
    layers_eq := rfl
    mappings_read := hmappings
    names_eq := (Dict.names_foldl_putAll .empty mappings).trans (Ordered.distinct_eq_eraseDups _)
    get?_eq := fun name => by
      rw [Dict.get?_foldl_putAll, Dict.get?_empty, Option.or_none] }

/-! ### A shared mapping document -/

section SharedMapping

open Yaml (Value)

/-- A mapping whose keys are texts. -/
def record (members : List (String × Value)) : Value :=
  .mapping (members.map fun m => (.string m.1, m.2))

/-- A table that has a kind and nothing else. -/
def tableOfKind (kind : String) : Value := record [("type", .string kind)]

/-- A layer document with these mapping documents. -/
def layerWith (id : String) (files : List String) : Value :=
  record [("layer", record [("id", .string id)]),
    ("datasources", .sequence (files.map fun file =>
      record [("type", .string mappedKind), ("mapping_file", .string file)]))]

/-- Two layers, the second of which refers to the mapping document of the first too.  Both mapping
documents define a table for areas. -/
def waterDocuments : List (String × Value) :=
  [(rootReference, record [("tileset",
      record [("layers", .sequence [.string "water/water.yaml", .string "river/river.yaml"])])]),
    ("water/water.yaml", layerWith "water" ["./mapping.yaml"]),
    ("river/river.yaml", layerWith "river" ["../water/mapping.yaml", "mapping.yaml"]),
    ("water/mapping.yaml", record [("tables",
      record [("areas", tableOfKind "polygon"), ("points", tableOfKind "point")])]),
    ("river/mapping.yaml", record [("tables",
      record [("lines", tableOfKind "linestring"), ("areas", tableOfKind "geometry")])])]

/-- Where these documents come from. -/
def waterSource : Source where
  fetch reference :=
    match waterDocuments.lookup reference with
    | some v => .ok v
    | none => .error (.read reference .absent)

theorem crawl_collects_in_order_shared_mapping :
    ∃ schema docs mappings, (crawl waterSource rootReference).result = .ok schema ∧
      Collects waterSource rootReference docs mappings schema ∧
      Traced.requests (crawl waterSource rootReference).events =
        ["openmaptiles.yaml", "water/water.yaml", "river/river.yaml", "water/mapping.yaml",
          "river/mapping.yaml"] ∧
      schema.tables.names = ["areas", "points", "lines"] ∧
      (schema.tables.get? "areas").map TableSpec.kind = some "geometry" := by
  obtain ⟨schema, h, hnames, hkind⟩ : ∃ schema,
      (crawl waterSource rootReference).result = .ok schema ∧
      schema.tables.names = ["areas", "points", "lines"] ∧
      (schema.tables.get? "areas").map TableSpec.kind = some "geometry" := ⟨_, rfl, rfl, rfl⟩
  obtain ⟨docs, mappings, hcollects, -, -⟩ := crawl_collects_in_order h
  exact ⟨schema, docs, mappings, h, hcollects, rfl, hnames, hkind⟩

end SharedMapping

end TileSchema
