import TileSchema.Proofs.Code.RowModule

/-!
# Row types and their dispatch

Four parts of the file of the rows run through the tables whose rows are built from elements: the
structures, the index of rows, the methods of subscribers and the branches of the dispatch.  The
index is made from the row index of the artifacts and the others from the tables themselves, but all
of them name the same row types in the order of the tables
(`row_types_dispatched_in_table_order`).
-/

namespace TileSchema.Code

open Artifact (ArtifactSet RenderedFile)
open Table (Compiled RowTarget rowOf)
open Text (snakeIdent)

variable {schema : Schema} {source : String} {a : ArtifactSet} {files : List RenderedFile}
  {m : RowModule}

/-! ### Names in the order of the tables -/

/-- The row types of a schema, in the order of its tables. -/
def rowTypeNames (schema : Schema) : List String :=
  (elementEntries schema).map fun t => (rowOf t.1).rowType

/-- The methods by which subscribers give their handlers, in the order of the tables. -/
def methodNames (schema : Schema) : List String :=
  (elementEntries schema).map fun t => snakeIdent (rowOf t.1).table

/-- The method by which a subscriber gives its handler of a row type. -/
def subscriberSignature (row : RowTarget) : Signature where
  method := snakeIdent row.table
  type := "Option<&dyn " ++ handlerTrait row.rowType ++ ">"

/-- The methods of subscribers as they are declared, in the order of the tables. -/
def subscriberSignatures (schema : Schema) : List Signature :=
  (elementEntries schema).map fun t => subscriberSignature (rowOf t.1)

/-- What depends on the row of a table alone is the same for the tables of the schema and for the
compiled ones. -/
theorem map_elementTables {α : Type} (g : RowTarget → α) (h : IsBuilt schema a) :
    (elementTables a.tables).map (fun t => g t.target) =
      (elementEntries schema).map fun t => g (rowOf t.1) := by
  have htargets := congrArg (List.map g) (map_target_elementTables h)
  rwa [List.map_map, List.map_map] at htargets

theorem map_rowType_elementTables (h : IsBuilt schema a) :
    (elementTables a.tables).map Compiled.rowType = rowTypeNames schema :=
  map_elementTables RowTarget.rowType h

theorem map_method_elementTables (h : IsBuilt schema a) :
    (elementTables a.tables).map (fun t => snakeIdent t.tableName) = methodNames schema :=
  map_elementTables (fun row => snakeIdent row.table) h

theorem map_signature_elementTables (h : IsBuilt schema a) :
    (elementTables a.tables).map (fun t => subscriberSignature t.target) =
      subscriberSignatures schema :=
  map_elementTables subscriberSignature h

/-! ### The four parts of the file -/

theorem structures_eq (source : String) (hb : IsBuilt schema a) (h : IsRowModule a m) :
    ((declarations (rowFileLines source m)).filterMap Declared.structure?).map
      StructureDeclaration.name = "RowConstructor" :: rowTypeNames schema := by
  rw [structures_rowFileLines source (hasNames_of_isRowModule hb h), h.rows,
    ← map_rowType_elementTables hb]
  simp [Function.comp_def, rowDeclaration]

theorem indexes_eq (source : String) (hb : IsBuilt schema a) (h : IsRowModule a m) :
    (declarations (rowFileLines source m)).filterMap Declared.index? =
      [⟨rowTypeNames schema, rowTypeNames schema, rowTypeNames schema⟩] := by
  have hentries : m.entries = rowTypeNames schema := by
    rw [h.entries, rules_rowIndex hb, List.map_map, ← map_rowType_elementTables hb]
    rfl
  rw [indexes_rowFileLines source (hasNames_of_isRowModule hb h), hentries]

theorem subscribers_eq (source : String) (hb : IsBuilt schema a) (h : IsRowModule a m) :
    ((declarations (rowFileLines source m)).filterMap Declared.trait?).filter
      (fun d => d.name = "TableSubscriber") = [⟨"TableSubscriber", subscriberSignatures schema⟩] := by
  have hsignatures : m.methods.map SubscriberMethod.signature = subscriberSignatures schema := by
    rw [h.methods, List.map_map, ← map_signature_elementTables hb]
    rfl
  have hmem : ⟨"TableSubscriber", subscriberSignatures schema⟩ ∈
      (declarations (rowFileLines source m)).filterMap Declared.trait? := by
    rw [traits_rowFileLines source (hasNames_of_isRowModule hb h), hsignatures]
    simp
  have honce := filter_traits_eq_singleton source hb h hmem
  exact honce

theorem dispatches_eq (source : String) (hb : IsBuilt schema a) (h : IsRowModule a m) :
    (declarations (rowFileLines source m)).filterMap Declared.dispatch? =
      [⟨methodNames schema, rowTypeNames schema, rowTypeNames schema⟩] := by
  rw [dispatches_rowFileLines source (hasNames_of_isRowModule hb h), h.branches,
    ← map_rowType_elementTables hb, ← map_method_elementTables hb]
  simp [Function.comp_def]

/-- The functions of the row types hold the expressions of the row index, in its order. -/
theorem expressions_eq (source : String) (hb : IsBuilt schema a) (h : IsRowModule a m) :
    ((declarations (rowFileLines source m)).filterMap Declared.functions?).map
      (fun d => (d.type, d.expressions)) =
        a.rowIndex.rules.map fun r => (r.result.rowType, [r.expression]) := by
  rw [functions_rowFileLines source (hasNames_of_isRowModule hb h), h.rows, rules_rowIndex hb]
  simp [Function.comp_def, rowDeclaration, Compiled.target]

/-- Every row type is dispatched once.  In the file of the rows the structures, the three places of
the entries of the index, the methods of subscribers and the branches of the dispatch run through the
tables that are not of relation members, in the order of the tables, each naming the row type or the
method of its table.  The row types are distinct, and so are the methods.  The expression of a row
type is that of its rule in the row index, whose rules lead to the rows of the same tables.

The declarations are read off the strings that are written as lines, so breaks inside a comment do not
count; the text of the file has the same declarations where no text of the schema leaves its comment
(`declarations_codeLines`). -/
theorem row_types_dispatched_in_table_order
    (hbuild : (Artifact.build schema source).result = .ok a)
    (hrender : (Artifact.render .code a).result = .ok files) :
    ∃ m, rowModule a = .ok m ∧ ⟨"tables.rs", unlines (rowFileLines a.source m)⟩ ∈ files ∧
      let ds := declarations (rowFileLines a.source m)
      (ds.filterMap Declared.structure?).map StructureDeclaration.name =
        "RowConstructor" :: rowTypeNames schema ∧
      ds.filterMap Declared.index? =
        [⟨rowTypeNames schema, rowTypeNames schema, rowTypeNames schema⟩] ∧
      (ds.filterMap Declared.trait?).filter (fun d => d.name = "TableSubscriber") =
        [⟨"TableSubscriber", subscriberSignatures schema⟩] ∧
      ds.filterMap Declared.dispatch? =
        [⟨methodNames schema, rowTypeNames schema, rowTypeNames schema⟩] ∧
      (rowTypeNames schema).Nodup ∧ (methodNames schema).Nodup ∧
      (ds.filterMap Declared.functions?).map (fun d => (d.type, d.expressions)) =
        a.rowIndex.rules.map (fun r => (r.result.rowType, [r.expression])) ∧
      a.rowIndex.rules.map Rule.result = (elementEntries schema).map fun t => rowOf t.1 := by
  have hb : IsBuilt schema a := isBuilt_of_build hbuild
  obtain ⟨m, hm, hfile⟩ := exists_rowModule_of_render hrender
  have h : IsRowModule a m := isRowModule_of_rowModule hm
  refine ⟨m, hm, hfile, structures_eq a.source hb h, indexes_eq a.source hb h,
    subscribers_eq a.source hb h, dispatches_eq a.source hb h, ?_, ?_,
    expressions_eq a.source hb h, ?_⟩
  · rw [← map_rowType_elementTables hb]
    exact h.types.nodup_rowTypes
  · rw [← map_method_elementTables hb]
    exact nodup_methods hb h
  · rw [rules_rowIndex hb, ← map_target_elementTables hb, List.map_map]
    rfl

/-- A schema with roads, members of routes and water areas. -/
def roadsAndWater : Schema where
  tileset := {}
  layers := []
  tables := ((Ordered.Dict.empty.put "roads"
      { kind := "linestring", mapping := some (.mapping [("highway", .scalar "primary")]) }).put
    "route_member" { kind := "relation_member",
                     mapping := some (.mapping [("route", .scalar "bus")]) }).put
    "water-area" { kind := "polygon", mapping := some (.mapping [("natural", .scalar "water")]) }

/-- Roads and water areas are dispatched, and the members of routes are not. -/
theorem row_types_dispatched_in_table_order_roads_and_water :
    ∃ a files m, (Artifact.build roadsAndWater "v1").result = .ok a ∧
      (Artifact.render .code a).result = .ok files ∧
      ⟨"tables.rs", unlines (rowFileLines a.source m)⟩ ∈ files ∧
      (declarations (rowFileLines a.source m)).filterMap Declared.dispatch? =
        [⟨["osm_roads", "osm_water_area"], ["OsmRoads", "OsmWaterArea"],
          ["OsmRoads", "OsmWaterArea"]⟩] := by
  obtain ⟨a, hbuild, hok⟩ : ∃ a, (Artifact.build roadsAndWater "v1").result = .ok a ∧
      (Artifact.render .code a).result.isOk = true := by
    refine ⟨_, rfl, ?_⟩
    decide
  obtain ⟨files, hrender⟩ := exists_eq_ok_of_isOk hok
  obtain ⟨m, -, hfile, -, -, -, hdispatch, -⟩ := row_types_dispatched_in_table_order hbuild hrender
  refine ⟨a, files, m, hbuild, hrender, hfile, ?_⟩
  rw [hdispatch]
  decide

end TileSchema.Code
