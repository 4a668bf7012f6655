import TileSchema.Proofs.Code.RowModule

/-!
# Accessor traits and their implementations

The accessor traits are made from the types of all fields and the implementations from the fields of
each table.  Every field has its type registered, whichever table it was registered for, and no two
fields have traits of one name; so an implementation has the method of the one trait that it names
(`implementations_agree_with_traits`).
-/

namespace TileSchema.Code

open Artifact (ArtifactSet RenderedFile)
open Table (Compiled Field)
open Text (snakeIdent)

variable {schema : Schema} {source : String} {a : ArtifactSet} {files : List RenderedFile}
  {m : RowModule} {t : Compiled}

/-- The implementation of the row trait by the rows of a table. -/
def rowImplementation (t : Compiled) : Implementation :=
  ⟨"Row", t.rowType, [⟨"as_any", "&dyn Any"⟩]⟩

/-- The implementation of the accessor trait of a field by the rows of a table. -/
def accessorImplementation (t : Compiled) (f : Field) : Implementation :=
  ⟨accessorTrait f.name, t.rowType, [⟨snakeIdent f.name, accessorType f.type⟩]⟩

/-- What the rows of a table implement: the row trait, and the accessor trait of each field. -/
def implementationsOf (t : Compiled) : List Implementation :=
  rowImplementation t :: t.fields.map (accessorImplementation t)

theorem type_eq_of_mem_implementationsOf {i : Implementation} (h : i ∈ implementationsOf t) :
    i.type = t.rowType := by
  rcases List.mem_cons.mp h with rfl | haccessor
  · rfl
  · obtain ⟨f, -, rfl⟩ := List.mem_map.mp haccessor
    rfl

/-- The implementations in the file are those of the tables. -/
theorem implementations_eq (source : String) (hb : IsBuilt schema a) (h : IsRowModule a m) :
    (declarations (rowFileLines source m)).filterMap Declared.implementation? =
      (elementTables a.tables).flatMap implementationsOf := by
  rw [implementations_rowFileLines source (hasNames_of_isRowModule hb h), h.rows, List.flatMap_map]
  refine List.flatMap_congr fun t _ => ?_
  simp [RowDeclaration.implementations, rowDeclaration, implementationsOf, rowImplementation,
    accessorImplementation, accessorImplOf, Function.comp_def]

/-- The trait that the rows of a table implement is declared, with the methods they have. -/
theorem mem_traits_of_mem_implementationsOf (source : String) (hb : IsBuilt schema a)
    (h : IsRowModule a m) (ht : t ∈ a.tables) {i : Implementation} (hi : i ∈ implementationsOf t) :
    ⟨i.trait, i.methods⟩ ∈ (declarations (rowFileLines source m)).filterMap Declared.trait? := by
  rw [traits_rowFileLines source (hasNames_of_isRowModule hb h)]
  rcases List.mem_cons.mp hi with rfl | haccessor
  · exact List.mem_cons_self
  · obtain ⟨f, hf, rfl⟩ := List.mem_map.mp haccessor
    have hentry : (f.name, f.type) ∈ a.fieldTypes.entries := mem_entries_of_mem_fields hb ht hf
    refine List.mem_cons_of_mem _ (List.mem_append_right _ (List.mem_append_left _ ?_))
    rw [h.accessors, List.map_map]
    exact List.mem_map.mpr ⟨(f.name, f.type), hentry, rfl⟩

/-- Accessor traits and their implementations agree.  Every implementation in the file of the rows
names a trait that is declared there exactly once, with the same methods and the same types of their
results.  The implementations are those of the row trait and, for each field of each table whose
rows are built from elements, that of its accessor trait.  Items are those that are written, not what a
text of the schema can open behind a break inside of its comment (`declarations_codeLines`). -/
theorem implementations_agree_with_traits
    (hbuild : (Artifact.build schema source).result = .ok a)
    (hrender : (Artifact.render .code a).result = .ok files) :
    ∃ m, rowModule a = .ok m ∧ ⟨"tables.rs", unlines (rowFileLines a.source m)⟩ ∈ files ∧
      let ds := declarations (rowFileLines a.source m)
      ds.filterMap Declared.implementation? =
        (elementTables a.tables).flatMap implementationsOf ∧
      ∀ i ∈ ds.filterMap Declared.implementation?,
        (ds.filterMap Declared.trait?).filter (fun d => d.name = i.trait) =
          [⟨i.trait, i.methods⟩] := by
  have hb : IsBuilt schema a := isBuilt_of_build hbuild
  obtain ⟨m, hm, hfile⟩ := exists_rowModule_of_render hrender
  have h : IsRowModule a m := isRowModule_of_rowModule hm
  have himplementations := implementations_eq a.source hb h
  refine ⟨m, hm, hfile, himplementations, ?_⟩
  intro i hi
  rw [himplementations] at hi
  obtain ⟨t, ht, hi⟩ := List.mem_flatMap.mp hi
  have hmem := mem_traits_of_mem_implementationsOf a.source hb h (List.mem_of_mem_filter ht) hi
  have honce := filter_traits_eq_singleton a.source hb h hmem
  exact honce

/-- A schema whose field of a name is first registered for the members of routes. -/
def namedRoutes : Schema where
  tileset := {}
  layers := []
  tables := (Ordered.Dict.empty.put "route_member"
      { kind := "relation_member", mapping := some (.mapping [("route", .scalar "bus")]),
        columns := [{ kind := "string", name := "name:en", key := some "name:en" }] }).put
    "roads"
      { kind := "linestring", mapping := some (.mapping [("highway", .scalar "primary")]),
        columns := [{ kind := "string", name := "name:en", key := some "int_name" }] }

/-- The rows of roads implement the trait that the members of routes were first to ask for. -/
theorem implementations_agree_with_traits_named_routes :
    ∃ a files m, (Artifact.build namedRoutes "v1").result = .ok a ∧
      (Artifact.render .code a).result = .ok files ∧
      ⟨"tables.rs", unlines (rowFileLines a.source m)⟩ ∈ files ∧
      ⟨"WithNameEn", "OsmRoads", [⟨"name_en", "Option<&str>"⟩]⟩ ∈
        (declarations (rowFileLines a.source m)).filterMap Declared.implementation? ∧
      ((declarations (rowFileLines a.source m)).filterMap Declared.trait?).filter
        (fun d => d.name = "WithNameEn") = [⟨"WithNameEn", [⟨"name_en", "Option<&str>"⟩]⟩] := by
  obtain ⟨a, hbuild, hok, hmem⟩ : ∃ a, (Artifact.build namedRoutes "v1").result = .ok a ∧
      (Artifact.render .code a).result.isOk = true ∧
      ⟨"WithNameEn", "OsmRoads", [⟨"name_en", "Option<&str>"⟩]⟩ ∈
        (elementTables a.tables).flatMap implementationsOf := by
    refine ⟨_, rfl, ?_, ?_⟩
    · decide
    · decide
  obtain ⟨files, hrender⟩ := exists_eq_ok_of_isOk hok
  obtain ⟨m, -, hfile, himplementations, hagree⟩ := implementations_agree_with_traits hbuild hrender
  rw [← himplementations] at hmem
  have honce := hagree ⟨"WithNameEn", "OsmRoads", [⟨"name_en", "Option<&str>"⟩]⟩ hmem
  exact ⟨a, files, m, hbuild, hrender, hfile, hmem, honce⟩

end TileSchema.Code
