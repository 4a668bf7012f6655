import TileSchema.Proofs.Code.Accessors

/-!
# Fields of a row type

The members of a row type, what its constructor sets and the accessor traits it implements are made
from the fields of its table, one by one.  In a module that is rendered, fields of different names
have different identifiers and traits, so a row type defines everything once exactly if its fields
have different names (`definesOnce_iff`).  Two columns of one name and one type are two fields, and
nothing on the way to the file takes them together.
-/

namespace TileSchema.Code

open Artifact (ArtifactSet RenderedFile)
open Table (Compiled Field)
open Text (snakeIdent)

variable {schema : Schema} {source : String} {a : ArtifactSet} {files : List RenderedFile}
  {m : RowModule} {t : Compiled}

/-! ### Declarations of one type -/

/-- A type is defined without duplicates: it has one structure with different members, one group of
functions whose constructor sets each of the members once, and it implements no trait twice. -/
def DefinesOnce (ds : List Declared) (type : String) : Prop :=
  ∃ s c, (ds.filterMap Declared.structure?).filter (fun d => d.name = type) = [s] ∧
    (ds.filterMap Declared.functions?).filter (fun d => d.type = type) = [c] ∧
    s.members.Nodup ∧ c.initializers.Perm s.members ∧
    (((ds.filterMap Declared.implementation?).filter (fun i => i.type = type)).map
      Implementation.trait).Nodup

/-- Where groups of things have different keys, the things with the key of a group are the group. -/
theorem filter_flatMap_eq_of_nodup {α β γ : Type} [DecidableEq β] {f : α → List γ} {k : α → β}
    {q : γ → β} (hkey : ∀ x, ∀ z ∈ f x, q z = k x) {xs : List α} (hxs : (xs.map k).Nodup)
    {x : α} (hx : x ∈ xs) : (xs.flatMap f).filter (fun z => q z = k x) = f x := by
  induction xs with
  | nil => cases hx
  | cons y ys ih =>
    obtain ⟨hy, hys⟩ := List.nodup_cons.mp hxs
    rw [List.flatMap_cons, List.filter_append]
    rcases List.mem_cons.mp hx with rfl | hmem
    · have hfirst : (f x).filter (fun z => q z = k x) = f x :=
        List.filter_eq_self.mpr fun z hz => decide_eq_true (hkey x z hz)
      have hrest : (ys.flatMap f).filter (fun z => q z = k x) = [] := by
        rw [List.filter_eq_nil_iff]
        intro z hz heq
        obtain ⟨u, hu, hz⟩ := List.mem_flatMap.mp hz
        have hkeys : k u = k x := (hkey u z hz).symm.trans (of_decide_eq_true heq)
        exact hy (hkeys ▸ List.mem_map_of_mem hu)
      rw [hfirst, hrest, List.append_nil]
    · have hfirst : (f y).filter (fun z => q z = k x) = [] := by
        rw [List.filter_eq_nil_iff]
        intro z hz heq
        have hkeys : k y = k x := (hkey y z hz).symm.trans (of_decide_eq_true heq)
        exact hy (hkeys ▸ List.mem_map_of_mem hmem)
      rw [hfirst, ih hys hmem, List.nil_append]

/-- Where members have different keys, the one with a key is the member that has it. -/
theorem filter_map_eq_of_nodup {α β γ : Type} [DecidableEq β] {g : α → γ} {k : α → β} {q : γ → β}
    (hkey : ∀ x, q (g x) = k x) {xs : List α} (hxs : (xs.map k).Nodup) {x : α} (hx : x ∈ xs) :
    (xs.map g).filter (fun z => q z = k x) = [g x] := by
  rw [List.map_eq_flatMap]
  exact filter_flatMap_eq_of_nodup (by simpa using hkey) hxs hx

/-- The rows of a table have one structure, with a member for each field. -/
theorem filter_structures_eq (source : String) (hb : IsBuilt schema a) (h : IsRowModule a m)
    (ht : t ∈ elementTables a.tables) :
    ((declarations (rowFileLines source m)).filterMap Declared.structure?).filter
      (fun d => d.name = t.rowType) = [⟨t.rowType, t.fields.map fun f => snakeIdent f.name⟩] := by
  have hconstructor : ¬ "RowConstructor" = t.rowType := by
    obtain ⟨htype, key, hkey⟩ := rowType_eq hb ht
    rw [htype, hkey, upperCamel_databaseName]
    intro heq
    have hletter := congrArg (fun s => s.toList.head?) heq
    simp at hletter
  have honce := filter_map_eq_of_nodup (q := StructureDeclaration.name)
    (g := fun u : Compiled => ⟨u.rowType, u.fields.map fun f => snakeIdent f.name⟩)
    (fun _ => rfl) h.types.nodup_rowTypes ht
  rw [structures_rowFileLines source (hasNames_of_isRowModule hb h), h.rows, List.map_map,
    List.filter_cons_of_neg (by simpa using hconstructor)]
  simpa [Function.comp_def, rowDeclaration, memberOf] using honce

/-- The rows of a table have one group of functions, whose constructor sets a member for each
field. -/
theorem filter_functions_eq (source : String) (hb : IsBuilt schema a) (h : IsRowModule a m)
    (ht : t ∈ elementTables a.tables) :
    ((declarations (rowFileLines source m)).filterMap Declared.functions?).filter
      (fun d => d.type = t.rowType) =
        [⟨t.rowType, t.fields.map fun f => snakeIdent f.name, [t.expression]⟩] := by
  have honce := filter_map_eq_of_nodup (q := FunctionsDeclaration.type)
    (g := fun u : Compiled => ⟨u.rowType, u.fields.map fun f => snakeIdent f.name, [u.expression]⟩)
    (fun _ => rfl) h.types.nodup_rowTypes ht
  rw [functions_rowFileLines source (hasNames_of_isRowModule hb h), h.rows, List.map_map]
  simpa [Function.comp_def, rowDeclaration, initializerOf] using honce

/-- The rows of a table implement the row trait and an accessor trait for each field. -/
theorem filter_implementations_eq (source : String) (hb : IsBuilt schema a) (h : IsRowModule a m)
    (ht : t ∈ elementTables a.tables) :
    ((declarations (rowFileLines source m)).filterMap Declared.implementation?).filter
      (fun i => i.type = t.rowType) = implementationsOf t := by
  have honce := filter_flatMap_eq_of_nodup (q := Implementation.type)
    (fun u i hi => type_eq_of_mem_implementationsOf hi) h.types.nodup_rowTypes ht
  rw [implementations_eq source hb h]
  exact honce

theorem map_trait_implementationsOf (t : Compiled) :
    (implementationsOf t).map Implementation.trait =
      "Row" :: t.fields.map fun f => accessorTrait f.name := by
  simp [implementationsOf, rowImplementation, accessorImplementation, Function.comp_def]

/-! ### Distinct fields -/

/-- Identifiers of fields are distinct exactly if their names are. -/
theorem nodup_idents_iff (hb : IsBuilt schema a) (h : IsRowModule a m) (ht : t ∈ a.tables) :
    (t.fields.map fun f => snakeIdent f.name).Nodup ↔ (t.fields.map Field.name).Nodup := by
  have hmap : (t.fields.map fun f => snakeIdent f.name) =
      (t.fields.map Field.name).map snakeIdent := by rw [List.map_map]; rfl
  rw [hmap]
  refine ⟨fun hidents => hidents.of_map _, fun hnames => ?_⟩
  refine hnames.map_on fun x hx y hy heq => ?_
  obtain ⟨f, hf, rfl⟩ := List.mem_map.mp hx
  obtain ⟨g, hg, rfl⟩ := List.mem_map.mp hy
  exact name_eq_of_snakeIdent_eq hb h.traits.nodup_accessorTraits ht ht hf hg heq

/-- The traits that the rows of a table implement are distinct exactly if the names of its fields
are. -/
theorem nodup_traits_iff (hb : IsBuilt schema a) (h : IsRowModule a m) (ht : t ∈ a.tables) :
    ((implementationsOf t).map Implementation.trait).Nodup ↔ (t.fields.map Field.name).Nodup := by
  have hrow : "Row" ∉ t.fields.map fun f => accessorTrait f.name := by
    rw [List.mem_map]
    rintro ⟨f, -, heq⟩
    rw [accessorTrait_eq] at heq
    have hletter := congrArg (fun s => s.toList.head?) heq
    simp at hletter
  have hmap : (t.fields.map fun f => accessorTrait f.name) =
      (t.fields.map Field.name).map accessorTrait := by rw [List.map_map]; rfl
  rw [map_trait_implementationsOf, List.nodup_cons, and_iff_right hrow, hmap]
  refine ⟨fun htraits => htraits.of_map _, fun hnames => ?_⟩
  refine hnames.map_on fun x hx y hy heq => ?_
  obtain ⟨f, hf, rfl⟩ := List.mem_map.mp hx
  obtain ⟨g, hg, rfl⟩ := List.mem_map.mp hy
  exact name_eq_of_accessorTrait_eq hb h.traits.nodup_accessorTraits ht ht hf hg heq

/-- The type of the rows of a table is defined without duplicates exactly if the fields of the table
have different names. -/
theorem definesOnce_iff (source : String) (hb : IsBuilt schema a) (h : IsRowModule a m)
    (ht : t ∈ elementTables a.tables) :
    DefinesOnce (declarations (rowFileLines source m)) t.rowType ↔
      (t.fields.map Field.name).Nodup := by
  have htable : t ∈ a.tables := List.mem_of_mem_filter ht
  have hstructure := filter_structures_eq source hb h ht
  have hfunctions := filter_functions_eq source hb h ht
  have himplementations := filter_implementations_eq source hb h ht
  constructor
  · rintro ⟨s, c, hs, -, hmembers, -, -⟩
    rw [hstructure, List.singleton_inj] at hs
    subst hs
    exact (nodup_idents_iff hb h htable).mp hmembers
  · intro hnames
    refine ⟨_, _, hstructure, hfunctions, (nodup_idents_iff hb h htable).mpr hnames,
      List.Perm.refl _, ?_⟩
    rw [himplementations]
    exact (nodup_traits_iff hb h htable).mpr hnames

/-- A row type defines each of its fields once exactly if the fields have different names.  In the
file of the rows, each table whose rows are built from elements has one structure and one
constructor, both with the identifiers of its fields in order, and implements the row trait and the
accessor traits of its fields in order; and none of this is defined twice exactly if no two fields
of the table have one name.

This is read off the strings that are written as lines, so breaks inside a comment do not count; the
text of the file has the same declarations where no text of the schema leaves its comment
(`declarations_codeLines`). -/
theorem fields_defined_once_iff_names_distinct
    (hbuild : (Artifact.build schema source).result = .ok a)
    (hrender : (Artifact.render .code a).result = .ok files) :
    ∃ m, rowModule a = .ok m ∧ ⟨"tables.rs", unlines (rowFileLines a.source m)⟩ ∈ files ∧
      let ds := declarations (rowFileLines a.source m)
      ∀ t ∈ elementTables a.tables,
        (ds.filterMap Declared.structure?).filter (fun d => d.name = t.rowType) =
          [⟨t.rowType, t.fields.map fun f => snakeIdent f.name⟩] ∧
        (ds.filterMap Declared.functions?).filter (fun d => d.type = t.rowType) =
          [⟨t.rowType, t.fields.map fun f => snakeIdent f.name, [t.expression]⟩] ∧
        ((ds.filterMap Declared.implementation?).filter (fun i => i.type = t.rowType)).map
          Implementation.trait = "Row" :: t.fields.map (fun f => accessorTrait f.name) ∧
        (DefinesOnce ds t.rowType ↔ (t.fields.map Field.name).Nodup) := by
  have hb : IsBuilt schema a := isBuilt_of_build hbuild
  obtain ⟨m, hm, hfile⟩ := exists_rowModule_of_render hrender
  have h : IsRowModule a m := isRowModule_of_rowModule hm
  refine ⟨m, hm, hfile, fun t ht => ⟨filter_structures_eq a.source hb h ht,
    filter_functions_eq a.source hb h ht, ?_, definesOnce_iff a.source hb h ht⟩⟩
  rw [filter_implementations_eq a.source hb h ht, map_trait_implementationsOf]

/-- A schema of peaks with the columns given. -/
def peaksWith (columns : List Column) : Schema where
  tileset := {}
  layers := []
  tables := Ordered.Dict.empty.put "peaks"
    { kind := "point", mapping := some (.mapping [("natural", .scalar "peak")]), columns }

/-- The column of the name of a peak. -/
def nameColumn : Column := { kind := "string", name := "name", key := some "name" }

/-- The column of the height of a peak. -/
def heightColumn : Column := { kind := "integer", name := "height", key := some "ele" }

/-- Peaks with a name and a height define both once. -/
theorem fields_defined_once_iff_names_distinct_peaks :
    ∃ a files m, (Artifact.build (peaksWith [nameColumn, heightColumn]) "v1").result = .ok a ∧
      (Artifact.render .code a).result = .ok files ∧
      ⟨"tables.rs", unlines (rowFileLines a.source m)⟩ ∈ files ∧
      DefinesOnce (declarations (rowFileLines a.source m)) "OsmPeaks" := by
  obtain ⟨a, hbuild, hok, t, ht, htype, hnames⟩ : ∃ a,
      (Artifact.build (peaksWith [nameColumn, heightColumn]) "v1").result = .ok a ∧
      (Artifact.render .code a).result.isOk = true ∧
      ∃ t ∈ elementTables a.tables, t.rowType = "OsmPeaks" ∧ (t.fields.map Field.name).Nodup := by
    refine ⟨_, rfl, ?_, _, List.mem_singleton.mpr rfl, ?_, ?_⟩
    · decide
    · decide
    · decide
  obtain ⟨files, hrender⟩ := exists_eq_ok_of_isOk hok
  obtain ⟨m, -, hfile, htables⟩ := fields_defined_once_iff_names_distinct hbuild hrender
  obtain ⟨-, -, -, honce⟩ := htables t ht
  rw [htype] at honce
  exact ⟨a, files, m, hbuild, hrender, hfile, honce.mpr hnames⟩

/-- Peaks with two columns of one name are rendered, and the name is defined twice. -/
theorem not_definesOnce_of_twin_columns :
    ∃ a files m, (Artifact.build (peaksWith [nameColumn, nameColumn]) "v1").result = .ok a ∧
      (Artifact.render .code a).result = .ok files ∧ rowModule a = .ok m ∧
      ⟨"tables.rs", unlines (rowFileLines a.source m)⟩ ∈ files ∧
      (∃ t ∈ elementTables a.tables, t.rowType = "OsmPeaks") ∧
      ¬ DefinesOnce (declarations (rowFileLines a.source m)) "OsmPeaks" := by
  obtain ⟨a, hbuild, hok, t, ht, htype, hnames⟩ : ∃ a,
      (Artifact.build (peaksWith [nameColumn, nameColumn]) "v1").result = .ok a ∧
      (Artifact.render .code a).result.isOk = true ∧
      ∃ t ∈ elementTables a.tables, t.rowType = "OsmPeaks" ∧ ¬ (t.fields.map Field.name).Nodup := by
    refine ⟨_, rfl, ?_, _, List.mem_singleton.mpr rfl, ?_, ?_⟩
    · decide
    · decide
    · decide
  obtain ⟨files, hrender⟩ := exists_eq_ok_of_isOk hok
  obtain ⟨m, hm, hfile⟩ := exists_rowModule_of_render hrender
  have honce := definesOnce_iff a.source (isBuilt_of_build hbuild) (isRowModule_of_rowModule hm) ht
  rw [htype] at honce
  exact ⟨a, files, m, hbuild, hrender, hm, hfile, ⟨t, ht, htype⟩, fun hd => hnames (honce.mp hd)⟩

end TileSchema.Code
