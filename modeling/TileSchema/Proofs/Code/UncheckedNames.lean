import TileSchema.Proofs.Code.RowDispatch
import TileSchema.Proofs.Code.RowFields

/-!
# Names that no check looks at

Of the names in the file of the rows, only those of types and of accessor traits are checked for
collisions.  They are joined spellings; the members of row types, the methods of accessor traits and
those of subscribers are spelled in lower case, and nothing compares them.

Nothing needs to.  An identifier in lower case determines the joined spelling of its name, also
behind the prefixes that tables and accessor traits have, so names that are told apart in the joined
spelling are told apart in lower case.  Hence either check stands in for one that is not made: that
of the accessor traits for members and accessor methods, as every field has its trait
(`fieldsApart_of_nodup_accessorTraits`, `nodup_accessorMethods`), and that of the types for the
methods of subscribers, as a row type is spelled after the table that the method is named after.
What is left are fields of one table under one name, which have one identifier in any case.
-/

namespace TileSchema.Code

open Artifact (ArtifactSet RenderedFile)
open Table (Compiled)
open Text (snakeIdent upperCamel)

variable {schema : Schema} {source : String} {a : ArtifactSet} {files : List RenderedFile}
  {m : RowModule} {t : Compiled}

/-! ### Unchecked names -/

/-- The members of the row type of a table, in the order of its fields. -/
def memberNames (t : Compiled) : List String := t.fields.map fun f => snakeIdent f.name

/-- The methods of the accessor traits, in the order in which the fields were registered. -/
def accessorMethods (a : ArtifactSet) : List String :=
  a.fieldTypes.entries.map fun e => snakeIdent e.1

/-- The methods of subscribers, in the order of the tables. -/
def subscriberMethods (a : ArtifactSet) : List String :=
  (elementTables a.tables).map fun t => snakeIdent t.tableName

/-- Fields of a table that have different names have different identifiers. -/
def FieldsApart (t : Compiled) : Prop :=
  ∀ f ∈ t.fields, ∀ g ∈ t.fields, f.name ≠ g.name → snakeIdent f.name ≠ snakeIdent g.name

/-! ### What the checks say of them -/

/-- The rows are declared unless two types or two accessor traits are asked for by one name. -/
theorem exists_rowModule_iff (a : ArtifactSet) :
    (∃ m, rowModule a = .ok m) ↔ AreApart (typeClaims a) ∧ AreApart (traitClaims a) := by
  simp only [rowModule, bind_eq_ok_iff, requireDistinct_eq_ok_iff_areApart,
    map_claim_typeDeclarations, map_claim_traitDeclarations]
  constructor
  · rintro ⟨m, -, htypes, -, htraits, -⟩
    exact ⟨htypes, htraits⟩
  · rintro ⟨htypes, htraits⟩
    exact ⟨_, (), htypes, (), htraits, rfl⟩

/-- Where the accessor traits are distinct, members collide only if their fields have one name. -/
theorem fieldsApart_of_nodup_accessorTraits (hb : IsBuilt schema a)
    (htraits : (a.fieldTypes.entries.map fun e => accessorTrait e.1).Nodup) (ht : t ∈ a.tables) :
    FieldsApart t :=
  fun _ hf _ hg hne heq => hne (name_eq_of_snakeIdent_eq hb htraits ht ht hf hg heq)

/-- Where the accessor traits are distinct, their methods are distinct. -/
theorem nodup_accessorMethods (htraits : (a.fieldTypes.entries.map fun e => accessorTrait e.1).Nodup) :
    (accessorMethods a).Nodup :=
  nodup_map_of_determines htraits fun _ _ _ _ heq => accessorTrait_eq_of_snakeIdent_eq heq

/-! ### Reading them off the file -/

/-- The members of the structures of a name. -/
def membersOf (ds : List Declared) (name : String) : List String :=
  ((ds.filterMap Declared.structure?).filter (fun d => d.name = name)).flatMap
    StructureDeclaration.members

/-- The methods of the traits whose names are chosen. -/
def methodsOf (ds : List Declared) (choose : String → Bool) : List String :=
  ((ds.filterMap Declared.trait?).filter (fun d => choose d.name)).flatMap fun d =>
    d.methods.map Signature.method

/-- The names that accessor traits have. -/
def namesAccessor (name : String) : Bool := "With".toList.isPrefixOf name.toList

theorem membersOf_eq (source : String) (hb : IsBuilt schema a) (h : IsRowModule a m)
    (ht : t ∈ elementTables a.tables) :
    membersOf (declarations (rowFileLines source m)) t.rowType = memberNames t := by
  rw [membersOf, filter_structures_eq source hb h ht]
  exact List.append_nil _

theorem namesAccessor_accessorTrait (field : String) : namesAccessor (accessorTrait field) = true := by
  simp [namesAccessor, accessorTrait_eq, List.isPrefixOf]

theorem namesAccessor_handlerTrait (hb : IsBuilt schema a) (ht : t ∈ elementTables a.tables) :
    namesAccessor (handlerTrait t.rowType) = false := by
  obtain ⟨htype, key, hkey⟩ := rowType_eq hb ht
  simp [namesAccessor, htype, hkey, upperCamel_databaseName, handlerTrait, List.isPrefixOf]

theorem methodsOf_namesAccessor_eq (source : String) (hb : IsBuilt schema a) (h : IsRowModule a m) :
    methodsOf (declarations (rowFileLines source m)) namesAccessor = accessorMethods a := by
  have hrow : namesAccessor "Row" = false := by decide
  have hsubscriber : namesAccessor "TableSubscriber" = false := by decide
  have hhandlers : (m.rows.map fun r => (⟨r.handler, []⟩ : TraitDeclaration)).filter
      (fun d => namesAccessor d.name) = [] := by
    rw [h.rows, List.map_map, List.filter_eq_nil_iff, List.forall_mem_map]
    intro t ht
    exact Bool.eq_false_iff.mp (namesAccessor_handlerTrait hb ht)
  have haccessors : (m.accessors.map fun d =>
      (⟨d.trait, [⟨d.method, d.type⟩]⟩ : TraitDeclaration)).filter (fun d => namesAccessor d.name) =
        a.fieldTypes.entries.map fun e =>
          ⟨accessorTrait e.1, [⟨snakeIdent e.1, accessorType e.2⟩]⟩ := by
    rw [h.accessors, List.map_map, List.filter_eq_self.mpr]
    · rfl
    · exact List.forall_mem_map.mpr fun e _ => namesAccessor_accessorTrait e.1
  rw [methodsOf, traits_rowFileLines source (hasNames_of_isRowModule hb h)]
  simp only [List.filter_cons, List.filter_append, List.filter_nil, hrow, hhandlers, haccessors,
    hsubscriber, Bool.false_eq_true, if_false, List.nil_append, List.append_nil]
  rw [List.flatMap_map, accessorMethods, List.map_eq_flatMap]
  rfl

theorem methodsOf_subscriber_eq (source : String) (hb : IsBuilt schema a) (h : IsRowModule a m) :
    methodsOf (declarations (rowFileLines source m)) (· = "TableSubscriber") = subscriberMethods a := by
  have hmethods : (subscriberSignatures schema).map Signature.method = methodNames schema := by
    rw [subscriberSignatures, List.map_map]
    rfl
  rw [methodsOf, subscribers_eq source hb h, List.flatMap_singleton, hmethods,
    ← map_method_elementTables hb]
  rfl

/-! ### Main result -/

/-- The spellings are compatible.  Names that have one identifier have one accessor trait, and tables
whose names have one identifier have one row type.  Hence, for the artifacts of every schema, the
two checks that are made, on types and on accessor traits, stand in for checks of the other names:
distinct accessor traits keep apart the accessor methods, and the members of a row type whose fields
have different names; distinct types keep apart the methods of subscribers.  In the file of the rows
these are all members, all methods of accessor traits and all methods of subscribers that are written
(for its text, see `declarations_codeLines`). -/
theorem checked_names_keep_others_apart :
    (∀ x y : String, snakeIdent x = snakeIdent y →
      upperCamel ("with_" ++ x) = upperCamel ("with_" ++ y)) ∧
    (∀ x y : String, snakeIdent ("osm_" ++ x) = snakeIdent ("osm_" ++ y) →
      upperCamel ("osm_" ++ x) = upperCamel ("osm_" ++ y)) ∧
    ∀ (schema : Schema) (source : String) (a : ArtifactSet),
      (Artifact.build schema source).result = .ok a →
        ((∃ m, rowModule a = .ok m) ↔ AreApart (typeClaims a) ∧ AreApart (traitClaims a)) ∧
        (AreApart (traitClaims a) → (∀ t ∈ a.tables, FieldsApart t) ∧ (accessorMethods a).Nodup) ∧
        (AreApart (typeClaims a) → (subscriberMethods a).Nodup) ∧
        ∀ files, (Artifact.render .code a).result = .ok files →
          ∃ m, rowModule a = .ok m ∧ ⟨"tables.rs", unlines (rowFileLines a.source m)⟩ ∈ files ∧
            let ds := declarations (rowFileLines a.source m)
            (∀ t ∈ elementTables a.tables, membersOf ds t.rowType = memberNames t ∧ FieldsApart t) ∧
            (methodsOf ds namesAccessor = accessorMethods a ∧ (accessorMethods a).Nodup) ∧
            methodsOf ds (· = "TableSubscriber") = subscriberMethods a ∧
              (subscriberMethods a).Nodup := by
  refine ⟨fun x y heq => accessorTrait_eq_of_snakeIdent_eq heq,
    fun x y heq => Text.upperCamel_eq_of_snakeIdent_eq heq, ?_⟩
  intro schema source a hbuild
  have hb : IsBuilt schema a := isBuilt_of_build hbuild
  have htraits : AreApart (traitClaims a) →
      (∀ t ∈ a.tables, FieldsApart t) ∧ (accessorMethods a).Nodup := fun h =>
    ⟨fun t ht => fieldsApart_of_nodup_accessorTraits hb h.nodup_accessorTraits ht,
      nodup_accessorMethods h.nodup_accessorTraits⟩
  have htypes : AreApart (typeClaims a) → (subscriberMethods a).Nodup := fun h =>
    nodup_methods_of_nodup_rowTypes hb h.nodup_rowTypes
  refine ⟨exists_rowModule_iff a, htraits, htypes, fun files hrender => ?_⟩
  obtain ⟨m, hm, hfile⟩ := exists_rowModule_of_render hrender
  have h : IsRowModule a m := isRowModule_of_rowModule hm
  obtain ⟨htypesApart, htraitsApart⟩ := (exists_rowModule_iff a).mp ⟨m, hm⟩
  obtain ⟨hfields, haccessors⟩ := htraits htraitsApart
  refine ⟨m, hm, hfile, fun t ht => ⟨membersOf_eq a.source hb h ht, ?_⟩,
    ⟨methodsOf_namesAccessor_eq a.source hb h, haccessors⟩, methodsOf_subscriber_eq a.source hb h,
    htypes htypesApart⟩
  exact hfields t (List.mem_of_mem_filter ht)

/-- A schema of roads with names in two languages and a reference, and of water areas. -/
def namedRoads : Schema where
  tileset := {}
  layers := []
  tables := (Ordered.Dict.empty.put "roads"
      { kind := "linestring", mapping := some (.mapping [("highway", .scalar "primary")]),
        columns := [{ kind := "string", name := "name", key := some "name" },
          { kind := "string", name := "name:en", key := some "name:en" },
          { kind := "string", name := "ref", key := some "ref" }] }).put
    "water-area" { kind := "polygon", mapping := some (.mapping [("natural", .scalar "water")]) }

/-- The members of roads, the accessor methods and the methods of subscribers are apart. -/
theorem checked_names_keep_others_apart_named_roads :
    upperCamel ("with_" ++ "self") = upperCamel ("with_" ++ "Self_") ∧
    upperCamel ("osm_" ++ "water-area") = upperCamel ("osm_" ++ "Water_Area") ∧
    ∃ a files m, (Artifact.build namedRoads "v1").result = .ok a ∧
      AreApart (typeClaims a) ∧ AreApart (traitClaims a) ∧ rowModule a = .ok m ∧
      (Artifact.render .code a).result = .ok files ∧
      ⟨"tables.rs", unlines (rowFileLines a.source m)⟩ ∈ files ∧
      let ds := declarations (rowFileLines a.source m)
      membersOf ds "OsmRoads" = ["name", "name_en", "r#ref", "source"] ∧
      (methodsOf ds namesAccessor = ["name", "name_en", "r#ref", "source"] ∧
        (accessorMethods a).Nodup) ∧
      methodsOf ds (· = "TableSubscriber") = ["osm_roads", "osm_water_area"] ∧
        (subscriberMethods a).Nodup := by
  obtain ⟨hwith, hosm, hnames⟩ := checked_names_keep_others_apart
  refine ⟨hwith "self" "Self_" (by decide), hosm "water-area" "Water_Area" (by decide), ?_⟩
  obtain ⟨a, hbuild, hok, htypes, htraits, t, ht, htype, hmembers, haccessors, hmethods⟩ : ∃ a,
      (Artifact.build namedRoads "v1").result = .ok a ∧
      (Artifact.render .code a).result.isOk = true ∧
      ((typeClaims a).map Prod.fst).Nodup ∧ ((traitClaims a).map Prod.fst).Nodup ∧
      ∃ t ∈ elementTables a.tables, t.rowType = "OsmRoads" ∧
        memberNames t = ["name", "name_en", "r#ref", "source"] ∧
        accessorMethods a = ["name", "name_en", "r#ref", "source"] ∧
        subscriberMethods a = ["osm_roads", "osm_water_area"] := by
    refine ⟨_, rfl, ?_, ?_, ?_, _, List.mem_cons_self, ?_, ?_, ?_, ?_⟩ <;> decide
  obtain ⟨files, hrender⟩ := exists_eq_ok_of_isOk hok
  obtain ⟨-, htraitsApart, htypesApart, hfile⟩ := hnames namedRoads "v1" a hbuild
  obtain ⟨m, hm, hmem, hstructures, ⟨haccessorsRead, -⟩, hmethodsRead, -⟩ := hfile files hrender
  obtain ⟨hmembersRead, -⟩ := hstructures t ht
  rw [htype, hmembers] at hmembersRead
  exact ⟨a, files, m, hbuild, htypes, htraits, hm, hrender, hmem, hmembersRead,
    ⟨haccessorsRead.trans haccessors, (htraitsApart htraits).2⟩, hmethodsRead.trans hmethods,
    htypesApart htypes⟩

end TileSchema.Code
