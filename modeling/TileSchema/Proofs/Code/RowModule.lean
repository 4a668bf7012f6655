import TileSchema.Proofs.Code.Collisions
import TileSchema.Proofs.Code.Declarations
import TileSchema.Proofs.Table.Dispatch
import TileSchema.Proofs.Table.FieldTypes

/-!
# The module of rows of a schema

The artifacts of a schema hold its tables, one by one, with the types of all their fields
(`isBuilt_of_build`).  They are rendered if no two types and no two accessor traits have one name
(`isRowModule_of_rowModule`); then the identifiers made from the names of the tables and the fields
are distinct as well, as an identifier determines how a name is joined.

All names that are declared can be read back (`hasNames_of_isRowModule`).
-/

namespace TileSchema.Code

open Artifact (ArtifactSet RenderedFile)
open Table (Compiled Field IsCompiled rowOf databaseName)
open Text (upperCamel snakeIdent)

variable {schema : Schema} {source name : String} {a : ArtifactSet} {files : List RenderedFile}
  {m : RowModule} {t : Compiled} {f : Field}

/-! ### Building and rendering -/

/-- The artifacts of a schema hold its tables. -/
structure IsBuilt (schema : Schema) (a : ArtifactSet) : Prop where
  tables : Table.compile .empty schema.tables = (a.fieldTypes, .ok a.tables)
  rowIndex : a.rowIndex = Table.rowIndex a.tables

theorem isBuilt_of_build (h : (Artifact.build schema source).result = .ok a) : IsBuilt schema a := by
  simp only [Artifact.build, Artifact.compileSchema, Traced.info, Traced.result_bind,
    Traced.result_ofExcept, Traced.result_report, Traced.result_pure, bind_eq_ok_iff] at h
  obtain ⟨built, ⟨layers, -, tables, htables, hbuilt⟩, -, -, ha⟩ := h
  cases hbuilt
  cases ha
  exact ⟨Prod.ext rfl htables, rfl⟩

/-- The file of the rows is among the files that are rendered. -/
theorem exists_rowModule_of_render (h : (Artifact.render .code a).result = .ok files) :
    ∃ m, rowModule a = .ok m ∧ ⟨"tables.rs", unlines (rowFileLines a.source m)⟩ ∈ files := by
  simp only [Artifact.render, Artifact.renderCode, Traced.result_bind, Traced.result_ofExcept,
    Traced.result_pure, bind_eq_ok_iff, rowFile] at h
  obtain ⟨layers, -, rows, ⟨m, hm, hrows⟩, hfiles⟩ := h
  cases hrows
  cases hfiles
  exact ⟨m, hm, by simp⟩

/-- A module of rows has what is declared for the tables of artifacts, and no two types and no two
accessor traits have one name. -/
structure IsRowModule (a : ArtifactSet) (m : RowModule) : Prop where
  rows : m.rows = (elementTables a.tables).map rowDeclaration
  accessors : m.accessors = a.fieldTypes.entries.map fun e => accessorDeclaration e.1 e.2
  entries : m.entries = a.rowIndex.rules.map (·.result.rowType)
  methods : m.methods =
    (elementTables a.tables).map fun t => ⟨snakeIdent t.tableName, handlerTrait t.rowType⟩
  branches : m.branches =
    (elementTables a.tables).map fun t => ⟨snakeIdent t.tableName, t.rowType⟩
  types : AreApart (typeClaims a)
  traits : AreApart (traitClaims a)

theorem isRowModule_of_rowModule (h : rowModule a = .ok m) : IsRowModule a m := by
  simp only [rowModule, bind_eq_ok_iff, requireDistinct_eq_ok_iff_areApart,
    map_claim_typeDeclarations, map_claim_traitDeclarations] at h
  obtain ⟨-, htypes, -, htraits, hm⟩ := h
  cases hm
  exact ⟨rfl, rfl, rfl, rfl, rfl, htypes, htraits⟩

/-! ### Names of tables -/

/-- The tables of a schema whose rows are built from elements, with their keys. -/
def elementEntries (schema : Schema) : List (String × TableSpec) :=
  schema.tables.entries.filter (!·.2.isRelationMember)

/-- The compiled tables whose rows are built from elements are those of the schema. -/
theorem forall₂_elementTables (h : IsBuilt schema a) :
    List.Forall₂ IsCompiled (elementEntries schema) (elementTables a.tables) := by
  have hall : List.Forall₂ IsCompiled schema.tables.entries a.tables :=
    Table.compileAll_eq_ok h.tables
  unfold elementEntries elementTables
  generalize schema.tables.entries = entries at hall ⊢
  generalize a.tables = cs at hall ⊢
  induction hall with
  | nil => exact List.Forall₂.nil
  | @cons entry c entries cs hc _ ih =>
    have hkind : c.isRelationMember = entry.2.isRelationMember := by
      obtain ⟨fs, e, -, -, rfl⟩ := hc
      rfl
    rw [List.filter_cons, List.filter_cons, hkind]
    split
    · exact List.Forall₂.cons hc ih
    · exact ih

/-- The rows of the compiled tables are named after the keys of the tables. -/
theorem map_target_elementTables (h : IsBuilt schema a) :
    (elementTables a.tables).map Compiled.target = (elementEntries schema).map (rowOf ·.1) := by
  have hall := forall₂_elementTables h
  generalize elementEntries schema = entries at hall ⊢
  generalize elementTables a.tables = cs at hall ⊢
  induction hall with
  | nil => rfl
  | cons hc _ ih =>
    obtain ⟨fs, e, -, -, rfl⟩ := hc
    rw [List.map_cons, List.map_cons, ih]
    rfl

/-- The type of the rows of a table is named after the table. -/
theorem rowType_eq (h : IsBuilt schema a) (ht : t ∈ elementTables a.tables) :
    t.rowType = upperCamel t.tableName ∧ ∃ key, t.tableName = databaseName key := by
  obtain ⟨entry, -, fs, e, -, -, rfl⟩ :=
    Table.exists_isCompiled_of_mem (forall₂_elementTables h) ht
  exact ⟨rfl, entry.1, rfl⟩

/-- The rules of the row index are those of the tables whose rows are built from elements. -/
theorem rules_rowIndex (h : IsBuilt schema a) :
    a.rowIndex.rules = (elementTables a.tables).map fun t => ⟨t.expression, t.target⟩ := by
  rw [h.rowIndex]
  rfl

/-! ### Spellings -/

theorem upperCamel_databaseName (key : String) :
    upperCamel (databaseName key) = "Osm" ++ upperCamel key := by
  have hstart : upperCamel "osm_" = "Osm" := by decide
  have hseparator : "osm_".toList = ['o', 's', 'm'] ++ ['_'] := by simp
  rw [databaseName, Text.upperCamel_append hseparator (by decide), hstart]

theorem accessorTrait_eq (field : String) : accessorTrait field = "With" ++ upperCamel field := by
  have hstart : upperCamel "with_" = "With" := by decide
  have hseparator : "with_".toList = ['w', 'i', 't', 'h'] ++ ['_'] := by simp
  rw [accessorTrait, Text.upperCamel_append hseparator (by decide), hstart]

/-- Fields with one identifier have one accessor trait. -/
theorem accessorTrait_eq_of_snakeIdent_eq {x y : String} (h : snakeIdent x = snakeIdent y) :
    accessorTrait x = accessorTrait y := by
  rw [accessorTrait_eq, accessorTrait_eq, Text.upperCamel_eq_of_snakeIdent_eq h]

theorem isName_handlerTrait (h : IsName name) : IsName (handlerTrait name) := by
  have hsuffix : IsName "Handler" := isName_ofList (by decide)
  exact h.append hsuffix

/-- The names that are declared for a table can be read back. -/
theorem hasNames_rowDeclaration (h : IsName t.rowType) : (rowDeclaration t).HasNames where
  rowType := h
  handler := isName_handlerTrait h
  members := List.forall_mem_map.mpr fun f _ => isName_snakeIdent f.name
  initializers := List.forall_mem_map.mpr fun f _ => isName_snakeIdent f.name
  accessors := List.forall_mem_map.mpr fun f _ => ⟨isName_upperCamel _, isName_snakeIdent f.name⟩

/-- The type of the rows of a table is a name. -/
theorem isName_rowType (h : IsBuilt schema a) (ht : t ∈ elementTables a.tables) :
    IsName t.rowType := by
  rw [(rowType_eq h ht).1]
  exact isName_upperCamel t.tableName

/-- All names that are declared can be read back. -/
theorem hasNames_of_isRowModule (hb : IsBuilt schema a) (h : IsRowModule a m) : m.HasNames := by
  have hrowType : ∀ t ∈ elementTables a.tables, IsName t.rowType := fun t => isName_rowType hb
  refine ⟨?_, ?_, ?_, ?_, ?_⟩
  · rw [h.rows, List.forall_mem_map]
    exact fun t ht => hasNames_rowDeclaration (hrowType t ht)
  · rw [h.accessors, List.forall_mem_map]
    exact fun e _ => ⟨isName_upperCamel _, isName_snakeIdent e.1⟩
  · rw [h.entries, rules_rowIndex hb, List.map_map, List.forall_mem_map]
    exact hrowType
  · rw [h.methods, List.forall_mem_map]
    exact fun t _ => isName_snakeIdent t.tableName
  · rw [h.branches, List.forall_mem_map]
    exact fun t ht => ⟨isName_snakeIdent t.tableName, hrowType t ht⟩

/-! ### Distinct names -/

/-- Where one thing is distinct, whatever determines it is distinct as well. -/
theorem nodup_map_of_determines {α β γ : Type} {f : α → β} {g : α → γ} {xs : List α}
    (hg : (xs.map g).Nodup) (hfg : ∀ x ∈ xs, ∀ y ∈ xs, f x = f y → g x = g y) :
    (xs.map f).Nodup := by
  refine List.pairwise_map.mpr ((List.pairwise_map.mp hg).imp_of_mem fun hx hy hne heq => ?_)
  exact hne (hfg _ hx _ hy heq)

/-- Types of which each table asks for one are distinct, if no two types are asked for by one name. -/
theorem AreApart.nodup_map {g : Compiled → String} (h : AreApart (typeClaims a))
    (hg : ∀ t, g t = t.rowType ∨ g t = handlerTrait t.rowType) :
    ((elementTables a.tables).map g).Nodup := by
  rw [AreApart, typeClaims, List.map_flatMap, List.nodup_flatMap] at h
  have hmem : ∀ t, g t ∈ [(t.rowType, t.key), (t.rowType ++ "Handler", t.key)].map Prod.fst := by
    intro t
    rcases hg t with ht | ht <;> simp [ht, handlerTrait]
  refine List.pairwise_map.mpr (h.2.imp fun {t u} hdisjoint heq => ?_)
  exact hdisjoint (hmem t) (heq ▸ hmem u)

/-- The row types are distinct, if no two types are asked for by one name. -/
theorem AreApart.nodup_rowTypes (h : AreApart (typeClaims a)) :
    ((elementTables a.tables).map Compiled.rowType).Nodup :=
  h.nodup_map fun _ => .inl rfl

/-- So are the traits of handlers. -/
theorem AreApart.nodup_handlerTraits (h : AreApart (typeClaims a)) :
    ((elementTables a.tables).map fun t => handlerTrait t.rowType).Nodup :=
  h.nodup_map fun _ => .inr rfl

/-- The accessor traits are distinct, if no two fields ask for one of them. -/
theorem AreApart.nodup_accessorTraits (h : AreApart (traitClaims a)) :
    (a.fieldTypes.entries.map fun e => accessorTrait e.1).Nodup := by
  rw [AreApart, traitClaims, List.map_map] at h
  exact h

/-- The methods of subscribers are distinct if the row types are, as a method determines the type of
the rows. -/
theorem nodup_methods_of_nodup_rowTypes (hb : IsBuilt schema a)
    (hrowTypes : ((elementTables a.tables).map Compiled.rowType).Nodup) :
    ((elementTables a.tables).map fun t => snakeIdent t.tableName).Nodup := by
  refine nodup_map_of_determines hrowTypes fun t ht u hu heq => ?_
  rw [(rowType_eq hb ht).1, (rowType_eq hb hu).1]
  exact Text.upperCamel_eq_of_snakeIdent_eq heq

/-- The methods of subscribers are distinct. -/
theorem nodup_methods (hb : IsBuilt schema a) (h : IsRowModule a m) :
    ((elementTables a.tables).map fun t => snakeIdent t.tableName).Nodup :=
  nodup_methods_of_nodup_rowTypes hb h.types.nodup_rowTypes

/-- Every field of a table has its type registered. -/
theorem mem_entries_of_mem_fields (h : IsBuilt schema a) (ht : t ∈ a.tables) (hf : f ∈ t.fields) :
    (f.name, f.type) ∈ a.fieldTypes.entries := by
  have hcompile : (Table.compile (Table.typesAfter []) schema.tables).2 = .ok a.tables :=
    congrArg Prod.snd h.tables
  have hget := Table.get?_of_compile [] [] hcompile ht hf
  have htypes : Table.typesAfter ([] ++ [schema.tables]) = a.fieldTypes := congrArg Prod.fst h.tables
  rw [htypes] at hget
  obtain ⟨before, after, hentries, -⟩ := List.lookup_eq_some_iff.mp hget
  rw [hentries]
  simp

/-- Fields whose accessor traits have one name have one name, if the traits are distinct. -/
theorem name_eq_of_accessorTrait_eq (hb : IsBuilt schema a)
    (htraits : (a.fieldTypes.entries.map fun e => accessorTrait e.1).Nodup)
    {t u : Compiled} (ht : t ∈ a.tables) (hu : u ∈ a.tables) {f g : Field} (hf : f ∈ t.fields)
    (hg : g ∈ u.fields) (heq : accessorTrait f.name = accessorTrait g.name) : f.name = g.name := by
  have hentry : (f.name, f.type) = (g.name, g.type) :=
    List.inj_on_of_nodup_map htraits (mem_entries_of_mem_fields hb ht hf)
      (mem_entries_of_mem_fields hb hu hg) heq
  exact congrArg Prod.fst hentry

/-- Fields with one identifier have one name, if the accessor traits are distinct. -/
theorem name_eq_of_snakeIdent_eq (hb : IsBuilt schema a)
    (htraits : (a.fieldTypes.entries.map fun e => accessorTrait e.1).Nodup)
    {t u : Compiled} (ht : t ∈ a.tables) (hu : u ∈ a.tables) {f g : Field} (hf : f ∈ t.fields)
    (hg : g ∈ u.fields) (heq : snakeIdent f.name = snakeIdent g.name) : f.name = g.name :=
  name_eq_of_accessorTrait_eq hb htraits ht hu hf hg (accessorTrait_eq_of_snakeIdent_eq heq)

/-! ### Traits of the file -/

/-- The names of the traits that are declared for the tables of artifacts. -/
def traitNames (a : ArtifactSet) : List String :=
  "Row" :: ((elementTables a.tables).map (fun t => handlerTrait t.rowType) ++
    (a.fieldTypes.entries.map (fun e => accessorTrait e.1) ++ ["TableSubscriber"]))

/-- No trait is declared twice: the four kinds of names start with different letters. -/
theorem nodup_traitNames (hb : IsBuilt schema a) (h : IsRowModule a m) : (traitNames a).Nodup := by
  have hhandler : ∀ n ∈ (elementTables a.tables).map (fun t => handlerTrait t.rowType),
      n.toList.head? = some 'O' := by
    rw [List.forall_mem_map]
    intro t ht
    obtain ⟨htype, key, hkey⟩ := rowType_eq hb ht
    rw [htype, hkey, upperCamel_databaseName, handlerTrait, String.append_assoc]
    simp
  have haccessor : ∀ n ∈ a.fieldTypes.entries.map (fun e => accessorTrait e.1),
      n.toList.head? = some 'W' := by
    rw [List.forall_mem_map]
    intro e _
    rw [accessorTrait_eq]
    simp
  have hrow : ∀ n ∈ (elementTables a.tables).map (fun t => handlerTrait t.rowType) ++
      (a.fieldTypes.entries.map (fun e => accessorTrait e.1) ++ ["TableSubscriber"]), n ≠ "Row" := by
    rw [List.forall_mem_append, List.forall_mem_append, List.forall_mem_singleton]
    refine ⟨?_, ?_, by decide⟩
    · rintro n hn rfl
      simpa using hhandler _ hn
    · rintro n hn rfl
      simpa using haccessor _ hn
  refine List.nodup_cons.mpr ⟨fun hmem => hrow _ hmem rfl, ?_⟩
  refine h.types.nodup_handlerTraits.append
    (h.traits.nodup_accessorTraits.append (List.nodup_singleton _) ?_) ?_
  · intro n hn hsubscriber
    rw [List.mem_singleton.mp hsubscriber] at hn
    simpa using haccessor _ hn
  · intro n hn hrest
    have hletter := hhandler n hn
    rcases List.mem_append.mp hrest with hn' | hsubscriber
    · rw [haccessor n hn'] at hletter
      simp at hletter
    · rw [List.mem_singleton.mp hsubscriber] at hletter
      simp at hletter

/-- The traits that the file declares have these names, in this order. -/
theorem map_name_traits (source : String) (hb : IsBuilt schema a) (h : IsRowModule a m) :
    ((declarations (rowFileLines source m)).filterMap Declared.trait?).map TraitDeclaration.name =
      traitNames a := by
  rw [traits_rowFileLines source (hasNames_of_isRowModule hb h), h.rows, h.accessors, traitNames]
  simp [Function.comp_def, rowDeclaration, accessorDeclaration]

/-- A trait that the file declares is declared once. -/
theorem filter_traits_eq_singleton (source : String) (hb : IsBuilt schema a) (h : IsRowModule a m)
    {d : TraitDeclaration}
    (hd : d ∈ (declarations (rowFileLines source m)).filterMap Declared.trait?) :
    ((declarations (rowFileLines source m)).filterMap Declared.trait?).filter
      (fun d' => d'.name = d.name) = [d] := by
  have hnames := nodup_traitNames hb h
  rw [← map_name_traits source hb h] at hnames
  generalize (declarations (rowFileLines source m)).filterMap Declared.trait? = ds at hd hnames ⊢
  have hsame : ds.filter (fun d' => d'.name = d.name) = ds.filter (fun d' => d' = d) := by
    refine List.filter_congr fun d' hd' => ?_
    rw [decide_eq_decide]
    exact ⟨fun heq => List.inj_on_of_nodup_map hnames hd' hd heq, fun heq => heq ▸ rfl⟩
  rw [hsame, List.filter_eq, List.count_eq_one_of_mem (hnames.of_map _) hd, List.replicate_one]

end TileSchema.Code
