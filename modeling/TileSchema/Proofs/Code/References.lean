import TileSchema.Proofs.Code.Accessors
import TileSchema.Proofs.Code.CodeLines
import TileSchema.Proofs.Code.Constructors
import TileSchema.Proofs.Code.RowDispatch

/-!
# References in the file of the rows

The file of the rows mentions traits and row types in other places than those that declare them: the
trait that the row trait requires, the traits of implementations and the handlers of subscribers, and
the row types of functions, handlers, the index and the dispatch.  Both sides are read off the strings
that are written as its lines, and the text of the file has the same if no text of the schema leaves
its comment (`mentionedTraits_codeLines` and its siblings).

References to row types are all made from the tables whose rows are built from elements, as the
structures are.  Of the references to traits, one is fixed: every row has a source element.  The
trait for it is made from the types of the fields, and every table registers this field as its last
one.  So it is declared unless there are no tables at all (`mem_traitNames_source_iff`).
-/

namespace TileSchema.Code

open Artifact (ArtifactSet RenderedFile)
open Table (Compiled rowOf)
open Text (isNameChar)

variable {schema : Schema} {source : String} {a : ArtifactSet} {files : List RenderedFile}
  {m : RowModule} {r : RowDeclaration} {t : Compiled} {name : String}

/-! ### Traits that are mentioned -/

/-- The trait that a trait requires, in the line that opens it. -/
def requiredTrait? (header : String) : Option String := do
  let (_, cs) ← nameBehind? "pub trait " header.toList
  let (name, _) ← nameBehind? ": " cs
  return name

/-- The trait of the handler that a method gives. -/
def handlerIn? (s : Signature) : Option String := nameBetween? "Option<&dyn " ">" s.type

/-- The traits that traits require. -/
def requiredTraits (lines : List String) : List String :=
  (items lines).flatMap fun i => (requiredTrait? i.header).toList

/-- The traits that types implement. -/
def implementedTraits (lines : List String) : List String :=
  ((declarations lines).filterMap Declared.implementation?).map Implementation.trait

/-- The traits of the handlers that subscribers give. -/
def handlerTraits (lines : List String) : List String :=
  (((declarations lines).filterMap Declared.trait?).filter (·.name = "TableSubscriber")).flatMap
    fun d => d.methods.filterMap handlerIn?

/-- The traits that are mentioned. -/
def mentionedTraits (lines : List String) : List String :=
  requiredTraits lines ++ (implementedTraits lines ++ handlerTraits lines)

/-- The traits that are declared. -/
def declaredTraits (lines : List String) : List String :=
  ((declarations lines).filterMap Declared.trait?).map TraitDeclaration.name

/-! ### Row types that are mentioned -/

/-- The row type in the line of a method that handles its rows. -/
def handledType? (line : String) : Option String := do
  let (_, cs) ← nameBehind? "    fn " line.toList
  let (name, _) ← nameBehind? "(&self, element: &" cs
  return name

/-- The row types that the methods of a trait handle. -/
def Item.handledTypes (i : Item) : List String :=
  match headingOf i.header with
  | .trait _ => i.body.filterMap handledType?
  | _ => []

/-- The row types that the methods of traits handle. -/
def handledTypes (lines : List String) : List String := (items lines).flatMap Item.handledTypes

/-- The row types that have functions or implement a trait. -/
def implementingTypes (lines : List String) : List String :=
  ((declarations lines).filterMap Declared.functions?).map FunctionsDeclaration.type ++
    ((declarations lines).filterMap Declared.implementation?).map Implementation.type

/-- The row types in the index of rows. -/
def indexedTypes (lines : List String) : List String :=
  ((declarations lines).filterMap Declared.index?).flatMap fun n =>
    n.tables ++ n.constructors ++ n.expressions

/-- The row types in the dispatch. -/
def dispatchedTypes (lines : List String) : List String :=
  ((declarations lines).filterMap Declared.dispatch?).flatMap fun n => n.tables ++ n.rows

/-- The row types that are mentioned. -/
def mentionedTypes (lines : List String) : List String :=
  handledTypes lines ++ (implementingTypes lines ++ (indexedTypes lines ++ dispatchedTypes lines))

/-- The types that are declared. -/
def declaredTypes (lines : List String) : List String :=
  ((declarations lines).filterMap Declared.structure?).map StructureDeclaration.name

/-- What is mentioned and not declared. -/
def missing (mentioned declared : List String) : List String := mentioned.filter (· ∉ declared)

/-! ### Reading the items of the file -/

/-- What is read off the row trait and the row types, if nothing is read off the other items. -/
theorem flatMap_items_rowFileLines {α : Type} {read : Item → List α} {g : RowDeclaration → List α}
    (source : String) (hrows : ∀ r ∈ m.rows, (rowItems r).flatMap read = g r)
    (hentry : read constructorItem = []) (haccessors : ∀ d ∈ m.accessors, read (accessorItem d) = [])
    (hindex : read (indexItem m.entries) = []) (hsubscriber : read (subscriberItem m.methods) = [])
    (hdispatch : read (dispatchItem m.branches) = []) :
    (items (rowFileLines source m)).flatMap read = read rowTraitItem ++ m.rows.flatMap g := by
  have haccessors : (m.accessors.map accessorItem).flatMap read = [] := by
    rw [List.flatMap_map, List.flatMap_eq_nil_iff]
    exact haccessors
  have hrows : (m.rows.flatMap rowItems).flatMap read = m.rows.flatMap g := by
    rw [List.flatMap_assoc]
    exact List.flatMap_congr hrows
  rw [items_rowFileLines, List.flatMap_append, List.flatMap_append, List.flatMap_append, hrows,
    haccessors]
  simp [hentry, hindex, hsubscriber, hdispatch]

/-- The traits of handlers, accessors and subscribers require no other. -/
theorem requiredTrait?_trait (h : IsName name) :
    requiredTrait? ("pub trait " ++ name ++ " \x7b") = none := by
  have hname : nameBehind? "pub trait " ("pub trait " ++ name ++ " \x7b").toList =
      some (name, [' ', '\x7b']) := nameBehind?_eq (by simp) h (by simp)
  rw [requiredTrait?, hname]
  rfl

/-- The row trait alone requires another one. -/
theorem requiredTraits_rowFileLines (source : String) (h : m.HasNames) :
    requiredTraits (rowFileLines source m) = ["WithSource"] := by
  have himplementation : ∀ s : String, requiredTrait? ("impl " ++ s) = none := by
    simp [requiredTrait?, nameBehind?, List.isPrefixOf?]
  have hrows : ∀ r ∈ m.rows,
      (rowItems r).flatMap (fun i => (requiredTrait? i.header).toList) = [] := by
    intro r hr
    have hstructure : requiredTrait? (structureItem r).header = none := by
      simp [structureItem, requiredTrait?, nameBehind?, List.isPrefixOf?]
    have hfunctions : requiredTrait? (functionsItem r).header = none := by
      rw [functionsItem, String.append_assoc]
      exact himplementation _
    have hrow : requiredTrait? (rowItem r).header = none := by
      rw [rowItem, String.append_assoc, String.append_assoc, String.append_assoc]
      exact himplementation _
    have hhandler : requiredTrait? (handlerItem r).header = none :=
      requiredTrait?_trait (h.rows r hr).handler
    have haccessors : ∀ i, requiredTrait? (accessorImplItem r.rowType i).header = none := by
      intro i
      rw [accessorImplItem, String.append_assoc, String.append_assoc, String.append_assoc]
      exact himplementation _
    simp [rowItems, hstructure, hfunctions, hrow, hhandler, haccessors]
  have haccessors : ∀ d ∈ m.accessors, (requiredTrait? (accessorItem d).header).toList = [] := by
    intro d hd
    rw [accessorItem, requiredTrait?_trait (h.accessors d hd).1, Option.toList_none]
  have hindex : (requiredTrait? (indexItem m.entries).header).toList = [] := by
    simp only [indexItem]
    decide
  have hsubscriber : (requiredTrait? (subscriberItem m.methods).header).toList = [] := by
    simp only [subscriberItem]
    decide
  have hdispatch : (requiredTrait? (dispatchItem m.branches).header).toList = [] := by
    simp only [dispatchItem]
    decide
  have hall := flatMap_items_rowFileLines source hrows (by decide) haccessors hindex hsubscriber
    hdispatch
  rw [requiredTraits, hall, List.flatMap_eq_nil_iff.mpr fun _ _ => rfl]
  decide

/-- A method without arguments handles no rows. -/
theorem handledType?_signature {line type : String} (h : IsName name)
    (hline : line = "    fn " ++ name ++ "(&self) -> " ++ type) : handledType? line = none := by
  have hcs : line.toList =
      "    fn ".toList ++ (name.toList ++ ("(&self) -> ".toList ++ type.toList)) := by simp [hline]
  have hmethod := nameBehind?_eq hcs h (by simp [isNameChar, Text.isWordChar])
  have hargument : nameBehind? "(&self, element: &" ("(&self) -> ".toList ++ type.toList) = none := by
    simp [nameBehind?, List.isPrefixOf?]
  simp only [handledType?, hmethod, hargument, Option.bind_eq_bind, Option.bind_some,
    Option.bind_none]

/-- The method of a handler handles the rows of its type. -/
theorem handledType?_process (h : IsName name) :
    handledType? ("    fn process(&self, element: &" ++ name ++ ", features: &mut FeatureCollector);") =
      some name := by
  have hprocess : IsName "process" := isName_ofList (by decide)
  have hmethod : nameBehind? "    fn " ("    fn process(&self, element: &" ++ name ++
      ", features: &mut FeatureCollector);").toList = some ("process",
        "(&self, element: &".toList ++
          (name.toList ++ ", features: &mut FeatureCollector);".toList)) :=
    nameBehind?_eq (by simp) hprocess (by simp [isNameChar, Text.isWordChar])
  have hargument : nameBehind? "(&self, element: &" ("(&self, element: &".toList ++
      (name.toList ++ ", features: &mut FeatureCollector);".toList)) =
        some (name, ", features: &mut FeatureCollector);".toList) :=
    nameBehind?_eq rfl h (by simp [isNameChar, Text.isWordChar])
  simp only [handledType?, hmethod, hargument, Option.bind_eq_bind, Option.bind_some]
  rfl

/-- Of the items of a row type, the trait of its handlers handles its rows. -/
theorem flatMap_handledTypes_rowItems (h : r.HasNames) :
    (rowItems r).flatMap Item.handledTypes = [r.rowType] := by
  have hstructure : (structureItem r).handledTypes = [] := by
    simp only [Item.handledTypes, structureItem, headingOf_structure h.rowType]
  have hfunctions : (functionsItem r).handledTypes = [] := by
    simp only [Item.handledTypes, functionsItem, headingOf_functions h.rowType]
  have hrow : (rowItem r).handledTypes = [] := by
    simp only [Item.handledTypes, rowItem, headingOf_implementation isName_row h.rowType]
  have hhandler : (handlerItem r).handledTypes = [r.rowType] := by
    simp only [Item.handledTypes, handlerItem, headingOf_trait h.handler, List.filterMap_cons,
      handledType?_process h.rowType, List.filterMap_nil]
  have haccessors : ∀ i ∈ r.accessors, (accessorImplItem r.rowType i).handledTypes = [] := by
    intro i hi
    simp only [Item.handledTypes, accessorImplItem,
      headingOf_implementation (h.accessors i hi).1 h.rowType]
  rw [rowItems, List.flatMap_append, List.flatMap_map, List.flatMap_eq_nil_iff.mpr haccessors]
  simp [hstructure, hfunctions, hrow, hhandler]

/-- The methods of subscribers handle no rows. -/
theorem handledTypes_subscriberItem {methods : List SubscriberMethod}
    (h : ∀ x ∈ methods, IsName x.method) : (subscriberItem methods).handledTypes = [] := by
  have hlines : ∀ x ∈ methods, ∀ line ∈ x.lines, handledType? line = none := by
    intro x hx
    have hline : "    fn " ++ x.method ++ "(&self) -> Option<&dyn " ++ x.handler ++ "> \x7b" =
        "    fn " ++ x.method ++ "(&self) -> " ++ ("Option<&dyn " ++ x.handler ++ "> \x7b") := by
      rw [← String.toList_inj]
      simp
    rw [SubscriberMethod.lines, List.forall_mem_cons, List.forall_mem_cons,
      List.forall_mem_singleton]
    exact ⟨handledType?_signature (h x hx) hline, by decide, by decide⟩
  have hbody : (subscriberItem methods).body.filterMap handledType? = [] := by
    rw [subscriberItem, filterMap_spaced (by decide), ← List.flatMap_def,
      List.filterMap_eq_nil_iff, List.forall_mem_flatMap]
    exact hlines
  simp only [Item.handledTypes, headingOf_subscriberItem, hbody]

/-- The methods of handlers alone handle rows, each those of one row type. -/
theorem handledTypes_rowFileLines (source : String) (h : m.HasNames) :
    handledTypes (rowFileLines source m) = m.rows.map RowDeclaration.rowType := by
  have hrows : ∀ r ∈ m.rows, (rowItems r).flatMap Item.handledTypes = [r.rowType] :=
    fun r hr => flatMap_handledTypes_rowItems (h.rows r hr)
  have haccessors : ∀ d ∈ m.accessors, (accessorItem d).handledTypes = [] := by
    intro d hd
    obtain ⟨htrait, hmethod⟩ := h.accessors d hd
    have hline := handledType?_signature hmethod
      (String.append_assoc : "    fn " ++ d.method ++ "(&self) -> " ++ d.type ++ ";" = _)
    simp only [Item.handledTypes, accessorItem, headingOf_trait htrait, List.filterMap_cons, hline,
      List.filterMap_nil]
  have hindex : (indexItem m.entries).handledTypes = [] := by
    simp only [Item.handledTypes, headingOf_indexItem]
  have hdispatch : (dispatchItem m.branches).handledTypes = [] := by
    simp only [Item.handledTypes, headingOf_dispatchItem]
  have hall := flatMap_items_rowFileLines source hrows (by decide) haccessors hindex
    (handledTypes_subscriberItem h.methods) hdispatch
  have hshared : rowTraitItem.handledTypes = [] := by decide
  rw [handledTypes, hall, hshared, List.nil_append, ← List.map_eq_flatMap]

/-! ### Constructors of the file -/

/-- Of the items of a row type, its functions hold its constructor. -/
theorem flatMap_constructor?_rowItems (h : r.HasNames) :
    (rowItems r).flatMap (fun i => i.constructor?.toList) =
      (functionsItem r).constructor?.toList := by
  have hstructure : (structureItem r).constructor? = none := by
    simp only [Item.constructor?, structureItem, headingOf_structure h.rowType]
  have hrow : (rowItem r).constructor? = none := by
    simp only [Item.constructor?, rowItem, headingOf_implementation isName_row h.rowType]
  have hhandler : (handlerItem r).constructor? = none := by
    simp only [Item.constructor?, handlerItem, headingOf_trait h.handler]
  have haccessors : ∀ i ∈ r.accessors,
      (accessorImplItem r.rowType i).constructor?.toList = [] := by
    intro i hi
    simp only [Item.constructor?, accessorImplItem,
      headingOf_implementation (h.accessors i hi).1 h.rowType, Option.toList_none]
  rw [rowItems, List.flatMap_append, List.flatMap_map, List.flatMap_eq_nil_iff.mpr haccessors]
  simp [hstructure, hrow, hhandler]

/-- The file has the constructors of its row types. -/
theorem constructors_eq (source : String) (hb : IsBuilt schema a) (h : IsRowModule a m) :
    constructors (rowFileLines source m) = (elementTables a.tables).map constructorOf := by
  have hnames : m.HasNames := hasNames_of_isRowModule hb h
  have haccessors : ∀ d ∈ m.accessors, (accessorItem d).constructor?.toList = [] := by
    intro d hd
    simp only [Item.constructor?, accessorItem, headingOf_trait (hnames.accessors d hd).1,
      Option.toList_none]
  have hindex : (indexItem m.entries).constructor?.toList = [] := by
    simp only [Item.constructor?, headingOf_indexItem, Option.toList_none]
  have hsubscriber : (subscriberItem m.methods).constructor?.toList = [] := by
    simp only [Item.constructor?, headingOf_subscriberItem, Option.toList_none]
  have hdispatch : (dispatchItem m.branches).constructor?.toList = [] := by
    simp only [Item.constructor?, headingOf_dispatchItem, Option.toList_none]
  have hall := flatMap_items_rowFileLines source
    (fun r hr => flatMap_constructor?_rowItems (hnames.rows r hr)) (by decide) haccessors hindex
    hsubscriber hdispatch
  have hshared : rowTraitItem.constructor?.toList = [] := by decide
  rw [constructors, List.filterMap_eq_flatMap_toList, hall, hshared, List.nil_append, h.rows,
    List.flatMap_map, List.map_eq_flatMap]
  refine List.flatMap_congr fun t ht => ?_
  have hrow : rowDeclaration t ∈ m.rows := h.rows ▸ List.mem_map_of_mem ht
  rw [constructor?_functionsItem (hnames.rows _ hrow), Option.toList_some]

/-! ### Row types -/

/-- The row types that implement traits are those of the tables. -/
theorem mem_rowTypeNames_of_implementation (source : String) (hb : IsBuilt schema a)
    (h : IsRowModule a m) {i : Implementation}
    (hi : i ∈ (declarations (rowFileLines source m)).filterMap Declared.implementation?) :
    i.type ∈ rowTypeNames schema := by
  rw [implementations_eq source hb h] at hi
  obtain ⟨t, ht, hi⟩ := List.mem_flatMap.mp hi
  rw [type_eq_of_mem_implementationsOf hi, ← map_rowType_elementTables hb]
  exact List.mem_map_of_mem ht

/-- The row types that are mentioned are those of the tables. -/
theorem mem_mentionedTypes_iff (source : String) (hb : IsBuilt schema a) (h : IsRowModule a m) :
    name ∈ mentionedTypes (rowFileLines source m) ↔ name ∈ rowTypeNames schema := by
  have hhandled : handledTypes (rowFileLines source m) = rowTypeNames schema := by
    rw [handledTypes_rowFileLines source (hasNames_of_isRowModule hb h), h.rows, List.map_map,
      ← map_rowType_elementTables hb]
    rfl
  have hindexed : indexedTypes (rowFileLines source m) =
      rowTypeNames schema ++ rowTypeNames schema ++ rowTypeNames schema := by
    rw [indexedTypes, indexes_eq source hb h, List.flatMap_singleton]
  have hdispatched : dispatchedTypes (rowFileLines source m) =
      rowTypeNames schema ++ rowTypeNames schema := by
    rw [dispatchedTypes, dispatches_eq source hb h, List.flatMap_singleton]
  have himplementing : name ∈ implementingTypes (rowFileLines source m) ↔
      name ∈ rowTypeNames schema := by
    have hfunctions : ((declarations (rowFileLines source m)).filterMap Declared.functions?).map
        FunctionsDeclaration.type = rowTypeNames schema := by
      rw [functions_rowFileLines source (hasNames_of_isRowModule hb h), h.rows, List.map_map,
        List.map_map, ← map_rowType_elementTables hb]
      rfl
    rw [implementingTypes, hfunctions, List.mem_append, or_iff_left_iff_imp]
    intro hname
    obtain ⟨i, hi, rfl⟩ := List.mem_map.mp hname
    exact mem_rowTypeNames_of_implementation source hb h hi
  simp only [mentionedTypes, List.mem_append, hhandled, himplementing, hindexed, hdispatched, or_self]

/-- No row type is missing. -/
theorem missing_types_eq (source : String) (hb : IsBuilt schema a) (h : IsRowModule a m) :
    missing (mentionedTypes (rowFileLines source m)) (declaredTypes (rowFileLines source m)) = [] := by
  have hdeclared : declaredTypes (rowFileLines source m) =
      "RowConstructor" :: rowTypeNames schema := structures_eq source hb h
  rw [missing, List.filter_eq_nil_iff]
  intro n hn
  rw [mem_mentionedTypes_iff source hb h] at hn
  simp [hdeclared, hn]

/-! ### Traits -/

theorem handlerIn?_subscriberSignature {row : Table.RowTarget} (h : IsName row.rowType) :
    handlerIn? (subscriberSignature row) = some (handlerTrait row.rowType) := by
  have hline : (subscriberSignature row).type = "Option<&dyn " ++ handlerTrait row.rowType ++ ">" :=
    rfl
  exact nameBetween?_eq hline (isName_handlerTrait h) (by simp [isNameChar, Text.isWordChar])

/-- The traits that are mentioned: the one of the source element, those that the rows implement and
those of their handlers. -/
theorem mentionedTraits_eq (source : String) (hb : IsBuilt schema a) (h : IsRowModule a m) :
    mentionedTraits (rowFileLines source m) = "WithSource" ::
      (((elementTables a.tables).flatMap implementationsOf).map Implementation.trait ++
        (rowTypeNames schema).map handlerTrait) := by
  have hhandlers : (subscriberSignatures schema).filterMap handlerIn? =
      (rowTypeNames schema).map handlerTrait := by
    rw [subscriberSignatures, rowTypeNames, List.filterMap_map, List.map_map,
      ← List.filterMap_eq_map]
    refine List.filterMap_congr fun entry _ => ?_
    have hrow : IsName (rowOf entry.1).rowType := isName_upperCamel (Table.databaseName entry.1)
    simp only [Function.comp_apply, handlerIn?_subscriberSignature hrow]
  rw [mentionedTraits, requiredTraits_rowFileLines source (hasNames_of_isRowModule hb h),
    implementedTraits, implementations_eq source hb h, handlerTraits, subscribers_eq source hb h,
    List.flatMap_singleton, hhandlers, List.singleton_append]

/-- The trait of the source element is declared exactly if there is a table. -/
theorem mem_traitNames_source_iff (hb : IsBuilt schema a) :
    "WithSource" ∈ traitNames a ↔ schema.tables.entries ≠ [] := by
  constructor
  · intro hmem hnone
    have hcompiled := hb.tables
    rw [Table.compile, hnone, Table.compileAll] at hcompiled
    obtain ⟨htypes, htables⟩ := Prod.mk.inj hcompiled
    rw [traitNames, ← htypes, ← Except.ok.inj htables] at hmem
    revert hmem
    decide
  · intro hsome
    have hall : List.Forall₂ Table.IsCompiled schema.tables.entries a.tables :=
      Table.compileAll_eq_ok hb.tables
    obtain ⟨t, ht⟩ : ∃ t, t ∈ a.tables := by
      refine List.exists_mem_of_ne_nil _ fun hnone => hsome ?_
      rwa [hnone, List.forall₂_nil_right_iff] at hall
    have hfield : Table.Field.source ∈ t.fields := by
      obtain ⟨entry, -, fs, e, hfields, -, rfl⟩ := Table.exists_isCompiled_of_mem hall ht
      obtain ⟨columns, -, rfl⟩ := map_eq_ok_iff.mp hfields
      exact List.mem_append_right _ List.mem_cons_self
    have hentry := mem_entries_of_mem_fields hb ht hfield
    have htrait : "WithSource" ∈ a.fieldTypes.entries.map fun e => accessorTrait e.1 :=
      List.mem_map.mpr ⟨_, hentry, by decide⟩
    simp [traitNames, htrait]

/-- The traits that the rows implement and those of their handlers are declared. -/
theorem mem_traitNames_of_mention (source : String) (hb : IsBuilt schema a) (h : IsRowModule a m) :
    ∀ n ∈ ((elementTables a.tables).flatMap implementationsOf).map Implementation.trait ++
      (rowTypeNames schema).map handlerTrait, n ∈ traitNames a := by
  rw [List.forall_mem_append, List.forall_mem_map, List.forall_mem_flatMap, List.forall_mem_map]
  constructor
  · intro t ht i hi
    have htrait := mem_traits_of_mem_implementationsOf source hb h (List.mem_of_mem_filter ht) hi
    rw [← map_name_traits source hb h]
    exact List.mem_map.mpr ⟨_, htrait, rfl⟩
  · intro n hn
    rw [← map_rowType_elementTables hb] at hn
    obtain ⟨t, ht, rfl⟩ := List.mem_map.mp hn
    have hhandler : handlerTrait t.rowType ∈
        (elementTables a.tables).map fun t => handlerTrait t.rowType := List.mem_map_of_mem ht
    simp only [traitNames, List.mem_cons, List.mem_append, hhandler, true_or, or_true]

/-- Of the traits, that of the source element alone can be missing. -/
theorem missing_traits_eq (source : String) (hb : IsBuilt schema a) (h : IsRowModule a m) :
    missing (mentionedTraits (rowFileLines source m)) (declaredTraits (rowFileLines source m)) =
      if schema.tables.entries.isEmpty then ["WithSource"] else [] := by
  have hdeclared : declaredTraits (rowFileLines source m) = traitNames a :=
    map_name_traits source hb h
  have hsource := mem_traitNames_source_iff hb
  have hothers : (((elementTables a.tables).flatMap implementationsOf).map Implementation.trait ++
      (rowTypeNames schema).map handlerTrait).filter (· ∉ traitNames a) = [] :=
    List.filter_eq_nil_iff.mpr fun n hn => by simp [mem_traitNames_of_mention source hb h n hn]
  rw [missing, mentionedTraits_eq source hb h, hdeclared, List.filter_cons, hothers]
  simp [hsource]

/-! ### The text of the file -/

theorem handledType?_of_not_isCode {line : String} (h : isCode line = false) :
    handledType? line = none := by
  have hname : nameBehind? "    fn " line.toList = none := nameBehind?_of_not_isCode (by decide) h
  rw [handledType?, hname]
  rfl

theorem parameters?_of_not_isCode {line : String} (h : isCode line = false) :
    parameters? line = none := by
  rw [parameters?, isPrefixOf?_eq_none_of_not_isCode (by decide) h, Option.map_none]

theorem valueBehind?_of_not_isCode {line : String} (h : isCode line = false) :
    valueBehind? line = none :=
  valueBehind?_eq_none (labelBehind?_spaces_of_not_isCode h)

/-- An item handles the row types that its code handles. -/
theorem handledTypes_code (i : Item) : i.code.handledTypes = i.handledTypes := by
  rw [Item.handledTypes, Item.handledTypes, Item.code,
    filterMap_filter_isCode fun _ => handledType?_of_not_isCode]

/-- The constructor in an item is that in its code. -/
theorem constructor?_code (i : Item) : i.code.constructor? = i.constructor? := by
  rw [Item.constructor?, Item.constructor?, Item.code,
    filterMap_filter_isCode fun _ => parameters?_of_not_isCode,
    filterMap_filter_isCode fun _ => valueBehind?_of_not_isCode]

section Text

variable {isBreak : Char → Bool} (hbreak : BreaksLines isBreak) (hend : isBreak '\n' = true)
  (hbuild : (Artifact.build schema source).result = .ok a) (hm : rowModule a = .ok m)
  (htexts : ∀ text ∈ commentTexts a, ContinuesComment isBreak text)
include hbreak hend hbuild hm htexts

/-- The text of the file mentions the traits that its written lines mention. -/
theorem mentionedTraits_codeLines :
    mentionedTraits (codeLines isBreak (unlines (rowFileLines a.source m))) =
      mentionedTraits (rowFileLines a.source m) := by
  have hrequired : requiredTraits (codeLines isBreak (unlines (rowFileLines a.source m))) =
      requiredTraits (rowFileLines a.source m) := by
    rw [requiredTraits, requiredTraits, items_codeLines hbreak hend hbuild hm htexts,
      List.flatMap_map]
    rfl
  rw [mentionedTraits, mentionedTraits, hrequired, implementedTraits, implementedTraits,
    handlerTraits, handlerTraits, declarations_codeLines hbreak hend hbuild hm htexts]

/-- The text of the file mentions the row types that its written lines mention. -/
theorem mentionedTypes_codeLines :
    mentionedTypes (codeLines isBreak (unlines (rowFileLines a.source m))) =
      mentionedTypes (rowFileLines a.source m) := by
  have hhandled : handledTypes (codeLines isBreak (unlines (rowFileLines a.source m))) =
      handledTypes (rowFileLines a.source m) := by
    rw [handledTypes, handledTypes, items_codeLines hbreak hend hbuild hm htexts, List.flatMap_map]
    exact List.flatMap_congr fun i _ => handledTypes_code i
  rw [mentionedTypes, mentionedTypes, hhandled, implementingTypes, implementingTypes, indexedTypes,
    indexedTypes, dispatchedTypes, dispatchedTypes,
    declarations_codeLines hbreak hend hbuild hm htexts]

/-- The text of the file has the constructors that its written lines have. -/
theorem constructors_codeLines :
    constructors (codeLines isBreak (unlines (rowFileLines a.source m))) =
      constructors (rowFileLines a.source m) := by
  rw [constructors, constructors, items_codeLines hbreak hend hbuild hm htexts, List.filterMap_map]
  exact List.filterMap_congr fun i _ => constructor?_code i

end Text

/-! ### Main result -/

/-- The file of the rows refers to nothing that it does not declare, unless the schema has no
tables.  Of the traits that it mentions, which are the trait of the source element that the row trait
requires, the traits that the row types implement and the handlers that subscribers give, the first
one is missing exactly if there are no tables, and no other is.  The row types of its functions,
implementations and handlers, of the index of rows and of the dispatch are those of the tables whose
rows are built from elements, and all of them are declared.  A constructor has two parameters, and
its values use no other variables.  All this is told of the strings that are written as lines; the
text of the file mentions the same (`mentionedTraits_codeLines`, `mentionedTypes_codeLines`,
`constructors_codeLines`) and declares the same (`declarations_codeLines`) where no text of the schema
leaves its comment. -/
theorem references_declared_iff_tables
    (hbuild : (Artifact.build schema source).result = .ok a)
    (hrender : (Artifact.render .code a).result = .ok files) :
    ∃ m, rowModule a = .ok m ∧ ⟨"tables.rs", unlines (rowFileLines a.source m)⟩ ∈ files ∧
      let lines := rowFileLines a.source m
      mentionedTraits lines = "WithSource" ::
        (((elementTables a.tables).flatMap implementationsOf).map Implementation.trait ++
          (rowTypeNames schema).map handlerTrait) ∧
      missing (mentionedTraits lines) (declaredTraits lines) =
        (if schema.tables.entries.isEmpty then ["WithSource"] else []) ∧
      (∀ n, n ∈ mentionedTypes lines ↔ n ∈ rowTypeNames schema) ∧
      missing (mentionedTypes lines) (declaredTypes lines) = [] ∧
      constructors lines = (elementTables a.tables).map constructorOf ∧
      ∀ c ∈ constructors lines, ∀ n ∈ c.used, n ∈ c.parameters := by
  have hb : IsBuilt schema a := isBuilt_of_build hbuild
  obtain ⟨m, hm, hfile⟩ := exists_rowModule_of_render hrender
  have h : IsRowModule a m := isRowModule_of_rowModule hm
  have hconstructors := constructors_eq a.source hb h
  refine ⟨m, hm, hfile, mentionedTraits_eq a.source hb h, missing_traits_eq a.source hb h,
    fun n => mem_mentionedTypes_iff a.source hb h, missing_types_eq a.source hb h, hconstructors, ?_⟩
  rw [hconstructors, List.forall_mem_map]
  exact fun t _ n hn => mem_parameters_of_mem_used hn

/-- A schema with the tables given. -/
def schemaOf (tables : Ordered.Dict TableSpec) : Schema where
  tileset := {}
  layers := []
  tables

/-- A table of the members of routes. -/
def routeMembers : Ordered.Dict TableSpec :=
  Ordered.Dict.empty.put "route_member"
    { kind := "relation_member", mapping := some (.mapping [("route", .scalar "bus")]) }

/-- The members of routes have no rows, and their table declares the trait of the source element. -/
theorem references_declared_iff_tables_route_members :
    ∃ a files m, (Artifact.build (schemaOf routeMembers) "v1").result = .ok a ∧
      (Artifact.render .code a).result = .ok files ∧
      ⟨"tables.rs", unlines (rowFileLines a.source m)⟩ ∈ files ∧
      "WithSource" ∈ mentionedTraits (rowFileLines a.source m) ∧
      missing (mentionedTraits (rowFileLines a.source m)) (declaredTraits (rowFileLines a.source m)) =
        [] := by
  obtain ⟨a, hbuild, hmodules, htypes, htraits⟩ : ∃ a,
      (Artifact.build (schemaOf routeMembers) "v1").result = .ok a ∧
      AreApart (moduleClaims a) ∧ AreApart (typeClaims a) ∧ AreApart (traitClaims a) :=
    ⟨_, rfl, List.nodup_nil, List.nodup_nil, List.nodup_singleton _⟩
  obtain ⟨files, hrender⟩ := (exists_render_iff a).mpr ⟨hmodules, htypes, htraits⟩
  obtain ⟨m, -, hfile, hmentioned, hmissing, -⟩ := references_declared_iff_tables hbuild hrender
  refine ⟨a, files, m, hbuild, hrender, hfile, ?_, hmissing⟩
  rw [hmentioned]
  exact List.mem_cons_self

/-- Without tables, the row trait requires a trait that is not declared. -/
theorem not_declared_of_no_tables :
    ∃ a files m, (Artifact.build (schemaOf .empty) "v1").result = .ok a ∧
      (Artifact.render .code a).result = .ok files ∧
      ⟨"tables.rs", unlines (rowFileLines a.source m)⟩ ∈ files ∧
      missing (mentionedTraits (rowFileLines a.source m)) (declaredTraits (rowFileLines a.source m)) =
        ["WithSource"] := by
  obtain ⟨a, hbuild, hmodules, htypes, htraits⟩ : ∃ a,
      (Artifact.build (schemaOf .empty) "v1").result = .ok a ∧
      AreApart (moduleClaims a) ∧ AreApart (typeClaims a) ∧ AreApart (traitClaims a) :=
    ⟨_, rfl, List.nodup_nil, List.nodup_nil, List.nodup_nil⟩
  obtain ⟨files, hrender⟩ := (exists_render_iff a).mpr ⟨hmodules, htypes, htraits⟩
  obtain ⟨m, hm, hfile⟩ := exists_rowModule_of_render hrender
  have hmissing := missing_traits_eq a.source (isBuilt_of_build hbuild) (isRowModule_of_rowModule hm)
  exact ⟨a, files, m, hbuild, hrender, hfile, hmissing⟩

end TileSchema.Code
