import TileSchema.Proofs.Filter.Grammar
import TileSchema.Proofs.Table.Dispatch

/-!
# Malformed filters in tables

A table can declare a mapping, a mapping for each of several types, and restrictions.  Not all of
these filters are read in every table.  Mappings for types stand in for the mapping of the table,
which is then left alone, and the restrictions are read with each mapping that is in use
(`filtersInUse`).

A malformed filter that is in use is never overlooked: the expression of the table fails with the
fault of the first such filter (`error?_tableSelection`), and with it every compilation that the
table is part of.  A table that declares no malformed filter has an expression.  A mapping next to
mappings for types is not in use, and may be malformed without notice
(`unused_malformed_mapping_overlooked`).
-/

namespace TileSchema

/-- A filter is malformed if it cannot be compiled. -/
def Filter.IsMalformed (f : Filter) : Prop := ∃ fault, f.compile = .error fault

namespace Table

open TileSchema.Filter (Expression Fault Reading error?_compile error?_selection)
open Ordered (Dict)

variable {t : TableSpec}

/-! ### Filters of a table -/

/-- All filters that a table declares. -/
def declaredFilters (t : TableSpec) : List Filter :=
  t.mapping.toList ++ (t.typeMappings.elim [] fun mappings => mappings.entries.map Prod.snd) ++
    t.restrictions.require.toList ++ t.restrictions.reject.toList

/-- The mappings that are in use: those for types if there are any declared, else that of the table,
which may be absent. -/
def mappingsInUse (t : TableSpec) : List (Option Filter) :=
  match t.typeMappings with
  | some mappings => mappings.entries.map fun entry => some entry.2
  | none => [t.mapping]

/-- The filters that the expression of a table is made from, in the order in which they are read. -/
def filtersInUse (t : TableSpec) : List Filter :=
  (mappingsInUse t).flatMap fun mapping => Filter.declaredFilters mapping t.restrictions

/-- The fault of the first malformed filter. -/
def firstFault (fs : List Filter) : Option Fault := fs.findSome? fun f => error? f.compile

theorem firstFault_append (fs gs : List Filter) :
    firstFault (fs ++ gs) = (firstFault fs).or (firstFault gs) := List.findSome?_append

/-- The first malformed filter holds the first faulty reading of all. -/
theorem firstFault_eq_findSome?_readings (fs : List Filter) :
    firstFault fs = (fs.flatMap Filter.readings).findSome? Reading.fault? := by
  induction fs with
  | nil => rfl
  | cons f fs ih =>
    have hf : firstFault [f] = f.readings.findSome? Reading.fault? := by
      rw [firstFault, List.findSome?_singleton, error?_compile]
    rw [List.flatMap_cons, List.findSome?_append, ← hf, ← ih, ← firstFault_append,
      List.singleton_append]

/-- There is a first malformed filter if there is one at all. -/
theorem exists_firstFault {fs : List Filter} {f : Filter} (hf : f ∈ fs) (hbad : f.IsMalformed) :
    ∃ fault, firstFault fs = some fault := by
  obtain ⟨fault, hfault⟩ := hbad
  refine Option.isSome_iff_exists.mp (List.findSome?_isSome_iff.mpr ⟨f, hf, ?_⟩)
  rw [hfault, error?_error, Option.isSome_some]

/-- Filters none of which is malformed have no fault. -/
theorem firstFault_eq_none {fs : List Filter} (h : ∀ f ∈ fs, ¬ f.IsMalformed) :
    firstFault fs = none := by
  refine List.findSome?_eq_none_iff.mpr fun f hf => ?_
  cases hcompile : f.compile with
  | error fault => exact absurd ⟨fault, hcompile⟩ (h f hf)
  | ok e => rfl

/-- A filter that is in use is declared. -/
theorem mem_declaredFilters_of_mem_filtersInUse {f : Filter} (h : f ∈ filtersInUse t) :
    f ∈ declaredFilters t := by
  obtain ⟨mapping, hmapping, hf⟩ := List.mem_flatMap.mp h
  unfold mappingsInUse at hmapping
  unfold declaredFilters
  cases htypes : t.typeMappings with
  | none =>
    rw [htypes, List.mem_singleton] at hmapping
    simp only [hmapping, Filter.declaredFilters, List.mem_append] at hf ⊢
    tauto
  | some mappings =>
    rw [htypes, List.mem_map] at hmapping
    obtain ⟨entry, hentry, rfl⟩ := hmapping
    simp only [Filter.declaredFilters, List.mem_append, Option.toList_some,
      List.mem_singleton] at hf
    simp only [List.mem_append, Option.elim_some, List.mem_map]
    rcases hf with (rfl | hrequire) | hreject
    · exact .inl (.inl (.inr ⟨entry, hentry, rfl⟩))
    · exact .inl (.inr hrequire)
    · exact .inr hreject

/-- A filter that is declared is in use, but for a mapping next to mappings for types, if there is a
type at all. -/
theorem mem_filtersInUse_of_mem_declaredFilters {f : Filter}
    (htypes : ∀ mappings ∈ t.typeMappings, mappings.entries ≠ []) (h : f ∈ declaredFilters t) :
    f ∈ filtersInUse t ∨ t.typeMappings.isSome ∧ f ∈ t.mapping := by
  obtain ⟨mapping, hmapping⟩ : ∃ mapping, mapping ∈ mappingsInUse t := by
    unfold mappingsInUse
    cases hmappings : t.typeMappings with
    | none => exact ⟨t.mapping, List.mem_cons_self⟩
    | some mappings =>
      obtain ⟨entry, hentry⟩ := List.exists_mem_of_ne_nil _ (htypes mappings hmappings)
      exact ⟨some entry.2, List.mem_map.mpr ⟨entry, hentry, rfl⟩⟩
  have hrestriction : f ∈ t.restrictions.require.toList ∨ f ∈ t.restrictions.reject.toList →
      f ∈ filtersInUse t := by
    intro hf
    refine List.mem_flatMap.mpr ⟨mapping, hmapping, ?_⟩
    simp only [Filter.declaredFilters, List.mem_append]
    tauto
  have huse : ∀ {mapping}, mapping ∈ mappingsInUse t → f ∈ mapping.toList → f ∈ filtersInUse t := by
    intro mapping hmapping hf
    refine List.mem_flatMap.mpr ⟨mapping, hmapping, ?_⟩
    exact List.mem_append_left _ (List.mem_append_left _ hf)
  simp only [declaredFilters, List.mem_append] at h
  rcases h with ((hf | hf) | hf) | hf
  · cases hmappings : t.typeMappings with
    | none => exact .inl (huse (by simp [mappingsInUse, hmappings]) hf)
    | some mappings => exact .inr ⟨rfl, Option.mem_toList.mp hf⟩
  · cases hmappings : t.typeMappings with
    | none => simp [hmappings] at hf
    | some mappings =>
      obtain ⟨entry, hentry, rfl⟩ := List.mem_map.mp (hmappings ▸ hf)
      have hmapping : some entry.2 ∈ mappingsInUse t := by
        rw [mappingsInUse, hmappings]
        exact List.mem_map.mpr ⟨entry, hentry, rfl⟩
      exact .inl (huse hmapping (List.mem_singleton.mpr rfl))
  · exact .inl (hrestriction (.inl hf))
  · exact .inl (hrestriction (.inr hf))

/-! ### The fault of a table -/

/-- The expressions of several types fail with the first fault in the order of the types. -/
theorem error?_selections (r : Restrictions) (mappings : List (String × Filter)) :
    error? (selections r mappings) =
      firstFault (mappings.flatMap fun entry => Filter.declaredFilters (some entry.2) r) := by
  induction mappings with
  | nil => rfl
  | cons entry mappings ih =>
    have hrest : ∀ e : Expression, error? (do
        let rest ← selections r mappings
        return e :: rest) =
          firstFault (mappings.flatMap fun entry => Filter.declaredFilters (some entry.2) r) := by
      intro e
      rw [error?_bind_of_forall fun _ => rfl, ih]
    rw [selections, error?_bind fun e _ => hrest e, error?_selection,
      ← firstFault_eq_findSome?_readings, List.flatMap_cons, firstFault_append]

/-- The expression of a table fails with the fault of the first malformed filter in use. -/
theorem error?_tableSelection (t : TableSpec) :
    error? (tableSelection t) = firstFault (filtersInUse t) := by
  unfold tableSelection filtersInUse mappingsInUse
  cases t.typeMappings with
  | some mappings =>
    dsimp only
    rw [selectionOfTypes, error?_map, error?_selections, List.flatMap_map]
  | none =>
    dsimp only
    rw [error?_selection, ← firstFault_eq_findSome?_readings, List.flatMap_singleton]

/-- Tables are not compiled if one of them has no expression. -/
theorem exists_error_of_tableSelection {types : FieldTypes} {tables : Dict TableSpec} {key : String}
    {fault : Fault} (hmem : (key, t) ∈ tables.entries) (h : tableSelection t = .error fault) :
    ∃ e, (compile types tables).2 = .error e := by
  cases hresult : (compile types tables).2 with
  | error e => exact ⟨e, rfl⟩
  | ok cs =>
    have hcompiled : List.Forall₂ IsCompiled tables.entries cs :=
      compileAll_eq_ok (Prod.ext rfl hresult)
    obtain ⟨c, -, fs, e, -, hselection, -⟩ := exists_mem_of_forall₂ hcompiled hmem
    rw [h] at hselection
    cases hselection

/-! ### Main result -/

/-- No malformed filter that is in use is overlooked.  If one of the filters that the expression of a
table is made from is malformed, the expression fails with the fault of the first one, and so does
every compilation of tables among which this one is, whatever has been registered before.  If a
table declares no malformed filter at all, it has an expression.  In a table without mappings for
types all declared filters are in use, and in one with some of them all but its own mapping. -/
theorem malformed_filters_in_use_are_refused :
    (∀ (t : TableSpec) (f : Filter), f ∈ filtersInUse t → f.IsMalformed →
      (∃ fault, firstFault (filtersInUse t) = some fault ∧ tableSelection t = .error fault) ∧
        ∀ (types : FieldTypes) (tables : Dict TableSpec) (key : String),
          (key, t) ∈ tables.entries → ∃ e, (compile types tables).2 = .error e) ∧
    (∀ t : TableSpec, (∀ f ∈ declaredFilters t, ¬ f.IsMalformed) → ∃ e, tableSelection t = .ok e) ∧
    ∀ t : TableSpec, (∀ mappings ∈ t.typeMappings, mappings.entries ≠ []) →
      ∀ f ∈ declaredFilters t, f ∈ filtersInUse t ∨ t.typeMappings.isSome ∧ f ∈ t.mapping := by
  refine ⟨?_, ?_, fun t htypes f hf => mem_filtersInUse_of_mem_declaredFilters htypes hf⟩
  · intro t f hf hbad
    obtain ⟨fault, hfirst⟩ := exists_firstFault hf hbad
    have hselection : tableSelection t = .error fault := by
      rw [← error?_eq_some_iff, error?_tableSelection, hfirst]
    exact ⟨⟨fault, hfirst, hselection⟩,
      fun types tables key hmem => exists_error_of_tableSelection hmem hselection⟩
  · intro t h
    rw [← error?_eq_none_iff, error?_tableSelection]
    exact firstFault_eq_none fun f hf => h f (mem_declaredFilters_of_mem_filtersInUse hf)

/-- Roads by type, with a literal for the mapping that the types stand in for. -/
def roadsByType : TableSpec where
  kind := "linestring"
  mapping := some (.scalar "highway")
  typeMappings := some (Dict.empty.put "linestrings" (.mapping [("highway", .scalar "primary")]))

/-- The same roads, rejecting those whose access is a mapping. -/
def roadsWithoutAccess : TableSpec :=
  { roadsByType with filters := some { reject := some (.mapping [("access", .mapping [])]) } }

/-- A malformed restriction of a table with several types is in use, and noticed; a table whose
filters are in order has an expression. -/
theorem malformed_filters_in_use_are_refused_rejected_access :
    (firstFault (filtersInUse roadsWithoutAccess) = some .mappingAmongLiterals ∧
      tableSelection roadsWithoutAccess = .error .mappingAmongLiterals) ∧
    (∃ e, (compile .empty (Dict.empty.put "roads" roadsWithoutAccess)).2 = .error e) ∧
    ∃ e, tableSelection mainRoads = .ok e := by
  obtain ⟨hrefused, haccepted, -⟩ := malformed_filters_in_use_are_refused
  have huse : Filter.mapping [("access", .mapping [])] ∈ filtersInUse roadsWithoutAccess :=
    List.mem_cons_of_mem _ List.mem_cons_self
  obtain ⟨⟨fault, hfirst, hselection⟩, hcompile⟩ := hrefused _ _ huse ⟨_, rfl⟩
  obtain rfl : fault = .mappingAmongLiterals := Option.some.inj hfirst.symm
  refine ⟨⟨hfirst, hselection⟩, hcompile .empty _ "roads" List.mem_cons_self, ?_⟩
  have hdeclared : declaredFilters mainRoads =
      [.mapping [("highway", .scalar "primary")], .mapping [("access", .scalar "private")]] := rfl
  apply haccepted mainRoads
  rw [hdeclared, List.forall_mem_cons, List.forall_mem_singleton]
  constructor
  · rintro ⟨fault', hfault⟩
    cases hfault
  · rintro ⟨fault', hfault⟩
    cases hfault

/-- A malformed mapping next to mappings for types is not in use, and not noticed. -/
theorem unused_malformed_mapping_overlooked :
    (∃ f ∈ declaredFilters roadsByType, f.IsMalformed) ∧
      (∃ e, tableSelection roadsByType = .ok e) ∧
      ∃ cs, (compile .empty (Dict.empty.put "roads" roadsByType)).2 = .ok cs :=
  ⟨⟨.scalar "highway", List.mem_cons_self, .literalAsFilter "highway", rfl⟩, ⟨_, rfl⟩, _, rfl⟩

end Table

end TileSchema
