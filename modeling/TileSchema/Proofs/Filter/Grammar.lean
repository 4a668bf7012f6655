import TileSchema.Proofs.Filter.Parts
import TileSchema.Schema.Error
import TileSchema.Table.Selection

/-!
# Which documents are filters

Whether a document is a filter depends on where its mappings stand: a mapping of fields is a filter,
but it is no literal, and a literal is no filter.  `IsFilter` says which documents are filters, and
`IsValueList` which may stand for the values of a field.

What is wrong with a document can be seen at one of its readings, the documents inside of it, each
with what it is read as (`readings`).  A reading is at fault on its own account, whatever stands
below it or next to it.  The documents without faulty readings are exactly the filters
(`isFilter_iff`), and compiling a document fails with the fault of its first faulty reading
(`error?_parts`).  Both are shown by following the same three kinds of mappings
(`mapping_cases`).
-/

namespace TileSchema.Filter

variable {f : Filter} {fs : List Filter} {key : String} {op : Connective}
  {entries : List (String × Filter)}

/-! ### The grammar -/

/-- A document that stands for the values of a field: nothing, a literal, or a list of such. -/
inductive IsValueList : Filter → Prop
  | null : IsValueList .null
  | scalar (text : String) : IsValueList (.scalar text)
  | sequence {items : List Filter} (h : ∀ f ∈ items, IsValueList f) : IsValueList (.sequence items)

/-- A document that is a filter: nothing, a list of filters, a filter under a combinator key that
stands alone, or a mapping that leads from keys of tags to value lists. -/
inductive IsFilter : Filter → Prop
  | null : IsFilter .null
  | sequence {items : List Filter} (h : ∀ f ∈ items, IsFilter f) : IsFilter (.sequence items)
  | combinator {key : String} {f : Filter} (hkey : key = andKey ∨ key = orKey) (h : IsFilter f) :
    IsFilter (.mapping [(key, f)])
  | fields {entries : List (String × Filter)}
    (hkeys : ∀ entry ∈ entries, entry.1 ≠ andKey ∧ entry.1 ≠ orKey)
    (hvalues : ∀ entry ∈ entries, IsValueList entry.2) : IsFilter (.mapping entries)

/-! ### Readings -/

/-- A document that is no list, with what it is read as where it stands. -/
inductive Reading where
  /-- As a filter. -/
  | filter (f : Filter)
  /-- As one of the literals of a value list. -/
  | literal (f : Filter)

/-- What is wrong with a reading, whatever stands below it: a literal is no filter, a combinator
has to be alone, and a mapping is no literal. -/
def Reading.fault? : Reading → Option Fault
  | .filter (.scalar text) => some (.literalAsFilter text)
  | .filter (.mapping entries) =>
    if 1 < entries.length then
      ([andKey, orKey].find? (· ∈ entries.map Prod.fst)).map .combinatorNotAlone
    else none
  | .literal (.mapping _) => some .mappingAmongLiterals
  | _ => none

mutual

/-- The readings of a filter in the order of the document: a mapping comes before what stands in
it. -/
def readings : Filter → List Reading
  | .sequence items => readingsOfItems items
  | .mapping entries => .filter (.mapping entries) :: readingsOfEntries entries
  | f => [.filter f]

/-- The readings of the items of a list. -/
def readingsOfItems : List Filter → List Reading
  | [] => []
  | f :: fs => readings f ++ readingsOfItems fs

/-- The readings of what stands under the keys of a mapping: a filter under a combinator key, and
values under any other. -/
def readingsOfEntries : List (String × Filter) → List Reading
  | [] => []
  | (key, f) :: es =>
    (if key = andKey ∨ key = orKey then readings f else f.leaves.map .literal) ++
      readingsOfEntries es

end

@[simp] theorem readingsOfItems_eq_flatMap (fs : List Filter) :
    readingsOfItems fs = fs.flatMap readings := by
  induction fs with
  | nil => rfl
  | cons f fs ih => simp [readingsOfItems, ih]

@[simp] theorem readings_null : readings .null = [.filter .null] := rfl

@[simp] theorem readings_scalar (text : String) :
    readings (.scalar text) = [.filter (.scalar text)] := rfl

@[simp] theorem readings_sequence (fs : List Filter) :
    readings (.sequence fs) = fs.flatMap readings := by
  rw [readings, readingsOfItems_eq_flatMap]

/-- The readings of a filter under a combinator key. -/
theorem readings_combinator (hkey : combinator? key = some op) :
    readings (.mapping [(key, f)]) = .filter (.mapping [(key, f)]) :: readings f := by
  have hor : key = andKey ∨ key = orKey := exists_combinator?_iff.mp ⟨op, hkey⟩
  rw [readings, readingsOfEntries, if_pos hor, readingsOfEntries, List.append_nil]

/-- The readings of a mapping of fields. -/
theorem readings_fields (h : ∀ entry ∈ entries, combinator? entry.1 = none) :
    readings (.mapping entries) =
      .filter (.mapping entries) ::
        entries.flatMap fun entry => entry.2.leaves.map Reading.literal := by
  rw [readings]
  congr 1
  induction entries with
  | nil => rfl
  | cons entry entries ih =>
    obtain ⟨hentry, hentries⟩ := List.forall_mem_cons.mp h
    have hnot : ¬ (entry.1 = andKey ∨ entry.1 = orKey) := by
      rw [not_or]
      exact combinator?_eq_none_iff.mp hentry
    rw [readingsOfEntries, if_neg hnot, ih hentries, List.flatMap_cons]

/-- A mapping of one entry is not at fault itself. -/
@[simp] theorem fault?_singleton (entry : String × Filter) :
    (Reading.filter (.mapping [entry])).fault? = none := by
  simp [Reading.fault?]

/-- A mapping of fields is not at fault itself. -/
theorem fault?_fields (h : ∀ entry ∈ entries, combinator? entry.1 = none) :
    (Reading.filter (.mapping entries)).fault? = none := by
  rw [Reading.fault?, ← combinatorKey?_eq_find?, combinatorKey?_eq_none_iff.mpr h, Option.map_none,
    ite_self]

/-- A combinator that is not alone is at fault. -/
theorem fault?_mixed (hlen : 1 < entries.length) (hkey : combinatorKey? entries = some key) :
    (Reading.filter (.mapping entries)).fault? = some (.combinatorNotAlone key) := by
  rw [Reading.fault?, if_pos hlen, ← combinatorKey?_eq_find?, hkey, Option.map_some]

/-! ### Filters have no faulty readings -/

/-- A document is a value list exactly if no mapping is among its leaves. -/
theorem isValueList_iff :
    IsValueList f ↔ ∀ leaf ∈ f.leaves, (Reading.literal leaf).fault? = none := by
  induction f with
  | null => exact iff_of_true .null (by simp [leaves, Reading.fault?])
  | scalar text => exact iff_of_true (.scalar text) (by simp [leaves, Reading.fault?])
  | sequence items ih =>
    have hitems : IsValueList (.sequence items) ↔ ∀ f ∈ items, IsValueList f :=
      ⟨fun h => by cases h with | sequence h => exact h, .sequence⟩
    rw [hitems, leaves, leavesOfItems_eq_flatMap]
    simp only [List.mem_flatMap, forall_exists_index, and_imp]
    constructor
    · intro h leaf item hitem
      exact (ih item hitem).mp (h item hitem) leaf
    · intro h item hitem
      exact (ih item hitem).mpr fun leaf => h leaf item hitem
  | mapping entries _ =>
    refine iff_of_false (fun h => nomatch h) ?_
    simp [leaves, Reading.fault?]

/-- A list is a filter exactly if its items are. -/
theorem isFilter_sequence_iff : IsFilter (.sequence fs) ↔ ∀ f ∈ fs, IsFilter f :=
  ⟨fun h => by cases h with | sequence h => exact h, .sequence⟩

/-- A document under a combinator key is a filter exactly if it is one by itself. -/
theorem isFilter_combinator_iff (hkey : combinator? key = some op) :
    IsFilter (.mapping [(key, f)]) ↔ IsFilter f := by
  have hor : key = andKey ∨ key = orKey := exists_combinator?_iff.mp ⟨op, hkey⟩
  constructor
  · intro h
    cases h with
    | combinator _ h => exact h
    | fields hkeys _ =>
      obtain ⟨hand, hor'⟩ := hkeys (key, f) List.mem_cons_self
      exact absurd hor (not_or.mpr ⟨hand, hor'⟩)
  · exact .combinator hor

/-- A mapping without combinator keys is a filter exactly if its values are value lists. -/
theorem isFilter_fields_iff (h : ∀ entry ∈ entries, combinator? entry.1 = none) :
    IsFilter (.mapping entries) ↔ ∀ entry ∈ entries, IsValueList entry.2 := by
  constructor
  · intro hfilter
    cases hfilter with
    | @combinator key f hkey _ =>
      have hnone := combinator?_eq_none_iff.mp (h (key, f) List.mem_cons_self)
      exact absurd hkey (not_or.mpr hnone)
    | fields _ hvalues => exact hvalues
  · exact .fields fun entry hentry => combinator?_eq_none_iff.mp (h entry hentry)

/-- A mapping with a combinator key next to other keys is no filter. -/
theorem not_isFilter_mixed (hlen : 1 < entries.length) (hkey : combinatorKey? entries = some key) :
    ¬ IsFilter (.mapping entries) := by
  intro h
  cases h with
  | combinator _ _ => simp at hlen
  | fields hkeys _ =>
    have hnone : combinatorKey? entries = none := combinatorKey?_eq_none_iff.mpr
      fun entry hentry => combinator?_eq_none_iff.mpr (hkeys entry hentry)
    rw [hkey] at hnone
    cases hnone

/-- The filters are the documents without faulty readings. -/
theorem isFilter_iff : IsFilter f ↔ ∀ r ∈ f.readings, r.fault? = none := by
  induction f with
  | null => exact iff_of_true .null (by simp [Reading.fault?])
  | scalar text => exact iff_of_false (fun h => nomatch h) (by simp [Reading.fault?])
  | sequence items ih =>
    rw [isFilter_sequence_iff, readings_sequence]
    simp only [List.mem_flatMap, forall_exists_index, and_imp]
    constructor
    · intro h r item hitem
      exact (ih item hitem).mp (h item hitem) r
    · intro h item hitem
      exact (ih item hitem).mpr fun r => h r item hitem
  | mapping entries ih =>
    rcases mapping_cases entries with ⟨key, f, op, rfl, hkey⟩ | hplain | ⟨hlen, key, hkey⟩
    · rw [isFilter_combinator_iff hkey, readings_combinator hkey, List.forall_mem_cons,
        ih (key, f) List.mem_cons_self]
      simp
    · rw [isFilter_fields_iff hplain, readings_fields hplain, List.forall_mem_cons]
      simp only [fault?_fields hplain, true_and, isValueList_iff, List.mem_flatMap, List.mem_map,
        forall_exists_index, and_imp]
      constructor
      · rintro h _ entry hentry leaf hleaf rfl
        exact h entry hentry leaf hleaf
      · intro h entry hentry leaf hleaf
        exact h _ entry hentry leaf hleaf rfl
    · refine iff_of_false (not_isFilter_mixed hlen hkey) ?_
      rw [readings, List.forall_mem_cons, fault?_mixed hlen hkey]
      simp

instance (f : Filter) : Decidable (IsFilter f) := decidable_of_iff _ isFilter_iff.symm

example : IsFilter (.mapping [("highway", .null), ("layer", .sequence [.scalar "1"])]) ∧
    ¬ IsFilter (.sequence [.null, .mapping [("highway", .mapping [])]]) := by decide

/-! ### The first fault -/

/-- Literals cannot be read because of the first mapping among them. -/
theorem error?_literalsOf (fs : List Filter) :
    error? (literalsOf fs) = (fs.map Reading.literal).findSome? Reading.fault? := by
  induction fs with
  | nil => rfl
  | cons f fs ih =>
    rw [List.map_cons, List.findSome?_cons]
    cases f with
    | scalar text => rw [literalsOf, error?_map]; exact ih
    | mapping entries => rfl
    | null => exact ih
    | sequence items => exact ih

/-- The question of a field cannot be read because of its values. -/
theorem error?_fieldExpression (key : String) (values : Filter) :
    error? (fieldExpression key values) =
      (values.leaves.map Reading.literal).findSome? Reading.fault? := by
  rw [fieldExpression, error?_bind_of_forall, literals, error?_literalsOf]
  intro literals
  split <;> rfl

/-- The question of a field can be read exactly if its values are a value list. -/
theorem exists_fieldExpression_iff {values : Filter} :
    (∃ p, fieldExpression key values = .ok p) ↔ IsValueList values := by
  rw [← error?_eq_none_iff, error?_fieldExpression, List.findSome?_eq_none_iff, isValueList_iff]
  simp

/-- The questions of several fields cannot be read because of the first values that are no value
list. -/
theorem error?_fieldExpressions (entries : List (String × Filter)) :
    error? (fieldExpressions entries) =
      (entries.flatMap fun entry => entry.2.leaves.map Reading.literal).findSome?
        Reading.fault? := by
  induction entries with
  | nil => rfl
  | cons entry entries ih =>
    rw [fieldExpressions, List.flatMap_cons, List.findSome?_append, ← error?_fieldExpression entry.1,
      ← ih]
    refine error?_bind fun e _ => ?_
    exact error?_bind_of_forall fun _ => rfl

/-- The parts of a list cannot be read because of the first fault in its items. -/
theorem error?_partsOfItems
    (h : ∀ f ∈ fs, error? f.parts = f.readings.findSome? Reading.fault?) :
    error? (partsOfItems fs) = (fs.flatMap readings).findSome? Reading.fault? := by
  induction fs with
  | nil => rfl
  | cons f fs ih =>
    obtain ⟨hf, hfs⟩ := List.forall_mem_cons.mp h
    rw [partsOfItems, List.flatMap_cons, List.findSome?_append, ← hf, ← ih hfs]
    refine error?_bind fun ps _ => ?_
    exact error?_bind_of_forall fun _ => rfl

/-- The parts of a document cannot be read because of the first faulty reading. -/
theorem error?_parts (f : Filter) : error? f.parts = f.readings.findSome? Reading.fault? := by
  induction f with
  | null => rfl
  | scalar text => rfl
  | sequence items ih => rw [parts_sequence, readings_sequence, error?_partsOfItems ih]
  | mapping entries ih =>
    rcases mapping_cases entries with ⟨key, f, op, rfl, hkey⟩ | hplain | ⟨hlen, key, hkey⟩
    · rw [parts_mapping_of_combinator hkey, error?_map, readings_combinator hkey,
        List.findSome?_cons, fault?_singleton, ih (key, f) List.mem_cons_self]
    · rw [parts_mapping_of_plain hplain, error?_fieldExpressions, readings_fields hplain,
        List.findSome?_cons, fault?_fields hplain]
    · rw [parts_mapping_of_mixed hlen hkey, readings, List.findSome?_cons, fault?_mixed hlen hkey,
        error?_error]

/-- A document cannot be compiled because of its first faulty reading. -/
theorem error?_compile (f : Filter) : error? f.compile = f.readings.findSome? Reading.fault? := by
  rw [compile, error?_map, error?_parts]

/-- The parts of a document that may be absent. -/
theorem error?_optionalParts (f : Option Filter) :
    error? (optionalParts f) = (f.toList.flatMap readings).findSome? Reading.fault? := by
  cases f with
  | none => rfl
  | some f => simpa [optionalParts] using error?_parts f

/-! ### The filters of a type -/

/-- The filters that are declared for the elements of a type, in the order in which they are
read. -/
def declaredFilters (mapping : Option Filter) (r : Restrictions) : List Filter :=
  mapping.toList ++ r.require.toList ++ r.reject.toList

/-- The selection of a type cannot be made because of the first fault in its mapping, in what it
requires, or in what it rejects. -/
theorem error?_selection (kind : String) (mapping : Option Filter) (r : Restrictions) :
    error? (Table.selection kind mapping r) =
      ((declaredFilters mapping r).flatMap readings).findSome? Reading.fault? := by
  rw [Table.selection, error?_map, Table.rawSelection, declaredFilters, List.flatMap_append,
    List.flatMap_append, List.findSome?_append, List.findSome?_append, Option.or_assoc,
    ← error?_optionalParts, ← error?_optionalParts, ← error?_optionalParts]
  refine error?_bind fun wanted _ => ?_
  refine error?_bind fun required _ => ?_
  exact error?_bind_of_forall fun _ => rfl

/-- There is no fault in documents exactly if all of them are filters. -/
theorem findSome?_fault?_eq_none_iff :
    (fs.flatMap readings).findSome? Reading.fault? = none ↔ ∀ f ∈ fs, IsFilter f := by
  rw [List.findSome?_eq_none_iff]
  simp only [List.mem_flatMap, forall_exists_index, and_imp, isFilter_iff]
  constructor
  · intro h f hf r hr
    exact h r f hf hr
  · intro h r f hf hr
    exact h f hf r hr

/-- Exactly the filters can be compiled.  Any other document is refused with the fault of its first
faulty reading.  The selection of a type can be made exactly if its mapping, what it requires and
what it rejects are filters as far as they are declared, and otherwise is refused with the first
fault of these in this order. -/
theorem compile_accepts_exactly_filters :
    (∀ f : Filter,
      ((∃ e, f.compile = .ok e) ↔ IsFilter f) ∧
        error? (f.compile.mapError SchemaError.malformed) =
          (f.readings.findSome? Reading.fault?).map SchemaError.malformed) ∧
      ∀ (kind : String) (mapping : Option Filter) (r : Restrictions),
        ((∃ e, Table.selection kind mapping r = .ok e) ↔
            ∀ f ∈ declaredFilters mapping r, IsFilter f) ∧
          error? ((Table.selection kind mapping r).mapError SchemaError.malformed) =
            (((declaredFilters mapping r).flatMap readings).findSome? Reading.fault?).map
              SchemaError.malformed := by
  refine ⟨fun f => ⟨?_, ?_⟩, fun kind mapping r => ⟨?_, ?_⟩⟩
  · rw [← error?_eq_none_iff, error?_compile, List.findSome?_eq_none_iff, isFilter_iff]
  · rw [error?_mapError, error?_compile]
  · rw [← error?_eq_none_iff, error?_selection, findSome?_fault?_eq_none_iff]
  · rw [error?_mapError, error?_selection]

end TileSchema.Filter
