import TileSchema.Proofs.Filter.Conjunction

/-!
# Lists in filters

Wherever a filter or the values of a field stand, a list may be nested in lists, may hold nothing at
some of its places, and may be left out around a single document.  None of this shows in the
compiled expression.

A document is brought into its flat form by writing one list at every such place, of documents that
are neither nothing nor lists (`flat`, `isFlat_flat`).  The flat form has the parts of the document,
in the same order and with the same values in the same order, or the same fault (`parts_flat`).  The
proof follows the kinds of mappings, since flattening keeps the keys by which they are told apart.
-/

namespace TileSchema.Filter

variable {f g : Filter} {fs gs : List Filter} {key : String} {entries : List (String × Filter)}

/-! ### Flat documents -/

instance : DecidablePred StandsAlone
  | .null => isFalse id
  | .sequence _ => isFalse id
  | .scalar _ => isTrue trivial
  | .mapping _ => isTrue trivial

/-- The values of a field in one list, without those that are nothing. -/
def flatValues (f : Filter) : List Filter := f.leaves.filter (StandsAlone ·)

mutual

/-- The filters of a document in one list, each with flat lists in it. -/
def flatItems : Filter → List Filter
  | .null => []
  | .scalar text => [.scalar text]
  | .sequence items => flatItemsOfItems items
  | .mapping entries => [.mapping (flatEntries entries)]

/-- The filters of all items. -/
def flatItemsOfItems : List Filter → List Filter
  | [] => []
  | f :: fs => flatItems f ++ flatItemsOfItems fs

/-- The entries of a mapping, with one list under every key. -/
def flatEntries : List (String × Filter) → List (String × Filter)
  | [] => []
  | (key, f) :: es =>
    (key, .sequence (if key = andKey ∨ key = orKey then flatItems f else flatValues f)) ::
      flatEntries es

end

/-- The flat form of a document. -/
def flat (f : Filter) : Filter := .sequence (flatItems f)

/-- A list of documents that are neither nothing nor lists. -/
def IsFlatList : Filter → Prop
  | .sequence items => ∀ f ∈ items, f.StandsAlone
  | _ => False

mutual

/-- A document is flat if it is a list, and so is everything in it that is read as a filter or as
the values of a field, and none of these lists holds a list or nothing. -/
inductive IsFlat : Filter → Prop
  | sequence {items : List Filter} (h : ∀ f ∈ items, IsFlatItem f) : IsFlat (.sequence items)

/-- The items of flat documents. -/
inductive IsFlatItem : Filter → Prop
  | scalar (text : String) : IsFlatItem (.scalar text)
  | mapping {entries : List (String × Filter)}
    (hoperands : ∀ entry ∈ entries, entry.1 = andKey ∨ entry.1 = orKey → IsFlat entry.2)
    (hvalues : ∀ entry ∈ entries, ¬ (entry.1 = andKey ∨ entry.1 = orKey) → IsFlatList entry.2) :
    IsFlatItem (.mapping entries)

end

@[simp] theorem flatItemsOfItems_eq_flatMap (fs : List Filter) :
    flatItemsOfItems fs = fs.flatMap flatItems := by
  induction fs with
  | nil => rfl
  | cons f fs ih => simp [flatItemsOfItems, ih]

@[simp] theorem flatItems_sequence (fs : List Filter) :
    flatItems (.sequence fs) = fs.flatMap flatItems := by
  rw [flatItems, flatItemsOfItems_eq_flatMap]

/-- The list under a key. -/
theorem flatEntries_eq_map (entries : List (String × Filter)) :
    flatEntries entries = entries.map fun entry =>
      (entry.1, .sequence
        (if entry.1 = andKey ∨ entry.1 = orKey then flatItems entry.2 else flatValues entry.2)) := by
  induction entries with
  | nil => rfl
  | cons entry entries ih => rw [flatEntries, ih, List.map_cons]

/-- Flattening keeps the keys of a mapping. -/
@[simp] theorem map_fst_flatEntries (entries : List (String × Filter)) :
    (flatEntries entries).map Prod.fst = entries.map Prod.fst := by
  rw [flatEntries_eq_map, List.map_map]
  rfl

/-- A document that is neither nothing nor a list is its own only leaf. -/
theorem leaves_of_standsAlone (h : f.StandsAlone) : f.leaves = [f] := by
  cases f with
  | null => exact absurd h not_false
  | sequence items => exact absurd h not_false
  | scalar text => rfl
  | mapping entries => rfl

/-- A flat list holds its own leaves. -/
theorem flatMap_leaves (h : ∀ f ∈ fs, f.StandsAlone) : fs.flatMap leaves = fs := by
  calc fs.flatMap leaves
      = fs.flatMap (fun f => [f]) := List.flatMap_congr fun f hf => leaves_of_standsAlone (h f hf)
    _ = fs := List.flatMap_singleton' fs

/-- The values of a field stand alone. -/
theorem standsAlone_of_mem_flatValues (h : g ∈ f.flatValues) : g.StandsAlone :=
  of_decide_eq_true (List.mem_filter.mp h).2

/-! ### The flat form is flat -/

/-- The flat form of a document is flat. -/
theorem isFlat_flat (f : Filter) : IsFlat f.flat := by
  induction f with
  | null => exact .sequence (by simp [flatItems])
  | scalar text => exact .sequence (by simpa [flatItems] using .scalar text)
  | sequence items ih =>
    refine .sequence fun g hg => ?_
    rw [flatItems_sequence, List.mem_flatMap] at hg
    obtain ⟨item, hitem, hg⟩ := hg
    cases ih item hitem with
    | sequence h => exact h g hg
  | mapping entries ih =>
    refine .sequence fun g hg => ?_
    obtain rfl : g = .mapping (flatEntries entries) := by simpa [flatItems] using hg
    refine .mapping ?_ ?_
    · intro entry hentry hkey
      rw [flatEntries_eq_map] at hentry
      obtain ⟨⟨key, f⟩, hf, rfl⟩ := List.mem_map.mp hentry
      simp only [if_pos hkey]
      exact ih (key, f) hf
    · intro entry hentry hkey
      rw [flatEntries_eq_map] at hentry
      obtain ⟨⟨key, f⟩, hf, rfl⟩ := List.mem_map.mp hentry
      simp only [if_neg hkey]
      exact fun value hvalue => standsAlone_of_mem_flatValues hvalue

/-- A flat list of values stays as it is. -/
theorem flatValues_of_isFlatList (h : IsFlatList f) : .sequence f.flatValues = f := by
  cases f with
  | sequence items =>
    rw [flatValues, leaves, leavesOfItems_eq_flatMap, flatMap_leaves h,
      List.filter_eq_self.mpr fun item hitem => decide_eq_true (h item hitem)]
  | _ => exact absurd h not_false

/-- A flat document stays as it is, and so does an item of one. -/
theorem flat_of_isFlat (f : Filter) :
    (IsFlat f → f.flat = f) ∧ (IsFlatItem f → f.flatItems = [f]) := by
  induction f with
  | null => exact ⟨nofun, nofun⟩
  | scalar text => exact ⟨nofun, fun _ => rfl⟩
  | sequence items ih =>
    refine ⟨fun h => ?_, nofun⟩
    cases h with
    | sequence h =>
      have hitems : items.flatMap flatItems = items := by
        calc items.flatMap flatItems
            = items.flatMap (fun item => [item]) :=
              List.flatMap_congr fun item hitem => (ih item hitem).2 (h item hitem)
          _ = items := List.flatMap_singleton' items
      rw [flat, flatItems_sequence, hitems]
  | mapping entries ih =>
    refine ⟨nofun, fun h => ?_⟩
    cases h with
    | mapping hoperands hvalues =>
      rw [flatItems, flatEntries_eq_map]
      congr 2
      conv_rhs => rw [← List.map_id entries]
      refine List.map_congr_left fun entry hentry => ?_
      by_cases hkey : entry.1 = andKey ∨ entry.1 = orKey
      · rw [if_pos hkey]
        exact Prod.ext rfl ((ih entry hentry).1 (hoperands entry hentry hkey))
      · rw [if_neg hkey]
        exact Prod.ext rfl (flatValues_of_isFlatList (hvalues entry hentry hkey))

/-! ### The parts of the flat form -/

/-- Documents that say nothing, and lists, add nothing to literals. -/
theorem literalsOf_filter (fs : List Filter) :
    literalsOf (fs.filter (StandsAlone ·)) = literalsOf fs := by
  induction fs with
  | nil => rfl
  | cons f fs ih =>
    cases f with
    | null => exact ih
    | sequence items => exact ih
    | scalar text => exact congrArg (Except.map (text :: ·)) ih
    | mapping entries => rfl

/-- The literals of a value list are those of its flat form. -/
theorem literals_flatValues (f : Filter) : (Filter.sequence f.flatValues).literals = f.literals := by
  have hleaves : f.flatValues.flatMap leaves = f.flatValues :=
    flatMap_leaves fun value hvalue => standsAlone_of_mem_flatValues hvalue
  rw [literals, leaves, leavesOfItems_eq_flatMap, hleaves, flatValues, literalsOf_filter, literals]

/-- The questions of fields do not depend on how their values are nested. -/
theorem fieldExpressions_flatEntries (h : ∀ entry ∈ entries, combinator? entry.1 = none) :
    fieldExpressions (flatEntries entries) = fieldExpressions entries := by
  induction entries with
  | nil => rfl
  | cons entry entries ih =>
    obtain ⟨hentry, hentries⟩ := List.forall_mem_cons.mp h
    have hkey : ¬ (entry.1 = andKey ∨ entry.1 = orKey) := by
      rw [not_or]
      exact combinator?_eq_none_iff.mp hentry
    rw [flatEntries, if_neg hkey, fieldExpressions, ih hentries, fieldExpressions, fieldExpression,
      literals_flatValues, fieldExpression]

/-- The parts of documents read one after the other, in two portions. -/
theorem partsOfItems_append (fs gs : List Filter) :
    partsOfItems (fs ++ gs) = do
      let ps ← partsOfItems fs
      let rest ← partsOfItems gs
      return ps ++ rest := by
  induction fs with
  | nil =>
    rw [List.nil_append, partsOfItems]
    cases partsOfItems gs with
    | error e => rfl
    | ok rest => rfl
  | cons f fs ih =>
    rw [List.cons_append, partsOfItems, ih, partsOfItems]
    cases f.parts with
    | error e => rfl
    | ok ps =>
      cases partsOfItems fs with
      | error e => rfl
      | ok qs =>
        cases partsOfItems gs with
        | error e => rfl
        | ok rest => simp [bind, Except.bind, pure, Except.pure]

/-- The parts of one document in a list. -/
theorem partsOfItems_singleton (f : Filter) : partsOfItems [f] = f.parts := by
  rw [partsOfItems, partsOfItems]
  cases f.parts with
  | error e => rfl
  | ok ps => simp [bind, Except.bind, pure, Except.pure]

/-- Replacing the items of a list by documents with the same parts does not change its parts. -/
theorem partsOfItems_flatMap (h : ∀ f ∈ fs, partsOfItems f.flatItems = f.parts) :
    partsOfItems (fs.flatMap flatItems) = partsOfItems fs := by
  induction fs with
  | nil => rfl
  | cons f fs ih =>
    obtain ⟨hf, hfs⟩ := List.forall_mem_cons.mp h
    rw [List.flatMap_cons, partsOfItems_append, hf, ih hfs, partsOfItems]

/-- The filters of a document in one list have the parts of the document. -/
theorem partsOfItems_flatItems (f : Filter) : partsOfItems f.flatItems = f.parts := by
  induction f with
  | null => rfl
  | scalar text => rfl
  | sequence items ih => rw [flatItems_sequence, partsOfItems_flatMap ih, parts_sequence]
  | mapping entries ih =>
    rw [flatItems, partsOfItems_singleton]
    rcases mapping_cases entries with ⟨key, f, op, rfl, hkey⟩ | hplain | ⟨hlen, key, hkey⟩
    · have hor : key = andKey ∨ key = orKey := exists_combinator?_iff.mp ⟨op, hkey⟩
      rw [flatEntries, if_pos hor, flatEntries, parts_mapping_of_combinator hkey, parts_sequence,
        ih (key, f) List.mem_cons_self, parts_mapping_of_combinator hkey]
    · have hplain' : ∀ entry ∈ flatEntries entries, combinator? entry.1 = none := by
        intro entry hentry
        rw [flatEntries_eq_map] at hentry
        obtain ⟨entry', hentry', rfl⟩ := List.mem_map.mp hentry
        exact hplain entry' hentry'
      rw [parts_mapping_of_plain hplain', fieldExpressions_flatEntries hplain,
        parts_mapping_of_plain hplain]
    · have hlen' : 1 < (flatEntries entries).length := by
        rw [flatEntries_eq_map, List.length_map]
        exact hlen
      have hkey' : combinatorKey? (flatEntries entries) = some key := by
        rw [combinatorKey?_eq_find?, map_fst_flatEntries, ← combinatorKey?_eq_find?, hkey]
      rw [parts_mapping_of_mixed hlen' hkey', parts_mapping_of_mixed hlen hkey]

/-- The flat form of a document has its parts. -/
theorem parts_flat (f : Filter) : f.flat.parts = f.parts := by
  rw [flat, parts_sequence, partsOfItems_flatItems]

/-- How lists are nested, and where they hold nothing, is invisible in what a filter is compiled to.
Every document has a flat form, which is the document itself if it is flat; documents with the same
flat form are compiled to the very same expression, or refused with the same fault. -/
theorem compile_sees_flat_form_only :
    (∀ f : Filter, IsFlat f.flat ∧ (IsFlat f → f.flat = f)) ∧
      ∀ f g : Filter, f.flat = g.flat → f.compile = g.compile := by
  refine ⟨fun f => ⟨isFlat_flat f, (flat_of_isFlat f).1⟩, ?_⟩
  intro f g h
  rw [compile, compile, ← parts_flat f, ← parts_flat g, h]

/-- A conjunction of one question on a field, without any list that can be left out, and with lists
in lists and nothing between them. -/
theorem compile_sees_flat_form_only_nested :
    compile (.mapping [(andKey, .mapping [("class", .sequence [.scalar "a", .scalar "b"])])]) =
      compile (.sequence [.null, .mapping [(andKey, .sequence [.sequence
        [.mapping [("class", .sequence [.sequence [.scalar "a", .null], .scalar "b"])]], .null])]]) :=
  compile_sees_flat_form_only.2 _ _ rfl

end TileSchema.Filter
