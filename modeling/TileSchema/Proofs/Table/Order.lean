import TileSchema.Proofs.Table.FieldTypes

/-!
# The order of the tables

Tables are compiled one after the other, and each one meets the types that those in front of it have
registered.  Still their order decides little.  All tables are compiled exactly if nothing is wrong
with any of them and no two of their fields contradict each other, and this is the same in every
order (`AreConsistent`).  A compiled table is determined by its definition alone (`compiledOf`), and
the type of a name is that of any field with this name (`Records.get?_congr`).  What remains of the
order is the order of the results.
-/

namespace TileSchema.Table

open TileSchema.Filter (Element)
open Ordered (Dict)

variable {types types' : FieldTypes} {earlier fs fs' : List Field} {f : Field} {key name : String}
  {is is' : List Item} {entries entries' : List (String × TableSpec)} {cs : List Compiled}
  {tables tables' : Dict TableSpec}

/-! ### Consistent items -/

/-- Items behind earlier fields are consistent if there is no fault among them, and no field
contradicts another one or an earlier one. -/
structure AreConsistent (earlier : List Field) (is : List Item) : Prop where
  no_fault : ∀ e, .fault e ∉ is
  apart : ∀ key f, .field key f ∈ is → ∀ g ∈ earlier, ¬ Contradicts f g
  together : ∀ key f key' g, .field key f ∈ is → .field key' g ∈ is → ¬ Contradicts f g

/-- The order of the items does not count. -/
theorem AreConsistent.congr (h : AreConsistent earlier is) (hmem : ∀ i, i ∈ is ↔ i ∈ is') :
    AreConsistent earlier is' := by
  constructor
  · intro e he
    exact h.no_fault e ((hmem _).mpr he)
  · intro key f hf
    exact h.apart key f ((hmem _).mpr hf)
  · intro key f key' g hf hg
    exact h.together key f key' g ((hmem _).mpr hf) ((hmem _).mpr hg)

/-- The first field belongs to the items, or to the earlier fields that it does not contradict. -/
theorem areConsistent_cons_iff :
    AreConsistent earlier (.field key f :: is) ↔
      (∀ g ∈ earlier, ¬ Contradicts f g) ∧ AreConsistent (earlier ++ [f]) is := by
  constructor
  · intro h
    refine ⟨h.apart key f List.mem_cons_self, ?_, ?_, ?_⟩
    · intro e he
      exact h.no_fault e (List.mem_cons_of_mem _ he)
    · intro key' g hg g' hg'
      have hitem : Item.field key' g ∈ .field key f :: is := List.mem_cons_of_mem _ hg
      rcases List.mem_append.mp hg' with hearlier | hlast
      · exact h.apart key' g hitem g' hearlier
      · rw [List.mem_singleton.mp hlast]
        exact h.together key' g key f hitem List.mem_cons_self
    · intro key₁ f₁ key₂ f₂ h₁ h₂
      exact h.together key₁ f₁ key₂ f₂ (List.mem_cons_of_mem _ h₁) (List.mem_cons_of_mem _ h₂)
  · rintro ⟨hfirst, hrest⟩
    have hlast : ∀ key' g, .field key' g ∈ is → ¬ Contradicts g f := fun key' g hg =>
      hrest.apart key' g hg f (List.mem_append_right _ (List.mem_singleton.mpr rfl))
    refine ⟨?_, ?_, ?_⟩
    · intro e he
      rcases List.mem_cons.mp he with heq | hmem
      · cases heq
      · exact hrest.no_fault e hmem
    · intro key' g hg g' hg'
      rcases List.mem_cons.mp hg with heq | hmem
      · cases heq
        exact hfirst g' hg'
      · exact hrest.apart key' g hmem g' (List.mem_append_left _ hg')
    · intro key₁ f₁ key₂ f₂ h₁ h₂ hcon
      rcases List.mem_cons.mp h₁ with heq₁ | hmem₁ <;> rcases List.mem_cons.mp h₂ with heq₂ | hmem₂
      · cases heq₁
        cases heq₂
        exact hcon.2 rfl
      · cases heq₁
        exact hlast key₂ f₂ hmem₂ hcon.symm
      · cases heq₂
        exact hlast key₁ f₁ hmem₁ hcon
      · exact hrest.together key₁ f₁ key₂ f₂ hmem₁ hmem₂ hcon

/-- A walk succeeds exactly if the items are consistent, behind the fields that are recorded. -/
theorem walk_eq_ok_iff (h : Records types earlier) :
    (walk types is).2 = .ok () ↔ AreConsistent earlier is := by
  induction is generalizing types earlier with
  | nil => exact iff_of_true rfl ⟨by simp, by simp, by simp⟩
  | cons i is ih =>
    cases i with
    | fault e =>
      constructor
      · intro hok
        cases hok
      · intro hconsistent
        exact absurd List.mem_cons_self (hconsistent.no_fault e)
    | field key f =>
      rw [walk, areConsistent_cons_iff]
      rcases h.register_cases key f with ⟨g, hg, hcon, hregister⟩ | ⟨hnone, types', hregister, h'⟩
      · rw [hregister]
        constructor
        · intro hok
          cases hok
        · intro hconsistent
          exact absurd hcon (hconsistent.1 g hg)
      · rw [hregister, ← ih h']
        exact (and_iff_right hnone).symm

/-- What a walk takes up are fields among the items. -/
theorem exists_mem_of_mem_takenUp (hf : f ∈ takenUp earlier is) : ∃ key, .field key f ∈ is := by
  induction is generalizing earlier with
  | nil => cases hf
  | cons i is ih =>
    cases i with
    | fault e => cases hf
    | field key g =>
      rw [takenUp] at hf
      split at hf
      · cases hf
      · rcases List.mem_cons.mp hf with rfl | hmem
        · exact ⟨key, List.mem_cons_self⟩
        · obtain ⟨key', hitem⟩ := ih hmem
          exact ⟨key', List.mem_cons_of_mem _ hitem⟩

/-! ### Types -/

/-- Types that record the same fields in another order agree. -/
theorem Records.get?_congr (h : Records types fs) (h' : Records types' fs')
    (hmem : ∀ f, f ∈ fs ↔ f ∈ fs') (name : String) : types.get? name = types'.get? name := by
  cases hget : types.get? name with
  | some type =>
    obtain ⟨f, hf, rfl, rfl⟩ := h.exists_of_get?_eq hget
    exact (h'.get?_eq f ((hmem f).mp hf)).symm
  | none =>
    cases hget' : types'.get? name with
    | none => rfl
    | some type =>
      obtain ⟨f, hf, rfl, rfl⟩ := h'.exists_of_get?_eq hget'
      rw [h.get?_eq f ((hmem f).mpr hf)] at hget
      cases hget

/-! ### Compiled tables -/

/-- What a table is compiled to, if nothing is wrong with it. -/
def compiledOf (entry : String × TableSpec) : Compiled :=
  .of entry.1 entry.2 ((tableSelection entry.2).toOption.getD (.and []))
    ((fields entry.1 entry.2).toOption.getD [])

/-- Compiled tables are those that the definitions are compiled to. -/
theorem eq_map_compiledOf (h : List.Forall₂ IsCompiled entries cs) :
    cs = entries.map compiledOf := by
  induction h with
  | nil => rfl
  | @cons entry c entries cs hc _ ih =>
    obtain ⟨fs, e, hfields, hselection, rfl⟩ := hc
    rw [List.map_cons, ← ih, compiledOf, hfields, hselection]
    rfl

/-! ### Tables in another order -/

/-- In another order, tables have the same items. -/
theorem mem_items_of_perm (h : entries.Perm entries') (i : Item) :
    i ∈ items entries ↔ i ∈ items entries' := by
  unfold items
  rw [List.mem_flatMap, List.mem_flatMap]
  simp only [h.mem_iff]

/-- Tables are compiled exactly if their items are consistent. -/
theorem compile_eq_ok_iff :
    (∃ cs, (compile .empty tables).2 = .ok cs) ↔ AreConsistent [] (items tables.entries) := by
  rw [← walk_eq_ok_iff .empty, compileAll_eq_walk]
  dsimp only
  rw [map_eq_ok_iff]
  constructor
  · rintro ⟨cs, hcs⟩
    exact ⟨cs, hcs, rfl⟩
  · rintro ⟨cs, hcs, -⟩
    exact ⟨cs, hcs⟩

/-- When all tables are compiled, the types record the fields among their items. -/
theorem exists_records_of_compile (h : compile .empty tables = (types, .ok cs)) :
    ∃ fs, Records types fs ∧ ∀ f, f ∈ fs ↔ ∃ key, .field key f ∈ items tables.entries := by
  have hwalk : walk .empty (items tables.entries) = (types, .ok ()) := by
    rw [compileAll_eq_walk]
    unfold compile at h
    rw [h]
    rfl
  have hrecords : Records types (takenUp [] (items tables.entries)) := by
    have hafter := Records.empty.walk (items tables.entries)
    rwa [hwalk] at hafter
  refine ⟨_, hrecords, fun f => ⟨exists_mem_of_mem_takenUp, ?_⟩⟩
  rintro ⟨key, hitem⟩
  exact mem_takenUp_of_walk .empty (congrArg Prod.snd hwalk) hitem

/-- The order of the tables decides nothing but the order of what is made of them.  With the same
tables in another order, all of them are compiled or else again not all of them are.  If they are,
each of them is compiled to the same, all names have the same types, and an element has the rows of
the same tables, in the order of the tables. -/
theorem table_order_decides_only_order (h : tables.entries.Perm tables'.entries) :
    ((∃ cs, (compile .empty tables).2 = .ok cs) ↔ ∃ cs, (compile .empty tables').2 = .ok cs) ∧
    ∀ types types' cs cs', compile .empty tables = (types, .ok cs) →
      compile .empty tables' = (types', .ok cs') →
        (∃ f : String × TableSpec → Compiled,
          cs = tables.entries.map f ∧ cs' = tables'.entries.map f) ∧
        (∀ name, types.get? name = types'.get? name) ∧
        ∀ el : Element,
          (∃ keep : String × TableSpec → Bool,
            (rowIndex cs).results el = (tables.entries.filter keep).map (rowOf ·.1) ∧
            (rowIndex cs').results el = (tables'.entries.filter keep).map (rowOf ·.1)) ∧
          ((rowIndex cs).results el).Perm ((rowIndex cs').results el) := by
  have hitems : ∀ i, i ∈ items tables.entries ↔ i ∈ items tables'.entries := mem_items_of_perm h
  constructor
  · rw [compile_eq_ok_iff, compile_eq_ok_iff]
    exact ⟨fun hc => hc.congr hitems, fun hc => hc.congr fun i => (hitems i).symm⟩
  · intro types types' cs cs' hcompile hcompile'
    have hcompiled : List.Forall₂ IsCompiled tables.entries cs := compileAll_eq_ok hcompile
    have hcompiled' : List.Forall₂ IsCompiled tables'.entries cs' := compileAll_eq_ok hcompile'
    refine ⟨⟨compiledOf, eq_map_compiledOf hcompiled, eq_map_compiledOf hcompiled'⟩, ?_, ?_⟩
    · obtain ⟨fs, hrecords, hfs⟩ := exists_records_of_compile hcompile
      obtain ⟨fs', hrecords', hfs'⟩ := exists_records_of_compile hcompile'
      refine hrecords.get?_congr hrecords' fun f => ?_
      rw [hfs, hfs']
      exact exists_congr fun key => hitems _
    · intro el
      classical
      rw [results_rowIndex hcompiled, results_rowIndex hcompiled']
      exact ⟨⟨_, rfl, rfl⟩, (h.filter _).map _⟩

/-- A table of all points with a name. -/
def namedPoints : TableSpec :=
  pointsWith { kind := "string", name := "name", key := some "name" } (.mapping [("name", .null)])

/-- A table of the peaks among the points. -/
def peakPoints : TableSpec :=
  pointsWith { kind := "string", name := "name", key := some "name" }
    (.mapping [("natural", .scalar "peak")])

/-- A peak with a name is a row of two tables, in the order of the tables. -/
theorem table_order_decides_only_order_named_peak :
    ∃ types cs types' cs',
      compile .empty ((Dict.empty.put "named" namedPoints).put "peaks" peakPoints) =
        (types, .ok cs) ∧
      compile .empty ((Dict.empty.put "peaks" peakPoints).put "named" namedPoints) =
        (types', .ok cs') ∧
      types.get? "name" = types'.get? "name" ∧
      (rowIndex cs).results ⟨["point"], [("natural", "peak"), ("name", "Fuji")]⟩ =
        [⟨"osm_named", "OsmNamed"⟩, ⟨"osm_peaks", "OsmPeaks"⟩] ∧
      ((rowIndex cs).results ⟨["point"], [("natural", "peak"), ("name", "Fuji")]⟩).Perm
        ((rowIndex cs').results ⟨["point"], [("natural", "peak"), ("name", "Fuji")]⟩) := by
  obtain ⟨types, cs, hcompile, hresults⟩ : ∃ types cs,
      compile .empty ((Dict.empty.put "named" namedPoints).put "peaks" peakPoints) =
        (types, .ok cs) ∧
      (rowIndex cs).results ⟨["point"], [("natural", "peak"), ("name", "Fuji")]⟩ =
        [⟨"osm_named", "OsmNamed"⟩, ⟨"osm_peaks", "OsmPeaks"⟩] := ⟨_, _, rfl, by decide⟩
  obtain ⟨types', cs', hcompile'⟩ : ∃ types' cs',
      compile .empty ((Dict.empty.put "peaks" peakPoints).put "named" namedPoints) =
        (types', .ok cs') := ⟨_, _, rfl⟩
  have hperm : ((Dict.empty.put "named" namedPoints).put "peaks" peakPoints).entries.Perm
      ((Dict.empty.put "peaks" peakPoints).put "named" namedPoints).entries :=
    List.Perm.swap ("peaks", peakPoints) ("named", namedPoints) []
  obtain ⟨-, hboth⟩ := table_order_decides_only_order hperm
  obtain ⟨-, htypes, hrows⟩ := hboth types types' cs cs' hcompile hcompile'
  exact ⟨types, cs, types', cs', hcompile, hcompile', htypes "name", hresults, (hrows _).2⟩

end TileSchema.Table
