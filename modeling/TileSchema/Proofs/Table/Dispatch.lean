import Mathlib.Data.List.Nodup
import TileSchema.Proofs.Table.Selection
import TileSchema.Table.Compile

/-!
# Compiled tables and the row index

The tables of a schema are compiled one after the other, and each compiled table stands at the place
of its definition (`compileAll_eq_ok`).  Hence the row index leads every element to the rows of the
tables that select it, in the order of the tables (`results_rowIndex`).  A table of relation members
has no rows in the index.
-/

namespace TileSchema.Table

open TileSchema.Filter (Element Expression)
open Ordered (Dict)

variable {el : Element} {key : String} {t : TableSpec} {c : Compiled} {cs : List Compiled}
  {types types' : FieldTypes} {entries : List (String × TableSpec)}

/-! ### Compiled tables -/

/-- A compiled table belongs to a definition if it has the name, the kind, the fields and the
expression that the definition asks for. -/
def IsCompiled (entry : String × TableSpec) (c : Compiled) : Prop :=
  ∃ fs e, fields entry.1 entry.2 = .ok fs ∧ tableSelection entry.2 = .ok e ∧
    c = .of entry.1 entry.2 e fs

/-- A compiled table belongs to its definition. -/
theorem compileOne_eq_ok (h : compileOne types key t = (types', .ok c)) : IsCompiled (key, t) c := by
  unfold compileOne at h
  split at h
  · simp at h
  · next fs hfs =>
    split at h
    · simp at h
    · obtain ⟨-, hc⟩ := Prod.mk.inj h
      obtain ⟨e, he, rfl⟩ := map_eq_ok_iff.mp hc
      exact ⟨fs, e, hfs, liftFault_eq_ok_iff.mp he, rfl⟩

/-- The compiled tables belong to the definitions, one by one. -/
theorem compileAll_eq_ok (h : compileAll types entries = (types', .ok cs)) :
    List.Forall₂ IsCompiled entries cs := by
  induction entries generalizing types types' cs with
  | nil =>
    simp only [compileAll, Prod.mk.injEq, Except.ok.injEq] at h
    rw [← h.2]
    exact List.Forall₂.nil
  | cons entry entries ih =>
    obtain ⟨key, t⟩ := entry
    rw [compileAll] at h
    split at h
    · simp at h
    · next types₁ c hone =>
      split at h
      · simp at h
      · next types₂ rest hrest =>
        obtain ⟨-, hcs⟩ := Prod.mk.inj h
        rw [← Except.ok.inj hcs]
        exact List.Forall₂.cons (compileOne_eq_ok hone) (ih hrest)

/-- Every compiled table belongs to one of the definitions. -/
theorem exists_isCompiled_of_mem (h : List.Forall₂ IsCompiled entries cs) (hc : c ∈ cs) :
    ∃ entry ∈ entries, IsCompiled entry c := by
  induction h with
  | nil => simp at hc
  | @cons entry c' entries cs hcompiled _ ih =>
    rcases List.mem_cons.mp hc with rfl | hmem
    · exact ⟨entry, List.mem_cons_self, hcompiled⟩
    · obtain ⟨entry', hentry', h'⟩ := ih hmem
      exact ⟨entry', List.mem_cons_of_mem _ hentry', h'⟩

/-- Of two lists that belong together member by member, each member of the first has one of the
second. -/
theorem exists_mem_of_forall₂ {α β : Type} {R : α → β → Prop} {as : List α} {bs : List β} {a : α}
    (h : List.Forall₂ R as bs) (ha : a ∈ as) : ∃ b ∈ bs, R a b := by
  induction h with
  | nil => cases ha
  | @cons a' b as bs hfirst _ ih =>
    rcases List.mem_cons.mp ha with rfl | hmem
    · exact ⟨b, List.mem_cons_self, hfirst⟩
    · obtain ⟨b', hb', hrest⟩ := ih hmem
      exact ⟨b', List.mem_cons_of_mem _ hb', hrest⟩

/-! ### The row index -/

/-- The row that a table with a key gives to its elements. -/
def rowOf (key : String) : RowTarget where
  table := databaseName key
  rowType := Text.upperCamel (databaseName key)

/-- Different tables have different rows. -/
theorem rowOf_injective : Function.Injective rowOf := by
  intro k₁ k₂ h
  have hname : ("osm_" ++ k₁).toList = ("osm_" ++ k₂).toList :=
    congrArg (fun row => row.table.toList) h
  rw [String.toList_append, String.toList_append] at hname
  exact String.toList_inj.mp (List.append_cancel_left hname)

/-- The row index is read off the compiled tables. -/
theorem results_rowIndex_eq (cs : List Compiled) (el : Element) :
    (rowIndex cs).results el =
      (cs.filter fun c => !c.isRelationMember && c.expression.evaluate el).map Compiled.target := by
  induction cs with
  | nil => rfl
  | cons c cs ih =>
    unfold rowIndex RuleIndex.results at ih ⊢
    cases hmember : c.isRelationMember <;> cases heval : c.expression.evaluate el <;>
      simp [hmember, heval] <;> simpa using ih

open Classical in
/-- The row index gives an element the rows of the tables that select it, in their order. -/
theorem results_rowIndex (h : List.Forall₂ IsCompiled entries cs) :
    (rowIndex cs).results el =
      (entries.filter fun entry => !entry.2.isRelationMember && decide (Selects entry.2 el)).map
        fun entry => rowOf entry.1 := by
  rw [results_rowIndex_eq]
  induction h with
  | nil => rfl
  | @cons entry c entries cs hc _ ih =>
    obtain ⟨fs, e, -, he, rfl⟩ := hc
    have heval : e.evaluate el = decide (Selects entry.2 el) := by
      rw [Bool.eq_iff_iff, decide_eq_true_iff]
      exact evaluate_tableSelection he
    have hkeep : (!(Compiled.of entry.1 entry.2 e fs).isRelationMember &&
        (Compiled.of entry.1 entry.2 e fs).expression.evaluate el) =
        (!entry.2.isRelationMember && decide (Selects entry.2 el)) := by
      rw [← heval]
      rfl
    rw [List.filter_cons, List.filter_cons, hkeep]
    split
    · rw [List.map_cons, List.map_cons, ih]
      rfl
    · exact ih

/-- Rows of tables with different keys are listed once each. -/
theorem nodup_map_rowOf (tables : Dict TableSpec) (keep : String × TableSpec → Bool) :
    ((tables.entries.filter keep).map fun entry => rowOf entry.1).Nodup := by
  have hkeys : ((tables.entries.filter keep).map Prod.fst).Nodup :=
    (List.filter_sublist.map Prod.fst).nodup tables.nodup
  rw [← Function.comp_def rowOf Prod.fst, ← List.map_map]
  exact hkeys.map rowOf_injective

open Classical in
/-- Table selection means what the table declares.  An element satisfies the expression of a table
exactly if the table selects it; and when all tables are compiled, the row index gives an element
the rows of the tables that select it and are none of relation members, once each and in the order
of the tables. -/
theorem table_selection_as_declared :
    (∀ (t : TableSpec) (e : Expression), tableSelection t = .ok e →
      ∀ el : Element, e.evaluate el = true ↔ Selects t el) ∧
    ∀ (types types' : FieldTypes) (tables : Dict TableSpec) (cs : List Compiled),
      compile types tables = (types', .ok cs) → ∀ el : Element,
        (rowIndex cs).results el =
          (tables.entries.filter fun entry =>
            !entry.2.isRelationMember && decide (Selects entry.2 el)).map
              (fun entry => rowOf entry.1) ∧
        ((rowIndex cs).results el).Nodup := by
  refine ⟨fun t e h el => evaluate_tableSelection h, ?_⟩
  intro types types' tables cs h el
  have hcompiled : List.Forall₂ IsCompiled tables.entries cs := compileAll_eq_ok h
  refine ⟨results_rowIndex hcompiled, ?_⟩
  rw [results_rowIndex hcompiled]
  exact nodup_map_rowOf tables _

/-- A table of main roads, among the lines, that are not private. -/
def mainRoads : TableSpec where
  typeMappings := some (Dict.empty.put "linestrings" (.mapping [("highway", .scalar "primary")]))
  filters := some { reject := some (.mapping [("access", .scalar "private")]) }

/-- A primary road becomes a row of the table of main roads, unless it is private. -/
theorem table_selection_as_declared_main_roads :
    ∃ types cs, compile .empty (Dict.empty.put "roads" mainRoads) = (types, .ok cs) ∧
      (rowIndex cs).results ⟨["linestring"], [("highway", "primary")]⟩ =
        [⟨"osm_roads", "OsmRoads"⟩] ∧
      ¬ Selects mainRoads ⟨["linestring"], [("highway", "primary"), ("access", "private")]⟩ := by
  obtain ⟨hevaluate, hrows⟩ := table_selection_as_declared
  obtain ⟨e, he, hopen, hprivate⟩ : ∃ e, tableSelection mainRoads = .ok e ∧
      e.evaluate ⟨["linestring"], [("highway", "primary")]⟩ = true ∧
      e.evaluate ⟨["linestring"], [("highway", "primary"), ("access", "private")]⟩ = false :=
    ⟨_, rfl, by decide, by decide⟩
  obtain ⟨types, cs, hcompile⟩ : ∃ types cs,
      compile .empty (Dict.empty.put "roads" mainRoads) = (types, .ok cs) := ⟨_, _, rfl⟩
  refine ⟨types, cs, hcompile, ?_, ?_⟩
  · have hselects := (hevaluate mainRoads e he _).mp hopen
    have hmember : mainRoads.isRelationMember = false := by decide
    rw [(hrows _ _ _ _ hcompile _).1]
    simp only [Dict.entries_put, Dict.empty, Ordered.putEntry, List.filter_cons, hmember, hselects]
    rfl
  · rw [← hevaluate mainRoads e he, hprivate]
    exact Bool.false_ne_true

end TileSchema.Table
