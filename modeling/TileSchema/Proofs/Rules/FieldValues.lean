import Mathlib.Data.List.Nodup
import TileSchema.Proofs.Filter.Positive
import TileSchema.Proofs.Ordered.FirstPlace
import TileSchema.Rules.FieldValues

/-!
# The values of a field

The values of a layer field are given by filters, and the index of the field lists those whose
filters an element satisfies.  An entry gives no rule if its expression is simplified to a constant.
For a filter, the true constant means that every element satisfies it, so what is left out are the
entries that say nothing (`results_of_fieldRules`).

`field_mapping_omits_only_tautologies` collects what follows for the index of a field.
-/

namespace TileSchema

open TileSchema.Filter (Element Expression IsAccepted Satisfies)
open Ordered (Dict)

variable {el : Element} {f : Filter} {e : Expression} {value : String}
  {entries : List (String × Filter)} {rules : List (Rule String)}

namespace Filter

/-- A filter is a tautology if every element satisfies it. -/
def IsTautology (f : Filter) : Prop := ∀ el, Satisfies el f

/-- An element satisfies a filter exactly if it satisfies the expression of the filter. -/
theorem satisfies_iff_of_compile (h : f.compile = .ok e) :
    Satisfies el f ↔ e.evaluate el = true := by
  simp [Satisfies, h]

/-- A filter is a tautology exactly if its expression is simplified to the true constant. -/
theorem isTrue_simplify_iff_isTautology (h : f.compile = .ok e) :
    e.simplify.isTrue = true ↔ IsTautology f := by
  rw [Expression.isTrue_simplify_iff (isPositive_of_compile h)]
  exact forall_congr' fun el => (satisfies_iff_of_compile h).symm

/-- A filter is a tautology exactly if the bare element satisfies it. -/
theorem isTautology_iff_satisfies_bare (h : IsAccepted f) :
    IsTautology f ↔ Satisfies .bare f := by
  obtain ⟨e, he⟩ := h
  rw [← isTrue_simplify_iff_isTautology he, satisfies_iff_of_compile he,
    Expression.isTrue_simplify_iff_bare (isPositive_of_compile he)]

/-- No element satisfies a filter whose expression is simplified to the false constant. -/
theorem not_satisfies_of_isFalse_simplify (h : f.compile = .ok e)
    (hfalse : e.simplify.isFalse = true) (el : Element) : ¬ Satisfies el f := by
  rw [satisfies_iff_of_compile h, Expression.evaluate_of_isFalse_simplify hfalse el]
  exact Bool.false_ne_true

end Filter

open TileSchema.Filter (IsTautology)

/-! ### The rules -/

/-- The rules of a field are read entry by entry, and a constant gives none. -/
theorem fieldRules_cons_eq_ok_iff :
    fieldRules ((value, f) :: entries) = .ok rules ↔
      ∃ e, f.compile = .ok e ∧ ∃ rest, fieldRules entries = .ok rest ∧
        (if e.simplify.isTrue || e.simplify.isFalse then rest else ⟨e.simplify, value⟩ :: rest) =
          rules := by
  simp only [fieldRules, bind_eq_ok_iff, liftFault_eq_ok_iff, pure, Except.pure, Except.ok.injEq]

/-- A field has rules exactly if all its filters are accepted. -/
theorem exists_fieldRules_iff :
    (∃ rules, fieldRules entries = .ok rules) ↔ ∀ entry ∈ entries, IsAccepted entry.2 := by
  induction entries with
  | nil => simp [fieldRules]
  | cons entry entries ih =>
    rw [List.forall_mem_cons, ← ih]
    constructor
    · rintro ⟨rules, hrules⟩
      obtain ⟨e, he, rest, hrest, -⟩ := fieldRules_cons_eq_ok_iff.mp hrules
      exact ⟨⟨e, he⟩, ⟨rest, hrest⟩⟩
    · rintro ⟨⟨e, he⟩, ⟨rest, hrest⟩⟩
      exact ⟨_, fieldRules_cons_eq_ok_iff.mpr ⟨e, he, rest, hrest, rfl⟩⟩

/-- The results of the rules are values of the field, in order. -/
theorem sublist_of_fieldRules (h : fieldRules entries = .ok rules) :
    (rules.map Rule.result).Sublist (entries.map Prod.fst) := by
  induction entries generalizing rules with
  | nil =>
    rw [fieldRules, Except.ok.injEq] at h
    simp [← h]
  | cons entry entries ih =>
    obtain ⟨e, -, rest, hrest, rfl⟩ := fieldRules_cons_eq_ok_iff.mp h
    split
    · exact (ih hrest).cons entry.1
    · exact (ih hrest).cons_cons entry.1

/-- The rules of a field are positive. -/
theorem isPositive_of_fieldRules (h : fieldRules entries = .ok rules) :
    ∀ r ∈ rules, r.expression.IsPositive := by
  induction entries generalizing rules with
  | nil =>
    cases h
    exact nofun
  | cons entry entries ih =>
    obtain ⟨e, he, rest, hrest, rfl⟩ := fieldRules_cons_eq_ok_iff.mp h
    split
    · exact ih hrest
    · rw [List.forall_mem_cons]
      exact ⟨(Filter.isPositive_of_compile he).simplify, ih hrest⟩

open Classical in
/-- The results for an element are the values whose filters the element satisfies, without those
whose filters are tautologies. -/
theorem results_of_fieldRules (h : fieldRules entries = .ok rules) (el : Element) :
    (RuleIndex.mk rules).results el =
      (entries.filter fun entry =>
        decide (Satisfies el entry.2 ∧ ¬ IsTautology entry.2)).map Prod.fst := by
  unfold RuleIndex.results
  induction entries generalizing rules with
  | nil =>
    rw [fieldRules, Except.ok.injEq] at h
    simp [← h]
  | cons entry entries ih =>
    obtain ⟨value, f⟩ := entry
    obtain ⟨e, he, rest, hrest, rfl⟩ := fieldRules_cons_eq_ok_iff.mp h
    have htrue := Filter.isTrue_simplify_iff_isTautology he
    by_cases hconst : (e.simplify.isTrue || e.simplify.isFalse) = true
    · have hout : ¬ (Satisfies el f ∧ ¬ IsTautology f) := by
        rintro ⟨hel, htaut⟩
        rcases Bool.or_eq_true _ _ ▸ hconst with hc | hc
        · exact htaut (htrue.mp hc)
        · exact Filter.not_satisfies_of_isFalse_simplify he hc el hel
      rw [if_pos hconst, ih hrest, List.filter_cons_of_neg (by simpa using hout)]
    · have htaut : ¬ IsTautology f := fun ht => hconst (by simp [htrue.mpr ht])
      have hkeep : e.simplify.evaluate el =
          decide (Satisfies el f ∧ ¬ IsTautology f) := by
        rw [Bool.eq_iff_iff, decide_eq_true_iff, Expression.evaluate_simplify,
          Filter.satisfies_iff_of_compile he]
        simp [htaut]
      rw [if_neg hconst, List.filter_cons, List.filter_cons, hkeep]
      split
      · rw [List.map_cons, List.map_cons, ih hrest]
      · exact ih hrest

/-! ### The index -/

/-- The documented values of a field that is given by filters are the names of its entries. -/
theorem allowedValues_mapping (values : Dict Filter) :
    allowedValues (.mapping values.entries) = .ok values.names := by
  rw [allowedValues, Ordered.distinct_of_nodup values.nodup]
  rfl

open Classical in
/-- A field that is given by filters has an index exactly if all of them are accepted.  The index
gives an element the values whose filters the element satisfies, in order, except for the
tautologies among them; whether a filter is one shows on the bare element.  An entry is left out for
its true constant exactly if its filter is a tautology, and for its false constant only if no element
satisfies the filter.  All results are documented values, in the order of the documentation. -/
theorem field_mapping_omits_only_tautologies (values : Dict Filter) :
    ((∃ index, fieldMapping values.entries = .ok index) ↔
      ∀ entry ∈ values.entries, IsAccepted entry.2) ∧
    ∀ index, fieldMapping values.entries = .ok index →
      (∀ el, index.results el =
        (values.entries.filter fun entry =>
          decide (Satisfies el entry.2 ∧ ¬ IsTautology entry.2)).map Prod.fst) ∧
      (∀ entry ∈ values.entries, IsTautology entry.2 ↔ Satisfies .bare entry.2) ∧
      (∀ entry ∈ values.entries, ∀ e, entry.2.compile = .ok e →
        (e.simplify.isTrue = true ↔ IsTautology entry.2) ∧
        (e.simplify.isFalse = true → ∀ el, ¬ Satisfies el entry.2)) ∧
      ∃ allowed, allowedValues (.mapping values.entries) = .ok allowed ∧
        (index.rules.map Rule.result).Sublist allowed := by
  have hread : ∀ index, fieldMapping values.entries = .ok index ↔
      fieldRules values.entries = .ok index.rules := by
    intro index
    simp only [fieldMapping, map_eq_ok_iff]
    exact ⟨fun ⟨_, hrules, heq⟩ => heq ▸ hrules, fun h => ⟨_, h, rfl⟩⟩
  have hexists : (∃ index, fieldMapping values.entries = .ok index) ↔
      ∃ rules, fieldRules values.entries = .ok rules :=
    ⟨fun ⟨index, h⟩ => ⟨_, (hread index).mp h⟩, fun ⟨rules, h⟩ => ⟨⟨rules⟩, (hread _).mpr h⟩⟩
  refine ⟨hexists.trans exists_fieldRules_iff, fun index h => ?_⟩
  have hrules := (hread index).mp h
  refine ⟨results_of_fieldRules hrules, fun entry hentry => ?_, fun entry _ e he => ?_, ?_⟩
  · exact Filter.isTautology_iff_satisfies_bare (exists_fieldRules_iff.mp ⟨_, hrules⟩ entry hentry)
  · exact ⟨Filter.isTrue_simplify_iff_isTautology he, Filter.not_satisfies_of_isFalse_simplify he⟩
  · exact ⟨values.names, allowedValues_mapping values, sublist_of_fieldRules hrules⟩

/-- The filter of lakes, with two values that count as one. -/
def lakeFilter : Filter := .mapping [("water", .sequence [.scalar "lake", .scalar "pond"])]

/-- The conjunction of no filters. -/
def anyFilter : Filter := .mapping [(Filter.andKey, .sequence [])]

/-- Kinds of water, with an entry for nothing and one for everything. -/
def waterValues : Dict Filter :=
  ((Dict.empty.put "lake" lakeFilter).put "dry" .null).put "any" anyFilter

/-- A pond is a lake, and it is not listed under the entry that holds of everything. -/
theorem field_mapping_omits_only_tautologies_water :
    ∃ index, fieldMapping waterValues.entries = .ok index ∧
      index.results ⟨["polygon"], [("water", "pond")]⟩ = ["lake"] ∧ IsTautology anyFilter := by
  obtain ⟨-, hall⟩ := field_mapping_omits_only_tautologies waterValues
  obtain ⟨index, hindex⟩ : ∃ index, fieldMapping waterValues.entries = .ok index := ⟨_, rfl⟩
  obtain ⟨hresults, hbare, -, -⟩ := hall index hindex
  have hentries : waterValues.entries = [("lake", lakeFilter), ("dry", .null), ("any", anyFilter)] :=
    rfl
  have hany : IsTautology anyFilter :=
    (hbare ("any", anyFilter) (by simp [hentries])).mpr ⟨_, rfl, by decide⟩
  have hlake : ¬ IsTautology lakeFilter := by
    rw [hbare ("lake", lakeFilter) (by simp [hentries]), Filter.satisfies_iff_of_compile rfl]
    decide
  have hpond : Satisfies ⟨["polygon"], [("water", "pond")]⟩ lakeFilter := ⟨_, rfl, by decide⟩
  have hdry : ¬ Satisfies ⟨["polygon"], [("water", "pond")]⟩ .null := by
    rw [Filter.satisfies_iff_of_compile rfl]
    decide
  refine ⟨index, hindex, ?_, hany⟩
  rw [hresults, hentries]
  simp [hany, hlake, hpond, hdry]

end TileSchema
