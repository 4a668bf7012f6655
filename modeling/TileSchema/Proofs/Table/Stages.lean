import TileSchema.Proofs.Filter.Grouping
import TileSchema.Proofs.Filter.Parts
import TileSchema.Table.Selection

/-!
# How the expression of a table is put together

The expression of a table is simplified type by type and then as a whole, and its filters may come
in groups of their own.  Neither shows in the result.

For several types, one simplification of the whole is enough (`selectionOfTypes_eq`), and for a
single type, the second one changes nothing (`selectionOfTypes_singleton`).

A selection depends on each of its filters only through the simplified group of the parts of this
filter (`selection_eq`), the connective being that of the place where the filter stands: an element
has to satisfy some part of the mapping, all parts of what is required, and no part of what is
rejected.  To write the filter under the combinator key of that connective is to put this group into
a group of the same connective (`simplifiedGroup_map_combined`).
-/

namespace TileSchema.Table

open TileSchema.Filter (Connective Expression andKey combinator? optionalParts orKey)
open TileSchema.Filter.Expression (Context simplify simplify_fill_simplify simplify_group
  simplify_group_append_group simplify_group_map_simplify simplify_group_singleton simplify_not
  simplify_simplify)

variable {kind key : String} {op : Connective} {r : Restrictions}
  {mappings : List (String × Filter)}

/-! ### Several types -/

/-- What the elements of several types have to satisfy, type by type and not simplified. -/
def rawSelections (r : Restrictions) (mappings : List (String × Filter)) :
    Except Filter.Fault (List Expression) :=
  mappings.mapM fun choice => rawSelection choice.1 (some choice.2) r

/-- The expressions of several types are simplified one by one. -/
theorem selections_eq_map (r : Restrictions) (mappings : List (String × Filter)) :
    selections r mappings = (rawSelections r mappings).map (List.map simplify) := by
  induction mappings with
  | nil => rfl
  | cons choice mappings ih =>
    rw [selections, selection, ih, rawSelections, rawSelections, List.mapM_cons]
    cases rawSelection choice.1 (some choice.2) r with
    | error e => rfl
    | ok e =>
      cases mappings.mapM fun choice => rawSelection choice.1 (some choice.2) r with
      | error e => rfl
      | ok es => rfl

/-- The expression of several types is simplified as if it had not been so type by type before. -/
theorem selectionOfTypes_eq (mappings : List (String × Filter)) (r : Restrictions) :
    selectionOfTypes mappings r =
      (rawSelections r mappings).map fun es => simplify (.or es) := by
  rw [selectionOfTypes, selections_eq_map]
  cases rawSelections r mappings with
  | error e => rfl
  | ok es => exact congrArg Except.ok (simplify_group_map_simplify .or es)

/-- One of several types alone has the expression of this type. -/
theorem selectionOfTypes_singleton (kind : String) (mapping : Filter) (r : Restrictions) :
    selectionOfTypes [(kind, mapping)] r = selection kind (some mapping) r := by
  rw [selectionOfTypes_eq, rawSelections, List.mapM_cons, List.mapM_nil, selection]
  cases rawSelection kind (some mapping) r with
  | error e => rfl
  | ok e => exact congrArg Except.ok (simplify_group_singleton .or e)

/-- It does not matter when the parts of an expression are simplified.  At every position of every
expression, a part may be simplified first.  In particular the expression of several types, which
are simplified one by one and then together, is the disjunction of what the types ask for,
simplified once; and for one type it is the expression of that type. -/
theorem parts_may_be_simplified_first :
    (∀ (C : Context) (e : Expression), simplify (C.fill e) = simplify (C.fill (simplify e))) ∧
      ∀ r : Restrictions,
        (∀ mappings, selectionOfTypes mappings r =
          (rawSelections r mappings).map fun es => simplify (.or es)) ∧
        ∀ kind mapping, selectionOfTypes [(kind, mapping)] r = selection kind (some mapping) r :=
  ⟨simplify_fill_simplify, fun r => ⟨fun mappings => selectionOfTypes_eq mappings r,
    fun kind mapping => selectionOfTypes_singleton kind mapping r⟩⟩

/-! ### Filters in groups -/

/-- A document under a combinator key. -/
def combined (key : String) (f : Filter) : Filter := .mapping [(key, f)]

/-- The group of the parts of a filter that may be absent, simplified. -/
def simplifiedGroup (op : Connective) (f : Option Filter) : Except Filter.Fault Expression :=
  (optionalParts f).map fun ps => simplify (.group op ps)

/-- A selection depends on its filters only through their simplified groups. -/
theorem selection_eq (kind : String) (mapping : Option Filter) (r : Restrictions) :
    selection kind mapping r = do
      let wanted ← simplifiedGroup .or mapping
      let required ← simplifiedGroup .and r.require
      let rejected ← simplifiedGroup .or r.reject
      return simplify (.and [wanted, required, .not rejected, .matchType (singular kind)]) := by
  have hsimplify : ∀ wanted required rejected : List Expression,
      simplify (.and [.or wanted, .and required, .not (.or rejected), .matchType (singular kind)]) =
        simplify (.and [simplify (.or wanted), simplify (.and required),
          .not (simplify (.or rejected)), .matchType (singular kind)]) := by
    intro wanted required rejected
    rw [simplify_group, simplify_group .and [simplify (.or wanted), _, _, _]]
    simp only [List.map_cons, List.map_nil, simplify_simplify, simplify_not]
  rw [selection, rawSelection]
  unfold simplifiedGroup
  cases optionalParts mapping with
  | error e => rfl
  | ok wanted =>
    cases optionalParts r.require with
    | error e => rfl
    | ok required =>
      cases optionalParts r.reject with
      | error e => rfl
      | ok rejected => exact congrArg Except.ok (hsimplify wanted required rejected)

/-- Filters with the same simplified groups give the same selection. -/
theorem selection_congr {mapping mapping' : Option Filter} {r' : Restrictions}
    (hmapping : simplifiedGroup .or mapping = simplifiedGroup .or mapping')
    (hrequire : simplifiedGroup .and r.require = simplifiedGroup .and r'.require)
    (hreject : simplifiedGroup .or r.reject = simplifiedGroup .or r'.reject) :
    selection kind mapping r = selection kind mapping' r' := by
  rw [selection_eq, selection_eq, hmapping, hrequire, hreject]

/-- A filter may be written under the combinator key of the connective of its parts. -/
theorem simplifiedGroup_map_combined (hkey : combinator? key = some op) (f : Option Filter) :
    simplifiedGroup op (f.map (combined key)) = simplifiedGroup op f := by
  cases f with
  | none => rfl
  | some f =>
    have hparts : optionalParts ((some f).map (combined key)) =
        f.parts.map fun ps => [.group op ps] := Filter.parts_mapping_of_combinator hkey
    rw [simplifiedGroup, simplifiedGroup, hparts, optionalParts]
    cases f.parts with
    | error e => rfl
    | ok ps => exact congrArg Except.ok (simplify_group_singleton op (.group op ps))

/-- It does not matter how members of one connective are grouped.  Some members of a group may be put
into an inner group of the same connective; and the mapping of a type may be written under the key
of disjunctions, and so may be what is rejected, while what is required may be written under the
key of conjunctions.  The selection is the very same expression, or fails with the same fault. -/
theorem grouping_does_not_matter :
    (∀ (op : Connective) (xs ys zs : List Expression),
      simplify (.group op (xs ++ [.group op ys] ++ zs)) = simplify (.group op (xs ++ ys ++ zs))) ∧
      ∀ (kind : String) (mapping : Option Filter) (r : Restrictions),
        selection kind (mapping.map (combined orKey)) r = selection kind mapping r ∧
          selection kind mapping { r with reject := r.reject.map (combined orKey) } =
            selection kind mapping r ∧
          selection kind mapping { r with require := r.require.map (combined andKey) } =
            selection kind mapping r := by
  have hand : combinator? andKey = some .and := by decide
  have hor : combinator? orKey = some .or := by decide
  refine ⟨simplify_group_append_group, fun kind mapping r => ⟨?_, ?_, ?_⟩⟩
  · exact selection_congr (simplifiedGroup_map_combined hor mapping) rfl rfl
  · exact selection_congr rfl rfl (simplifiedGroup_map_combined hor r.reject)
  · exact selection_congr rfl (simplifiedGroup_map_combined hand r.require) rfl

end TileSchema.Table
