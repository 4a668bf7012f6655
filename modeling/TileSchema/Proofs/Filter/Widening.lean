import Mathlib.Logic.Relation
import TileSchema.Proofs.Filter.Flattening
import TileSchema.Proofs.Filter.Grammar

/-!
# Filters with more literals

A list of values that gets more literals admits more values of the tag, so an element that satisfied
the filter goes on to do so.  There is one exception.  A list of literals admits exactly these, the
empty text included, but a list with the literal for any value asks whether the tag is there, and a
tag with an empty value does not count as being there.  A list with the empty literal that gets the
literal for any value thereby loses the empty value (`LosesEmpty`), and no other is ever lost
(`Admits.of_gainsLiterals`).

From the field this is carried to the whole document.  The list may stand at any depth, but each
part of the document has its counterpart in the changed one, at the same place and under the same
connectives, and holds there if it held before (`partsKept_of_changesValues`).
-/

namespace TileSchema.Filter

variable {el : Element} {f f' values values' : Filter} {fs before after : List Filter}
  {key value : String} {ps ps' : List Expression} {op : Connective}
  {permits : String → Filter → Filter → Prop}

/-! ### Lists of values -/

/-- Values with a literal among them get more literals, at whatever places. -/
structure GainsLiterals (values values' : Filter) : Prop where
  exists_literal : ∃ text, .scalar text ∈ values.leaves
  kept : values.leaves ⊆ values'.leaves
  gained : ∀ leaf ∈ values'.leaves, leaf ∈ values.leaves ∨ ∃ text, leaf = .scalar text

/-- Values with the empty literal get the literal that stands for any value. -/
structure LosesEmpty (values values' : Filter) : Prop where
  empty_mem : .scalar "" ∈ values.leaves
  anyValue_notMem : .scalar anyValue ∉ values.leaves
  anyValue_mem : .scalar anyValue ∈ values'.leaves

/-- Values that get more literals still have one. -/
theorem GainsLiterals.exists_literal_gained (h : GainsLiterals values values') :
    ∃ text, .scalar text ∈ values'.leaves :=
  h.exists_literal.imp fun _ htext => h.kept htext

/-- A value list that gets more literals stays one. -/
theorem GainsLiterals.isValueList (h : GainsLiterals values values') (hvalues : IsValueList values) :
    IsValueList values' := by
  rw [isValueList_iff] at hvalues ⊢
  intro leaf hleaf
  rcases h.gained leaf hleaf with hold | ⟨text, rfl⟩
  · exact hvalues leaf hold
  · rfl

/-- Values that get more literals go on to admit a value, unless it is the empty one and they lose
it. -/
theorem Admits.of_gainsLiterals (hadmits : Admits values value) (h : GainsLiterals values values')
    (hkeeps : ¬ (value = "" ∧ LosesEmpty values values')) : Admits values' value := by
  unfold Admits at hadmits ⊢
  rw [admitsAny_iff h.exists_literal] at hadmits
  rw [admitsAny_iff h.exists_literal_gained]
  rcases hadmits with ⟨hany, hne⟩ | ⟨hany, hmem⟩
  · exact Or.inl ⟨h.kept hany, hne⟩
  · by_cases hany' : .scalar anyValue ∈ values'.leaves
    · refine Or.inl ⟨hany', fun hempty => hkeeps ⟨hempty, ?_⟩⟩
      rw [hempty] at hmem
      exact ⟨hmem, hany, hany'⟩
    · exact Or.inr ⟨hany', h.kept hmem⟩

/-- The empty value is lost indeed. -/
theorem LosesEmpty.admits_and_not_admits (h : LosesEmpty values values') :
    Admits values "" ∧ ¬ Admits values' "" := by
  have hany : ¬ AdmitsAny values := by
    rw [admitsAny_iff ⟨"", h.empty_mem⟩]
    exact h.anyValue_notMem
  refine ⟨Or.inr ⟨hany, h.empty_mem⟩, ?_⟩
  rintro (⟨-, hne⟩ | ⟨hany', -⟩)
  · exact hne rfl
  · exact hany' (Or.inr h.anyValue_mem)

/-! ### Documents -/

/-- One field of a document, at whatever depth, gets other values, as permitted for its key. -/
inductive ChangesValues (permits : String → Filter → Filter → Prop) : Filter → Filter → Prop
  /-- A field of a mapping. -/
  | field {before after : List (String × Filter)} {key : String} {values values' : Filter}
    (hkey : key ≠ andKey ∧ key ≠ orKey) (h : permits key values values') :
    ChangesValues permits (.mapping (before ++ (key, values) :: after))
      (.mapping (before ++ (key, values') :: after))
  /-- A field of an item of a list. -/
  | item {before after : List Filter} {f f' : Filter} (h : ChangesValues permits f f') :
    ChangesValues permits (.sequence (before ++ f :: after)) (.sequence (before ++ f' :: after))
  /-- A field of a filter under a combinator key. -/
  | operand {key : String} {f f' : Filter} (hkey : key = andKey ∨ key = orKey)
    (h : ChangesValues permits f f') :
    ChangesValues permits (.mapping [(key, f)]) (.mapping [(key, f')])

/-- The second expression holds of an element if the first does. -/
def Keeps (el : Element) (p p' : Expression) : Prop :=
  p.evaluate el = true → p'.evaluate el = true

/-- As far as the first document has parts, the second has too, and these hold of an element where
those of the first do. -/
def PartsKept (el : Element) (f f' : Filter) : Prop :=
  ∀ ps, f.parts = .ok ps → ∃ ps', f'.parts = .ok ps' ∧ List.Forall₂ (Keeps el) ps ps'

/-- Members that are kept keep their group. -/
theorem keeps_group (h : List.Forall₂ (Keeps el) ps ps') :
    Keeps el (.group op ps) (.group op ps') := by
  intro heval
  induction h with
  | nil => exact heval
  | cons hhead _ ih =>
    cases op with
    | and =>
      rw [Expression.evaluate_and, List.forall_mem_cons, ← Expression.evaluate_and] at heval ⊢
      exact ⟨hhead heval.1, ih heval.2⟩
    | or =>
      rw [Expression.evaluate_or, List.exists_mem_cons_iff, ← Expression.evaluate_or] at heval ⊢
      exact heval.imp hhead ih

/-- A field that gets more literals is kept, unless it loses the value that the element has. -/
theorem partsKept_field (hkey : key ≠ andKey ∧ key ≠ orKey) (h : GainsLiterals values values')
    (hkeeps : ¬ (el.tag? key = some "" ∧ LosesEmpty values values')) :
    PartsKept el (.mapping [(key, values)]) (.mapping [(key, values')]) := by
  have hplain : combinator? key = none := combinator?_eq_none_iff.mpr hkey
  intro ps hps
  rw [parts_singleton_of_plain hplain] at hps
  obtain ⟨p, hp, rfl⟩ := map_eq_ok_iff.mp hps
  have hvalues : IsValueList values := exists_fieldExpression_iff.mp ⟨p, hp⟩
  obtain ⟨p', hp'⟩ := exists_fieldExpression_iff.mpr (h.isValueList hvalues)
  refine ⟨[p'], by rw [parts_singleton_of_plain hplain, hp']; rfl, .cons ?_ .nil⟩
  intro heval
  rw [evaluate_fieldExpression_iff hp] at heval
  rw [evaluate_fieldExpression_iff hp']
  obtain ⟨value, hvalue, hadmits⟩ := heval
  exact ⟨value, hvalue, hadmits.of_gainsLiterals h fun hlost => hkeeps ⟨hlost.1 ▸ hvalue, hlost.2⟩⟩

/-- A list is kept if one of its items is replaced by one that is kept. -/
theorem partsKept_item (h : PartsKept el f f') :
    PartsKept el (.sequence (before ++ f :: after)) (.sequence (before ++ f' :: after)) := by
  have hsame : ∀ ps : List Expression, List.Forall₂ (Keeps el) ps ps :=
    fun ps => List.forall₂_same.mpr fun _ _ => id
  intro ps hps
  rw [parts_sequence, partsOfItems_append] at hps
  obtain ⟨first, hfirst, hps⟩ := bind_eq_ok_iff.mp hps
  obtain ⟨rest, hrest, hps⟩ := bind_eq_ok_iff.mp hps
  obtain ⟨qs, hqs, last, hlast, rfl⟩ := partsOfItems_cons_eq_ok_iff.mp hrest
  obtain rfl := Except.ok.inj hps
  obtain ⟨qs', hqs', hkept⟩ := h qs hqs
  refine ⟨first ++ (qs' ++ last), ?_,
    List.rel_append (hsame first) (List.rel_append hkept (hsame last))⟩
  rw [parts_sequence, partsOfItems_append, hfirst,
    partsOfItems_cons_eq_ok_iff.mpr ⟨qs', hqs', last, hlast, rfl⟩]
  rfl

/-- A filter under a combinator key is kept if what it combines is. -/
theorem partsKept_operand (hkey : combinator? key = some op) (h : PartsKept el f f') :
    PartsKept el (.mapping [(key, f)]) (.mapping [(key, f')]) := by
  intro ps hps
  rw [parts_mapping_of_combinator hkey] at hps
  obtain ⟨qs, hqs, rfl⟩ := map_eq_ok_iff.mp hps
  obtain ⟨qs', hqs', hkept⟩ := h qs hqs
  refine ⟨[.group op qs'], ?_, .cons (keeps_group hkept) .nil⟩
  rw [parts_mapping_of_combinator hkey, hqs']
  rfl

/-- The keys of an accepted mapping with a field are keys of fields. -/
theorem IsAccepted.combinator?_eq_none {entry : String × Filter}
    {before after : List (String × Filter)} (hkey : combinator? entry.1 = none)
    (h : IsAccepted (.mapping (before ++ entry :: after))) :
    ∀ entry' ∈ before ++ entry :: after, combinator? entry'.1 = none := by
  rcases isAccepted_mapping_cases h with ⟨only, honly⟩ | hplain
  · have hentry : entry = only := by
      rw [← List.mem_singleton, ← honly]
      simp
    rw [honly, ← hentry]
    simpa using hkey
  · exact hplain

/-- A mapping is kept if one of its fields is replaced by one of the same key that is kept. -/
theorem partsKept_mapping {before after : List (String × Filter)} (hkey : key ≠ andKey ∧ key ≠ orKey)
    (h : PartsKept el (.mapping [(key, values)]) (.mapping [(key, values')])) :
    PartsKept el (.mapping (before ++ (key, values) :: after))
      (.mapping (before ++ (key, values') :: after)) := by
  intro ps hps
  have hplain := IsAccepted.combinator?_eq_none (combinator?_eq_none_iff.mpr hkey)
    (isAccepted_iff.mpr ⟨ps, hps⟩)
  have hplain' : ∀ entry ∈ before ++ (key, values') :: after, combinator? entry.1 = none := by
    simp only [List.forall_mem_append, List.forall_mem_cons] at hplain ⊢
    exact hplain
  -- a mapping of fields is read as the list of its fields
  rw [parts_mapping_of_plain hplain, fieldExpressions_eq_partsOfItems hplain, ← parts_sequence,
    List.map_append, List.map_cons] at hps
  rw [parts_mapping_of_plain hplain', fieldExpressions_eq_partsOfItems hplain', ← parts_sequence,
    List.map_append, List.map_cons]
  exact partsKept_item h ps hps

/-- A document is kept if one of its fields gets more literals, at whatever depth, unless this field
loses the value that the element has. -/
theorem partsKept_of_changesValues
    (h : ChangesValues (fun key values values' =>
      GainsLiterals values values' ∧ ¬ (el.tag? key = some "" ∧ LosesEmpty values values')) f f') :
    PartsKept el f f' := by
  induction h with
  | field hkey hgains => exact partsKept_mapping hkey (partsKept_field hkey hgains.1 hgains.2)
  | item _ ih => exact partsKept_item ih
  | operand hkey _ ih =>
    obtain ⟨op, hop⟩ := exists_combinator?_iff.mpr hkey
    exact partsKept_operand hop ih

/-- What is permitted may be permitted for a weaker reason. -/
theorem ChangesValues.mono {permits' : String → Filter → Filter → Prop}
    (himp : ∀ {key values values'}, permits key values values' → permits' key values values')
    (h : ChangesValues permits f f') : ChangesValues permits' f f' := by
  induction h with
  | field hkey h => exact .field hkey (himp h)
  | item _ ih => exact .item ih
  | operand hkey _ ih => exact .operand hkey ih

/-! ### What becomes of the elements -/

/-- An element that satisfies a document satisfies one in which its parts are kept. -/
theorem Satisfies.of_partsKept (hkept : PartsKept el f f') (h : Satisfies el f) :
    Satisfies el f' := by
  obtain ⟨e, he, heval⟩ := h
  obtain ⟨ps, hps, rfl⟩ := map_eq_ok_iff.mp he
  obtain ⟨ps', hps', hforall⟩ := hkept ps hps
  exact ⟨.or ps', map_eq_ok_iff.mpr ⟨ps', hps', rfl⟩, keeps_group hforall heval⟩

/-- An accepted document stays accepted when one of its fields gets more literals. -/
theorem IsAccepted.of_changesValues
    (h : ChangesValues (fun _ values values' => GainsLiterals values values') f f')
    (haccepted : IsAccepted f) : IsAccepted f' := by
  -- the element without tags has no empty value that could be lost
  have hkept : PartsKept ⟨[], []⟩ f f' := partsKept_of_changesValues
    (h.mono fun hgains => ⟨hgains, fun hlost => nomatch hlost.1⟩)
  obtain ⟨ps, hps⟩ := isAccepted_iff.mp haccepted
  obtain ⟨ps', hps', -⟩ := hkept ps hps
  exact isAccepted_iff.mpr ⟨ps', hps'⟩

/-- An element with an empty value satisfies a field that loses it before, but not afterwards. -/
theorem LosesEmpty.satisfies_and_not_satisfies (h : LosesEmpty values values')
    (hkey : combinator? key = none) (hempty : el.tag? key = some "")
    (haccepted : IsAccepted (.mapping [(key, values)])) :
    Satisfies el (.mapping [(key, values)]) ∧ ¬ Satisfies el (.mapping [(key, values')]) := by
  obtain ⟨hbefore, hafter⟩ := h.admits_and_not_admits
  constructor
  · rw [satisfies_field_iff hkey haccepted]
    exact ⟨"", hempty, hbefore⟩
  · intro hsatisfies
    obtain ⟨value, hvalue, hadmits⟩ := (satisfies_field_iff hkey hsatisfies.isAccepted).mp hsatisfies
    rw [hempty, Option.some.injEq] at hvalue
    exact hafter (hvalue ▸ hadmits)

/-- Filters that get more literals lose no element but for the empty value.  A filter stays accepted
when fields of it that have a literal get more of them, at any depth and one after the other.  It
goes on to be satisfied by an element, as long as the element has no empty value of a tag of which
the field loses it: the field has the empty literal and gets the one that stands for any value.  In
that case the element does not satisfy the field any more. -/
theorem more_literals_lose_empty_values_only :
    (∀ f f' : Filter,
      Relation.ReflTransGen (ChangesValues fun _ values values' => GainsLiterals values values')
        f f' → IsAccepted f → IsAccepted f') ∧
    (∀ (el : Element) (f f' : Filter),
      Relation.ReflTransGen (ChangesValues fun key values values' =>
        GainsLiterals values values' ∧ ¬ (el.tag? key = some "" ∧ LosesEmpty values values'))
        f f' → Satisfies el f → Satisfies el f') ∧
    ∀ (el : Element) (key : String) (values values' : Filter), key ≠ andKey ∧ key ≠ orKey →
      IsAccepted (.mapping [(key, values)]) → GainsLiterals values values' →
        ((Satisfies el (.mapping [(key, values)]) → Satisfies el (.mapping [(key, values')])) ↔
          ¬ (el.tag? key = some "" ∧ LosesEmpty values values')) := by
  refine ⟨?_, ?_, ?_⟩
  · intro f f' hsteps haccepted
    induction hsteps with
    | refl => exact haccepted
    | tail _ hstep ih => exact ih.of_changesValues hstep
  · intro el f f' hsteps hsatisfies
    induction hsteps with
    | refl => exact hsatisfies
    | tail _ hstep ih => exact ih.of_partsKept (partsKept_of_changesValues hstep)
  · intro el key values values' hkey haccepted hgains
    constructor
    · rintro hkeeps ⟨hempty, hloses⟩
      obtain ⟨hbefore, hafter⟩ := hloses.satisfies_and_not_satisfies
        (combinator?_eq_none_iff.mpr hkey) hempty haccepted
      exact hafter (hkeeps hbefore)
    · intro hkeeps hsatisfies
      exact hsatisfies.of_partsKept (partsKept_field hkey hgains hkeeps)

/-- A road that stays selected when any value of its tag will do, in a conjunction and by itself. -/
theorem more_literals_lose_empty_values_only_named_road :
    GainsLiterals (.scalar "primary") (.sequence [.scalar "primary", .scalar anyValue]) ∧
      IsAccepted (.sequence [.mapping [(andKey, .sequence [
        .mapping [("highway", .sequence [.scalar "primary", .scalar anyValue])],
        .mapping [("name", .null)]])]]) ∧
      Satisfies ⟨["way"], [("highway", "primary"), ("name", "Ring")]⟩
        (.sequence [.mapping [(andKey, .sequence [
          .mapping [("highway", .sequence [.scalar "primary", .scalar anyValue])],
          .mapping [("name", .null)]])]]) ∧
      (Satisfies ⟨["way"], [("highway", "primary"), ("name", "Ring")]⟩
          (.mapping [("highway", .scalar "primary")]) →
        Satisfies ⟨["way"], [("highway", "primary"), ("name", "Ring")]⟩
          (.mapping [("highway", .sequence [.scalar "primary", .scalar anyValue])])) := by
  have hgains : GainsLiterals (.scalar "primary")
      (.sequence [.scalar "primary", .scalar anyValue]) :=
    ⟨⟨"primary", by simp [leaves]⟩, by simp [leaves], by simp [leaves]⟩
  have hkeeps : ¬ ((⟨["way"], [("highway", "primary"), ("name", "Ring")]⟩ : Element).tag? "highway" =
      some "" ∧ LosesEmpty (.scalar "primary") (.sequence [.scalar "primary", .scalar anyValue])) :=
    fun hlost => absurd hlost.1 (by decide)
  have hfield : ("highway" : String) ≠ andKey ∧ "highway" ≠ orKey := by decide
  have hchanges : ∀ permits : String → Filter → Filter → Prop,
      permits "highway" (.scalar "primary") (.sequence [.scalar "primary", .scalar anyValue]) →
      ChangesValues permits
        (.sequence [.mapping [(andKey, .sequence [
          .mapping [("highway", .scalar "primary")], .mapping [("name", .null)]])]])
        (.sequence [.mapping [(andKey, .sequence [
          .mapping [("highway", .sequence [.scalar "primary", .scalar anyValue])],
          .mapping [("name", .null)]])]]) := by
    intro permits hpermits
    have hmapping := @ChangesValues.field permits [] [] "highway" _ _ hfield hpermits
    have hoperands := @ChangesValues.item permits [] [.mapping [("name", .null)]] _ _ hmapping
    exact @ChangesValues.item permits [] [] _ _ (.operand (Or.inl rfl) hoperands)
  obtain ⟨haccepted, hsatisfies, hexact⟩ := more_literals_lose_empty_values_only
  refine ⟨hgains, ?_, ?_, ?_⟩
  · exact haccepted _ _ (.single (hchanges _ hgains)) ⟨_, rfl⟩
  · exact hsatisfies _ _ _ (.single (hchanges _ ⟨hgains, hkeeps⟩)) ⟨_, rfl, by decide⟩
  · exact (hexact _ _ _ _ hfield ⟨_, rfl⟩ hgains).mpr hkeeps

/-- The empty value is listed, and is lost when any value will do: an element with it satisfies the
field before, but not afterwards. -/
theorem empty_value_lost_when_any_will_do :
    IsAccepted (.mapping [("highway", .scalar "")]) ∧
      ChangesValues (fun _ values values' => GainsLiterals values values')
        (.mapping [("highway", .scalar "")])
        (.mapping [("highway", .sequence [.scalar "", .scalar anyValue])]) ∧
      Satisfies ⟨[], [("highway", "")]⟩ (.mapping [("highway", .scalar "")]) ∧
      ¬ Satisfies ⟨[], [("highway", "")]⟩
        (.mapping [("highway", .sequence [.scalar "", .scalar anyValue])]) := by
  have hgains : GainsLiterals (.scalar "") (.sequence [.scalar "", .scalar anyValue]) :=
    ⟨⟨"", by simp [leaves]⟩, by simp [leaves], by simp [leaves]⟩
  refine ⟨⟨_, rfl⟩, @ChangesValues.field _ [] [] "highway" _ _ (by decide) hgains,
    ⟨_, rfl, by decide⟩, ?_⟩
  rintro ⟨e, he, heval⟩
  cases he
  revert heval
  decide

end TileSchema.Filter
