import TileSchema.Proofs.Filter.Canonical
import TileSchema.Proofs.Filter.Parts

/-!
# Filters are positive

A filter asks for tags and never against them, nor does it ask for a type.  So the expression that
it is compiled to is positive: groups of questions for tags (`isPositive_of_compile`).

Positive expressions are decided by the element without types and tags.  In canonical form, such an
expression is a constant or fails on this element (`evaluate_bare_of_isProper`).  Hence what can be
read off the simplified expression, that it is the true constant, is a fact about all elements
(`isTrue_simplify_iff`).
-/

namespace TileSchema.Filter

/-- The element without types and tags. -/
def Element.bare : Element := ⟨[], []⟩

@[simp] theorem Element.tag?_bare (key : String) : Element.bare.tag? key = none := rfl

namespace Expression

open Ordered (TextSet)

variable {op : Connective} {e m : Expression} {ms es : List Expression}

/-- An expression is positive if it is made of groups and questions for tags, every question for
values having some, and none of them standing for any value. -/
inductive IsPositive : Expression → Prop
  | group {op : Connective} {es : List Expression} (h : ∀ e ∈ es, IsPositive e) :
    IsPositive (.group op es)
  | matchField (key : String) : IsPositive (.matchField key)
  | matchAny (key : String) {values : TextSet} (hne : values.toList ≠ [])
    (hany : anyValue ∉ values.toList) : IsPositive (.matchAny key values)

/-- A group is positive exactly if all its members are. -/
theorem isPositive_group_iff : IsPositive (.group op es) ↔ ∀ e ∈ es, IsPositive e := by
  constructor
  · rintro ⟨h⟩
    exact h
  · exact IsPositive.group

/-! ### Simplification keeps positive expressions positive -/

/-- What a positive member gives to a group is positive. -/
theorem IsPositive.of_mem_splice (h : IsPositive e) (hm : m ∈ splice op e) : IsPositive m := by
  by_cases hgroup : IsGroupOf op e
  · cases e with
    | group p inner =>
      have hp : p = op := hgroup
      subst hp
      rw [splice_group_self] at hm
      exact isPositive_group_iff.mp h m hm
    | _ => exact absurd hgroup (by simp [IsGroupOf])
  · rw [splice_of_not_isGroupOf hgroup, List.mem_singleton] at hm
    rwa [hm]

/-- A collapsed group of positive members is positive. -/
theorem isPositive_collapse (h : ∀ m ∈ ms, IsPositive m) : IsPositive (collapse op ms) := by
  unfold collapse
  split
  · exact h _ (List.mem_singleton.mpr rfl)
  · exact IsPositive.group h

/-- Joining positive members gives a positive expression. -/
theorem isPositive_joinMembers (h : ∀ e ∈ es, IsPositive e) : IsPositive (joinMembers op es) := by
  rw [joinMembers_eq]
  split
  · exact IsPositive.group (by simp)
  · refine isPositive_collapse fun m hm => ?_
    have hm' : m ∈ es.flatMap (splice op) :=
      (mem_of_mem_addMembers hm).resolve_left List.not_mem_nil
    obtain ⟨e, he, hme⟩ := List.mem_flatMap.mp hm'
    exact (h e he).of_mem_splice hme

/-- A simplified positive expression is positive. -/
theorem IsPositive.simplify (h : IsPositive e) : IsPositive e.simplify := by
  induction h with
  | group _ ih =>
    rw [simplify_group]
    refine isPositive_joinMembers fun e he => ?_
    obtain ⟨e', he', rfl⟩ := List.mem_map.mp he
    exact ih e' he'
  | matchField key => exact .matchField key
  | matchAny key hne hany => exact .matchAny key hne hany

/-! ### The element that decides -/

/-- A canonical positive expression that is no constant fails on the bare element. -/
theorem evaluate_bare_of_isProper (hpos : IsPositive e) (h : IsProper e) :
    e.evaluate .bare = false := by
  induction hpos with
  | @group op es _ ih =>
    obtain ⟨hlen, -, -, hproper⟩ := isProper_group_iff.mp h
    have hmembers : ∀ e ∈ es, e.evaluate .bare = false := fun e he => ih e he (hproper e he)
    cases op with
    | and =>
      -- one failing member is enough, and there is one
      obtain ⟨e, he⟩ := List.exists_mem_of_length_pos (Nat.zero_lt_of_lt hlen)
      rw [← Bool.not_eq_true, evaluate_and]
      intro hall
      exact Bool.false_ne_true ((hmembers e he).symm.trans (hall e he))
    | or =>
      rw [← Bool.not_eq_true, evaluate_or]
      rintro ⟨e, he, heval⟩
      exact Bool.false_ne_true ((hmembers e he).symm.trans heval)
  | matchField key => simp [evaluate]
  | matchAny key _ _ => simp [evaluate]

/-- An expression is the true constant exactly if it is the empty conjunction. -/
theorem isTrue_iff : e.isTrue = true ↔ e = .group .and [] := by
  unfold isTrue
  split <;> simp_all

/-- An expression is the false constant exactly if it is the empty disjunction. -/
theorem isFalse_iff : e.isFalse = true ↔ e = .group .or [] := by
  unfold isFalse
  split <;> simp_all

/-- A positive expression is simplified to the true constant exactly if the bare element satisfies
it. -/
theorem isTrue_simplify_iff_bare (h : IsPositive e) :
    e.simplify.isTrue = true ↔ e.evaluate .bare = true := by
  rw [isTrue_iff, ← evaluate_simplify]
  rcases isCanonical_simplify e with hconst | hproper
  · obtain ⟨op, hop⟩ := isConstant_iff.mp hconst
    rw [hop, evaluate_group_nil]
    cases op <;> simp [Connective.neutral]
  · rw [evaluate_bare_of_isProper h.simplify hproper]
    simp only [Bool.false_eq_true, iff_false]
    intro htrue
    exact hproper.not_isConstant (isConstant_iff.mpr ⟨.and, htrue⟩)

/-- A positive expression is simplified to the true constant exactly if all elements satisfy it. -/
theorem isTrue_simplify_iff (h : IsPositive e) :
    e.simplify.isTrue = true ↔ ∀ el, e.evaluate el = true := by
  constructor
  · intro htrue el
    rw [← evaluate_simplify, isTrue_iff.mp htrue, evaluate_group_nil]
    rfl
  · exact fun hall => (isTrue_simplify_iff_bare h).mpr (hall .bare)

/-- An expression that is simplified to the false constant is satisfied by no element. -/
theorem evaluate_of_isFalse_simplify (h : e.simplify.isFalse = true) (el : Element) :
    e.evaluate el = false := by
  rw [← evaluate_simplify, isFalse_iff.mp h, evaluate_group_nil]
  rfl

end Expression

open Expression (IsPositive)

variable {f : Filter} {p e : Expression}

/-! ### Filters -/

/-- A document that has a part is accepted. -/
theorem IsPart.isAccepted (h : IsPart p f) : IsAccepted f := by
  obtain ⟨ps, hps, -⟩ := h
  exact isAccepted_iff.mpr ⟨ps, hps⟩

/-- The question that a field asks is positive. -/
theorem isPositive_of_fieldExpression {key : String} {values : Filter}
    (h : fieldExpression key values = .ok p) : IsPositive p := by
  rcases fieldExpression_cases h with rfl | ⟨literals, -, hne, hany, rfl⟩
  · exact .matchField key
  · refine .matchAny key ?_ (by simpa using hany)
    obtain ⟨value, hvalue⟩ := List.exists_mem_of_ne_nil literals hne
    exact List.ne_nil_of_mem (Ordered.TextSet.mem_ofList.mpr hvalue)

/-- The parts of a filter are positive. -/
theorem isPositive_of_isPart (h : IsPart p f) : IsPositive p := by
  induction f generalizing p with
  | null =>
    obtain ⟨ps, hps, hp⟩ := h
    rw [parts, Except.ok.injEq] at hps
    simp [← hps] at hp
  | scalar text =>
    obtain ⟨ps, hps, -⟩ := h
    simp [parts] at hps
  | sequence items ih =>
    obtain ⟨f, hf, hp⟩ := (isPart_sequence_iff h.isAccepted).mp h
    exact ih f hf hp
  | mapping entries ih =>
    obtain ⟨⟨key, f⟩, hentry, hp⟩ := (isPart_mapping_iff h.isAccepted).mp h
    cases hkey : combinator? key with
    | some op =>
      obtain ⟨ps, hps, rfl⟩ := (isPart_combinator_iff hkey).mp hp
      exact .group fun q hq => ih (key, f) hentry ((isPart_iff_of_parts hps).mpr hq)
    | none => exact isPositive_of_fieldExpression ((isPart_field_iff hkey).mp hp)

/-- The expression that a filter is compiled to is positive. -/
theorem isPositive_of_compile (h : f.compile = .ok e) : IsPositive e := by
  obtain ⟨ps, hps, rfl⟩ := map_eq_ok_iff.mp h
  exact .group fun p hp => isPositive_of_isPart ((isPart_iff_of_parts hps).mpr hp)

end TileSchema.Filter
