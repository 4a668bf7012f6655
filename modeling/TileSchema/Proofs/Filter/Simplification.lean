import TileSchema.Filter.Simplify
import TileSchema.Proofs.Filter.Meaning

/-!
# The result of a simplification

The pass collects the members of a group one after the other and may stop on the way.  Here its
result is put in closed form.  A member is *spliced* into the group: it gives its own members if it
is a group of the same connective, and itself otherwise.  Unless a member decides the group, the
members collected are the spliced ones without repetition (`gather_eq`), so a simplified group is
read off the list of its simplified members (`simplify_group`).

Every step keeps the value of the group, hence `evaluate_simplify`: an expression and its
simplification are answered alike by every element.
-/

namespace TileSchema.Filter.Expression

variable {el : Element} {op : Connective} {e : Expression} {ms es : List Expression}

/-! ### Members without repetition -/

/-- A member that equals an earlier one is not added. -/
theorem addMember_of_same (h : ∃ m ∈ ms, same m e = true) : addMember ms e = ms := by
  have hany : ms.any (same · e) = true := List.any_eq_true.mpr h
  rw [addMember, if_pos hany]

/-- A member that equals no earlier one is added at the end. -/
theorem addMember_of_new (h : ∀ m ∈ ms, same m e = false) : addMember ms e = ms ++ [e] := by
  have hany : ¬ ms.any (same · e) = true := by
    rw [List.any_eq_true]
    rintro ⟨m, hm, hsame⟩
    simp [h m hm] at hsame
  rw [addMember, if_neg hany]

/-- Adding a member either changes nothing, an equal one being there, or puts it at the end. -/
theorem addMember_cases (ms : List Expression) (e : Expression) :
    (∃ m ∈ ms, same m e = true) ∧ addMember ms e = ms ∨
      (∀ m ∈ ms, same m e = false) ∧ addMember ms e = ms ++ [e] := by
  by_cases h : ∃ m ∈ ms, same m e = true
  · exact Or.inl ⟨h, addMember_of_same h⟩
  · have hnew : ∀ m ∈ ms, same m e = false := fun m hm =>
      Bool.eq_false_iff.mpr fun hsame => h ⟨m, hm, hsame⟩
    exact Or.inr ⟨hnew, addMember_of_new hnew⟩

@[simp] theorem addMembers_nil (ms : List Expression) : addMembers ms [] = ms := rfl

@[simp] theorem addMembers_cons (ms : List Expression) (e : Expression) (es : List Expression) :
    addMembers ms (e :: es) = addMembers (addMember ms e) es := rfl

/-- Members can be added in two portions. -/
theorem addMembers_append (ms es fs : List Expression) :
    addMembers ms (es ++ fs) = addMembers (addMembers ms es) fs := List.foldl_append

/-- What has been added is what was there and a part of what was to be added, in order. -/
theorem exists_addMembers_eq (ms es : List Expression) :
    ∃ added, added.Sublist es ∧ addMembers ms es = ms ++ added := by
  induction es generalizing ms with
  | nil => exact ⟨[], List.Sublist.slnil, by simp⟩
  | cons e es ih =>
    obtain ⟨added, hsub, heq⟩ := ih (addMember ms e)
    rw [addMembers_cons, heq]
    rcases addMember_cases ms e with ⟨-, hadd⟩ | ⟨-, hadd⟩
    · exact ⟨added, hsub.cons e, by rw [hadd]⟩
    · exact ⟨e :: added, hsub.cons_cons e, by rw [hadd]; simp⟩

/-- Nothing is among the members but what was there or was added. -/
theorem mem_of_mem_addMembers (h : e ∈ addMembers ms es) : e ∈ ms ∨ e ∈ es := by
  obtain ⟨added, hsub, heq⟩ := exists_addMembers_eq ms es
  rw [heq, List.mem_append] at h
  exact h.imp_right fun he => hsub.subset he

/-- What was there stays there. -/
theorem mem_addMembers_of_mem (h : e ∈ ms) : e ∈ addMembers ms es := by
  obtain ⟨added, -, heq⟩ := exists_addMembers_eq ms es
  rw [heq]
  exact List.mem_append_left _ h

/-- Everything that was added has an equal among the members. -/
theorem exists_same_of_mem (h : e ∈ es) : ∃ m ∈ addMembers ms es, same m e = true := by
  induction es generalizing ms with
  | nil => simp at h
  | cons e' es ih =>
    rw [addMembers_cons]
    rcases List.mem_cons.mp h with rfl | hmem
    · rcases addMember_cases ms e with ⟨⟨m, hm, hsame⟩, hadd⟩ | ⟨-, hadd⟩
      · exact ⟨m, mem_addMembers_of_mem (by rw [hadd]; exact hm), hsame⟩
      · exact ⟨e, mem_addMembers_of_mem (by rw [hadd]; simp), same_refl e⟩
    · exact ih hmem

/-- No two of the members are equal if that was so before. -/
theorem pairwise_addMembers (h : ms.Pairwise fun a b => same a b = false) :
    (addMembers ms es).Pairwise fun a b => same a b = false := by
  induction es generalizing ms with
  | nil => exact h
  | cons e es ih =>
    rw [addMembers_cons]
    refine ih ?_
    rcases addMember_cases ms e with ⟨-, hadd⟩ | ⟨hnew, hadd⟩
    · rw [hadd]
      exact h
    · rw [hadd, List.pairwise_append]
      refine ⟨h, List.pairwise_singleton _ _, ?_⟩
      intro m hm e' he'
      rw [List.mem_singleton.mp he']
      exact hnew m hm

/-- Members of which no two are equal are all added. -/
theorem addMembers_of_pairwise (h : (ms ++ es).Pairwise fun a b => same a b = false) :
    addMembers ms es = ms ++ es := by
  induction es generalizing ms with
  | nil => simp
  | cons e es ih =>
    have hnew : ∀ m ∈ ms, same m e = false := fun m hm =>
      (List.pairwise_append.mp h).2.2 m hm e List.mem_cons_self
    rw [addMembers_cons, addMember_of_new hnew, ih (by simpa using h)]
    simp

/-! ### The pass in closed form -/

/-- What a simple member gives to a group of a connective: its own members if it is such a group,
and itself otherwise. -/
def splice (op : Connective) : Expression → List Expression
  | .group p inner => if p = op then inner else [.group p inner]
  | e => [e]

/-- Whether a simple member decides a group: it is the empty group of the other connective. -/
def decides (op : Connective) : Expression → Bool
  | .group p inner => p ≠ op && inner.isEmpty
  | _ => false

/-- A member decides a group exactly if it is the constant that is not neutral. -/
theorem decides_iff : decides op e = true ↔ e = .group op.dual [] := by
  cases e with
  | group p inner => cases p <;> cases op <;> simp [decides, Connective.dual]
  | _ => simp [decides]

/-- A group of the connective itself is replaced by its members. -/
@[simp] theorem splice_group_self (op : Connective) (es : List Expression) :
    splice op (.group op es) = es := by
  simp [splice]

/-- What is no group of the connective stays one member. -/
theorem splice_of_not_isGroupOf (h : ¬ IsGroupOf op e) : splice op e = [e] := by
  cases e with
  | group p inner =>
    have hp : p ≠ op := h
    simp [splice, hp]
  | _ => rfl

/-- The members of a group are the spliced ones without repetition, unless one decides it. -/
theorem gather_eq (op : Connective) (ms es : List Expression) :
    gather op ms es =
      if es.any (decides op) then none else some (addMembers ms (es.flatMap (splice op))) := by
  induction es generalizing ms with
  | nil => simp [gather]
  | cons e es ih =>
    cases e with
    | group p inner =>
      by_cases hp : p = op
      · subst hp
        simp [gather, decides, ih, addMembers_append]
      · cases inner with
        | nil => simp [gather, decides, hp]
        | cons i is => simp [gather, decides, splice, hp, ih]
    | _ => simp [gather, decides, splice, ih]

/-- The group of simple members in closed form. -/
theorem joinMembers_eq (op : Connective) (es : List Expression) :
    joinMembers op es =
      if es.any (decides op) then .group op.dual []
      else collapse op (addMembers [] (es.flatMap (splice op))) := by
  rw [joinMembers, gather_eq]
  by_cases h : es.any (decides op) = true
  · rw [if_pos h, if_pos h]
  · rw [if_neg h, if_neg h]

/-- A simplified group, read off its simplified members. -/
theorem simplify_group (op : Connective) (es : List Expression) :
    simplify (.group op es) = joinMembers op (es.map simplify) := by
  rw [simplify, simplifyMembers_eq_map]

/-- A simplified negation, read off what it negates. -/
theorem simplify_not (e : Expression) : simplify (.not e) = negate (simplify e) := by
  rw [simplify]

/-! ### Every step keeps the value -/

/-- A group and its only member have the same value. -/
theorem evaluate_collapse (op : Connective) (es : List Expression) :
    (collapse op es).evaluate el = (group op es).evaluate el := by
  unfold collapse
  split
  · exact evaluate_group_singleton.symm
  · rfl

/-- Leaving out members that equal others does not change the value of a group. -/
theorem evaluate_addMembers (op : Connective) (es : List Expression) :
    (group op (addMembers [] es)).evaluate el = (group op es).evaluate el := by
  refine evaluate_group_congr ⟨fun h e he => ?_, fun h m hm => ?_⟩
  · obtain ⟨m, hm, hsame⟩ : ∃ m ∈ addMembers [] es, same m e = true := exists_same_of_mem he
    rw [← evaluate_eq_of_same hsame]
    exact h m hm
  · rcases mem_of_mem_addMembers hm with hnil | hmem
    · simp at hnil
    · exact h m hmem

/-- A member is neutral exactly if all that it gives to the group is. -/
theorem evaluate_splice (op : Connective) (e : Expression) :
    (∀ m ∈ splice op e, m.evaluate el = op.neutral) ↔ e.evaluate el = op.neutral := by
  by_cases h : IsGroupOf op e
  · cases e with
    | group p inner =>
      have hp : p = op := h
      subst hp
      rw [splice_group_self]
      exact evaluate_group_eq_neutral_iff.symm
    | _ => exact absurd h (by simp [IsGroupOf])
  · rw [splice_of_not_isGroupOf h]
    simp

/-- Replacing inner groups by their members does not change the value of a group. -/
theorem evaluate_flatMap_splice (op : Connective) (es : List Expression) :
    (group op (es.flatMap (splice op))).evaluate el = (group op es).evaluate el := by
  refine evaluate_group_congr ⟨fun h e he => ?_, fun h m hm => ?_⟩
  · exact (evaluate_splice op e).mp fun m hm => h m (List.mem_flatMap.mpr ⟨e, he, hm⟩)
  · obtain ⟨e, he, hm⟩ := List.mem_flatMap.mp hm
    exact (evaluate_splice op e).mpr (h e he) m hm

/-- Joining simple members gives an expression with the value of their group. -/
theorem evaluate_joinMembers (op : Connective) (es : List Expression) :
    (joinMembers op es).evaluate el = (group op es).evaluate el := by
  rw [joinMembers_eq]
  split
  · next hany =>
    obtain ⟨e, he, hdec⟩ := List.any_eq_true.mp hany
    rw [evaluate_group_nil, eq_comm, evaluate_group_eq_dual_iff]
    exact ⟨e, he, by rw [decides_iff.mp hdec, evaluate_group_nil]⟩
  · rw [evaluate_collapse, evaluate_addMembers, evaluate_flatMap_splice]

/-- Negating a simple expression turns its value around. -/
theorem evaluate_negate (e : Expression) : (negate e).evaluate el = !e.evaluate el := by
  cases e with
  | group op es =>
    cases es with
    | nil => simp [negate]
    | cons e es => simp [negate, evaluate]
  | not e => simp [negate, evaluate]
  | _ => simp [negate, evaluate]

/-- An element answers a simplified expression as it answers the expression itself. -/
theorem evaluate_simplify (el : Element) (e : Expression) :
    (simplify e).evaluate el = e.evaluate el := by
  induction e with
  | group op es ih =>
    rw [simplify_group, evaluate_joinMembers]
    refine evaluate_group_forall₂ ?_
    rw [List.forall₂_map_left_iff, List.forall₂_same]
    exact ih
  | not e ih => rw [simplify_not, evaluate_negate, ih, evaluate]
  | _ => simp [simplify]

/-- Simplification keeps the meaning: every expression is equivalent to its simplification. -/
theorem simplify_equivalent (e : Expression) : Equivalent (simplify e) e :=
  fun el => evaluate_simplify el e

end TileSchema.Filter.Expression
