import TileSchema.Proofs.Filter.Canonical
import TileSchema.Proofs.Filter.Equality

/-!
# What simplification does not see

Two expressions with the same meaning may have different simplifications, but some differences leave
no trace at all, not even in the order of the members.

Whether a part was simplified beforehand cannot be told (`simplify_fill_simplify`): simplification
reads an expression from the inside to the outside, so two parts with the same simplification may
be put for each other at every position (`simplify_fill_congr`), and a simplified expression is its
own simplification.

Neither can be told whether members of a group were put into an inner group of the same connective
(`simplify_group_append_group`).  The inner group is simplified first: it may be decided, and then
so is the outer one; it may be left with a single member or with none; and a member that is dropped
in it is dropped as equal to a member of the inner group, which in turn may be dropped as equal to
an earlier one of the outer.  What it gives to the outer group is in any case what its members add
to a group without members (`splice_joinMembers`), and members that are added in two steps are the
same as those added in one (`addMembers_addMembers`).
-/

namespace TileSchema.Filter.Expression

variable {op : Connective} {a b e : Expression} {ms es xs ys zs : List Expression}

/-! ### Parts -/

/-- Parts with the same simplification may be put for each other at every position. -/
theorem simplify_fill_congr (C : Context) (h : simplify a = simplify b) :
    simplify (C.fill a) = simplify (C.fill b) := by
  induction C with
  | hole => exact h
  | group op before inner after ih =>
    rw [Context.fill, Context.fill, simplify_group, simplify_group, List.map_append, List.map_append,
      List.map_cons, List.map_cons, ih]
  | not inner ih => rw [Context.fill, Context.fill, simplify_not, simplify_not, ih]

/-- A part of an expression may be simplified first. -/
theorem simplify_fill_simplify (C : Context) (e : Expression) :
    simplify (C.fill e) = simplify (C.fill (simplify e)) :=
  simplify_fill_congr C (simplify_simplify e).symm

/-- All members of a group may be simplified first. -/
theorem simplify_group_map_simplify (op : Connective) (es : List Expression) :
    simplify (.group op (es.map simplify)) = simplify (.group op es) := by
  rw [simplify_group, simplify_group, List.map_map]
  exact congrArg (joinMembers op) (List.map_congr_left fun e _ => simplify_simplify e)

/-- A canonical expression stays as it is in a group of its own. -/
theorem joinMembers_singleton (h : IsCanonical e) : joinMembers op [e] = e := by
  by_cases hgroup : IsGroupOf op e
  · cases e with
    | group p inner =>
      obtain rfl : p = op := hgroup
      have hdec : ¬ [Expression.group p inner].any (decides p) = true := by simp [decides]
      rw [joinMembers_eq, if_neg hdec, List.flatMap_singleton, splice_group_self]
      rcases h with hconst | hproper
      · obtain ⟨q, hq⟩ := isConstant_iff.mp hconst
        rw [Expression.group.injEq] at hq
        rw [hq.2]
        rfl
      · obtain ⟨hlen, -, hdistinct, -⟩ := isProper_group_iff.mp hproper
        rw [addMembers_of_pairwise (by simpa using hdistinct), List.nil_append,
          collapse_of_two_le hlen]
    | _ => exact absurd hgroup (by simp [IsGroupOf])
  · rw [joinMembers_eq]
    split
    · next hdec =>
      rw [List.any_cons, List.any_nil, Bool.or_false] at hdec
      exact (decides_iff.mp hdec).symm
    · rw [List.flatMap_singleton, splice_of_not_isGroupOf hgroup]
      rfl

/-- A group of one member is simplified to what its member is. -/
theorem simplify_group_singleton (op : Connective) (e : Expression) :
    simplify (.group op [e]) = simplify e := by
  rw [simplify_group, List.map_singleton, joinMembers_singleton (isCanonical_simplify e)]

/-! ### Groups in groups -/

/-- Adding one more member at the end, before or after the others are added. -/
theorem addMembers_addMember (ms es : List Expression) (e : Expression) :
    addMembers ms (addMember es e) = addMember (addMembers ms es) e := by
  rcases addMember_cases es e with ⟨⟨m, hm, hsame⟩, hadd⟩ | ⟨-, hadd⟩
  · -- the member was dropped as equal to one that has an equal here
    obtain ⟨m', hm', hsame'⟩ : ∃ m' ∈ addMembers ms es, same m' m = true := exists_same_of_mem hm
    rw [hadd, addMember_of_same ⟨m', hm', same_trans hsame' hsame⟩]
  · rw [hadd, addMembers_append, addMembers_cons, addMembers_nil]

/-- Members can be added in two steps. -/
theorem addMembers_addMembers (ms es fs : List Expression) :
    addMembers ms (addMembers es fs) = addMembers (addMembers ms es) fs := by
  induction fs generalizing es with
  | nil => rfl
  | cons f fs ih => rw [addMembers_cons, addMembers_cons, ih, addMembers_addMember]

/-- A group that has been joined decides an outer group of its connective if one of its members does.
-/
theorem decides_joinMembers (h : ∀ e ∈ es, IsCanonical e) :
    decides op (joinMembers op es) = es.any (decides op) := by
  rw [joinMembers_eq]
  split
  · next hdec => rw [hdec, decides_iff]
  · next hdec =>
    rw [Bool.eq_false_iff.mpr hdec]
    have hproper := fun m hm => (IsProper.of_mem_addMembers h hdec hm (m := m)).1
    match addMembers [] (es.flatMap (splice op)), hproper with
    | [], _ => simp [collapse, decides]
    | [m], hproper =>
      have hm : IsProper m := hproper m (List.mem_singleton.mpr rfl)
      refine Bool.eq_false_iff.mpr fun hdecides => hm.not_isConstant ?_
      exact isConstant_iff.mpr ⟨op.dual, decides_iff.mp hdecides⟩
    | m :: m' :: rest, _ => simp [collapse, decides]

/-- A group that has been joined gives to an outer group of its connective what its members add to a
group without members. -/
theorem splice_joinMembers (h : ∀ e ∈ es, IsCanonical e) (hdec : ¬ es.any (decides op) = true) :
    splice op (joinMembers op es) = addMembers [] (es.flatMap (splice op)) := by
  rw [joinMembers_eq, if_neg hdec]
  have hgroup := fun m hm => (IsProper.of_mem_addMembers h hdec hm (m := m)).2
  match addMembers [] (es.flatMap (splice op)), hgroup with
  | [], _ => exact splice_group_self op []
  | [m], hgroup => exact splice_of_not_isGroupOf (hgroup m (List.mem_singleton.mpr rfl))
  | m :: m' :: rest, _ => exact splice_group_self op (m :: m' :: rest)

/-- Members may be joined first, in place of being listed among the others. -/
theorem joinMembers_append_joinMembers (h : ∀ e ∈ ys, IsCanonical e) :
    joinMembers op (xs ++ [joinMembers op ys] ++ zs) = joinMembers op (xs ++ ys ++ zs) := by
  have hany : (xs ++ [joinMembers op ys] ++ zs).any (decides op) =
      (xs ++ ys ++ zs).any (decides op) := by
    simp only [List.any_append, List.any_cons, List.any_nil, Bool.or_false, decides_joinMembers h]
  rw [joinMembers_eq op (xs ++ [_] ++ zs), joinMembers_eq op (xs ++ ys ++ zs), hany]
  split
  · rfl
  · next hdec =>
    have hys : ¬ ys.any (decides op) = true := by
      intro hys
      simp [hys] at hdec
    simp only [List.flatMap_append, List.flatMap_singleton, splice_joinMembers h hys,
      addMembers_append, addMembers_addMembers, addMembers_nil]

/-- Members of a group may be put into an inner group of the same connective. -/
theorem simplify_group_append_group (op : Connective) (xs ys zs : List Expression) :
    simplify (.group op (xs ++ [.group op ys] ++ zs)) = simplify (.group op (xs ++ ys ++ zs)) := by
  have hcanonical : ∀ e ∈ ys.map simplify, IsCanonical e := by
    intro e he
    obtain ⟨e', -, rfl⟩ := List.mem_map.mp he
    exact isCanonical_simplify e'
  rw [simplify_group, simplify_group, List.map_append, List.map_append, List.map_singleton,
    simplify_group, List.map_append, List.map_append, joinMembers_append_joinMembers hcanonical]

/-- The equal members of the two groups stand on both sides of the border. -/
example : simplify (.or [.matchField "a", .or [anyOf "b" ["x", "y"], .matchField "a"],
      anyOf "b" ["y", "x"]]) =
    .or [.matchField "a", anyOf "b" ["x", "y"]] := by rfl

end TileSchema.Filter.Expression
