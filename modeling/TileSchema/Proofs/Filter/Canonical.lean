import TileSchema.Proofs.Filter.Simplification

/-!
# Canonical expressions

Simplification makes one pass from the inside to the outside, and a step may expose what another
step handles: a group that collapses may yield a group of the connective around it, and a cancelled
double negation may yield a constant.  Nevertheless nothing is left to do afterwards.

`isCanonical_simplify` says that every simplified expression is canonical.  The invariant of the
pass is `IsProper.of_mem_splice`: what a canonical member gives to a group is proper and is no group
of the same connective.  Conversely the pass does not touch a canonical expression
(`simplify_of_isCanonical`), so the canonical expressions are the fixed points of simplification.
-/

namespace TileSchema.Filter.Expression

variable {op : Connective} {e m : Expression} {ms es : List Expression}

/-! ### The conditions -/

/-- The members of a list are proper one by one. -/
theorem areProper_iff : AreProper es ↔ ∀ e ∈ es, IsProper e := by
  induction es with
  | nil => simp [AreProper]
  | cons e es ih => simp [AreProper, ih]

/-- An expression is constant exactly if it is an empty group. -/
theorem isConstant_iff : IsConstant e ↔ ∃ op, e = .group op [] := by
  cases e with
  | group op es => cases es <;> simp [IsConstant]
  | _ => simp [IsConstant]

/-- A group is proper if it has several members, all proper, none a group of its connective and no
two of them equal. -/
theorem isProper_group_iff :
    IsProper (.group op es) ↔
      2 ≤ es.length ∧ (∀ e ∈ es, ¬ IsGroupOf op e) ∧
        es.Pairwise (fun a b => same a b = false) ∧ ∀ e ∈ es, IsProper e := by
  rw [IsProper, areProper_iff]

/-- A proper expression is no constant. -/
theorem IsProper.not_isConstant (h : IsProper e) : ¬ IsConstant e := by
  rw [isConstant_iff]
  rintro ⟨op, rfl⟩
  have hlen := (isProper_group_iff.mp h).1
  simp at hlen

/-- A constant is canonical. -/
theorem isCanonical_constant (op : Connective) : IsCanonical (.group op []) :=
  Or.inl trivial

/-! ### Simplified expressions are canonical -/

/-- What a canonical member that does not decide a group gives to it is proper, and no group of the
same connective. -/
theorem IsProper.of_mem_splice (he : IsCanonical e) (hdec : decides op e = false)
    (hm : m ∈ splice op e) : IsProper m ∧ ¬ IsGroupOf op m := by
  by_cases hgroup : IsGroupOf op e
  · cases e with
    | group p inner =>
      have hp : p = op := hgroup
      subst hp
      rw [splice_group_self] at hm
      rcases he with hconst | hproper
      · obtain ⟨q, hq⟩ := isConstant_iff.mp hconst
        rw [Expression.group.injEq] at hq
        rw [hq.2] at hm
        simp at hm
      · obtain ⟨-, hnogroup, -, hall⟩ := isProper_group_iff.mp hproper
        exact ⟨hall m hm, hnogroup m hm⟩
    | _ => exact absurd hgroup (by simp [IsGroupOf])
  · rw [splice_of_not_isGroupOf hgroup, List.mem_singleton] at hm
    subst hm
    refine ⟨he.resolve_left fun hconst => ?_, hgroup⟩
    -- a constant that is no group of the connective would decide the group
    obtain ⟨q, rfl⟩ := isConstant_iff.mp hconst
    have hq : q ≠ op := hgroup
    simp [decides, hq] at hdec

/-- A group of several members is not collapsed. -/
theorem collapse_of_two_le (h : 2 ≤ ms.length) : collapse op ms = .group op ms := by
  match ms, h with
  | _ :: _ :: _, _ => rfl

/-- A group of proper members is canonical once it is collapsed, if none is a group of its
connective and no two are equal. -/
theorem isCanonical_collapse (hproper : ∀ m ∈ ms, IsProper m) (hgroup : ∀ m ∈ ms, ¬ IsGroupOf op m)
    (hdistinct : ms.Pairwise fun a b => same a b = false) : IsCanonical (collapse op ms) := by
  match ms with
  | [] => exact isCanonical_constant op
  | [m] => exact Or.inr (hproper m (List.mem_singleton.mpr rfl))
  | m :: m' :: rest =>
    refine Or.inr (isProper_group_iff.mpr ⟨?_, hgroup, hdistinct, hproper⟩)
    simp

/-- What canonical members of which none decides a group add to it are proper expressions, and no
groups of the same connective. -/
theorem IsProper.of_mem_addMembers (h : ∀ e ∈ es, IsCanonical e) (hdec : ¬ es.any (decides op) = true)
    (hm : m ∈ addMembers [] (es.flatMap (splice op))) : IsProper m ∧ ¬ IsGroupOf op m := by
  have hm' : m ∈ es.flatMap (splice op) :=
    (mem_of_mem_addMembers hm).resolve_left List.not_mem_nil
  obtain ⟨e, he, hme⟩ := List.mem_flatMap.mp hm'
  have hnot : decides op e = false :=
    Bool.eq_false_iff.mpr fun hd => hdec (List.any_eq_true.mpr ⟨e, he, hd⟩)
  exact IsProper.of_mem_splice (h e he) hnot hme

/-- Joining canonical members gives a canonical expression. -/
theorem isCanonical_joinMembers (h : ∀ e ∈ es, IsCanonical e) : IsCanonical (joinMembers op es) := by
  rw [joinMembers_eq]
  split
  · exact isCanonical_constant op.dual
  · next hany =>
    exact isCanonical_collapse (fun m hm => (IsProper.of_mem_addMembers h hany hm).1)
      (fun m hm => (IsProper.of_mem_addMembers h hany hm).2) (pairwise_addMembers List.Pairwise.nil)

/-- The negation of a canonical expression is canonical once it is simplified. -/
theorem isCanonical_negate (h : IsCanonical e) : IsCanonical (negate e) := by
  rcases h with hconst | hproper
  · obtain ⟨op, rfl⟩ := isConstant_iff.mp hconst
    exact isCanonical_constant op.dual
  · cases e with
    | group op es =>
      cases es with
      | nil => exact absurd trivial hproper.not_isConstant
      | cons e es => exact Or.inr ⟨not_false, hproper⟩
    | not e => exact Or.inr hproper.2
    | _ => exact Or.inr ⟨not_false, hproper⟩

/-- A simplified expression is canonical. -/
theorem isCanonical_simplify (e : Expression) : IsCanonical (simplify e) := by
  induction e with
  | group op es ih =>
    rw [simplify_group]
    refine isCanonical_joinMembers fun e he => ?_
    obtain ⟨e', he', rfl⟩ := List.mem_map.mp he
    exact ih e' he'
  | not e ih =>
    rw [simplify_not]
    exact isCanonical_negate ih
  | _ => exact Or.inr trivial

/-! ### Canonical expressions are fixed -/

/-- Members of a proper group are joined to that very group. -/
theorem joinMembers_of_isProper (h : IsProper (.group op es)) :
    joinMembers op es = .group op es := by
  obtain ⟨hlen, hgroup, hdistinct, hproper⟩ := isProper_group_iff.mp h
  have hany : ¬ es.any (decides op) = true := by
    rw [List.any_eq_true]
    rintro ⟨e, he, hdec⟩
    have hconst : IsConstant e := isConstant_iff.mpr ⟨op.dual, decides_iff.mp hdec⟩
    exact (hproper e he).not_isConstant hconst
  have hsplice : es.flatMap (splice op) = es := by
    calc es.flatMap (splice op)
        = es.flatMap (fun e => [e]) :=
          List.flatMap_congr fun e he => splice_of_not_isGroupOf (hgroup e he)
      _ = es := List.flatMap_singleton' es
  rw [joinMembers_eq, if_neg hany, hsplice, addMembers_of_pairwise (by simpa using hdistinct),
    List.nil_append, collapse_of_two_le hlen]

/-- The negation of an expression that is neither constant nor a negation is left alone. -/
theorem negate_of_not (hconst : ¬ IsConstant e) (hneg : ¬ IsNegation e) : negate e = .not e := by
  cases e with
  | group op es =>
    cases es with
    | nil => exact absurd trivial hconst
    | cons e es => rfl
  | not e => exact absurd trivial hneg
  | _ => rfl

/-- Simplification does not change a proper expression. -/
theorem simplify_of_isProper (h : IsProper e) : simplify e = e := by
  induction e with
  | group op es ih =>
    have hall := (isProper_group_iff.mp h).2.2.2
    have hmap : es.map simplify = es := by
      calc es.map simplify
          = es.map id := List.map_congr_left fun e he => ih e he (hall e he)
        _ = es := List.map_id es
    rw [simplify_group, hmap, joinMembers_of_isProper h]
  | not e ih =>
    rw [simplify_not, ih h.2, negate_of_not h.2.not_isConstant h.1]
  | _ => simp [simplify]

/-- Simplification does not change a canonical expression. -/
theorem simplify_of_isCanonical (h : IsCanonical e) : simplify e = e := by
  rcases h with hconst | hproper
  · obtain ⟨op, rfl⟩ := isConstant_iff.mp hconst
    simp [simplify_group, joinMembers, gather, collapse]
  · exact simplify_of_isProper hproper

/-- A simplified expression stays as it is when it is simplified again. -/
@[simp] theorem simplify_simplify (e : Expression) : simplify (simplify e) = simplify e :=
  simplify_of_isCanonical (isCanonical_simplify e)

/-- Simplification reaches the canonical form: every simplified expression is canonical, the
canonical expressions are exactly those that it leaves as they are, and simplifying again changes
nothing. -/
theorem simplify_reaches_canonical_form (e : Expression) :
    IsCanonical (simplify e) ∧ (simplify e = e ↔ IsCanonical e) ∧
      simplify (simplify e) = simplify e := by
  refine ⟨isCanonical_simplify e, ⟨fun h => ?_, simplify_of_isCanonical⟩, ?_⟩
  · rw [← h]
    exact isCanonical_simplify e
  · exact simplify_of_isCanonical (isCanonical_simplify e)

end TileSchema.Filter.Expression
