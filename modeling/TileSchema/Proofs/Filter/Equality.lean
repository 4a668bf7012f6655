import TileSchema.Proofs.Filter.Simplification

/-!
# Equal expressions

Expressions are equal if they are built alike and ask for the same values, in whatever order the
values are listed.  A group keeps the first of several equal members, so the order in which a value
list is written can decide which of them is kept.  It cannot decide more than that: at every step of
the pass, lists of members that are equal one by one stay equal one by one (`forall₂_addMembers`,
`same_joinMembers`), and hence equal expressions have equal simplifications (`same_simplify`).

A position inside an expression is given by what stands around it, a `Context`.  Equality goes
through contexts (`same_fill`), so it is a congruence (`same_is_congruence`).
-/

namespace TileSchema.Filter.Expression

variable {op : Connective} {a b c e e' : Expression} {as bs ms ms' es es' : List Expression}

/-! ### An equivalence relation -/

/-- Equality does not depend on the side. -/
theorem same_symm (h : same a b = true) : same b a = true := by
  induction a generalizing b with
  | group op as ih =>
    obtain ⟨bs, rfl, hmembers⟩ := same_group_iff.mp h
    have hboth := (List.forall₂_and_left _ _).mpr ⟨@ih, hmembers⟩
    have hflip : List.Forall₂ (fun a b => same b a = true) as bs :=
      hboth.imp fun a b hab => hab.1 hab.2
    exact same_group_iff.mpr ⟨as, rfl, hflip.flip⟩
  | not a ih =>
    obtain ⟨b', rfl, hsame⟩ := same_not_iff.mp h
    exact same_not_iff.mpr ⟨a, rfl, ih hsame⟩
  | matchField key =>
    obtain rfl := same_matchField_iff.mp h
    exact same_refl _
  | matchAny key values =>
    obtain ⟨values', rfl, hvalues⟩ := same_matchAny_iff.mp h
    exact same_matchAny_iff.mpr ⟨values, rfl, fun x => (hvalues x).symm⟩
  | matchType kind =>
    obtain rfl := same_matchType_iff.mp h
    exact same_refl _

/-- Members that equal members in the middle equal those at the end, if this holds one by one. -/
theorem forall₂_same_trans
    (ih : ∀ a ∈ as, ∀ b c, same a b = true → same b c = true → same a c = true)
    (hab : List.Forall₂ (same · · = true) as bs) (hbc : List.Forall₂ (same · · = true) bs ms) :
    List.Forall₂ (same · · = true) as ms := by
  induction hab generalizing ms with
  | nil => exact hbc
  | cons hhead _ ihtail =>
    obtain ⟨hihhead, hihtail⟩ := List.forall_mem_cons.mp ih
    obtain ⟨m, rest, hm, hrest, rfl⟩ := List.forall₂_cons_left_iff.mp hbc
    exact .cons (hihhead _ _ hhead hm) (ihtail hihtail hrest)

/-- Expressions that equal a third one are equal. -/
theorem same_trans (hab : same a b = true) (hbc : same b c = true) : same a c = true := by
  induction a generalizing b c with
  | group op as ih =>
    obtain ⟨bs, rfl, hmembers⟩ := same_group_iff.mp hab
    obtain ⟨cs, rfl, hmembers'⟩ := same_group_iff.mp hbc
    exact same_group_iff.mpr
      ⟨cs, rfl, forall₂_same_trans (fun a ha b c => ih a ha) hmembers hmembers'⟩
  | not a ih =>
    obtain ⟨b', rfl, hsame⟩ := same_not_iff.mp hab
    obtain ⟨c', rfl, hsame'⟩ := same_not_iff.mp hbc
    exact same_not_iff.mpr ⟨c', rfl, ih hsame hsame'⟩
  | matchField key =>
    obtain rfl := same_matchField_iff.mp hab
    exact hbc
  | matchAny key values =>
    obtain ⟨values', rfl, hvalues⟩ := same_matchAny_iff.mp hab
    obtain ⟨values'', rfl, hvalues'⟩ := same_matchAny_iff.mp hbc
    exact same_matchAny_iff.mpr ⟨values'', rfl, fun x => (hvalues x).trans (hvalues' x)⟩
  | matchType kind =>
    obtain rfl := same_matchType_iff.mp hab
    exact hbc

/-- Equality is an equivalence relation. -/
theorem same_equivalence : Equivalence fun a b => same a b = true :=
  ⟨same_refl, same_symm, same_trans⟩

/-- Whether two expressions are equal does not change when both are replaced by equal ones. -/
theorem same_congr (h : same a b = true) (h' : same e e' = true) : same a e = same b e' := by
  rw [Bool.eq_iff_iff]
  constructor
  · intro hae
    exact same_trans (same_symm h) (same_trans hae h')
  · intro hbe
    exact same_trans h (same_trans hbe (same_symm h'))

/-! ### The pass on equal members -/

/-- A member has an equal among members if it has one among members that equal them. -/
theorem any_same_congr (hms : List.Forall₂ (same · · = true) ms ms') (he : same e e' = true) :
    ms.any (same · e) = ms'.any (same · e') := by
  induction hms with
  | nil => rfl
  | cons hhead _ ih => rw [List.any_cons, List.any_cons, same_congr hhead he, ih]

theorem forall₂_addMember (hms : List.Forall₂ (same · · = true) ms ms') (he : same e e' = true) :
    List.Forall₂ (same · · = true) (addMember ms e) (addMember ms' e') := by
  rw [addMember, addMember, any_same_congr hms he]
  split
  · exact hms
  · exact List.rel_append hms (.cons he .nil)

/-- Adding equal members to equal members gives equal members, although it may be different ones
that are left out as equal to earlier ones. -/
theorem forall₂_addMembers (hms : List.Forall₂ (same · · = true) ms ms')
    (hes : List.Forall₂ (same · · = true) es es') :
    List.Forall₂ (same · · = true) (addMembers ms es) (addMembers ms' es') := by
  induction hes generalizing ms ms' with
  | nil => exact hms
  | cons hhead _ ih => exact ih (forall₂_addMember hms hhead)

/-- Equal members give equal members to a group. -/
theorem forall₂_splice (op : Connective) (h : same e e' = true) :
    List.Forall₂ (same · · = true) (splice op e) (splice op e') := by
  by_cases hgroup : IsGroupOf op e
  · cases e with
    | group p inner =>
      obtain rfl : p = op := hgroup
      obtain ⟨inner', rfl, hinner⟩ := same_group_iff.mp h
      rw [splice_group_self, splice_group_self]
      exact hinner
    | _ => exact absurd hgroup (by simp [IsGroupOf])
  · have hgroup' : ¬ IsGroupOf op e' := by
      intro hgroup'
      cases e' with
      | group p inner' =>
        obtain ⟨inner, rfl, -⟩ := same_group_iff.mp (same_symm h)
        exact hgroup hgroup'
      | _ => exact absurd hgroup' (by simp [IsGroupOf])
    rw [splice_of_not_isGroupOf hgroup, splice_of_not_isGroupOf hgroup']
    exact .cons h .nil

/-- An expression that equals a constant is that constant. -/
theorem same_constant_iff : same (.group op []) e = true ↔ e = .group op [] := by
  rw [same_group_iff]
  simp

/-- Of two equal members, both or none decide a group. -/
theorem decides_congr (op : Connective) (h : same e e' = true) : decides op e = decides op e' := by
  rw [Bool.eq_iff_iff, decides_iff, decides_iff]
  constructor
  · rintro rfl
    exact same_constant_iff.mp h
  · rintro rfl
    exact same_constant_iff.mp (same_symm h)

theorem any_decides_congr (op : Connective) (hes : List.Forall₂ (same · · = true) es es') :
    es.any (decides op) = es'.any (decides op) := by
  induction hes with
  | nil => rfl
  | cons hhead _ ih => rw [List.any_cons, List.any_cons, decides_congr op hhead, ih]

theorem same_collapse (hes : List.Forall₂ (same · · = true) es es') :
    same (collapse op es) (collapse op es') = true := by
  cases hes with
  | nil => exact same_refl _
  | cons hhead htail =>
    cases htail with
    | nil => exact hhead
    | cons hsecond hrest => exact same_group_iff.mpr ⟨_, rfl, .cons hhead (.cons hsecond hrest)⟩

/-- Equal members are joined to equal expressions. -/
theorem same_joinMembers (op : Connective) (hes : List.Forall₂ (same · · = true) es es') :
    same (joinMembers op es) (joinMembers op es') = true := by
  rw [joinMembers_eq, joinMembers_eq, any_decides_congr op hes]
  split
  · exact same_refl _
  · have hspliced : List.Forall₂ (same · · = true) (es.flatMap (splice op))
        (es'.flatMap (splice op)) := List.rel_flatMap hes fun _ _ h => forall₂_splice op h
    exact same_collapse (forall₂_addMembers .nil hspliced)

/-- Equal expressions have equal negations. -/
theorem same_negate (h : same e e' = true) : same (negate e) (negate e') = true := by
  cases e with
  | group op es =>
    obtain ⟨es', rfl, hes⟩ := same_group_iff.mp h
    cases hes with
    | nil => exact same_refl _
    | cons hhead htail => exact same_not_iff.mpr ⟨_, rfl, h⟩
  | not e =>
    obtain ⟨e', rfl, hsame⟩ := same_not_iff.mp h
    exact hsame
  | matchField key =>
    obtain rfl := same_matchField_iff.mp h
    exact same_refl _
  | matchAny key values =>
    obtain ⟨values', rfl, -⟩ := same_matchAny_iff.mp h
    exact same_not_iff.mpr ⟨_, rfl, h⟩
  | matchType kind =>
    obtain rfl := same_matchType_iff.mp h
    exact same_refl _

/-- Equal expressions have equal simplifications. -/
theorem same_simplify (h : same a b = true) : same a.simplify b.simplify = true := by
  induction a generalizing b with
  | group op as ih =>
    obtain ⟨bs, rfl, hmembers⟩ := same_group_iff.mp h
    have hboth := (List.forall₂_and_left _ _).mpr ⟨@ih, hmembers⟩
    have hsimple : List.Forall₂ (same · · = true) (as.map simplify) (bs.map simplify) := by
      rw [List.forall₂_map_left_iff, List.forall₂_map_right_iff]
      exact hboth.imp fun a b hab => hab.1 hab.2
    rw [simplify_group, simplify_group]
    exact same_joinMembers op hsimple
  | not a ih =>
    obtain ⟨b', rfl, hsame⟩ := same_not_iff.mp h
    rw [simplify_not, simplify_not]
    exact same_negate (ih hsame)
  | matchField key =>
    obtain rfl := same_matchField_iff.mp h
    exact same_refl _
  | matchAny key values =>
    obtain ⟨values', rfl, -⟩ := same_matchAny_iff.mp h
    simpa [simplify] using h
  | matchType kind =>
    obtain rfl := same_matchType_iff.mp h
    exact same_refl _

/-! ### Positions -/

/-- What stands around a position in an expression. -/
inductive Context where
  /-- The position itself. -/
  | hole
  /-- A position in a member of a group, between other members. -/
  | group (op : Connective) (before : List Expression) (inner : Context) (after : List Expression)
  /-- A position under a negation. -/
  | not (inner : Context)

/-- The expression with a part at the position. -/
def Context.fill : Context → Expression → Expression
  | .hole, e => e
  | .group op before inner after, e => .group op (before ++ inner.fill e :: after)
  | .not inner, e => .not (inner.fill e)

/-- Replacing a part of an expression by an equal one gives an equal expression. -/
theorem same_fill (C : Context) (h : same a b = true) : same (C.fill a) (C.fill b) = true := by
  induction C with
  | hole => exact h
  | group op before inner after ih =>
    have hrefl : ∀ es : List Expression, List.Forall₂ (same · · = true) es es :=
      fun es => List.forall₂_same.mpr fun e _ => same_refl e
    exact same_group_iff.mpr
      ⟨_, rfl, List.rel_append (hrefl before) (.cons ih (hrefl after))⟩
  | not inner ih => exact same_not_iff.mpr ⟨_, rfl, ih⟩

/-- Equality of expressions is a congruence: it is an equivalence relation, and equal expressions
are answered alike by every element, have equal simplifications and may be put for each other at
every position of every expression, which leaves its simplification equal. -/
theorem same_is_congruence :
    (Equivalence fun a b => same a b = true) ∧
      ∀ a b, same a b = true →
        (∀ el, a.evaluate el = b.evaluate el) ∧ same a.simplify b.simplify = true ∧
          ∀ C : Context, same (C.fill a).simplify (C.fill b).simplify = true := by
  refine ⟨same_equivalence, fun a b h => ⟨fun el => evaluate_eq_of_same h, same_simplify h, ?_⟩⟩
  intro C
  exact same_simplify (same_fill C h)

/-- Two lists of the same values: which of the two a disjunction keeps depends on the order in which
they stand there, and the results are equal all the same. -/
theorem same_is_congruence_reordered_values :
    same (anyOf "highway" ["trunk", "primary"]) (anyOf "highway" ["primary", "trunk"]) = true ∧
      ∀ C : Context,
        same (C.fill (.or [anyOf "highway" ["trunk", "primary"],
            anyOf "highway" ["primary", "trunk"]])).simplify
          (C.fill (.or [anyOf "highway" ["primary", "trunk"],
            anyOf "highway" ["trunk", "primary"]])).simplify = true := by
  have hvalues : same (anyOf "highway" ["trunk", "primary"])
      (anyOf "highway" ["primary", "trunk"]) = true := by decide
  refine ⟨hvalues, ?_⟩
  have hgroups : same (.or [anyOf "highway" ["trunk", "primary"],
      anyOf "highway" ["primary", "trunk"]]) (.or [anyOf "highway" ["primary", "trunk"],
      anyOf "highway" ["trunk", "primary"]]) = true := by decide
  exact (same_is_congruence.2 _ _ hgroups).2.2

end TileSchema.Filter.Expression
