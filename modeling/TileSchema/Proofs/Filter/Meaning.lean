import Mathlib.Data.List.Forall2
import Mathlib.Data.List.Perm.Subperm
import TileSchema.Filter.Expression

/-!
# What expressions mean

An expression means the answers that elements give to it.  This file describes these answers
without recursion on the members of a group: `evaluate_group_eq_neutral_iff` says that a group has
the neutral value of its connective exactly if all its members have it, so two groups of one
connective have the same value as soon as their members are neutral together
(`evaluate_group_congr`).  Both connectives are covered by one statement.

The second half relates meaning and equality.  Values of a tag are compared as sets
(`TextSet.same_iff`), and expressions that are equal in this sense are answered alike
(`evaluate_eq_of_same`).
-/

namespace TileSchema

namespace Ordered.TextSet

/-- Two sets are equal exactly if they have the same members. -/
theorem same_iff {s t : TextSet} : s.same t = true ↔ ∀ x, x ∈ s.toList ↔ x ∈ t.toList := by
  unfold same
  rw [Bool.and_eq_true, beq_iff_eq, List.all_eq_true]
  constructor
  · rintro ⟨hlen, hsub⟩ x
    have hsub' : s.toList ⊆ t.toList := fun y hy => contains_iff.mp (hsub y hy)
    have hperm : s.toList.Perm t.toList :=
      (s.nodup.subperm hsub').perm_of_length_le (Nat.le_of_eq hlen.symm)
    exact hperm.mem_iff
  · intro h
    have hperm : s.toList.Perm t.toList := (List.perm_ext_iff_of_nodup s.nodup t.nodup).mpr h
    exact ⟨hperm.length_eq, fun x hx => contains_iff.mpr ((h x).mp hx)⟩

/-- Equal sets contain the same texts. -/
theorem contains_congr {s t : TextSet} (h : s.same t = true) (x : String) :
    s.contains x = t.contains x := by
  rw [Bool.eq_iff_iff, contains_iff, contains_iff]
  exact same_iff.mp h x

end Ordered.TextSet

namespace Filter

/-- A truth value that is not the neutral one of a connective is that of its dual. -/
theorem Connective.ne_neutral_iff {op : Connective} {b : Bool} :
    b ≠ op.neutral ↔ b = op.dual.neutral := by
  rw [Connective.neutral_dual]
  cases b <;> cases op.neutral <;> decide

namespace Expression

open Ordered (TextSet)

/-- Induction on expressions: the members of a group are taken together. -/
@[elab_as_elim, induction_eliminator]
theorem induction {motive : Expression → Prop}
    (group : ∀ op members, (∀ e ∈ members, motive e) → motive (.group op members))
    (not : ∀ e, motive e → motive (.not e))
    (matchField : ∀ key, motive (.matchField key))
    (matchAny : ∀ key values, motive (.matchAny key values))
    (matchType : ∀ kind, motive (.matchType kind)) (e : Expression) : motive e := by
  refine @Expression.rec motive (fun es => ∀ e ∈ es, motive e)
    group not matchField matchAny matchType ?_ ?_ e
  · intro e he
    cases he
  · intro e es he hes e' he'
    rcases List.mem_cons.mp he' with rfl | hmem
    · exact he
    · exact hes e' hmem

/-- Two expressions are equivalent if every element answers both alike. -/
def Equivalent (a b : Expression) : Prop := ∀ el : Element, a.evaluate el = b.evaluate el

/-! ### Values of groups -/

variable {el : Element} {op : Connective} {es fs : List Expression}

/-- The value of a group is neutral exactly if the values of all its members are. -/
theorem evaluate_group_eq_neutral_iff :
    (group op es).evaluate el = op.neutral ↔ ∀ e ∈ es, e.evaluate el = op.neutral := by
  cases op with
  | and => simp [evaluate, Connective.neutral]
  | or => simp [evaluate, Connective.neutral]

/-- A group has the value that is not neutral exactly if one of its members has it. -/
theorem evaluate_group_eq_dual_iff :
    (group op es).evaluate el = op.dual.neutral ↔ ∃ e ∈ es, e.evaluate el = op.dual.neutral := by
  rw [← Connective.ne_neutral_iff, Ne, evaluate_group_eq_neutral_iff]
  push Not
  exact exists_congr fun e => and_congr_right fun _ => Connective.ne_neutral_iff

/-- Groups of one connective have the same value if their members are neutral together. -/
theorem evaluate_group_congr
    (h : (∀ e ∈ es, e.evaluate el = op.neutral) ↔ ∀ e ∈ fs, e.evaluate el = op.neutral) :
    (group op es).evaluate el = (group op fs).evaluate el := by
  rw [← evaluate_group_eq_neutral_iff, ← evaluate_group_eq_neutral_iff] at h
  have hbool : ∀ a b n : Bool, (a = n ↔ b = n) → a = b := by decide
  exact hbool _ _ _ h

/-- The value of an empty group is the neutral one. -/
@[simp] theorem evaluate_group_nil : (group op []).evaluate el = op.neutral := by
  simp [evaluate, evaluateGroup]

/-- A group of one member has the value of that member. -/
@[simp] theorem evaluate_group_singleton {e : Expression} :
    (group op [e]).evaluate el = e.evaluate el := by
  cases op with
  | and => simp [evaluate]
  | or => simp [evaluate]

/-- Groups of one connective have the same value if their members have, one by one. -/
theorem evaluate_group_forall₂
    (h : List.Forall₂ (fun a b => a.evaluate el = b.evaluate el) es fs) :
    (group op es).evaluate el = (group op fs).evaluate el := by
  induction h with
  | nil => rfl
  | cons hhead _ ih =>
    simp only [evaluate, evaluateGroup] at ih ⊢
    rw [hhead, ih]

/-- A conjunction holds exactly if all its members do. -/
theorem evaluate_and : (Expression.and es).evaluate el = true ↔ ∀ e ∈ es, e.evaluate el = true := by
  have h : (group .and es).evaluate el = Connective.and.neutral ↔
      ∀ e ∈ es, e.evaluate el = Connective.and.neutral := evaluate_group_eq_neutral_iff
  exact h

/-- A disjunction holds exactly if one of its members does. -/
theorem evaluate_or : (Expression.or es).evaluate el = true ↔ ∃ e ∈ es, e.evaluate el = true := by
  have h : (group .or es).evaluate el = Connective.or.dual.neutral ↔
      ∃ e ∈ es, e.evaluate el = Connective.or.dual.neutral := evaluate_group_eq_dual_iff
  exact h

/-- A question for a tag holds of the elements that have it with a value that is not empty. -/
theorem evaluate_matchField_iff {key : String} :
    (matchField key).evaluate el = true ↔ ∃ value, el.tag? key = some value ∧ value ≠ "" := by
  simp [evaluate, Option.any_eq_true]

/-- A question for values holds of the elements that have the tag with one of them. -/
theorem evaluate_matchAny_iff {key : String} {values : TextSet} :
    (matchAny key values).evaluate el = true ↔
      ∃ value, el.tag? key = some value ∧ value ∈ values.toList := by
  simp [evaluate, Option.any_eq_true]

/-! ### Equality and meaning -/

/-- Lists of expressions are equal if their members are, one by one. -/
theorem sameMembers_iff : sameMembers es fs = true ↔ List.Forall₂ (same · · = true) es fs := by
  induction es generalizing fs with
  | nil => cases fs <;> simp [sameMembers]
  | cons a as ih => cases fs <;> simp [sameMembers, ih]

/-- An expression equals a group if it is a group of the same connective with equal members. -/
theorem same_group_iff {b : Expression} : same (.group op es) b = true ↔
    ∃ fs, b = .group op fs ∧ List.Forall₂ (same · · = true) es fs := by
  cases b with
  | group p fs => simp [same, sameMembers_iff, @eq_comm _ p op]
  | _ => simp [same]

/-- An expression equals a negation if it negates an equal expression. -/
theorem same_not_iff {a b : Expression} :
    same (.not a) b = true ↔ ∃ b', b = .not b' ∧ same a b' = true := by
  cases b <;> simp [same]

theorem same_matchField_iff {key : String} {b : Expression} :
    same (.matchField key) b = true ↔ b = .matchField key := by
  cases b with
  | matchField key' => simp [same, @eq_comm _ key' key]
  | _ => simp [same]

/-- An expression equals a question for values if it asks for the same ones, in any order. -/
theorem same_matchAny_iff {key : String} {values : TextSet} {b : Expression} :
    same (.matchAny key values) b = true ↔
      ∃ values', b = .matchAny key values' ∧ ∀ x, x ∈ values.toList ↔ x ∈ values'.toList := by
  cases b with
  | matchAny key' values' => simp [same, TextSet.same_iff, @eq_comm _ key' key]
  | _ => simp [same]

theorem same_matchType_iff {kind : String} {b : Expression} :
    same (.matchType kind) b = true ↔ b = .matchType kind := by
  cases b with
  | matchType kind' => simp [same, @eq_comm _ kind' kind]
  | _ => simp [same]

/-- Every expression equals itself. -/
@[simp] theorem same_refl (e : Expression) : same e e = true := by
  induction e with
  | group op es ih => exact same_group_iff.mpr ⟨es, rfl, List.forall₂_same.mpr ih⟩
  | not e ih => exact same_not_iff.mpr ⟨e, rfl, ih⟩
  | matchField key => exact same_matchField_iff.mpr rfl
  | matchAny key values => exact same_matchAny_iff.mpr ⟨values, rfl, fun _ => Iff.rfl⟩
  | matchType kind => exact same_matchType_iff.mpr rfl

/-- Every element answers equal expressions alike. -/
theorem evaluate_eq_of_same {a b : Expression} (h : same a b = true) :
    a.evaluate el = b.evaluate el := by
  induction a generalizing b with
  | group op as ih =>
    obtain ⟨bs, rfl, hmembers⟩ := same_group_iff.mp h
    have hboth := (List.forall₂_and_left _ _).mpr ⟨@ih, hmembers⟩
    exact evaluate_group_forall₂ (hboth.imp fun a b hab => hab.1 hab.2)
  | not a ih =>
    obtain ⟨b', rfl, hsame⟩ := same_not_iff.mp h
    simp only [evaluate, ih hsame]
  | matchField key => rw [same_matchField_iff.mp h]
  | matchAny key values =>
    obtain ⟨values', rfl, hvalues⟩ := same_matchAny_iff.mp h
    have hcontains : values.contains = values'.contains :=
      funext (TextSet.contains_congr (TextSet.same_iff.mpr hvalues))
    simp only [evaluate, hcontains]
  | matchType kind => rw [same_matchType_iff.mp h]

end Expression

end Filter

end TileSchema
