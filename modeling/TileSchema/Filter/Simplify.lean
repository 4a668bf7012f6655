import TileSchema.Filter.Expression

/-!
# Simplification

An expression is brought into a form without idle parts, from the inside to the outside, by one
pass: groups in a group of the same connective are merged into it, a member equal to an earlier
one is dropped, a constant member vanishes or decides the group, a group of one member is that
member, and a double negation cancels.

`IsCanonical` says of an expression, without reference to the pass, that nothing of this is left
to do.
-/

namespace TileSchema.Filter.Expression

/-! ### The pass -/

/-- Members with one more at their end, unless an equal one is there. -/
def addMember (members : List Expression) (e : Expression) : List Expression :=
  if members.any (same · e) then members else members ++ [e]

/-- Members with all of a list added. -/
def addMembers (members es : List Expression) : List Expression := es.foldl addMember members

/-- The members of a group whose given members are simple: those of inner groups of the same
connective are taken over, and none are left when a member decides the group. -/
def gather (op : Connective) : List Expression → List Expression → Option (List Expression)
  | members, [] => some members
  | members, e :: es =>
    match e with
    | .group p inner =>
      if p = op then gather op (addMembers members inner) es
      else if inner.isEmpty then none
      else gather op (addMember members e) es
    | e => gather op (addMember members e) es

/-- A group, or its member if it has one. -/
def collapse (op : Connective) : List Expression → Expression
  | [e] => e
  | es => .group op es

/-- The group of simple members. -/
def joinMembers (op : Connective) (es : List Expression) : Expression :=
  match gather op [] es with
  | some members => collapse op members
  | none => .group op.dual []

/-- The negation of a simple expression. -/
def negate : Expression → Expression
  | .group op [] => .group op.dual []
  | .not e => e
  | e => .not e

mutual

/-- An expression with the same meaning and no idle parts. -/
def simplify : Expression → Expression
  | .group op es => joinMembers op (simplifyMembers es)
  | .not e => negate (simplify e)
  | e => e

/-- The members of a group, each simplified. -/
def simplifyMembers : List Expression → List Expression
  | [] => []
  | e :: es => simplify e :: simplifyMembers es

end

@[simp] theorem simplifyMembers_eq_map (es : List Expression) :
    simplifyMembers es = es.map simplify := by
  induction es with
  | nil => rfl
  | cons e es ih => simp [simplifyMembers, ih]

/-! ### The form -/

/-- A constant: a group without members. -/
def IsConstant : Expression → Prop
  | .group _ [] => True
  | _ => False

/-- A group of the connective. -/
def IsGroupOf (op : Connective) : Expression → Prop
  | .group p _ => p = op
  | _ => False

/-- A negation. -/
def IsNegation : Expression → Prop
  | .not _ => True
  | _ => False

mutual

/-- Canonical below the root: besides the conditions of `IsCanonical`, no constant. -/
def IsProper : Expression → Prop
  | .group op es =>
    2 ≤ es.length ∧ (∀ e ∈ es, ¬ IsGroupOf op e) ∧ es.Pairwise (fun a b => same a b = false) ∧
      AreProper es
  | .not e => ¬ IsNegation e ∧ IsProper e
  | _ => True

/-- All members of a group are proper. -/
def AreProper : List Expression → Prop
  | [] => True
  | e :: es => IsProper e ∧ AreProper es

end

/-- No group stands in a group of its connective, no group has one member, no two members of a group
are equal, no negation stands under a negation, and a constant is the whole expression or nowhere.
-/
def IsCanonical (e : Expression) : Prop := IsConstant e ∨ IsProper e

end TileSchema.Filter.Expression
