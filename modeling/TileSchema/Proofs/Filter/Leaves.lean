import Mathlib.Data.List.Flatten
import TileSchema.Proofs.Filter.Canonical

/-!
# What simplification leaves out

A leaf of an expression asks about a tag or a type; everything else groups and negates.  The order
of the leaves is that of the schema, so a simplified expression should ask what was asked before, in
that order, only less of it.

Members move while a group is simplified: those of inner groups come up, equal ones are dropped at
their later places, and a deciding member takes all others away.  None of this changes places
(`leaves_flatMap_splice`, `exists_addMembers_eq`), hence `leaves_simplify`: the leaves that remain
are a subsequence of the leaves that there were.

Nothing is added on the way either.  Each step does nothing or takes nodes away (`Lessens`), and
steps that do so can be made one after the other and inside a group, which gives `lessens_simplify`.
So an expression that simplification changes loses nodes by it.
-/

namespace TileSchema.Filter.Expression

variable {op : Connective} {e e' : Expression} {ms ns es fs : List Expression}

/-! ### Nodes and leaves -/

mutual

/-- An expression and everything that it is made of, from the outside in and from left to right. -/
def nodes : Expression → List Expression
  | .group op es => .group op es :: nodesOfMembers es
  | .not e => .not e :: nodes e
  | e => [e]

/-- The nodes of the members of a group. -/
def nodesOfMembers : List Expression → List Expression
  | [] => []
  | e :: es => nodes e ++ nodesOfMembers es

end

/-- Whether an expression is a question about a tag or a type. -/
def isLeaf : Expression → Bool
  | .group .. | .not _ => false
  | _ => true

/-- The questions in an expression about a tag or a type, from left to right. -/
def leaves (e : Expression) : List Expression := e.nodes.filter isLeaf

/-- The number of groups, negations and leaves that an expression is made of. -/
def nodeCount (e : Expression) : Nat := e.nodes.length

/-- The number of nodes that some expressions are made of. -/
def totalCount (es : List Expression) : Nat := (es.flatMap nodes).length

@[simp] theorem nodesOfMembers_eq_flatMap (es : List Expression) :
    nodesOfMembers es = es.flatMap nodes := by
  induction es with
  | nil => rfl
  | cons e es ih => rw [nodesOfMembers, ih, List.flatMap_cons]

@[simp] theorem nodes_group (op : Connective) (es : List Expression) :
    nodes (.group op es) = .group op es :: es.flatMap nodes := by
  rw [nodes, nodesOfMembers_eq_flatMap]

@[simp] theorem leaves_group (op : Connective) (es : List Expression) :
    leaves (.group op es) = es.flatMap leaves := by
  rw [leaves, nodes_group, List.filter_cons_of_neg (by simp [isLeaf]), List.filter_flatMap]
  rfl

@[simp] theorem leaves_not (e : Expression) : leaves (.not e) = leaves e := by
  rw [leaves, nodes, List.filter_cons_of_neg (by simp [isLeaf]), leaves]

@[simp] theorem nodeCount_group (op : Connective) (es : List Expression) :
    nodeCount (.group op es) = totalCount es + 1 := by
  rw [nodeCount, nodes_group, List.length_cons, totalCount]

@[simp] theorem nodeCount_not (e : Expression) : nodeCount (.not e) = nodeCount e + 1 := by
  rw [nodeCount, nodes, List.length_cons, nodeCount]

@[simp] theorem totalCount_nil : totalCount [] = 0 := rfl

@[simp] theorem totalCount_append (es fs : List Expression) :
    totalCount (es ++ fs) = totalCount es + totalCount fs := by
  simp only [totalCount, List.flatMap_append, List.length_append]

@[simp] theorem totalCount_singleton (e : Expression) : totalCount [e] = nodeCount e := by
  rw [totalCount, List.flatMap_singleton, nodeCount]

/-- Every expression has a node. -/
theorem nodeCount_pos (e : Expression) : 0 < nodeCount e := by
  cases e <;> simp [nodeCount, nodes]

/-! ### The order of the leaves -/

/-- What a member gives to a group has the leaves of the member. -/
theorem leaves_splice (op : Connective) (e : Expression) :
    (splice op e).flatMap leaves = leaves e := by
  by_cases h : IsGroupOf op e
  · cases e with
    | group p inner =>
      have hp : p = op := h
      rw [hp, splice_group_self, leaves_group]
    | _ => exact absurd h (by simp [IsGroupOf])
  · rw [splice_of_not_isGroupOf h, List.flatMap_singleton]

/-- Replacing inner groups by their members keeps all leaves at their places. -/
theorem leaves_flatMap_splice (op : Connective) (es : List Expression) :
    (es.flatMap (splice op)).flatMap leaves = es.flatMap leaves := by
  rw [List.flatMap_assoc]
  exact List.flatMap_congr fun e _ => leaves_splice op e

/-- A group has the leaves of its members, whether or not it is collapsed. -/
theorem leaves_collapse (op : Connective) (es : List Expression) :
    leaves (collapse op es) = es.flatMap leaves := by
  unfold collapse
  split
  · rw [List.flatMap_singleton]
  · rw [leaves_group]

/-- Joining simple members leaves some of their leaves out. -/
theorem leaves_joinMembers (op : Connective) (es : List Expression) :
    (leaves (joinMembers op es)).Sublist (es.flatMap leaves) := by
  rw [joinMembers_eq]
  split
  · rw [leaves_group, List.flatMap_nil]
    exact List.nil_sublist _
  · obtain ⟨added, hsub, heq⟩ := exists_addMembers_eq [] (es.flatMap (splice op))
    rw [leaves_collapse, heq, List.nil_append, ← leaves_flatMap_splice op es]
    exact hsub.flatMap leaves

/-- Negating a simple expression keeps its leaves. -/
theorem leaves_negate (e : Expression) : leaves (negate e) = leaves e := by
  unfold negate
  split <;> simp

/-- The leaves of a simplified expression are some of those that there were, in their order. -/
theorem leaves_simplify (e : Expression) : (leaves (simplify e)).Sublist (leaves e) := by
  induction e with
  | group op es ih =>
    have hmembers : ((es.map simplify).flatMap leaves).Sublist (es.flatMap leaves) := by
      rw [List.flatMap_map]
      exact List.Sublist.flatMap_right es ih
    rw [simplify_group, leaves_group]
    exact (leaves_joinMembers op _).trans hmembers
  | not e ih => rwa [simplify_not, leaves_negate, leaves_not]
  | _ => exact List.Sublist.refl _

/-! ### The number of nodes -/

/-- Expressions come from others by doing nothing, or by taking nodes away. -/
def Lessens (es fs : List Expression) : Prop := es = fs ∨ totalCount es < totalCount fs

namespace Lessens

theorem refl (es : List Expression) : Lessens es es := Or.inl rfl

theorem trans (h : Lessens ms es) (h' : Lessens es fs) : Lessens ms fs := by
  rcases h with rfl | h
  · exact h'
  · rcases h' with rfl | h'
    · exact Or.inr h
    · exact Or.inr (Nat.lt_trans h h')

/-- There are not more nodes than before. -/
theorem le (h : Lessens es fs) : totalCount es ≤ totalCount fs := by
  rcases h with rfl | h
  · exact Nat.le_refl _
  · exact Nat.le_of_lt h

/-- If there are as many nodes as before, nothing was done. -/
theorem eq_of_totalCount_eq (h : Lessens es fs) (hcount : totalCount es = totalCount fs) :
    es = fs :=
  h.resolve_right (Nat.not_lt_of_le (Nat.le_of_eq hcount.symm))

/-- Two lists of expressions can be changed one behind the other. -/
theorem append (h : Lessens ms es) (h' : Lessens ns fs) : Lessens (ms ++ ns) (es ++ fs) := by
  have hle := h.le
  have hle' := h'.le
  rw [Lessens, totalCount_append, totalCount_append]
  rcases h with rfl | h
  · rcases h' with rfl | h'
    · exact Or.inl rfl
    · exact Or.inr (by omega)
  · exact Or.inr (by omega)

/-- The expressions of a list can be changed one by one. -/
theorem flatMap {f : Expression → List Expression} (h : ∀ e ∈ es, Lessens (f e) [e]) :
    Lessens (es.flatMap f) es := by
  induction es with
  | nil => exact refl []
  | cons e es ih =>
    obtain ⟨hhead, htail⟩ := List.forall_mem_cons.mp h
    exact hhead.append (ih htail)

/-- The members of a group can be changed. -/
theorem group (op : Connective) (h : Lessens es fs) : Lessens [.group op es] [.group op fs] := by
  rcases h with rfl | h
  · exact refl _
  · exact Or.inr (by simpa using h)

/-- What is negated can be changed. -/
theorem not (h : Lessens [e] [e']) : Lessens [.not e] [.not e'] := by
  rcases h with h | h
  · rw [List.singleton_inj.mp h]
    exact refl _
  · exact Or.inr (by simpa using h)

end Lessens

/-- Expressions can be left out. -/
theorem lessens_of_sublist (h : ms.Sublist es) : Lessens ms es := by
  induction h with
  | slnil => exact .refl []
  | cons e _ ih =>
    have hpos : totalCount [] < totalCount [e] := by simpa using nodeCount_pos e
    exact Lessens.append (Or.inr hpos) ih
  | cons_cons e _ ih => exact (Lessens.refl [e]).append ih

/-- A member is taken over as it is, or is an inner group that is given up. -/
theorem lessens_splice (op : Connective) (e : Expression) : Lessens (splice op e) [e] := by
  by_cases h : IsGroupOf op e
  · cases e with
    | group p inner =>
      have hp : p = op := h
      rw [hp, splice_group_self]
      exact Or.inr (by simp)
    | _ => exact absurd h (by simp [IsGroupOf])
  · rw [splice_of_not_isGroupOf h]
    exact .refl _

/-- A group of one member is given up. -/
theorem lessens_collapse (op : Connective) (es : List Expression) :
    Lessens [collapse op es] [.group op es] := by
  unfold collapse
  split
  · exact Or.inr (by simp)
  · exact .refl _

/-- A deciding member is a node of its own, so a decided group loses nodes. -/
theorem lessens_of_decides (h : es.any (decides op) = true) :
    Lessens [.group op.dual []] [.group op es] := by
  obtain ⟨e, he, -⟩ := List.any_eq_true.mp h
  have hmember : nodeCount e ≤ totalCount es := by
    simpa using (lessens_of_sublist (List.singleton_sublist.mpr he)).le
  have hpos := nodeCount_pos e
  refine Or.inr ?_
  simp only [totalCount_singleton, nodeCount_group, totalCount_nil]
  omega

/-- Joining simple members gives their group, or something with fewer nodes. -/
theorem lessens_joinMembers (op : Connective) (es : List Expression) :
    Lessens [joinMembers op es] [.group op es] := by
  rw [joinMembers_eq]
  split
  · next hany => exact lessens_of_decides hany
  · obtain ⟨added, hsub, heq⟩ := exists_addMembers_eq [] (es.flatMap (splice op))
    have hspliced : Lessens (es.flatMap (splice op)) es :=
      Lessens.flatMap fun e _ => lessens_splice op e
    have hadded : Lessens added es := (lessens_of_sublist hsub).trans hspliced
    rw [heq, List.nil_append]
    exact (lessens_collapse op added).trans (hadded.group op)

/-- Negating a simple expression gives its negation, or something with fewer nodes. -/
theorem lessens_negate (e : Expression) : Lessens [negate e] [.not e] := by
  unfold negate
  split
  · exact Or.inr (by simp)
  · refine Or.inr ?_
    simp only [totalCount_singleton, nodeCount_not]
    omega
  · exact .refl _

/-- Simplification does nothing, or takes nodes away. -/
theorem lessens_simplify (e : Expression) : Lessens [simplify e] [e] := by
  induction e with
  | group op es ih =>
    have hmembers : Lessens (es.map simplify) es := by
      rw [← List.flatMap_pure_eq_map]
      exact Lessens.flatMap ih
    rw [simplify_group]
    exact (lessens_joinMembers op _).trans (hmembers.group op)
  | not e ih =>
    rw [simplify_not]
    exact (lessens_negate _).trans ih.not
  | _ => exact .refl _

/-! ### Main result -/

/-- Simplification keeps the order and invents nothing.  Read from left to right, the leaves of a
simplified expression are a subsequence of the leaves of the expression, values of a tag in their
order included.  It has no more nodes, and fewer unless the expression is canonical already. -/
theorem simplify_keeps_leaf_order (e : Expression) :
    (leaves (simplify e)).Sublist (leaves e) ∧ nodeCount (simplify e) ≤ nodeCount e ∧
      (nodeCount (simplify e) = nodeCount e ↔ IsCanonical e) := by
  have hlessens := lessens_simplify e
  refine ⟨leaves_simplify e, by simpa using hlessens.le, ?_, ?_⟩
  · intro hcount
    have hsame : simplify e = e :=
      List.singleton_inj.mp (hlessens.eq_of_totalCount_eq (by simpa using hcount))
    rw [← hsame]
    exact isCanonical_simplify e
  · intro hcanonical
    rw [simplify_of_isCanonical hcanonical]

end TileSchema.Filter.Expression
