import Mathlib.Tactic.MkIffOfInductiveProp
import TileSchema.Proofs.Filter.Parts
import TileSchema.Proofs.Filter.Simplification
import TileSchema.Table.Selection

/-!
# What a table selects

A table declares which elements it takes: those of one of its types that satisfy the mapping of
that type, all that the table requires and nothing that it rejects.  `Selects` says this of an
element and the declaration, part by part and without reference to the compiled expression.

The expression of a table is put together on two ways, from one type or from several, and is
simplified once or twice; a filter may be absent in each place.  `evaluate_tableSelection` says that
an element satisfies the expression exactly if the table selects it.
-/

namespace TileSchema.Table

open TileSchema.Filter (Element Expression IsPart optionalParts)

variable {el : Element} {kind : String} {p e : Expression} {r : Restrictions}
  {mapping : Option Filter} {mappings : List (String × Filter)} {t : TableSpec}

/-! ### Types in the singular -/

/-- A name is the singular of a type if the type is this name with an `s`, or the name itself when
it does not end in `s`. -/
def IsSingularOf (name kind : String) : Prop :=
  kind = name ++ "s" ∨ kind = name ∧ ∀ stem, kind ≠ stem ++ "s"

/-- A text ends in `s` exactly if its characters do. -/
theorem eq_append_s_iff {name : String} :
    kind = name ++ "s" ↔ kind.toList = name.toList ++ ['s'] := by
  rw [← String.toList_inj, String.toList_append]
  rfl

/-- Leaving out an `s` at the end gives the singular and nothing else. -/
theorem singular_eq_iff {name : String} : singular kind = name ↔ IsSingularOf name kind := by
  unfold singular IsSingularOf
  split
  · next cs hcs =>
    have hkind : kind = String.ofList cs.reverse ++ "s" := by
      rw [eq_append_s_iff, String.toList_ofList, ← List.reverse_reverse kind.toList, hcs,
        List.reverse_cons]
    constructor
    · rintro rfl
      exact Or.inl hkind
    · rintro (hname | ⟨-, hends⟩)
      · have happend := eq_append_s_iff.mp (hkind.symm.trans hname)
        rw [String.toList_append] at happend
        exact String.toList_inj.mp (List.append_cancel_right happend)
      · exact absurd hkind (hends _)
  · next hcs =>
    have hends : ∀ stem, kind ≠ stem ++ "s" := by
      intro stem hstem
      exact hcs stem.toList.reverse (by rw [eq_append_s_iff.mp hstem]; simp)
    constructor
    · rintro rfl
      exact Or.inr ⟨rfl, hends⟩
    · rintro (hname | ⟨hname, -⟩)
      · exact absurd hname (hends name)
      · exact hname

/-! ### The declaration -/

/-- What restricts a table permits an element if all required parts hold and no rejected one. -/
structure Permits (r : Restrictions) (el : Element) : Prop where
  required : ∀ f ∈ r.require, ∀ p, IsPart p f → p.evaluate el = true
  not_rejected : ∀ f ∈ r.reject, ∀ p, IsPart p f → p.evaluate el = false

/-- The types of a table, each with the filter of its elements: those that are mapped one by one,
or else its own type with its own mapping. -/
def choices (t : TableSpec) : List (String × Filter) :=
  match t.typeMappings with
  | some mappings => mappings.entries
  | none => t.mapping.toList.map (t.kind, ·)

/-- A table selects an element that is of one of its types and satisfies a part of the filter for
this type, if its restrictions permit the element. -/
@[mk_iff]
structure Selects (t : TableSpec) (el : Element) : Prop where
  of_type : ∃ choice ∈ choices t, (∃ name ∈ el.types, IsSingularOf name choice.1) ∧
    ∃ p, IsPart p choice.2 ∧ p.evaluate el = true
  permitted : Permits t.restrictions el

/-! ### One type -/

/-- The parts of a filter that may be absent. -/
theorem mem_optionalParts_iff {f : Option Filter} {ps : List Expression}
    (h : optionalParts f = .ok ps) : p ∈ ps ↔ ∃ g ∈ f, IsPart p g := by
  cases f with
  | none =>
    rw [optionalParts, Except.ok.injEq] at h
    simp [← h]
  | some g => simp [Filter.isPart_iff_of_parts (f := g) h]

/-- What the elements of a type have to satisfy is read from the three filters. -/
theorem rawSelection_eq_ok_iff :
    rawSelection kind mapping r = .ok e ↔
      ∃ wanted, optionalParts mapping = .ok wanted ∧
        ∃ required, optionalParts r.require = .ok required ∧
          ∃ rejected, optionalParts r.reject = .ok rejected ∧
            .and [.or wanted, .and required, .not (.or rejected), .matchType (singular kind)] = e := by
  simp only [rawSelection, bind_eq_ok_iff, pure, Except.pure, Except.ok.injEq]

section
variable {f : Option Filter} {ps : List Expression}

/-- One of the parts of a filter that may be absent holds. -/
theorem evaluate_or_optionalParts (h : optionalParts f = .ok ps) :
    (Expression.or ps).evaluate el = true ↔ ∃ g ∈ f, ∃ p, IsPart p g ∧ p.evaluate el = true := by
  simp only [Expression.evaluate_or, mem_optionalParts_iff h]
  constructor
  · rintro ⟨p, ⟨g, hg, hp⟩, heval⟩
    exact ⟨g, hg, p, hp, heval⟩
  · rintro ⟨g, hg, p, hp, heval⟩
    exact ⟨p, ⟨g, hg, hp⟩, heval⟩

/-- All parts of a filter that may be absent hold. -/
theorem evaluate_and_optionalParts (h : optionalParts f = .ok ps) :
    (Expression.and ps).evaluate el = true ↔ ∀ g ∈ f, ∀ p, IsPart p g → p.evaluate el = true := by
  simp only [Expression.evaluate_and, mem_optionalParts_iff h]
  constructor
  · intro hall g hg p hp
    exact hall p ⟨g, hg, hp⟩
  · rintro hall p ⟨g, hg, hp⟩
    exact hall g hg p hp

/-- None of the parts of a filter that may be absent holds. -/
theorem evaluate_not_or_optionalParts (h : optionalParts f = .ok ps) :
    (Expression.not (.or ps)).evaluate el = true ↔
      ∀ g ∈ f, ∀ p, IsPart p g → p.evaluate el = false := by
  rw [Expression.evaluate, Bool.not_eq_true', ← Bool.not_eq_true, evaluate_or_optionalParts h]
  simp only [not_exists, not_and, Bool.not_eq_true]

end

/-- The expression of one type holds of the elements of this type that satisfy a part of the mapping
and are permitted. -/
theorem evaluate_selection (h : selection kind mapping r = .ok e) :
    e.evaluate el = true ↔
      ((∃ name ∈ el.types, IsSingularOf name kind) ∧
        ∃ f ∈ mapping, ∃ p, IsPart p f ∧ p.evaluate el = true) ∧ Permits r el := by
  obtain ⟨raw, hraw, rfl⟩ := map_eq_ok_iff.mp h
  obtain ⟨wanted, hwanted, required, hrequired, rejected, hrejected, rfl⟩ :=
    rawSelection_eq_ok_iff.mp hraw
  have htype : (Expression.matchType (singular kind)).evaluate el = true ↔
      ∃ name ∈ el.types, IsSingularOf name kind := by
    simp [Expression.evaluate, ← singular_eq_iff]
  rw [Expression.evaluate_simplify, Expression.evaluate_and]
  simp only [List.forall_mem_cons, htype, evaluate_or_optionalParts hwanted,
    evaluate_and_optionalParts hrequired, evaluate_not_or_optionalParts hrejected]
  constructor
  · rintro ⟨hm, hreq, hrej, ht, -⟩
    exact ⟨⟨ht, hm⟩, hreq, hrej⟩
  · rintro ⟨⟨ht, hm⟩, hreq, hrej⟩
    exact ⟨hm, hreq, hrej, ht, List.forall_mem_nil _⟩

/-! ### Several types -/

/-- The expressions of several types are read one after the other. -/
theorem selections_cons_eq_ok_iff {choice : String × Filter} {es : List Expression} :
    selections r (choice :: mappings) = .ok es ↔
      ∃ e, selection choice.1 (some choice.2) r = .ok e ∧
        ∃ rest, selections r mappings = .ok rest ∧ e :: rest = es := by
  simp only [selections, bind_eq_ok_iff, pure, Except.pure, Except.ok.injEq]

/-- The expressions of several types are those of the types, each with its mapping. -/
theorem mem_selections_iff {es : List Expression} (h : selections r mappings = .ok es) :
    e ∈ es ↔ ∃ choice ∈ mappings, selection choice.1 (some choice.2) r = .ok e := by
  induction mappings generalizing es with
  | nil =>
    rw [selections, Except.ok.injEq] at h
    simp [← h]
  | cons choice mappings ih =>
    obtain ⟨first, hfirst, rest, hrest, rfl⟩ := selections_cons_eq_ok_iff.mp h
    rw [List.mem_cons, ih hrest, List.exists_mem_cons_iff, hfirst, Except.ok.injEq, eq_comm]

/-- Every type has an expression if several types have them together. -/
theorem exists_selection_of_mem {es : List Expression} {choice : String × Filter}
    (h : selections r mappings = .ok es) (hchoice : choice ∈ mappings) :
    ∃ e, selection choice.1 (some choice.2) r = .ok e := by
  induction mappings generalizing es with
  | nil => simp at hchoice
  | cons first mappings ih =>
    obtain ⟨e, he, rest, hrest, -⟩ := selections_cons_eq_ok_iff.mp h
    rcases List.mem_cons.mp hchoice with rfl | hmem
    · exact ⟨e, he⟩
    · exact ih hrest hmem

/-- The expression of several types holds of the elements that one of the types selects. -/
theorem evaluate_selectionOfTypes (h : selectionOfTypes mappings r = .ok e) :
    e.evaluate el = true ↔
      (∃ choice ∈ mappings, (∃ name ∈ el.types, IsSingularOf name choice.1) ∧
        ∃ p, IsPart p choice.2 ∧ p.evaluate el = true) ∧ Permits r el := by
  obtain ⟨es, hes, rfl⟩ := map_eq_ok_iff.mp h
  rw [Expression.evaluate_simplify, Expression.evaluate_or]
  constructor
  · rintro ⟨e, he, heval⟩
    obtain ⟨choice, hchoice, hselection⟩ := (mem_selections_iff hes).mp he
    have hone := (evaluate_selection hselection).mp heval
    exact ⟨⟨choice, hchoice, by simpa using hone.1⟩, hone.2⟩
  · rintro ⟨⟨choice, hchoice, hone⟩, hpermits⟩
    obtain ⟨e, hselection⟩ := exists_selection_of_mem hes hchoice
    refine ⟨e, (mem_selections_iff hes).mpr ⟨choice, hchoice, hselection⟩, ?_⟩
    exact (evaluate_selection hselection).mpr ⟨by simpa using hone, hpermits⟩

/-- An element satisfies the expression of a table exactly if the table selects it. -/
theorem evaluate_tableSelection (h : tableSelection t = .ok e) :
    e.evaluate el = true ↔ Selects t el := by
  rw [selects_iff]
  unfold choices
  unfold tableSelection at h
  cases htypes : t.typeMappings with
  | some mappings =>
    simp only [htypes] at h ⊢
    exact evaluate_selectionOfTypes h
  | none =>
    simp only [htypes] at h ⊢
    rw [evaluate_selection h]
    cases t.mapping <;> simp

end TileSchema.Table
