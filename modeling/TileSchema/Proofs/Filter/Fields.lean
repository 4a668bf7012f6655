import TileSchema.Proofs.Filter.Parts

/-!
# What a field asks for

A field asks for a tag.  Its values say which values of the tag will do: those that are listed, or
any that is not empty, if none is listed or the literal for any value is among them.  `Admits` says
this of the values as they stand in the document.  An element satisfies the field exactly if the
value of its tag is admitted (`satisfies_field_iff`).
-/

namespace TileSchema.Filter

variable {el : Element} {values : Filter} {fs : List Filter} {key text : String} {p : Expression}

/-! ### Values that are admitted -/

/-- Any value will do if there is no literal, or if one stands for any value. -/
def AdmitsAny (values : Filter) : Prop :=
  (∀ text, .scalar text ∉ values.leaves) ∨ .scalar anyValue ∈ values.leaves

/-- The values that are admitted: all that are not empty if any value will do, and otherwise those
that are listed. -/
def Admits (values : Filter) (value : String) : Prop :=
  AdmitsAny values ∧ value ≠ "" ∨ ¬ AdmitsAny values ∧ .scalar value ∈ values.leaves

/-- Among values with a literal, any value will do exactly if a literal says so. -/
theorem admitsAny_iff (h : ∃ text, .scalar text ∈ values.leaves) :
    AdmitsAny values ↔ .scalar anyValue ∈ values.leaves := by
  obtain ⟨text, htext⟩ := h
  exact or_iff_right fun hnone => hnone text htext

/-- Some value is admitted. -/
theorem exists_admits (values : Filter) : ∃ value, Admits values value := by
  by_cases hany : AdmitsAny values
  · exact ⟨"yes", Or.inl ⟨hany, by decide⟩⟩
  · obtain ⟨text, htext⟩ : ∃ text, .scalar text ∈ values.leaves := by
      by_contra hnone
      exact hany (Or.inl fun text htext => hnone ⟨text, htext⟩)
    exact ⟨text, Or.inr ⟨hany, htext⟩⟩

/-! ### The question of a field -/

/-- The literals that were read are those that are there. -/
theorem mem_literalsOf_iff {literals : List String} (h : literalsOf fs = .ok literals) :
    text ∈ literals ↔ .scalar text ∈ fs := by
  induction fs generalizing literals with
  | nil =>
    rw [literalsOf, Except.ok.injEq] at h
    simp [← h]
  | cons f fs ih =>
    cases f with
    | scalar text' =>
      obtain ⟨rest, hrest, rfl⟩ := map_eq_ok_iff.mp h
      simp [ih hrest]
    | mapping entries => cases h
    | null => simpa using ih h
    | sequence items => simpa using ih h

/-- The question of a field holds of the elements whose tag has a value that is admitted. -/
theorem evaluate_fieldExpression_iff (h : fieldExpression key values = .ok p) :
    p.evaluate el = true ↔ ∃ value, el.tag? key = some value ∧ Admits values value := by
  unfold fieldExpression at h
  obtain ⟨literals, hliterals, hp⟩ := bind_eq_ok_iff.mp h
  have hmem : ∀ text, text ∈ literals ↔ .scalar text ∈ values.leaves :=
    fun text => mem_literalsOf_iff hliterals
  have hany : (literals.isEmpty || decide (anyValue ∈ literals)) = true ↔ AdmitsAny values := by
    rw [Bool.or_eq_true, List.isEmpty_iff, decide_eq_true_iff, AdmitsAny, hmem,
      List.eq_nil_iff_forall_not_mem]
    simp only [hmem]
  unfold Admits
  by_cases hadmits : AdmitsAny values
  · rw [if_pos (hany.mpr hadmits)] at hp
    obtain rfl := Except.ok.inj hp
    simp [Expression.evaluate_matchField_iff, hadmits]
  · rw [if_neg (mt hany.mp hadmits)] at hp
    obtain rfl := Except.ok.inj hp
    simp [Expression.anyOf, Expression.evaluate_matchAny_iff, hadmits, hmem]

/-- An element satisfies a field exactly if the value of its tag is admitted. -/
theorem satisfies_field_iff (hkey : combinator? key = none)
    (h : IsAccepted (.mapping [(key, values)])) :
    Satisfies el (.mapping [(key, values)]) ↔
      ∃ value, el.tag? key = some value ∧ Admits values value := by
  obtain ⟨p, hp⟩ := (isAccepted_field_iff hkey).mp h
  rw [← evaluate_fieldExpression_iff hp, satisfies_iff]
  simp [isPart_field_iff hkey, hp]

end TileSchema.Filter
