import Mathlib.Data.List.Nodup
import TileSchema.Code.Scope

/-!
# What is settled in a scope

A declaration collides with a name in the scope or with a declaration in front of it, so there is no
collision exactly if all identifiers asked for are free and differ from each other.  Where a
collision is an error, the check therefore says that the identifiers are pairwise different
(`requireDistinct_eq_ok_iff`).

Where it is none, the first that asks for an identifier has it (`KeepsFirst`).  A step of settling
either drops a declaration whose identifier is taken, or keeps it and takes its identifier from all
that follow (`KeepsFirst.cons`); the induction in `keepsFirst_settle` is over the declarations whose
identifiers are free in the scope.
-/

namespace TileSchema.Code

/-! ### Without collisions -/

section Collisions

variable {α : Type} {ds : List (Declaration α)}

/-- Nothing collides in a scope exactly if the identifiers are free and pairwise different. -/
theorem collisions_settle_eq_nil_iff (scope : Scope) (ds : List (Declaration α)) :
    (settle scope ds).2 = [] ↔
      (∀ d ∈ ds, scope.lookup d.ident = none) ∧ (ds.map Declaration.ident).Nodup := by
  induction ds generalizing scope with
  | nil => simp
  | cons d ds ih =>
    rw [settle, List.forall_mem_cons, List.map_cons, List.nodup_cons]
    cases hd : scope.lookup d.ident with
    | some holder => simp
    | none =>
      simp only [true_and]
      rw [ih]
      have hlookup : ∀ e : Declaration α, ((d.ident, d.name) :: scope).lookup e.ident = none ↔
          e.ident ≠ d.ident ∧ scope.lookup e.ident = none := by
        intro e
        rw [List.lookup_cons]
        by_cases he : e.ident = d.ident
        · simp [he]
        · have hbeq : (e.ident == d.ident) = false := by simpa using he
          rw [hbeq]
          exact ⟨fun h => ⟨he, h⟩, fun h => h.2⟩
      simp only [hlookup, List.mem_map, not_exists, not_and]
      constructor
      · rintro ⟨hfree, hnodup⟩
        exact ⟨fun e he => (hfree e he).2, fun e he => (hfree e he).1, hnodup⟩
      · rintro ⟨hfree, hnew, hnodup⟩
        exact ⟨fun e he => ⟨hnew e he, hfree e he⟩, hnodup⟩

/-- The check succeeds exactly if the identifiers are pairwise different. -/
theorem requireDistinct_eq_ok_iff {error : Collision → RenderError} :
    requireDistinct error ds = .ok () ↔ (ds.map Declaration.ident).Nodup := by
  have hsettle := collisions_settle_eq_nil_iff [] ds
  unfold requireDistinct
  split
  · next hnone =>
    rw [collisions] at hnone
    simpa [hnone] using hsettle
  · next c cs hsome =>
    rw [collisions] at hsome
    simpa [hsome] using hsettle

end Collisions

/-! ### Keeping the first -/

section KeepsFirst

variable {α β : Type} {ident : α → String} {asked kept : List α} {x : α}

/-- Of what is asked for, the first that asks for an identifier is kept. -/
structure KeepsFirst (ident : α → String) (asked kept : List α) : Prop where
  /-- No identifier is kept twice. -/
  distinct : (kept.map ident).Nodup
  /-- Nothing is kept that is not asked for, and the order stays. -/
  sublist : kept.Sublist asked
  /-- Each identifier asked for is kept, by the first that asks for it. -/
  first : ∀ x ∈ asked, ∃ y ∈ kept, asked.find? (fun z => ident z = ident x) = some y

/-- What is kept in front takes its identifier from all that follow. -/
theorem KeepsFirst.cons (h : KeepsFirst ident (asked.filter fun y => ident y ≠ ident x) kept) :
    KeepsFirst ident (x :: asked) (x :: kept) where
  distinct := by
    rw [List.map_cons, List.nodup_cons]
    refine ⟨fun hmem => ?_, h.distinct⟩
    obtain ⟨y, hy, heq⟩ := List.mem_map.mp hmem
    have hne := (List.mem_filter.mp (h.sublist.subset hy)).2
    simp [heq] at hne
  sublist := (h.sublist.trans List.filter_sublist).cons_cons x
  first := by
    intro z hz
    by_cases heq : ident x = ident z
    · exact ⟨x, List.mem_cons_self, List.find?_cons_of_pos (by simpa using heq)⟩
    · -- another identifier is asked for behind, by something that is not filtered out
      have hmem : z ∈ asked := by
        rcases List.mem_cons.mp hz with rfl | hmem
        · exact absurd rfl heq
        · exact hmem
      have hfilter : z ∈ asked.filter fun y => ident y ≠ ident x :=
        List.mem_filter.mpr ⟨hmem, by simpa using Ne.symm heq⟩
      obtain ⟨y, hy, hfind⟩ := h.first z hfilter
      refine ⟨y, List.mem_cons_of_mem _ hy, ?_⟩
      rw [List.find?_cons_of_neg (by simpa using heq), ← hfind, List.find?_filter]
      congr 1
      funext w
      by_cases hw : ident w = ident z
      · simp [hw, Ne.symm heq]
      · simp [hw]

/-- What is kept does not depend on how it is spelled. -/
theorem KeepsFirst.map {ident' : β → String} {f : α → β} (hf : ∀ x, ident' (f x) = ident x)
    (h : KeepsFirst ident asked kept) : KeepsFirst ident' (asked.map f) (kept.map f) where
  distinct := by
    rw [List.map_map]
    exact (List.map_congr_left fun x _ => hf x).symm ▸ h.distinct
  sublist := h.sublist.map f
  first := by
    rw [List.forall_mem_map]
    intro x hx
    obtain ⟨y, hy, hfind⟩ := h.first x hx
    refine ⟨f y, List.mem_map_of_mem hy, ?_⟩
    rw [List.find?_map, Function.comp_def]
    simp only [hf, hfind, Option.map_some]

/-- What is kept is what is the first to ask for its identifier. -/
theorem KeepsFirst.mem_iff (h : KeepsFirst ident asked kept) :
    x ∈ kept ↔ asked.find? (fun z => ident z = ident x) = some x := by
  constructor
  · intro hx
    obtain ⟨y, hy, hfind⟩ := h.first x (h.sublist.subset hx)
    have hident : ident y = ident x := by simpa using List.find?_some hfind
    rwa [List.inj_on_of_nodup_map h.distinct hy hx hident] at hfind
  · intro hfind
    obtain ⟨y, hy, hfind'⟩ := h.first x (List.mem_of_find?_eq_some hfind)
    rwa [Option.some.inj (hfind.symm.trans hfind')]

/-- Each identifier asked for is kept, and no other. -/
theorem KeepsFirst.exists_ident_iff (h : KeepsFirst ident asked kept) {i : String} :
    (∃ x ∈ kept, ident x = i) ↔ ∃ x ∈ asked, ident x = i := by
  constructor
  · rintro ⟨x, hx, hi⟩
    exact ⟨x, h.sublist.subset hx, hi⟩
  · rintro ⟨x, hx, rfl⟩
    obtain ⟨y, hy, hfind⟩ := h.first x hx
    exact ⟨y, hy, by simpa using List.find?_some hfind⟩

/-- Settling keeps the first of the declarations whose identifiers are free. -/
theorem keepsFirst_settle (scope : Scope) (ds : List (Declaration α)) :
    KeepsFirst Declaration.ident (ds.filter fun d => scope.lookup d.ident = none)
      (settle scope ds).1 := by
  induction ds generalizing scope with
  | nil => exact ⟨List.nodup_nil, List.Sublist.refl _, by simp⟩
  | cons d ds ih =>
    rw [settle]
    cases hd : scope.lookup d.ident with
    | some holder =>
      rw [List.filter_cons_of_neg (by simp [hd])]
      exact ih scope
    | none =>
      rw [List.filter_cons_of_pos (by simp [hd])]
      have hfree : (ds.filter fun e => scope.lookup e.ident = none).filter
          (fun e => e.ident ≠ d.ident) =
            ds.filter fun e => ((d.ident, d.name) :: scope).lookup e.ident = none := by
        rw [List.filter_filter]
        refine List.filter_congr fun e _ => ?_
        rw [List.lookup_cons]
        by_cases he : e.ident = d.ident
        · simp [he]
        · have hbeq : (e.ident == d.ident) = false := by simpa using he
          simp [he, hbeq]
      apply KeepsFirst.cons
      rw [hfree]
      exact ih _

/-- In a scope of its own, the first claim of each identifier is kept. -/
theorem keepsFirst_kept (ds : List (Declaration α)) :
    KeepsFirst Declaration.ident ds (Code.kept ds) := by
  have hfree : (ds.filter fun d => ([] : Scope).lookup d.ident = none) = ds :=
    List.filter_eq_self.mpr fun _ _ => rfl
  have hsettle := keepsFirst_settle [] ds
  rwa [hfree] at hsettle

end KeepsFirst

end TileSchema.Code
