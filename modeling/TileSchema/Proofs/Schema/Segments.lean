import TileSchema.Schema.Reference

/-!
# The segments of a text

A text is cut at its slashes.  The pieces are put together again by slashes between them, and then
cut into the same pieces (`segments_joinSegments`), so pieces that are not empty are told by their
joined text (`joinSegments_injective`).
-/

namespace TileSchema.Reference

theorem segments_ne_nil (cs : List Char) : segments cs ≠ [] := by
  cases cs with
  | nil => simp [segments]
  | cons c cs =>
    rw [segments]
    split
    · simp
    · cases segments cs <;> simp

theorem segments_slash (cs : List Char) : segments ('/' :: cs) = [] :: segments cs := by
  simp [segments]

theorem segments_cons {c : Char} (hc : c ≠ '/') {cs : List Char} {s : Segment} {ss : List Segment}
    (h : segments cs = s :: ss) : segments (c :: cs) = (c :: s) :: ss := by
  rw [segments, if_neg hc, h]

/-- Each segment of a text with a slash in it lies in front of the slash or behind it. -/
theorem segments_append_slash (as bs : List Char) :
    segments (as ++ '/' :: bs) = segments as ++ segments bs := by
  induction as with
  | nil => rw [List.nil_append, segments_slash]; rfl
  | cons a as ih =>
    by_cases ha : a = '/'
    · rw [ha, List.cons_append, segments_slash, segments_slash, ih, List.cons_append]
    · obtain ⟨s, ss, hs⟩ := List.exists_cons_of_ne_nil (segments_ne_nil as)
      rw [segments_cons ha hs, List.cons_append, segments_cons ha (ih.trans (by rw [hs]; rfl))]
      rfl

theorem segments_of_notMem {cs : List Char} (h : '/' ∉ cs) : segments cs = [cs] := by
  induction cs with
  | nil => rfl
  | cons c cs ih =>
    rw [List.mem_cons, not_or] at h
    exact segments_cons (Ne.symm h.1) (ih h.2)

theorem notMem_of_mem_segments {cs : List Char} {s : Segment} (h : s ∈ segments cs) : '/' ∉ s := by
  induction cs generalizing s with
  | nil =>
    obtain rfl : s = [] := by simpa [segments] using h
    simp
  | cons c cs ih =>
    by_cases hc : c = '/'
    · rw [hc, segments_slash, List.mem_cons] at h
      rcases h with rfl | h
      · simp
      · exact ih h
    · obtain ⟨t, ts, ht⟩ := List.exists_cons_of_ne_nil (segments_ne_nil cs)
      rw [segments_cons hc ht, List.mem_cons] at h
      rcases h with rfl | h
      · rw [List.mem_cons, not_or]
        exact ⟨Ne.symm hc, ih (ht ▸ List.mem_cons_self)⟩
      · exact ih (ht ▸ List.mem_cons_of_mem _ h)

/-! ### Segments put together -/

variable {p q : List Segment}

/-- Segments with slashes between them are read back. -/
theorem segments_joinSegments (hne : p ≠ []) (h : ∀ s ∈ p, '/' ∉ s) :
    segments (joinSegments p) = p := by
  induction p with
  | nil => exact absurd rfl hne
  | cons s p ih =>
    obtain ⟨hs, hp⟩ := List.forall_mem_cons.mp h
    cases p with
    | nil => rw [joinSegments, segments_of_notMem hs]
    | cons s' p =>
      have hrest : segments (joinSegments (s' :: p)) = s' :: p := ih (by simp) hp
      have hjoin : joinSegments (s :: s' :: p) = s ++ '/' :: joinSegments (s' :: p) := rfl
      rw [hjoin, segments_append_slash, segments_of_notMem hs, hrest]
      rfl

/-- Segments that are not empty have an empty text only if there are none. -/
theorem joinSegments_eq_nil_iff (h : ∀ s ∈ p, s ≠ []) : joinSegments p = [] ↔ p = [] := by
  match p with
  | [] => simp [joinSegments]
  | [s] => simpa [joinSegments] using h
  | s :: s' :: p => simp [joinSegments]

/-- Segments that are not empty are told by their joined text. -/
theorem joinSegments_injective (hp : ∀ s ∈ p, s ≠ [] ∧ '/' ∉ s) (hq : ∀ s ∈ q, s ≠ [] ∧ '/' ∉ s)
    (h : joinSegments p = joinSegments q) : p = q := by
  have hpnil := joinSegments_eq_nil_iff fun s hs => (hp s hs).1
  have hqnil := joinSegments_eq_nil_iff fun s hs => (hq s hs).1
  by_cases hempty : p = []
  · have hjoin : joinSegments q = [] := by rw [← h, hpnil.mpr hempty]
    rw [hempty, hqnil.mp hjoin]
  · have hne : q ≠ [] := by
      intro hq
      apply hempty
      rw [← hpnil, h, hqnil.mpr hq]
    calc p = segments (joinSegments p) :=
          (segments_joinSegments hempty fun s hs => (hp s hs).2).symm
      _ = segments (joinSegments q) := by rw [h]
      _ = q := segments_joinSegments hne fun s hs => (hq s hs).2

end TileSchema.Reference
