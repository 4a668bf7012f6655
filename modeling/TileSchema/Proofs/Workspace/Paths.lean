import Mathlib.Data.List.DropRight
import Mathlib.Data.List.Induction
import TileSchema.Proofs.Schema.Segments
import TileSchema.Workspace.Output

/-!
# Paths and their segments

The text of a path is its segments with slashes between them, so paths that are put together from
segments are read back as these (`segments_ofSegments`, `segments_join`).  The path above a path
has, but for idle ones, the segments in front of the last part (`segments_outputParent`), and all
paths above have segments that the path begins with (`segments_prefix_of_mem_ancestors`).
-/

namespace TileSchema

namespace Workspace.Path

variable {path a b d n first : String} {rest front ss : List String}

/-! ### Segments of paths -/

/-- Whether a text can be a segment. -/
def IsSegment (s : String) : Prop := '/' ∉ s.toList

theorem segments_ne_nil (path : String) : segments path ≠ [] := by
  simpa [segments] using Reference.segments_ne_nil path.toList

theorem isSegment_of_mem_segments (h : a ∈ segments path) : IsSegment a := by
  obtain ⟨s, hs, rfl⟩ := List.mem_map.mp h
  simpa [IsSegment] using Reference.notMem_of_mem_segments hs

theorem segments_of_isSegment (h : IsSegment a) : segments a = [a] := by
  simp [segments, Reference.segments_of_notMem h]

theorem segments_append_slash (a b : String) :
    segments (a ++ "/" ++ b) = segments a ++ segments b := by
  simp [segments, Reference.segments_append_slash]

/-- Segments with slashes between them are the segments of their path. -/
theorem segments_ofSegments (hne : ss ≠ []) (h : ∀ s ∈ ss, IsSegment s) :
    segments (ofSegments ss) = ss := by
  induction ss with
  | nil => exact absurd rfl hne
  | cons s ss ih =>
    obtain ⟨hs, hss⟩ := List.forall_mem_cons.mp h
    cases ss with
    | nil => rw [ofSegments, String.intercalate_singleton, segments_of_isSegment hs]
    | cons s' ss =>
      rw [ofSegments, String.intercalate_cons_cons, segments_append_slash,
        segments_of_isSegment hs]
      exact congrArg (s :: ·) (ih (by simp) hss)

/-- A path starts at the root if its first segment is empty and not the only one. -/
theorem isAbsolute_eq (h : segments path = first :: rest) :
    isAbsolute path = (first.isEmpty && !rest.isEmpty) := by
  unfold segments at h
  unfold isAbsolute
  cases hp : path.toList with
  | nil =>
    rw [hp] at h
    obtain ⟨rfl, rfl⟩ : "" = first ∧ [] = rest := by simpa [Reference.segments] using h
    rfl
  | cons c cs =>
    obtain ⟨s, ss, hs⟩ := List.exists_cons_of_ne_nil (Reference.segments_ne_nil cs)
    by_cases hc : c = '/'
    · rw [hp, hc, Reference.segments_slash, hs] at h
      obtain ⟨rfl, rfl⟩ : "" = first ∧ _ = rest := by simpa using h
      simp [hc]
    · rw [hp, Reference.segments_cons hc hs] at h
      obtain ⟨hfirst, -⟩ := List.cons.inj h
      have hne : first.isEmpty = false := by
        rw [← hfirst, Bool.eq_false_iff, Ne, String.isEmpty_iff]
        simp
      simp [hne, hc]

/-! ### Names of entries -/

theorem isEntryName_iff : isEntryName a = true ↔ a ≠ "" ∧ a ≠ "." ∧ a ≠ ".." ∧ IsSegment a := by
  simp [isEntryName, isIdle, IsSegment, and_assoc]

theorem isSegment_of_isEntryName (h : isEntryName a = true) : IsSegment a :=
  (isEntryName_iff.mp h).2.2.2

theorem isIdle_of_isEntryName (h : isEntryName a = true) : isIdle a = false := by
  obtain ⟨hempty, hdot, -⟩ := isEntryName_iff.mp h
  simp [isIdle, hempty, hdot]

/-! ### Paths that are put together -/

/-- Behind a slash at the end of a path stands an empty segment. -/
theorem getLast?_segments (h : path.toList.getLast? = some '/') :
    (segments path).getLast? = some "" := by
  obtain ⟨front, hfront⟩ := List.getLast?_eq_some_iff.mp h
  have hpath : path = String.ofList front ++ "/" ++ "" := by
    rw [← String.toList_inj]
    simpa using hfront
  rw [hpath, segments_append_slash]
  simp [segments, Reference.segments]

/-- A path below a directory has the segments of both. -/
theorem segments_join (hd : (segments d).getLast? ≠ some "") (hp : isAbsolute path = false) :
    segments (join d path) = segments d ++ segments path := by
  have hne : d.isEmpty = false := by
    rw [Bool.eq_false_iff, Ne, String.isEmpty_iff]
    rintro rfl
    exact hd (by simp [segments, Reference.segments])
  have hlast : d.toList.getLast? ≠ some '/' := mt getLast?_segments hd
  rw [join, hp, hne, if_neg (by simp), if_neg (by simpa using hlast), segments_append_slash]

/-- A path that is a single segment is not absolute. -/
theorem isAbsolute_of_isSegment (h : IsSegment a) : isAbsolute a = false := by
  simp [isAbsolute_eq (segments_of_isSegment h)]

/-- The path of a location spells the names that lead to it. -/
theorem segments_pathOf {here : Location} (hne : here ≠ [])
    (h : ∀ n ∈ here, isEntryName n = true) : segments (pathOf here) = "" :: here.reverse := by
  have hsegments : segments (ofSegments here.reverse) = here.reverse := by
    apply segments_ofSegments
    · simpa using hne
    · intro n hn
      exact isSegment_of_isEntryName (h n (List.mem_reverse.mp hn))
  have hpath : pathOf here = "" ++ "/" ++ ofSegments here.reverse := by simp [pathOf]
  rw [hpath, segments_append_slash, hsegments]
  rfl

/-- The path of a named entry below a location. -/
theorem segments_join_pathOf {n name : String} {here : Location}
    (h : ∀ m ∈ n :: here, isEntryName m = true) (hp : isAbsolute name = false) :
    segments (join (pathOf (n :: here)) name) =
      "" :: (n :: here).reverse ++ segments name := by
  have hsegments := segments_pathOf (by simp) h
  have hlast : (segments (pathOf (n :: here))).getLast? ≠ some "" := by
    rw [hsegments, List.reverse_cons, ← List.cons_append, List.getLast?_concat]
    simpa using (isEntryName_iff.mp (h n List.mem_cons_self)).1
  rw [segments_join hlast hp, hsegments]

/-! ### The path above a path -/

theorem dropIdle_append_of_isIdle (h : ∀ s ∈ rest, isIdle s = true) :
    dropIdle (ss ++ rest) = dropIdle ss := by
  have hreverse : ∀ s ∈ rest.reverse, isIdle s = true := by simpa using h
  rw [dropIdle, List.reverse_append, List.dropWhile_append_of_pos hreverse]
  rfl

theorem dropIdle_concat (h : isIdle n = false) : dropIdle (ss ++ [n]) = ss ++ [n] := by
  simp [dropIdle, h]

theorem dropIdle_isPrefix (ss : List String) : dropIdle ss <+: ss :=
  List.rdropWhile_prefix isIdle ss

/-- Only idle segments are dropped. -/
theorem filter_dropIdle (ss : List String) :
    (dropIdle ss).filter (!isIdle ·) = ss.filter (!isIdle ·) := by
  induction ss using List.reverseRecOn with
  | nil => rfl
  | append_singleton ss s ih =>
    cases hs : isIdle s with
    | true =>
      have hall : ∀ s' ∈ [s], isIdle s' = true := by simpa using hs
      rw [dropIdle_append_of_isIdle hall, ih]
      simp [hs]
    | false => rw [dropIdle_concat hs]

theorem parent?_of_dropIdle_eq_nil (hpath : segments path = first :: rest)
    (hrest : dropIdle rest = []) : parent? path = if first.isEmpty then none else some "" := by
  rw [parent?, hpath]
  dsimp only
  rw [hrest]

theorem parent?_of_dropIdle_eq_concat (hpath : segments path = first :: rest)
    (hrest : dropIdle rest = front ++ [n]) :
    parent? path = some (if dropIdle front = [] then (if first.isEmpty then "/" else first)
      else ofSegments (first :: dropIdle front)) := by
  have hparts : ∃ m ms, front ++ [n] = m :: ms := List.exists_cons_of_ne_nil (by simp)
  obtain ⟨m, ms, hm⟩ := hparts
  have hfront : (m :: ms).dropLast = front := by rw [← hm, List.dropLast_concat]
  rw [parent?, hpath]
  dsimp only
  rw [hrest, hm]
  dsimp only
  rw [hfront]
  cases dropIdle front <;> rfl

/-- The path above a path starts like it and has, but for idle ones, the segments in front of the
last part. -/
theorem exists_parent? (hpath : segments path = first :: rest)
    (hrest : dropIdle rest = front ++ [n]) :
    ∃ a, parent? path = some a ∧ a ≠ "" ∧ isAbsolute a = isAbsolute path ∧
      (segments a).filter (!isIdle ·) = (first :: front).filter (!isIdle ·) ∧
      (a ≠ "/" → segments a <+: segments path) := by
  have hpre : dropIdle front <+: rest :=
    (dropIdle_isPrefix front).trans ((List.prefix_append front [n]).trans
      (hrest ▸ dropIdle_isPrefix rest))
  have hseg : ∀ s ∈ first :: dropIdle front, IsSegment s := by
    intro s hs
    have hmem : s ∈ segments path := hpath ▸ List.cons_subset_cons first hpre.subset hs
    exact isSegment_of_mem_segments hmem
  have hne : rest ≠ [] := by
    rintro rfl
    simp [dropIdle] at hrest
  have hfilter : (first :: front).filter (!isIdle ·) =
      (first :: dropIdle front).filter (!isIdle ·) := by
    rw [List.filter_cons, List.filter_cons, filter_dropIdle]
  have habsolute := isAbsolute_eq hpath
  refine ⟨_, parent?_of_dropIdle_eq_concat hpath hrest, ?_⟩
  rw [hfilter]
  by_cases hfront : dropIdle front = []
  · by_cases hfirst : first = ""
    · -- the root is above the path
      subst hfirst
      rw [if_pos hfront, hfront]
      have hroot : isAbsolute path = true := by
        rw [habsolute, List.isEmpty_eq_false_iff.mpr hne]
        rfl
      rw [hroot, if_pos (String.isEmpty_iff.mpr rfl)]
      exact ⟨by decide, by decide, by decide, fun h => absurd rfl h⟩
    · -- only the first segment is left
      have hsegments := segments_of_isSegment (hseg first List.mem_cons_self)
      have hempty : first.isEmpty = false := by simpa using hfirst
      rw [if_pos hfront, hempty, if_neg (by simp), hfront, hsegments,
        isAbsolute_of_isSegment (hseg first List.mem_cons_self), habsolute, hempty, hpath]
      exact ⟨hfirst, rfl, rfl, fun _ => by simp⟩
  · have hsegments := segments_ofSegments (by simp) hseg
    have hempty : (dropIdle front).isEmpty = rest.isEmpty := by
      rw [List.isEmpty_eq_false_iff.mpr hfront, List.isEmpty_eq_false_iff.mpr hne]
    rw [if_neg hfront, hsegments, isAbsolute_eq hsegments, habsolute, hpath, hempty]
    refine ⟨?_, rfl, rfl, fun _ => List.cons_prefix_cons.mpr ⟨rfl, hpre⟩⟩
    intro hempty
    have hone : segments "" = [""] := rfl
    rw [hempty, hone] at hsegments
    exact hfront (List.cons.inj hsegments).2.symm

/-- The path above a path, if it is neither the root nor empty, starts like the path and has
segments that the path begins with. -/
theorem segments_prefix_of_parent? (h : parent? path = some a) (hempty : a ≠ "") (hroot : a ≠ "/") :
    isAbsolute a = isAbsolute path ∧ segments a <+: segments path := by
  obtain ⟨first, rest, hpath⟩ := List.exists_cons_of_ne_nil (segments_ne_nil path)
  rcases (dropIdle rest).eq_nil_or_concat with hrest | ⟨front, n, hrest⟩
  · rw [parent?_of_dropIdle_eq_nil hpath hrest] at h
    split at h
    · exact absurd h (by simp)
    · exact absurd (Option.some.inj h).symm hempty
  · rw [List.concat_eq_append] at hrest
    obtain ⟨b, hb, -, habsolute, -, hpre⟩ := exists_parent? hpath hrest
    obtain rfl : b = a := Option.some.inj (hb.symm.trans h)
    exact ⟨habsolute, hpre hroot⟩

theorem parent?_slash : parent? "/" = none := by decide

theorem segments_prefix_of_mem_above {fuel : Nat} (h : a ∈ above fuel path) :
    isAbsolute a = isAbsolute path ∧ segments a <+: segments path := by
  induction fuel generalizing path with
  | zero => simp [above] at h
  | succ fuel ih =>
    rw [above] at h
    split at h
    · simp at h
    · next p hp =>
      split at h
      · simp at h
      · next hstop =>
        rw [Bool.or_eq_true, not_or, String.isEmpty_iff] at hstop
        have hroot : p ≠ "/" := by
          rintro rfl
          exact hstop.2 (by rw [parent?_slash]; rfl)
        have hparent := segments_prefix_of_parent? hp hstop.1 hroot
        rcases List.mem_cons.mp h with rfl | h
        · exact hparent
        · exact ⟨(ih h).1.trans hparent.1, (ih h).2.trans hparent.2⟩

/-- The paths above a path start like it and have segments that it begins with. -/
theorem segments_prefix_of_mem_ancestors (h : a ∈ ancestors path) :
    isAbsolute a = isAbsolute path ∧ segments a <+: segments path := by
  unfold ancestors at h
  split at h
  · simp at h
  · rcases List.mem_cons.mp h with rfl | h
    · exact ⟨rfl, List.prefix_refl _⟩
    · exact segments_prefix_of_mem_above h

/-! ### The last part of a path -/

/-- The last part of a path is a name, which may have slashes behind it. -/
structure EndsIn (path : String) (front : List String) (n : String) : Prop where
  entry : isEntryName n = true
  spelling : ∃ k, segments path = front ++ n :: List.replicate k ""

/-- A path has one last part. -/
theorem EndsIn.unique {front' : List String} {n' : String} (h : EndsIn path front n)
    (h' : EndsIn path front' n') : front = front' ∧ n = n' := by
  have hfront : ∀ {front : List String} {n : String}, EndsIn path front n →
      (segments path).rdropWhile (· == "") = front ++ [n] := by
    intro front n ⟨hn, k, hk⟩
    have hne : (n == "") = false := by simpa using (isEntryName_iff.mp hn).1
    rw [hk, List.rdropWhile, List.reverse_append, List.reverse_cons, List.reverse_replicate,
      List.append_assoc, List.dropWhile_append, List.dropWhile_replicate]
    simp [hne]
  have heq := (hfront h).symm.trans (hfront h')
  exact ⟨(List.append_inj' heq rfl).1, List.singleton_inj.mp (List.append_inj' heq rfl).2⟩

/-- Segments are those in front of the last part, this, and empty ones. -/
theorem exists_rdropWhile_isEmpty (ss : List String) :
    ∃ k, ss = ss.rdropWhile String.isEmpty ++ List.replicate k "" := by
  induction ss using List.reverseRecOn with
  | nil => exact ⟨0, rfl⟩
  | append_singleton ss s ih =>
    by_cases hs : s.isEmpty = true
    · obtain ⟨k, hk⟩ := ih
      refine ⟨k + 1, ?_⟩
      rw [List.rdropWhile_concat_pos _ _ _ hs, List.replicate_succ', ← List.append_assoc, ← hk,
        String.isEmpty_iff.mp hs]
    · exact ⟨0, by rw [List.rdropWhile_concat_neg _ _ _ hs]; simp⟩

/-- A path ends in the last of its parts that is not empty, if this is a name. -/
theorem endsIn_of_filter_getLast?
    (h : ((segments path).rdropWhile String.isEmpty).getLast?.filter
      (fun s => s ≠ "." && s ≠ "..") = some n) :
    ∃ front, (segments path).rdropWhile String.isEmpty = front ++ [n] ∧ EndsIn path front n := by
  obtain ⟨hlast, hkeep⟩ := Option.filter_eq_some_iff.mp h
  obtain ⟨front, hfront⟩ := List.getLast?_eq_some_iff.mp hlast
  obtain ⟨k, hk⟩ := exists_rdropWhile_isEmpty (segments path)
  rw [hfront, List.append_assoc] at hk
  have hempty : n ≠ "" := by
    have hne : (segments path).rdropWhile String.isEmpty ≠ [] := by simp [hfront]
    have hlast := List.rdropWhile_last_not String.isEmpty (segments path) hne
    simpa [hfront] using hlast
  have hmem : n ∈ segments path := by simp [hk]
  have hseg : IsSegment n := isSegment_of_mem_segments hmem
  rw [Bool.and_eq_true, decide_eq_true_eq, decide_eq_true_eq] at hkeep
  exact ⟨front, hfront, isEntryName_iff.mpr ⟨hempty, hkeep.1, hkeep.2, hseg⟩, k, hk⟩

theorem endsIn_pathOf {here : Location} (h : ∀ m ∈ n :: here, isEntryName m = true) :
    EndsIn (pathOf (n :: here)) ("" :: here.reverse) n where
  entry := h n List.mem_cons_self
  spelling := ⟨0, by simp [segments_pathOf (by simp) h]⟩

/-- The name of an entry below a location. -/
theorem endsIn_join_pathOf {name : String} {here : Location}
    (h : ∀ m ∈ n :: here, isEntryName m = true) (hname : isEntryName name = true) :
    EndsIn (join (pathOf (n :: here)) name) ("" :: (n :: here).reverse) name where
  entry := hname
  spelling := by
    have hseg := isSegment_of_isEntryName hname
    exact ⟨0, by rw [segments_join_pathOf h (isAbsolute_of_isSegment hseg),
      segments_of_isSegment hseg]; rfl⟩

/-- The directory beside which an output stands starts like it and has, but for idle ones, the
segments in front of its last part. -/
theorem segments_outputParent (h : EndsIn path front n) :
    isAbsolute (outputParent path) = isAbsolute path ∧
      (segments (outputParent path)).filter (!isIdle ·) = front.filter (!isIdle ·) := by
  obtain ⟨hn, k, h⟩ := h
  have hrep : ∀ s ∈ List.replicate k "", isIdle s = true := by
    intro s hs
    rw [List.eq_of_mem_replicate hs]
    rfl
  cases front with
  | nil =>
    have hdrop : dropIdle ([] ++ List.replicate k "") = [] := dropIdle_append_of_isIdle hrep
    have hempty : n.isEmpty = false := by simpa using (isEntryName_iff.mp hn).1
    have hparent : outputParent path = "." := by
      rw [outputParent, parent?_of_dropIdle_eq_nil h hdrop, hempty]
      rfl
    rw [hparent, isAbsolute_eq h, hempty]
    exact ⟨by rw [Bool.false_and]; decide, by decide⟩
  | cons first fs =>
    have hdrop : dropIdle (fs ++ n :: List.replicate k "") = fs ++ [n] := by
      rw [List.append_cons, dropIdle_append_of_isIdle hrep,
        dropIdle_concat (isIdle_of_isEntryName hn)]
    obtain ⟨a, ha, hempty, habsolute, hsegments, -⟩ := exists_parent? h hdrop
    have hparent : outputParent path = a := by
      rw [outputParent, ha]
      simp [hempty]
    rw [hparent]
    exact ⟨habsolute, hsegments⟩

end Workspace.Path

end TileSchema
