import TileSchema.Proofs.Results
import TileSchema.Proofs.Workspace.Paths
import TileSchema.Proofs.Workspace.Places

/-!
# Where paths lead

Where a path leads, if it leads anywhere, can be read off the path and the place where it starts
(`follow`).  What stands on the way only decides whether it gets there: a walk reaches its end if
each place on the way is a directory with the next one in it (`walk_eq_ok`), so it does the same in
two workspaces with the same kinds on the way (`walk_congr`).

Two paths that have, but for idle ones, the same segments lead to the same place (`follow_filter`).
So the directory beside which an output stands is the one that holds it.
-/

namespace TileSchema.Workspace

variable {w w' : Workspace} {here p d : Location} {s n path : String} {ss front : List String}
  {t : Target}

/-! ### Places along segments -/

/-- The location behind a segment. -/
def enter (here : Location) (s : String) : Location :=
  if Path.isIdle s then here else if s = ".." then here.drop 1 else s :: here

/-- The location behind segments. -/
def follow (here : Location) (ss : List String) : Location := ss.foldl enter here

@[simp] theorem follow_nil (here : Location) : follow here [] = here := rfl

@[simp] theorem follow_cons (here : Location) (s : String) (ss : List String) :
    follow here (s :: ss) = follow (enter here s) ss := rfl

theorem follow_append (here : Location) (ss ss' : List String) :
    follow here (ss ++ ss') = follow (follow here ss) ss' := List.foldl_append

theorem enter_of_isIdle (h : Path.isIdle s = true) : enter here s = here := by
  rw [enter, if_pos h]

theorem enter_of_isEntryName (h : Path.isEntryName n = true) : enter here n = n :: here := by
  obtain ⟨hempty, hdot, hdots, -⟩ := Path.isEntryName_iff.mp h
  simp [enter, Path.isIdle, hempty, hdot, hdots]

/-- Idle segments lead nowhere. -/
theorem follow_filter (here : Location) (ss : List String) :
    follow here (ss.filter (!Path.isIdle ·)) = follow here ss := by
  induction ss generalizing here with
  | nil => rfl
  | cons s ss ih =>
    cases hs : Path.isIdle s with
    | true => simp [hs, ih, enter_of_isIdle hs]
    | false => simp [hs, ih]

/-- Names lead down. -/
theorem follow_of_isEntryName (h : ∀ s ∈ ss, Path.isEntryName s = true) :
    follow here ss = ss.reverse ++ here := by
  induction ss generalizing here with
  | nil => rfl
  | cons s ss ih =>
    obtain ⟨hs, hss⟩ := List.forall_mem_cons.mp h
    rw [follow_cons, enter_of_isEntryName hs, ih hss, List.reverse_cons, List.append_assoc]
    rfl

/-- The segments of the path of a location lead to it. -/
theorem follow_root (h : ∀ m ∈ d, Path.isEntryName m = true) :
    follow [] ("" :: d.reverse) = d := by
  have hreverse : ∀ m ∈ d.reverse, Path.isEntryName m = true := by simpa using h
  rw [follow_cons, enter_of_isIdle rfl, follow_of_isEntryName hreverse]
  simp

/-- Locations below one where all names are entry names have such names. -/
theorem forall_isEntryName_follow (hhere : ∀ m ∈ here, Path.isEntryName m = true)
    (hss : ∀ s ∈ ss, Path.IsSegment s) : ∀ m ∈ follow here ss, Path.isEntryName m = true := by
  induction ss generalizing here with
  | nil => exact hhere
  | cons s ss ih =>
    obtain ⟨hs, hss⟩ := List.forall_mem_cons.mp hss
    refine ih ?_ hss
    intro m hm
    unfold enter at hm
    split at hm
    · exact hhere m hm
    · next hidle =>
      split at hm
      · exact hhere m (List.mem_of_mem_drop hm)
      · next hdots =>
        rcases List.mem_cons.mp hm with rfl | hm
        · simp only [Path.isIdle, Bool.or_eq_true, beq_iff_eq, not_or] at hidle
          exact Path.isEntryName_iff.mpr ⟨hidle.1, hidle.2, hdots, hs⟩
        · exact hhere m hm

/-! ### Walking -/

theorem isSome_child? (w : Workspace) (here : Location) (n : String) :
    (w.child? here n).isSome = true ↔ w.kindAt? (n :: here) ≠ none := by
  rw [child?, Ne, kindAt?_eq_none_iff, Option.isSome_iff_ne_none]

/-- A step by the kinds of the two places. -/
theorem step_eq (w : Workspace) (here : Location) (s : String) :
    w.step here s =
      if w.kindAt? here = some .directory then
        if Path.isIdle s = true ∨ s = ".." then .ok (enter here s)
        else if maxNameBytes < s.utf8ByteSize then .error .nameTooLong
        else if w.kindAt? (enter here s) ≠ none then .ok (enter here s)
        else .error .noEntry
      else .error .notDirectory := by
  unfold step
  by_cases hhere : w.kindAt? here = some .directory
  · obtain ⟨es, hes⟩ := kindAt?_eq_directory_iff.mp hhere
    rw [hes, if_pos hhere]
    dsimp only
    by_cases hidle : Path.isIdle s = true
    · rw [if_pos hidle, if_pos (.inl hidle), enter_of_isIdle hidle]
    · by_cases hdots : s = ".."
      · rw [if_neg hidle, if_pos hdots, if_pos (.inr hdots), enter, if_neg hidle, if_pos hdots]
      · have henter : enter here s = s :: here := by rw [enter, if_neg hidle, if_neg hdots]
        simp only [hidle, hdots, or_self, henter, isSome_child?, Bool.false_eq_true, if_false]
  · rw [if_neg hhere]
    split
    · next es hes => exact absurd (kindAt?_eq_directory_iff.mpr ⟨es, hes⟩) hhere
    · rfl

theorem step_eq_ok (h : w.step here s = .ok p) :
    w.kindAt? here = some .directory ∧ p = enter here s := by
  rw [step_eq] at h
  split at h
  · next hhere =>
    refine ⟨hhere, ?_⟩
    split at h
    · exact (Except.ok.inj h).symm
    · split at h
      · exact absurd h (by simp)
      · split at h
        · exact (Except.ok.inj h).symm
        · exact absurd h (by simp)
  · exact absurd h (by simp)

theorem walk_cons (w : Workspace) (here : Location) (s : String) (ss : List String) :
    w.walk here (s :: ss) = w.step here s >>= fun p => w.walk p ss := by
  rw [walk, List.foldlM_cons]
  rfl

/-- A walk ends where its segments lead, by directories. -/
theorem walk_eq_ok (h : w.walk here ss = .ok p) :
    p = follow here ss ∧
      ∀ front, front <+: ss → front ≠ ss → w.kindAt? (follow here front) = some .directory := by
  induction ss generalizing here with
  | nil =>
    obtain rfl : here = p := Except.ok.inj h
    refine ⟨rfl, fun front hfront hne => ?_⟩
    exact absurd (List.prefix_nil.mp hfront) hne
  | cons s ss ih =>
    rw [walk_cons, bind_eq_ok_iff] at h
    obtain ⟨q, hs, h⟩ := h
    obtain ⟨hhere, rfl⟩ := step_eq_ok hs
    obtain ⟨hp, hway⟩ := ih h
    refine ⟨hp, fun front hfront hne => ?_⟩
    rcases List.prefix_cons_iff.mp hfront with rfl | ⟨rest, rfl, hrest⟩
    · exact hhere
    · exact hway rest hrest fun h => hne (by rw [h])

theorem walk_append (w : Workspace) (here : Location) (ss ss' : List String) :
    w.walk here (ss ++ ss') = w.walk here ss >>= fun p => w.walk p ss' := by
  rw [walk, List.foldlM_append]
  rfl

/-- A walk does the same where the same stands on the way. -/
theorem walk_congr
    (h : ∀ front, front <+: ss → w'.kindAt? (follow here front) = w.kindAt? (follow here front)) :
    w'.walk here ss = w.walk here ss := by
  induction ss generalizing here with
  | nil => rfl
  | cons s ss ih =>
    have hhere : w'.kindAt? here = w.kindAt? here := h [] List.nil_prefix
    have hnext : w'.kindAt? (enter here s) = w.kindAt? (enter here s) := h [s] (by simp)
    have hstep : w'.step here s = w.step here s := by rw [step_eq, step_eq, hhere, hnext]
    rw [walk_cons, walk_cons, hstep]
    cases hs : w.step here s with
    | error e => rfl
    | ok q =>
      obtain ⟨-, rfl⟩ := step_eq_ok hs
      exact ih fun front hfront => h (s :: front) (List.cons_prefix_cons.mpr ⟨rfl, hfront⟩)

/-- Slashes behind a directory lead nowhere. -/
theorem walk_replicate (hd : w.kindAt? d = some .directory) (k : Nat) :
    w.walk d (List.replicate k "") = .ok d := by
  induction k with
  | zero => rfl
  | succ k ih =>
    have hstep : w.step d "" = .ok d := by
      rw [step_eq, if_pos hd, if_pos (.inl rfl), enter_of_isIdle rfl]
    rw [List.replicate_succ, walk_cons, hstep]
    exact ih

/-! ### Paths -/

theorem locate_eq_ok (h : w.locate path = .ok p) :
    checkPath path = .ok () ∧ w.walk (w.startOf path) (Path.segments path) = .ok p := by
  rw [locate, bind_eq_ok_iff] at h
  obtain ⟨⟨⟩, hcheck, h⟩ := h
  exact ⟨hcheck, h⟩

/-- A path that ends in a name leads into a directory. -/
structure LeadsInto (w : Workspace) (path : String) (front : List String) (d : Location)
    (n : String) : Prop where
  checked : checkPath path = .ok ()
  endsIn : Path.EndsIn path front n
  short : n.utf8ByteSize ≤ maxNameBytes
  walk : w.walk (w.startOf path) front = .ok d
  directory : w.kindAt? d = some .directory

theorem LeadsInto.eq_follow (h : w.LeadsInto path front d n) :
    d = follow (w.startOf path) front := (walk_eq_ok h.walk).1

/-- All places on the way to the last part are directories. -/
theorem LeadsInto.kindAt?_follow (h : w.LeadsInto path front d n) {front' : List String}
    (hfront : front' <+: front) :
    w.kindAt? (follow (w.startOf path) front') = some .directory := by
  by_cases heq : front' = front
  · rw [heq, ← h.eq_follow, h.directory]
  · exact (walk_eq_ok h.walk).2 front' hfront heq

/-- A path leads to the entry with the name that it ends in, if this is a directory. -/
theorem LeadsInto.locate (h : w.LeadsInto path front d n)
    (hn : w.kindAt? (n :: d) = some .directory) : w.locate path = .ok (n :: d) := by
  obtain ⟨k, hk⟩ := h.endsIn.spelling
  have hname := h.endsIn.entry
  obtain ⟨-, -, hdots, -⟩ := Path.isEntryName_iff.mp hname
  have hstep : w.step d n = .ok (n :: d) := by
    have hidle : ¬ (Path.isIdle n = true ∨ n = "..") := by
      simp [Path.isIdle_of_isEntryName hname, hdots]
    rw [step_eq, if_pos h.directory, if_neg hidle, if_neg (Nat.not_lt.mpr h.short),
      enter_of_isEntryName hname, if_pos (by simp [hn])]
  rw [Workspace.locate, h.checked, hk]
  change w.walk (w.startOf path) (front ++ n :: List.replicate k "") = .ok (n :: d)
  rw [walk_append, h.walk]
  change w.walk d (n :: List.replicate k "") = .ok (n :: d)
  rw [walk_cons, hstep]
  exact walk_replicate hn k

/-- A path whose last part is a name leads into a directory, if it can be followed to there. -/
theorem target_eq_ok (h : w.target path = .ok t) (hname : t.name = some n) :
    ∃ front, w.LeadsInto path front t.directory n := by
  rw [target, bind_eq_ok_iff] at h
  obtain ⟨⟨⟩, hcheck, h⟩ := h
  rw [bind_eq_ok_iff] at h
  obtain ⟨here, hwalk, h⟩ := h
  cases hhere : w.at? here with
  | none =>
    rw [hhere] at h
    exact absurd h throw_ne_ok
  | some u =>
  rw [hhere] at h
  cases u with
  | file s => exact absurd h throw_ne_ok
  | directory es =>
  have hdirectory : w.kindAt? here = some .directory := kindAt?_eq_directory_iff.mpr ⟨es, hhere⟩
  dsimp only at h
  split at h
  · exact absurd h throw_ne_ok
  · next hshort =>
    obtain rfl := Except.ok.inj h
    obtain ⟨front, hfront, hends⟩ := Path.endsIn_of_filter_getLast? hname
    change w.walk (w.startOf path) ((Path.segments path).rdropWhile String.isEmpty).dropLast = _
      at hwalk
    rw [hfront, List.dropLast_concat] at hwalk
    dsimp only at hname
    rw [hname] at hshort
    exact ⟨front, hcheck, hends, by simpa using hshort, hwalk, hdirectory⟩

end TileSchema.Workspace
