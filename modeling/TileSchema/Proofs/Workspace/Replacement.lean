import TileSchema.Proofs.Workspace.Gathering

/-!
# Replacing the output as a whole

Whatever step fails while an output is replaced, nothing but directories above the output has been
made in the end; and if none fails, the output holds exactly the files and nothing else has changed
(`output_replaced_or_kept`).

The two temporary directories stand beside the output, where nothing stood before.  The old output
is moved below one of them and back, which leaves it as it was (`sameBut_of_back`), or it is
cleared away with it once the other one has been moved to its place (`replaced_of_move`).
-/

namespace TileSchema.Workspace

open Artifact (RenderedFile)

variable {w x y base : Workspace} {d d' e p : Location} {a n n' s output : String}
  {front : List String} {es : List (String × Tree)} {files : List RenderedFile} {t : Tree}

/-! ### Places beside each other -/

theorem not_suffix_of_ne (h : a ≠ n) : ¬ a :: d <:+ n :: d := by
  intro hsuffix
  have heq : a :: d = n :: d := hsuffix.eq_of_length rfl
  exact h (List.cons.inj heq).1

theorem not_suffix_of_below (m a n : String) (d : Location) : ¬ m :: a :: d <:+ n :: d := by
  intro hsuffix
  have hlength := hsuffix.length_le
  simp only [List.length_cons] at hlength
  omega

/-- What stands above a directory is a directory. -/
theorem kindAt?_of_suffix (h : w.kindAt? p = some .directory) (hsuffix : e <:+ p) :
    w.kindAt? e = some .directory := by
  obtain ⟨ns, rfl⟩ := hsuffix
  induction ns with
  | nil => exact h
  | cons n ns ih =>
    refine ih (kindAt?_tail (n := n) ?_)
    rw [List.cons_append] at h
    simp [h]

/-- A directory is not at or below a place where nothing stands. -/
theorem not_suffix_of_absent (h : w.kindAt? p = some .directory) (he : w.kindAt? e = none) :
    ¬ e <:+ p := by
  intro hsuffix
  rw [kindAt?_eq_none_of_suffix he hsuffix] at h
  cases h

namespace IsParent

/-- A path to the output leads into the directory above it. -/
theorem eq_of_leadsInto (h : base.IsParent output d) (hhome : x.home = base.home)
    (hx : x.LeadsInto output front d' n) : d' = d := by
  rw [hx.eq_follow, startOf_congr hhome, follow_eq_of_locate_outputParent h.locate hx.endsIn]

end IsParent

/-! ### Moving the new output in -/

/-- A path leads to a place in a directory, and the way there does not pass the place itself. -/
structure LeadsTo (w : Workspace) (path : String) (front : List String) (d : Location)
    (n : String) : Prop where
  into : w.LeadsInto path front d n
  avoids : ∀ front', front' <+: front → ¬ n :: d <:+ follow (w.startOf path) front'

/-- The new output is in its place, and nothing else has changed. -/
structure Replaced (base : Workspace) (output : String) (d : Location) (es : List (String × Tree))
    (n : String) (w : Workspace) : Prop where
  same : SameBut [n :: d] base w
  leadsTo : ∃ front, w.LeadsTo output front d n
  at_eq : w.at? (n :: d) = some (.directory es)
  /-- The path of an entry beside the output can be followed. -/
  checked : ∃ s, checkPath (pathOf (s :: d)) = .ok ()

theorem Replaced.locate (h : Replaced base output d es n w) : w.locate output = .ok (n :: d) := by
  obtain ⟨front, hleads⟩ := h.leadsTo
  exact hleads.into.locate (kindAt?_eq_directory_iff.mpr ⟨es, h.at_eq⟩)

/-- The workspace when one temporary directory has been moved to the place of the output and the
other one has been cleared away. -/
def movedIn (x : Workspace) (d : Location) (s a n : String) (es : List (String × Tree)) :
    Workspace :=
  ((x.putAt (s :: d) none).putAt (n :: d) (some (.directory es))).putAt (a :: d) none

theorem at?_movedIn (hstaging : x.kindAt? (s :: d) = some .directory) (hna : n ≠ a) :
    (movedIn x d s a n es).at? (n :: d) = some (.directory es) := by
  have hd : (x.putAt (s :: d) none).kindAt? d = some .directory := by
    rw [kindAt?_putAt_of_not_suffix (not_cons_suffix_self s d)]
    exact kindAt?_of_suffix hstaging (List.suffix_cons s d)
  obtain ⟨es', hd⟩ := kindAt?_eq_directory_iff.mp hd
  unfold movedIn
  rw [at?_putAt_of_apart (not_suffix_of_ne (Ne.symm hna)) (not_cons_suffix_self n d)]
  exact at?_putAt_append hd n (some (.directory es)) []

/-- Nothing is left of the temporary directories. -/
theorem sameBut_movedIn (hs : base.IsTemporary d s) (ha : base.IsTemporary d a) (has : a ≠ s)
    (hns : n ≠ s) (hsame : SameBut [s :: d, a :: d, n :: d] base x) :
    SameBut [n :: d] base (movedIn x d s a n es) := by
  have hall : SameBut [s :: d, a :: d, n :: d] base (movedIn x d s a n es) :=
    ((hsame.and_putAt ⟨s :: d, by simp⟩ _).and_putAt ⟨n :: d, by simp⟩ _).and_putAt
      ⟨a :: d, by simp⟩ _
  refine (hall.forget hs.absent ?_).forget ha.absent ?_
  · unfold movedIn
    rw [kindAt?_putAt_of_not_suffix (not_suffix_of_ne has),
      kindAt?_putAt_of_not_suffix (not_suffix_of_ne hns)]
    exact kindAt?_putAt_none x (List.suffix_refl _)
  · exact kindAt?_putAt_none _ (List.suffix_refl _)

/-- The places on the way to the output are neither temporary directories nor the output. -/
theorem leadsInto_movedIn (hparent : base.IsParent output d) (hs : base.IsTemporary d s)
    (ha : base.IsTemporary d a) (hhome : x.home = base.home)
    (hfree : x.kindAt? (n :: d) ≠ some .directory) (hleads : x.LeadsInto output front d n) :
    (movedIn x d s a n es).LeadsInto output front d n := by
  refine hleads.congr rfl fun front' hfront => ?_
  have hpass := hleads.kindAt?_follow hfront
  have hbase : base.kindAt? (follow (x.startOf output) front') = some .directory := by
    rw [startOf_congr hhome]
    exact kindAt?_follow_of_locate_outputParent hparent.locate hparent.directory hleads.endsIn
      hfront
  unfold movedIn
  rw [kindAt?_putAt_of_not_suffix (not_suffix_of_absent hbase ha.absent),
    kindAt?_putAt_of_not_suffix fun h => hfree (kindAt?_of_suffix hpass h),
    kindAt?_putAt_of_not_suffix (not_suffix_of_absent hbase hs.absent), hpass]

/-- Once the new directory has been moved to the place of the output, where no directory stood, and
the other temporary directory has been cleared away, the output is replaced. -/
theorem replaced_of_move (hparent : base.IsParent output d) (hs : base.IsTemporary d s)
    (ha : base.IsTemporary d a) (has : a ≠ s) (hhome : x.home = base.home)
    (hsame : ∀ front n, x.LeadsInto output front d n →
      SameBut [s :: d, a :: d, n :: d] base x ∧ x.kindAt? (n :: d) ≠ some .directory)
    (hstaging : ∀ t, x.at? (s :: d) = some t → t = .directory es)
    (haside : x.kindAt? (a :: d) = some .directory)
    (hmove : x.move (pathOf (s :: d)) output = .ok y) :
    ∃ n, Replaced base output d es n (y.putAt (a :: d) none) := by
  obtain ⟨front', d', s', front, d'', n, t, hsource, hleads, ht, hmoved⟩ := move_eq_ok hmove
  have hnames : ∀ m ∈ s :: d, Path.isEntryName m = true :=
    List.forall_mem_cons.mpr ⟨hs.entry, hparent.isEntryName⟩
  obtain rfl : d'' = d := hparent.eq_of_leadsInto hhome hleads
  obtain ⟨hsame, hfree⟩ := hsame front n hleads
  rw [hsource.eq_of_pathOf hnames] at ht hmoved
  obtain rfl := hstaging t ht
  have hstaging' : x.kindAt? (s :: d'') = some .directory :=
    kindAt?_eq_directory_iff.mpr ⟨es, ht⟩
  have hns : n ≠ s := by
    rintro rfl
    exact hfree hstaging'
  have hna : n ≠ a := by
    rintro rfl
    exact hfree haside
  rcases hmoved with ⟨heq, -⟩ | ⟨-, -, -, rfl⟩
  · exact absurd (List.cons.inj heq).1 (Ne.symm hns)
  · have hat : (movedIn x d'' s a n es).at? (n :: d'') = some (.directory es) :=
      at?_movedIn hstaging' hna
    have hleads' : (movedIn x d'' s a n es).LeadsInto output front d'' n :=
      leadsInto_movedIn hparent hs ha hhome hfree hleads
    have havoids : ∀ front₀, front₀ <+: front →
        ¬ n :: d'' <:+ follow (x.startOf output) front₀ :=
      fun front₀ hfront hpass => hfree (kindAt?_of_suffix (hleads.kindAt?_follow hfront) hpass)
    have hchecked : checkPath (pathOf (s :: d'')) = .ok () := hsource.checked
    exact ⟨n, sameBut_movedIn hs ha has hns hsame, ⟨front, hleads', havoids⟩, hat, s, hchecked⟩

/-! ### Moving the old output aside -/

/-- The old output has been moved below a temporary directory. -/
structure MovedAside (w : Workspace) (output : String) (d : Location) (a : String)
    (front : List String) (n : String) (t : Tree) (x : Workspace) : Prop where
  endsIn : Path.EndsIn output front n
  at_eq : w.at? (n :: d) = some t
  ne : n ≠ a
  eq : x = (w.putAt (n :: d) none).putAt ("output" :: a :: d) (some t)

/-- The place below a temporary directory that the old output is moved to. -/
def asidePath (a : String) (d : Location) : String := Path.join (pathOf (a :: d)) "output"

theorem isEntryName_output : Path.isEntryName "output" = true := by decide

theorem exists_movedAside (hparent : base.IsParent output d) (ha : base.IsTemporary d a)
    (hhome : w.home = base.home) (haway : w.move output (asidePath a d) = .ok x) :
    ∃ front n t, MovedAside w output d a front n t x := by
  obtain ⟨front, d', n, front', d'', n', t, hleads, hplace, ht, hmoved⟩ := move_eq_ok haway
  have hnames : ∀ m ∈ a :: d, Path.isEntryName m = true :=
    List.forall_mem_cons.mpr ⟨ha.entry, hparent.isEntryName⟩
  obtain rfl : d' = d := hparent.eq_of_leadsInto hhome hleads
  rw [hplace.eq_of_join hnames isEntryName_output] at hmoved
  rcases hmoved with ⟨heq, -⟩ | ⟨hbelow, -, -, rfl⟩
  · have hlength := congrArg List.length heq
    simp at hlength
  · refine ⟨front, n, t, hleads.endsIn, ht, ?_, rfl⟩
    rintro rfl
    exact hbelow (List.suffix_cons _ _)

namespace MovedAside

theorem kindAt?_aside (h : MovedAside w output d a front n t x)
    (haside : w.kindAt? (a :: d) = some .directory) : x.kindAt? (a :: d) = some .directory := by
  rw [h.eq, kindAt?_putAt_of_not_suffix (not_cons_suffix_self _ _),
    kindAt?_putAt_of_not_suffix (not_suffix_of_ne h.ne), haside]

theorem kindAt?_output (h : MovedAside w output d a front n t x) : x.kindAt? (n :: d) = none := by
  rw [h.eq, kindAt?_putAt_of_not_suffix (not_suffix_of_below "output" a n d)]
  exact kindAt?_putAt_none w (List.suffix_refl _)

theorem same (h : MovedAside w output d a front n t x) (hsame : SameBut [s :: d, a :: d] base w) :
    SameBut [s :: d, a :: d, n :: d] base x := by
  have hmore : SameBut [s :: d, a :: d, n :: d] base w := hsame.mono (by simp)
  rw [h.eq]
  exact (hmore.and_putAt ⟨n :: d, by simp⟩ _).and_putAt
    ⟨a :: d, by simp, List.suffix_cons "output" (a :: d)⟩ _

/-- What the other temporary directory holds is not touched, unless it is the output itself. -/
theorem eq_of_at? (h : MovedAside w output d a front n t x) (hne : a ≠ s) {u : Tree}
    (hu : x.at? (s :: d) = some u) : w.at? (s :: d) = some u := by
  have hns : n ≠ s := by
    rintro rfl
    have hnone := h.kindAt?_output
    rw [kindAt?_eq_none_iff, hu] at hnone
    cases hnone
  have haway : ¬ "output" :: a :: d <:+ s :: d := not_suffix_of_below "output" a s d
  have hside : ¬ s :: d <:+ a :: d := not_suffix_of_ne (Ne.symm hne)
  rw [h.eq, at?_putAt_of_apart haway hside,
    at?_putAt_of_apart (not_suffix_of_ne hns) (not_cons_suffix_self s d)] at hu
  exact hu

/-- An output that is moved aside and back is where it was. -/
theorem sameBut_of_back (h : MovedAside w output d a front n t x)
    (hparent : base.IsParent output d) (ha : base.IsTemporary d a)
    (hsame : SameBut [s :: d, a :: d] base w) (haside : w.kindAt? (a :: d) = some .directory)
    (hback : x.move (asidePath a d) output = .ok y) : SameBut [s :: d, a :: d] base y := by
  obtain ⟨front', d', n', front'', d'', n'', u, hplace, hleads, hu, hmoved⟩ := move_eq_ok hback
  have hnames : ∀ m ∈ a :: d, Path.isEntryName m = true :=
    List.forall_mem_cons.mpr ⟨ha.entry, hparent.isEntryName⟩
  obtain rfl : d'' = d := hparent.eq_of_leadsInto (h.same hsame).home hleads
  obtain rfl : n'' = n := (hleads.endsIn.unique h.endsIn).2
  rw [hplace.eq_of_join hnames isEntryName_output] at hu hmoved
  have haside' : (w.putAt (n'' :: d'') none).kindAt? (a :: d'') = some .directory := by
    rw [kindAt?_putAt_of_not_suffix (not_suffix_of_ne h.ne), haside]
  obtain ⟨es, hes⟩ := kindAt?_eq_directory_iff.mp haside'
  have hput := at?_putAt_append hes "output" (some t) []
  rw [← h.eq, List.nil_append, hu] at hput
  obtain rfl : u = t := Option.some.inj hput
  rcases hmoved with ⟨heq, -⟩ | ⟨hbelow, -, -, rfl⟩
  · have hlength := congrArg List.length heq
    simp at hlength
  · have hround := SameBut.of_move_back h.at_eq hbelow
    rw [h.eq]
    refine hsame.trans (hround.mono ?_)
    rw [List.forall_mem_singleton]
    exact ⟨a :: d'', by simp, List.suffix_cons "output" (a :: d'')⟩

end MovedAside

/-! ### Swapping the outputs -/

/-- Two temporary directories stand beside the output, one of them with the new output in it, and
nothing else has changed. -/
structure HasBoth (base : Workspace) (d : Location) (s a : String) (es : List (String × Tree))
    (w : Workspace) : Prop where
  staging : base.IsTemporary d s
  aside : base.IsTemporary d a
  ne : a ≠ s
  same : SameBut [s :: d, a :: d] base w
  kindAt?_aside : w.kindAt? (a :: d) = some .directory
  at?_staging : w.at? (s :: d) = some (.directory es)

namespace HasBoth

/-- A temporary directory is made where another one stands. -/
theorem of_makeTemporary (hs : base.IsTemporary d s) (hsame : SameBut [s :: d] base w)
    (hstaging : w.at? (s :: d) = some (.directory es)) (hd : w.kindAt? d = some .directory)
    (ha : w.IsTemporary d a) : HasBoth base d s a es (w.putAt (a :: d) (some .empty)) := by
  have has : a ≠ s := by
    rintro rfl
    have habsent := ha.absent
    rw [kindAt?_eq_none_iff, hstaging] at habsent
    cases habsent
  constructor
  case staging => exact hs
  case aside =>
    refine ⟨ha.entry, ha.nulFree, ?_⟩
    rw [← hsame.kinds _ (by simpa using not_suffix_of_ne (Ne.symm has)), ha.absent]
  case ne => exact has
  case same => exact SameBut.and_putAt (hsame.mono (by simp)) ⟨a :: d, by simp⟩ _
  case kindAt?_aside => exact (holds_nil hd a).kindAt?
  case at?_staging =>
    rw [at?_putAt_of_apart (not_suffix_of_ne has) (not_cons_suffix_self s d), hstaging]

/-- Once the second temporary directory is cleared away, it might as well not have been made. -/
theorem same_clear (h : HasBoth base d s a es w) (hsame : SameBut [s :: d, a :: d] base y) :
    SameBut [s :: d] base (y.putAt (a :: d) none) := by
  have hswapped : SameBut [a :: d, s :: d] base y := hsame.mono (by simp)
  exact hswapped.clear h.aside.absent

/-- The new output is moved to where none was. -/
theorem ensures_moveInto_new (h : HasBoth base d s a es w) (hparent : base.IsParent output d)
    (sys : System) (hcontains : ¬ w.contains output = true) :
    (moveInto sys (pathOf (s :: d)) (asidePath a d) output (w.contains output)).Ensures w
      (fun _ v => ∃ n, Replaced base output d es n (v.putAt (a :: d) none))
      (fun e v => e.step = .restore ∨ SameBut [s :: d] base (v.putAt (a :: d) none)) := by
  apply ensures_moveInto
  · intro y hy
    refine replaced_of_move hparent h.staging h.aside h.ne h.same.home (fun front n hleads => ?_)
      (fun u hu => ?_) h.kindAt?_aside hy
    · refine ⟨h.same.mono (by simp), fun hdirectory => hcontains ?_⟩
      rw [contains, hleads.locate hdirectory]
      rfl
    · exact Option.some.inj (hu.symm.trans h.at?_staging)
  · intro _ e
    exact Or.inr (h.same_clear h.same)
  · intro hhad
    exact absurd hhad hcontains
  · intro e he
    exact Or.inl he

/-- The new output is moved to where the old one was, or the old one is moved back. -/
theorem ensures_moveInto_old (h : HasBoth base d s a es w) (hparent : base.IsParent output d)
    (sys : System) (haway : MovedAside w output d a front n t x) :
    (moveInto sys (pathOf (s :: d)) (asidePath a d) output true).Ensures x
      (fun _ v => ∃ n, Replaced base output d es n (v.putAt (a :: d) none))
      (fun e v => e.step = .restore ∨ SameBut [s :: d] base (v.putAt (a :: d) none)) := by
  have hsame := haway.same h.same
  apply ensures_moveInto
  · intro y hy
    refine replaced_of_move hparent h.staging h.aside h.ne hsame.home (fun front' n' hleads => ?_)
      (fun u hu => ?_) (haway.kindAt?_aside h.kindAt?_aside) hy
    · obtain rfl : n' = n := (hleads.endsIn.unique haway.endsIn).2
      exact ⟨hsame, by simp [haway.kindAt?_output]⟩
    · exact Option.some.inj ((haway.eq_of_at? h.ne hu).symm.trans h.at?_staging)
  · intro hnot
    cases hnot
  · intro _ e y hy
    exact Or.inr (h.same_clear (haway.sameBut_of_back hparent h.aside h.same h.kindAt?_aside hy))
  · intro e he
    exact Or.inl he

end HasBoth

/-- The new directory takes the place of the output, or nothing but it has been added. -/
theorem ensures_swapOutput (sys : System) (hparent : base.IsParent output d)
    (hs : base.IsTemporary d s) (hsame : SameBut [s :: d] base w)
    (hstaging : w.at? (s :: d) = some (.directory es)) :
    (swapOutput sys (pathOf (s :: d)) output).Ensures w
      (fun _ v => ∃ n, Replaced base output d es n v)
      (fun e v => e.step = .restore ∨ SameBut [s :: d] base v) := by
  refine Action.ensures_bind (ensures_makeTemporary (by decide) (by decide) (by decide) ?_
    fun e _ => ?_)
  case refine_2 => exact Or.inr hsame
  intro d' a hlocate hd ha
  obtain rfl : d' = d := by
    rw [(walk_eq_ok (locate_eq_ok hlocate).2).1, startOf_congr hsame.home,
      (walk_eq_ok (locate_eq_ok hparent.locate).2).1]
  have hboth := HasBoth.of_makeTemporary hs hsame hstaging hd ha
  generalize w.putAt (a :: d') (some .empty) = v at hboth
  refine Action.ensures_clearing (Action.ensures_bind (Action.ensures_look ?_))
  split
  case isTrue hcontains =>
    refine Action.ensures_bind (Action.ensures_info (Action.ensures_bind (ensures_moveTo ?_ ?_)))
    · intro x hx
      obtain ⟨front, n, t, haway⟩ :=
        exists_movedAside hparent hboth.aside hboth.same.home hx
      rw [hcontains]
      exact hboth.ensures_moveInto_old hparent sys haway
    · intro e _
      exact Or.inr (hboth.same_clear hboth.same)
  case isFalse hcontains => exact hboth.ensures_moveInto_new hparent sys hcontains

/-! ### Replacing the output -/

theorem replaceOutput_eq (sys : System) (output : String) (files : List RenderedFile) :
    replaceOutput sys output files = stage sys output >>= fun staging =>
      (Action.clearingOnError staging do
        writeFiles sys (pathOf staging) 0 files
        swapOutput sys (pathOf staging) output) >>= fun _ => reportFiles output files := by
  rw [stage, Action.bind_assoc]
  rfl

/-- The output holds exactly the files, and nothing else has changed since the directory above it
was there. -/
def HasOutput (base : Workspace) (output : String) (files : List RenderedFile)
    (v : Workspace) : Prop :=
  ∃ d es n, base.IsParent output d ∧ Replaced base output d es n v ∧ v.Holds (n :: d) files

/-- Replacing an output either succeeds as a whole or adds nothing but directories above it, unless
the old output could not be moved back. -/
theorem ensures_replaceOutput_hasOutput (sys : System) (w : Workspace) (output : String)
    (files : List RenderedFile)
    (hfiles : ∀ f ∈ files, Path.isEntryName f.name = true ∨ HasNoDirectory sys w output f.name) :
    (replaceOutput sys output files).Ensures w
      (fun _ v => HasOutput (withParents sys w output) output files v)
      (fun e v => e.step = .restore ∨ SameBut [] (withParents sys w output) v) := by
  rw [replaceOutput_eq]
  have hstage := (ensures_stage sys w output).and (Action.ensures_self (stage sys output) w)
  refine Action.ensures_bind (hstage.imp (fun staging v hv => ?_) fun e v hv => ?_)
  case refine_2 =>
    rw [hv.1.2]
    exact Or.inr (.refl _ _)
  obtain ⟨⟨d, s, hparent, hs, rfl, rfl⟩, hresult, hstate⟩ := hv
  have hnames : ∀ m ∈ s :: d, Path.isEntryName m = true :=
    List.forall_mem_cons.mpr ⟨hs.entry, hparent.isEntryName⟩
  have hempty := holds_nil hparent.directory s
  have hsame := SameBut.putAt (withParents sys w output) s d (some .empty)
  refine Action.ensures_bind (Action.ensures_clearingOnError (Action.ensures_bind ?_))
  have hwritten := ensures_writeFiles sys files 0 hnames hempty.kindAt?
    (.refl _ _) hempty fun f hf => (hfiles f hf).imp_right fun hnone => by
      rw [← hstate]
      exact hnone _ hresult
  refine hwritten.imp (fun _ u hu => ?_) fun e u hu => ?_
  · obtain ⟨hsame', es, hes, hnodup, hlookup⟩ := hu
    have hswap := ensures_swapOutput sys hparent hs (hsame.trans hsame') hes
    refine hswap.imp (fun _ v hv => ?_) fun e v hv => ?_
    · obtain ⟨n, hreplaced⟩ := hv
      exact ensures_reportFiles
        ⟨d, es, n, hparent, hreplaced, es, hreplaced.at_eq, hnodup, hlookup⟩
    · exact hv.imp_right fun hsame => hsame.clear hs.absent
  · exact Or.inr ((hsame.trans hu).clear hs.absent)

/-- The place of an output that was replaced is the one that its path leads to. -/
theorem ensures_replaceOutput (sys : System) (w : Workspace) (output : String)
    (files : List RenderedFile)
    (hfiles : ∀ f ∈ files, Path.isEntryName f.name = true ∨ HasNoDirectory sys w output f.name) :
    (replaceOutput sys output files).Ensures w
      (fun _ v => ∃ here, v.locate output = .ok here ∧ v.Holds here files ∧
        SameBut [here] (withParents sys w output) v)
      (fun e v => e.step = .restore ∨ SameBut [] (withParents sys w output) v) := by
  refine (ensures_replaceOutput_hasOutput sys w output files hfiles).imp (fun _ v hv => ?_)
    fun _ _ he => he
  obtain ⟨d, es, n, -, hreplaced, hholds⟩ := hv
  exact ⟨n :: d, hreplaced.locate, hholds, hreplaced.same⟩

/-- An output is replaced as a whole or kept.  If nothing fails, a directory that holds exactly the
files stands at the output, and nothing else has changed once the directories above the output were
there, so that nothing is left of the temporary ones.  If a step fails, nothing at all has changed
from then on; and if there was an output, everything is as it was in the beginning.

Each file has a plain name, or there is no directory for it; and the old output, if it has to be
moved back, can be. -/
theorem output_replaced_or_kept (sys : System) (w : Workspace) (output : String)
    (files : List RenderedFile)
    (hfiles : ∀ f ∈ files, Path.isEntryName f.name = true ∨ HasNoDirectory sys w output f.name)
    (hrestored : ∀ e, (replaceOutput sys output files w).2.result = .error e → e.step ≠ .restore) :
    w.Grows (outputParent output) (withParents sys w output) ∧
    (replaceOutput sys output files).Ensures w
      (fun _ w' => ∃ here, w'.locate output = .ok here ∧ w'.Holds here files ∧
        SameBut [here] (withParents sys w output) w')
      (fun _ w' => SameBut [] (withParents sys w output) w' ∧
        (w.contains output = true → ∀ p, w'.kindAt? p = w.kindAt? p)) := by
  have hgrows := grows_makeDirectories w (sys.refuse .makeParent) (outputParent output)
  refine ⟨hgrows, ?_⟩
  have hself := Action.ensures_self (replaceOutput sys output files) w
  have hreplace := (ensures_replaceOutput sys w output files hfiles).and hself
  refine hreplace.imp (fun _ w' h => h.1) fun e w' ⟨hsame, hresult, _⟩ => ?_
  have hsame : SameBut [] (withParents sys w output) w' :=
    hsame.resolve_left (hrestored e hresult)
  refine ⟨hsame, fun hcontains p => ?_⟩
  rw [hsame.kinds p (by simp)]
  rcases hgrows.grown p with hkind | ⟨habsent, -, hway⟩
  · exact hkind
  · rw [kindAt?_of_onTheWay_of_contains hcontains hway] at habsent
    cases habsent

/-- A workspace with an output that holds one file. -/
def oldOutput : Workspace :=
  { fresh with
    tree := .directory [("work", .directory [("out", .directory [("a.rs", .file "old")])])] }

/-- Two files with one name. -/
def twice : List RenderedFile := [⟨"b.rs", "1"⟩, ⟨"b.rs", "2"⟩]

/-- A file, and one in a directory that is not there. -/
def misplaced : List RenderedFile := [⟨"a.rs", "new"⟩, ⟨"missing/b.rs", "new"⟩]

/-- The output is replaced by a file that is written twice; it is kept if the directory of a file is
missing. -/
theorem output_replaced_or_kept_two_runs :
    (∃ here, (replaceOutput .willing "out" twice oldOutput).1.locate "out" = .ok here ∧
      (replaceOutput .willing "out" twice oldOutput).1.Holds here twice) ∧
    ∀ p, (replaceOutput .willing "out" misplaced oldOutput).1.kindAt? p = oldOutput.kindAt? p := by
  have hnew : (replaceOutput .willing "out" twice oldOutput).2.result = .ok () := by decide +kernel
  have hkept : (replaceOutput .willing "out" misplaced oldOutput).2.result =
      .error ⟨.writeFile, "/work/.tilegen-xxxxxx/missing/b.rs", .noEntry⟩ := by decide +kernel
  have hplain : ∀ f ∈ twice, Path.isEntryName f.name = true := by decide
  have hname : Path.isEntryName "a.rs" = true := by decide
  have hsegments : Path.segments "missing/b.rs" = ["missing", "b.rs"] := by decide
  have hmissing : HasNoDirectory .willing oldOutput "out" "missing/b.rs" :=
    hasNoDirectory_of_segments _ _ _ hsegments (by decide) ⟨"b.rs", by simp, by decide⟩
  constructor
  · have hrestored : ∀ e, (replaceOutput .willing "out" twice oldOutput).2.result = .error e →
        e.step ≠ .restore := by
      simp [hnew]
    obtain ⟨-, h⟩ := output_replaced_or_kept .willing oldOutput "out" twice
      (fun f hf => .inl (hplain f hf)) hrestored
    obtain ⟨here, hlocate, hholds, -⟩ := h.of_ok hnew
    exact ⟨here, hlocate, hholds⟩
  · have hrestored : ∀ e, (replaceOutput .willing "out" misplaced oldOutput).2.result = .error e →
        e.step ≠ .restore := by
      simp [hkept]
    have hfiles : ∀ f ∈ misplaced, Path.isEntryName f.name = true ∨
        HasNoDirectory .willing oldOutput "out" f.name := by
      simp [misplaced, hmissing, hname]
    obtain ⟨-, h⟩ := output_replaced_or_kept .willing oldOutput "out" misplaced hfiles hrestored
    obtain ⟨-, hsame⟩ := h.of_error hkept
    exact hsame (by decide +kernel)

end TileSchema.Workspace
