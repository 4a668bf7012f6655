import TileSchema.Proofs.Workspace.Progress

/-!
# Replacing an output again

Once an output has been replaced, it can be replaced again: all that the steps need is there
(`Settled`), so nothing but the length of a path can be in their way
(`ensures_replaceOutput_of_settled`).  The old output is now a directory that is moved aside, which
need not have been so the first time, and the path it is moved to was not tried then.

If the files are the same, the same stands everywhere afterwards (`HasOutput.sameBut_nil`).
-/

namespace TileSchema.Workspace

open Artifact (RenderedFile)

variable {base w v : Workspace} {d p : Location} {a n s output path : String} {front : List String}
  {es : List (String × Tree)} {files done : List RenderedFile} {ls : List Location}

/-! ### A settled output -/

/-- A directory stands at an output, and the way to it is there. -/
structure Settled (w : Workspace) (output : String) (front : List String) (d : Location)
    (n : String) : Prop where
  parent : w.IsParent output d
  leadsTo : w.LeadsTo output front d n
  plain : ArePlain d
  directory : w.kindAt? (n :: d) = some .directory

/-- All that is passed on the way to the directory above an output. -/
theorem IsParent.kindAt?_follow (h : base.IsParent output d)
    (hfront : front <+: Path.segments (outputParent output)) :
    base.kindAt? (follow (base.startOf (outputParent output)) front) = some .directory := by
  obtain ⟨hd, hway⟩ := walk_eq_ok (locate_eq_ok h.locate).2
  by_cases heq : front = Path.segments (outputParent output)
  · rw [heq, ← hd, h.directory]
  · exact hway front hfront heq

/-- The directory above an output is there if nothing has changed on the way to it. -/
theorem IsParent.of_sameBut (h : base.IsParent output d) (hsame : SameBut ls base v)
    (hls : ∀ l ∈ ls, ∀ front, front <+: Path.segments (outputParent output) →
      ¬ l <:+ follow (base.startOf (outputParent output)) front) : v.IsParent output d := by
  have hkinds : ∀ front, front <+: Path.segments (outputParent output) →
      v.kindAt? (follow (base.startOf (outputParent output)) front) =
        base.kindAt? (follow (base.startOf (outputParent output)) front) :=
    fun front hfront => hsame.kinds _ fun l hl => hls l hl front hfront
  obtain ⟨hcheck, hwalk⟩ := locate_eq_ok h.locate
  constructor
  · rw [Workspace.locate, hcheck, startOf_congr hsame.home]
    change v.walk _ _ = _
    rw [walk_congr hkinds, hwalk]
  · obtain ⟨hd, -⟩ := walk_eq_ok hwalk
    have hlast := hkinds _ (List.prefix_refl _)
    rwa [← hd, h.directory] at hlast

/-- Directories that are made where nothing stood are not on the way to an output. -/
theorem IsParent.of_sameBut_absent (h : base.IsParent output d) (hsame : SameBut ls base v)
    (habsent : ∀ l ∈ ls, base.kindAt? l = none) : v.IsParent output d :=
  h.of_sameBut hsame fun l hl _ hfront =>
    not_suffix_of_absent (h.kindAt?_follow hfront) (habsent l hl)

/-- A path leads where it did if nothing has changed on its way. -/
theorem LeadsInto.of_sameBut (h : base.LeadsInto path front d n) (hsame : SameBut ls base v)
    (hls : ∀ l ∈ ls, ∀ front', front' <+: front → ¬ l <:+ follow (base.startOf path) front') :
    v.LeadsInto path front d n :=
  h.congr hsame.home fun front' hfront => by
    rw [hsame.kinds _ fun l hl => hls l hl front' hfront, h.kindAt?_follow hfront]

theorem LeadsInto.not_suffix (h : base.LeadsInto path front d n) {l : Location}
    (habsent : base.kindAt? l = none) {front' : List String} (hfront : front' <+: front) :
    ¬ l <:+ follow (base.startOf path) front' :=
  not_suffix_of_absent (h.kindAt?_follow hfront) habsent

/-- An output that has been replaced is settled. -/
theorem HasOutput.exists_settled (h : HasOutput base output files w) :
    ∃ front d n, w.Settled output front d n ∧ w.Holds (n :: d) files ∧ SameBut [n :: d] base w ∧
      w.locate output = .ok (n :: d) := by
  obtain ⟨d, es, n, hparent, hreplaced, hholds⟩ := h
  obtain ⟨front, hleads⟩ := hreplaced.leadsTo
  have hends := hleads.into.endsIn
  obtain ⟨habsolute, hfilter⟩ := Path.segments_outputParent hends
  have hstart : base.startOf (outputParent output) = w.startOf output := by
    rw [startOf, startOf, habsolute, hreplaced.same.home]
  obtain ⟨s, hchecked⟩ := hreplaced.checked
  refine ⟨front, d, n, ⟨?_, hleads, ⟨hparent.isEntryName, ?_⟩, hholds.kindAt?⟩, hholds,
    hreplaced.same, hreplaced.locate⟩
  · refine hparent.of_sameBut hreplaced.same ?_
    rw [List.forall_mem_singleton]
    intro front' hfront
    obtain ⟨front₀, hfront₀, hfollow⟩ := exists_prefix_follow_eq hfilter hfront
    rw [← hfollow, hstart]
    exact hleads.avoids front₀ hfront₀
  · intro m hm hnul
    apply nulFree_of_checkPath hchecked
    rw [mem_toList_pathOf (by decide)]
    exact ⟨m, List.mem_cons_of_mem s hm, hnul⟩

/-! ### Steps that have what they need -/

/-- A step that fails for a name or path that is too long. -/
def IsTooLong (e : OutputError) (_ : Workspace) : Prop := e.cause = .nameTooLong

/-- A step whose operation works, unless a name is too long for it. -/
theorem ensures_change_inStep {step : OutputStep} {about : String}
    {r : Workspace → Except SystemError Workspace} {Q : Unit → Workspace → Prop}
    (hr : WorksUnlessTooLong (r w)) (hok : ∀ v, r w = .ok v → Q () v) :
    (Action.change fun w => inStep step about (r w)).Ensures w Q IsTooLong := by
  apply Action.ensures_change
  · intro v hv
    exact hok v (mapError_eq_ok_iff.mp hv)
  · intro e he
    rcases hr with ⟨v, hv⟩ | hlong
    · rw [hv] at he
      cases he
    · rw [hlong] at he
      obtain rfl := Except.error.inj he
      rfl

/-- A temporary directory is made. -/
theorem ensures_makeTemporary_of_locate {step : OutputStep} {parent stem : String}
    (hlocate : w.locate parent = .ok d) (hd : w.kindAt? d = some .directory) :
    (makeTemporary .willing step parent stem).Ensures w (fun _ _ => True) fun _ _ => False := by
  obtain ⟨⟨v, l⟩, hadded⟩ : ∃ made,
      w.addTemporary (System.willing.suffix stem) parent stem = .ok made :=
    exists_addTemporary hlocate hd
  have hmake : makeTemporary .willing step parent stem w = (v, pure l) := by
    rw [makeTemporary, hadded]
    rfl
  exact Action.ensures_of_eq_ok hmake trivial

/-- The files of an output can be written where only such files are. -/
theorem ensures_writeFiles_of_holds (fs : List RenderedFile) (k : Nat) (hplain : ArePlain (n :: d))
    (hholds : w.Holds (n :: d) done)
    (hfiles : ∀ f ∈ fs, Path.isEntryName f.name = true ∧ '\x00' ∉ f.name.toList) :
    (writeFiles .willing (pathOf (n :: d)) k fs).Ensures w (fun _ _ => True) IsTooLong := by
  induction fs generalizing w done k with
  | nil => exact Action.ensures_pure trivial
  | cons f fs ih =>
    obtain ⟨⟨hname, hnul⟩, hfs⟩ := List.forall_mem_cons.mp hfiles
    have hseg := Path.isSegment_of_isEntryName hname
    have hway := hasWay_join_pathOf hholds.kindAt? hplain hname hnul
    have hslash : Path.segments (Path.join (pathOf (n :: d)) f.name) =
        "" :: (n :: d).reverse ++ [f.name] := by
      rw [Path.segments_join_pathOf hplain.entry (Path.isAbsolute_of_isSegment hseg),
        Path.segments_of_isSegment hseg]
    have hfree : w.kindAt? (f.name :: n :: d) ≠ some .directory := by
      intro hdirectory
      have heq := hholds.eq_of_kindAt? hdirectory (List.suffix_cons f.name (n :: d))
      exact absurd (congrArg List.length heq) (by simp)
    refine Action.ensures_bind (ensures_change_inStep (hway.write hslash hfree f.contents) ?_)
    intro v hv
    obtain ⟨front, d', m, hleads, rfl⟩ := write_eq_ok hv
    rw [hleads.eq_of_join hplain.entry hname]
    exact ih (k + 1) (hholds.write f) hfs

/-- The new output can be moved to its place, or the old one back. -/
theorem ensures_moveInto_of_works {staging aside : String}
    (hmove : WorksUnlessTooLong (w.move staging output))
    (hback : WorksUnlessTooLong (w.move aside output)) :
    (moveInto .willing staging aside output true).Ensures w (fun _ _ => True) IsTooLong := by
  rcases hmove with ⟨v, hv⟩ | hlong
  · have hmoved : moveInto .willing staging aside output true w = (v, pure ()) := by
      have hattempt : System.willing.attempt .moveInto 0 (w.move staging output) = .ok v := hv
      simp only [moveInto, hattempt]
    exact Action.ensures_of_eq_ok hmoved trivial
  · have hattempt : System.willing.attempt .moveInto 0 (w.move staging output) =
        .error .nameTooLong := hlong
    have hrestore : (moveTo .willing .restore output aside output >>= fun _ =>
        (Action.look fun _ => .ofExcept (.error ⟨.moveInto, output, .nameTooLong⟩) :
          Action OutputError Unit)).Ensures w (fun _ _ => True) IsTooLong := by
      refine Action.ensures_bind (ensures_change_inStep hback fun v _ => ?_)
      exact Action.ensures_fail rfl
    have hmoved : moveInto .willing staging aside output true w =
        (moveTo .willing .restore output aside output >>= fun _ =>
          (Action.look fun _ => .ofExcept (.error ⟨.moveInto, output, .nameTooLong⟩) :
            Action OutputError Unit)) w := by
      simp only [moveInto, hattempt]
      rfl
    exact hrestore.congr hmoved

/-! ### Swapping a settled output -/

theorem IsTemporary.arePlain_cons (ha : base.IsTemporary d a) (hd : ArePlain d) :
    ArePlain (a :: d) :=
  arePlain_cons_iff.mpr ⟨⟨ha.entry, ha.nulFree⟩, hd⟩

namespace HasBoth

variable {x y : Workspace} {t : Tree}

/-- Neither of the temporary directories is in the way of the output. -/
theorem leadsInto (h : HasBoth base d s a es x) (hbase : base.Settled output front d n) :
    x.LeadsInto output front d n :=
  hbase.leadsTo.into.of_sameBut h.same (by
    simp only [List.forall_mem_cons, List.not_mem_nil, false_imp_iff, implies_true, and_true]
    exact ⟨fun _ hfront => hbase.leadsTo.into.not_suffix h.staging.absent hfront,
      fun _ hfront => hbase.leadsTo.into.not_suffix h.aside.absent hfront⟩)

theorem ne_output (h : HasBoth base d s a es x) (hbase : base.Settled output front d n) :
    n ≠ s ∧ n ≠ a := by
  constructor
  · rintro rfl
    have habsent := h.staging.absent
    rw [hbase.directory] at habsent
    cases habsent
  · rintro rfl
    have habsent := h.aside.absent
    rw [hbase.directory] at habsent
    cases habsent

theorem kindAt?_output (h : HasBoth base d s a es x) (hbase : base.Settled output front d n) :
    x.kindAt? (n :: d) = some .directory := by
  obtain ⟨hns, hna⟩ := h.ne_output hbase
  rw [h.same.kinds, hbase.directory]
  simp only [List.forall_mem_cons, List.not_mem_nil, false_imp_iff, implies_true, and_true]
  exact ⟨not_suffix_of_ne (Ne.symm hns), not_suffix_of_ne (Ne.symm hna)⟩

/-- The old output can be moved below its temporary directory while that is empty. -/
theorem works_moveAside (h : HasBoth base d s a es x) (hbase : base.Settled output front d n)
    (hempty : x.kindAt? ("output" :: a :: d) = none) :
    WorksUnlessTooLong (x.move output (asidePath a d)) := by
  obtain ⟨es', hes'⟩ := kindAt?_eq_directory_iff.mp (h.kindAt?_output hbase)
  have hplain := h.aside.arePlain_cons hbase.plain
  have hplace := hasWay_join_pathOf h.kindAt?_aside hplain isEntryName_output (by decide)
  refine (h.leadsInto hbase).hasWay.move hplace hes' hempty ?_
  rw [List.suffix_cons_iff, not_or]
  constructor
  · intro heq
    exact absurd (congrArg List.length heq) (by simp)
  · exact not_suffix_of_ne (h.ne_output hbase).2

variable (h : HasBoth base d s a es x) (hbase : base.Settled output front d n)
  (haway : MovedAside x output d a front n t y)

include h hbase haway

theorem leadsInto_of_movedAside : y.LeadsInto output front d n :=
  hbase.leadsTo.into.of_sameBut (haway.same h.same) (by
    simp only [List.forall_mem_cons, List.not_mem_nil, false_imp_iff, implies_true, and_true]
    exact ⟨fun _ hfront => hbase.leadsTo.into.not_suffix h.staging.absent hfront,
      fun _ hfront => hbase.leadsTo.into.not_suffix h.aside.absent hfront,
      hbase.leadsTo.avoids⟩)

/-- The new output can be moved to where the old one was. -/
theorem works_moveInto : WorksUnlessTooLong (y.move (pathOf (s :: d)) output) := by
  have hleads := h.leadsInto_of_movedAside hbase haway
  have hns := (h.ne_output hbase).1
  have hstaging : y.at? (s :: d) = some (.directory es) := by
    rw [haway.eq, at?_putAt_of_apart (not_suffix_of_below "output" a s d)
        (not_suffix_of_ne (Ne.symm h.ne)),
      at?_putAt_of_apart (not_suffix_of_ne hns) (not_cons_suffix_self s d), h.at?_staging]
  have hsource := hasWay_pathOf hleads.directory (h.staging.arePlain_cons hbase.plain)
  exact hsource.move hleads.hasWay hstaging haway.kindAt?_output (not_suffix_of_ne (Ne.symm hns))

/-- The old output could be moved back. -/
theorem works_moveBack : WorksUnlessTooLong (y.move (asidePath a d) output) := by
  have hleads := h.leadsInto_of_movedAside hbase haway
  have hplain := h.aside.arePlain_cons hbase.plain
  have hsource := hasWay_join_pathOf (haway.kindAt?_aside h.kindAt?_aside) hplain
    isEntryName_output (by decide)
  obtain ⟨es', hes'⟩ := kindAt?_eq_directory_iff.mp (h.kindAt?_output hbase)
  obtain rfl : t = .directory es' := Option.some.inj (haway.at_eq.symm.trans hes')
  have haside : (x.putAt (n :: d) none).kindAt? (a :: d) = some .directory := by
    rw [kindAt?_putAt_of_not_suffix (not_suffix_of_ne haway.ne), h.kindAt?_aside]
  obtain ⟨es'', hes''⟩ := kindAt?_eq_directory_iff.mp haside
  have hat : y.at? ("output" :: a :: d) = some (.directory es') := by
    rw [haway.eq]
    exact at?_putAt_append hes'' "output" (some (.directory es')) []
  exact hsource.move hleads.hasWay hat haway.kindAt?_output (not_suffix_of_below "output" a n d)

end HasBoth

/-- A settled output can be swapped for a new one. -/
theorem ensures_swapOutput_of_settled (hbase : base.Settled output front d n)
    (hs : base.IsTemporary d s) (hsame : SameBut [s :: d] base w)
    (hstaging : w.at? (s :: d) = some (.directory es)) :
    (swapOutput .willing (pathOf (s :: d)) output).Ensures w (fun _ _ => True) IsTooLong := by
  have hparent : w.IsParent output d := hbase.parent.of_sameBut_absent hsame (by simpa using hs.absent)
  have hmade : (makeTemporary .willing .makeAside (outputParent output) ".tilegen-old-").Ensures w
      (fun there v => ∃ a, w.IsTemporary d a ∧ there = a :: d ∧
        v = w.putAt (a :: d) (some .empty)) fun _ _ => True := by
    refine ensures_makeTemporary (by decide) (by decide) (by decide) ?_ fun _ _ => trivial
    intro d' a hlocate _ ha
    obtain rfl : d' = d := Except.ok.inj (hlocate.symm.trans hparent.locate)
    exact ⟨a, ha, rfl, rfl⟩
  have hworks : (makeTemporary .willing .makeAside (outputParent output) ".tilegen-old-").Ensures w
      (fun _ _ => True) fun _ _ => False :=
    ensures_makeTemporary_of_locate hparent.locate hparent.directory
  refine Action.ensures_bind ((hmade.and hworks).imp ?_ fun _ _ h => absurd h.2 id)
  rintro _ _ ⟨⟨a, ha, rfl, rfl⟩, -⟩
  have hboth := HasBoth.of_makeTemporary hs hsame hstaging hparent.directory ha
  have hempty : (w.putAt (a :: d) (some .empty)).kindAt? ("output" :: a :: d) = none := by
    have hkind := kindAt?_putAt_of_entries_eq_nil hparent.directory a (t := .empty) rfl ["output"]
    simpa using hkind
  generalize w.putAt (a :: d) (some .empty) = x at hboth hempty
  have hcontains : x.contains output = true := by
    rw [contains, (hboth.leadsInto hbase).locate (hboth.kindAt?_output hbase)]
    rfl
  refine Action.ensures_clearing (Action.ensures_bind (Action.ensures_look ?_))
  rw [hcontains, if_pos rfl]
  refine Action.ensures_bind (Action.ensures_info (Action.ensures_bind ?_))
  refine ensures_change_inStep (hboth.works_moveAside hbase hempty) fun y hy => ?_
  obtain ⟨front', n', t, haway⟩ := exists_movedAside hbase.parent hboth.aside hboth.same.home hy
  obtain ⟨rfl, rfl⟩ := haway.endsIn.unique hbase.leadsTo.into.endsIn
  exact ensures_moveInto_of_works (hboth.works_moveInto hbase haway)
    (hboth.works_moveBack hbase haway)

/-! ### Replacing a settled output -/

/-- Nothing is made above a settled output. -/
theorem Settled.withParents_eq (h : base.Settled output front d n) :
    withParents .willing base output = base := by
  rw [withParents]
  exact congrArg Prod.fst (makeDirectories_of_locate h.parent.locate h.parent.directory)

/-- A directory for the files of a settled output can be made. -/
theorem ensures_stage_of_settled (h : base.Settled output front d n) :
    (stage .willing output).Ensures base (fun _ _ => True) fun _ _ => False := by
  have hmade := makeDirectories_of_locate h.parent.locate h.parent.directory
  refine Action.ensures_bind (Action.ensures_changeAnyway ?_ fun e he => ?_)
  · change (makeTemporary _ _ _ _).Ensures (base.makeDirectories (fun _ => none) _).1 _ _
    rw [hmade]
    exact ensures_makeTemporary_of_locate h.parent.locate h.parent.directory
  · change inStep _ _ (base.makeDirectories (fun _ => none) _).2 = _ at he
    rw [hmade] at he
    cases he

/-- A settled output can be replaced by files with plain names, unless a name is too long. -/
theorem ensures_replaceOutput_of_settled (hbase : base.Settled output front d n)
    (hfiles : ∀ f ∈ files, Path.isEntryName f.name = true ∧ '\x00' ∉ f.name.toList) :
    (replaceOutput .willing output files).Ensures base (fun _ _ => True) IsTooLong := by
  rw [replaceOutput_eq]
  have hstage := (ensures_stage .willing base output).and (ensures_stage_of_settled hbase)
  refine Action.ensures_bind (hstage.imp ?_ fun _ _ h => absurd h.2 id)
  rintro _ _ ⟨⟨d', s, hparent, hs, rfl, rfl⟩, -⟩
  rw [hbase.withParents_eq] at hparent hs ⊢
  obtain rfl : d' = d := Except.ok.inj (hparent.locate.symm.trans hbase.parent.locate)
  have hplain := hs.arePlain_cons hbase.plain
  have hempty := holds_nil hbase.parent.directory s
  have hsame := SameBut.putAt base s d' (some .empty)
  have hwritten := ensures_writeFiles .willing files 0 hplain.entry hempty.kindAt? (.refl _ _) hempty
    fun f hf => .inl (hfiles f hf).1
  have hworks := ensures_writeFiles_of_holds files 0 hplain hempty hfiles
  refine Action.ensures_bind (Action.ensures_clearingOnError (Action.ensures_bind ?_))
  refine (hwritten.and hworks).imp ?_ fun _ _ h => h.2
  rintro _ v ⟨⟨hsame', es, hes, -⟩, -⟩
  refine (ensures_swapOutput_of_settled hbase hs (hsame.trans hsame') hes).imp ?_ fun _ _ h => h
  exact fun _ _ _ => ensures_reportFiles trivial

/-! ### The same files again -/

/-- Directories that hold the same files hold the same. -/
theorem Holds.kindAt?_eq {here : Location} (hw : w.Holds here files) (hv : v.Holds here files)
    (hp : here <:+ p) : v.kindAt? p = w.kindAt? p := by
  obtain ⟨es, hes, -, hlookup⟩ := hw
  obtain ⟨es', hes', -, hlookup'⟩ := hv
  obtain ⟨x, rfl⟩ := hp
  rw [Workspace.kindAt?, Workspace.kindAt?, at?_append, at?_append, hes, hes', Option.bind_some, Option.bind_some]
  cases x.reverse with
  | nil => rfl
  | cons m ms => simp only [Tree.find?, hlookup, hlookup']

/-- Replacing a settled output by the files that it holds changes nothing. -/
theorem HasOutput.sameBut_nil (hbase : base.Settled output front d n)
    (hholds : base.Holds (n :: d) files) (h : HasOutput base output files v) :
    SameBut [] base v := by
  obtain ⟨front', d', n', hv, hholds', hsame, -⟩ := h.exists_settled
  have hends := hv.leadsTo.into.endsIn.unique hbase.leadsTo.into.endsIn
  obtain rfl : n' = n := hends.2
  obtain rfl : d' = d := by
    rw [hv.leadsTo.into.eq_follow, hbase.leadsTo.into.eq_follow, startOf_congr hsame.home, hends.1]
  refine ⟨hsame.home, fun p _ => ?_⟩
  by_cases hp : n' :: d' <:+ p
  · exact hholds.kindAt?_eq hholds' hp
  · exact hsame.kinds p (by simpa using hp)

end TileSchema.Workspace
