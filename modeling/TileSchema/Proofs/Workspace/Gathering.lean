import TileSchema.Proofs.Workspace.Outcomes

/-!
# Gathering the files of an output

The files of an output are gathered in a new directory beside it.  Writing one of them adds it to
what the directory holds, in the place of a file with the same name (`Holds.write`), and changes
nothing else.  A file for which there is no directory ends the work: the new directory holds only
files, so the path of such a file leads nowhere, however many of them have been written
(`LeadsInto.of_holds`).
-/

namespace TileSchema.Workspace

open Artifact (RenderedFile)

variable {w v base : Workspace} {d d' here p : Location} {n n' name path output : String}
  {front : List String} {es : List (String × Tree)} {files done : List RenderedFile}
  {f : RenderedFile}

/-! ### What a directory holds -/

/-- The contents of the last one of files with a name. -/
def lastContents? (files : List RenderedFile) (name : String) : Option String :=
  (files.reverse.find? (·.name = name)).map (·.contents)

/-- A directory stands at a location and holds exactly given files, the last one of those with the
same name. -/
def Holds (w : Workspace) (here : Location) (files : List RenderedFile) : Prop :=
  ∃ es, w.at? here = some (.directory es) ∧ (es.map Prod.fst).Nodup ∧
    ∀ name, es.lookup name = (lastContents? files name).map Tree.file

theorem lastContents?_concat (files : List RenderedFile) (f : RenderedFile) (name : String) :
    lastContents? (files ++ [f]) name =
      if f.name = name then some f.contents else lastContents? files name := by
  by_cases h : f.name = name <;> simp [lastContents?, h]

/-- A directory has another entry after one was set in it. -/
theorem at?_putAt_self (hd : w.at? d = some (.directory es)) (n : String) (t : Option Tree) :
    (w.putAt (n :: d) t).at? d = some (.directory (setEntry n t es)) := by
  have hput := Tree.find?_put_above w.tree d.reverse (List.cons_ne_nil n []) t
  have hfind : w.tree.find? d.reverse = some (.directory es) := hd
  rw [hfind] at hput
  simpa [at?, putAt, Tree.put] using hput

theorem Holds.kindAt? (h : w.Holds here files) : w.kindAt? here = some .directory := by
  obtain ⟨es, hes, -, -⟩ := h
  exact kindAt?_eq_directory_iff.mpr ⟨es, hes⟩

theorem holds_nil (hd : w.kindAt? d = some .directory) (n : String) :
    (w.putAt (n :: d) (some .empty)).Holds (n :: d) [] := by
  obtain ⟨es, hes⟩ := kindAt?_eq_directory_iff.mp hd
  exact ⟨[], at?_putAt_append hes n (some .empty) [], List.nodup_nil, fun name => rfl⟩

/-- A file that is written is held in the place of one with its name. -/
theorem Holds.write (h : w.Holds here done) (f : RenderedFile) :
    (w.putAt (f.name :: here) (some (.file f.contents))).Holds here (done ++ [f]) := by
  obtain ⟨es, hes, hnodup, hlookup⟩ := h
  refine ⟨_, at?_putAt_self hes f.name _, nodup_setEntry f.name _ hnodup, fun name => ?_⟩
  rw [lastContents?_concat]
  by_cases hname : f.name = name
  · rw [if_pos hname, ← hname, lookup_setEntry]
    rfl
  · rw [if_neg hname, lookup_setEntry_of_ne (Ne.symm hname), hlookup]

/-- There are no directories below one that holds files. -/
theorem Holds.eq_of_kindAt? (h : w.Holds here files) (hp : w.kindAt? p = some .directory)
    (hbelow : here <:+ p) : p = here := by
  obtain ⟨es, hes, -, hlookup⟩ := h
  obtain ⟨es', hes'⟩ := kindAt?_eq_directory_iff.mp hp
  obtain ⟨x, rfl⟩ := hbelow
  rw [at?_append, hes] at hes'
  rcases x.eq_nil_or_concat with rfl | ⟨y, m, rfl⟩
  · rfl
  · rw [List.concat_eq_append, List.reverse_append] at hes'
    simp only [List.reverse_singleton, List.singleton_append, Option.bind_some, Tree.find?,
      hlookup, Option.bind_map] at hes'
    obtain ⟨text, -, hfind⟩ := Option.bind_eq_some_iff.mp hes'
    cases hy : y.reverse <;> simp [hy, Tree.find?] at hfind

/-! ### Where the files are written -/

/-- A path that spells the names of a location leads to it. -/
theorem LeadsInto.eq_of_endsIn (h : w.LeadsInto path front d' n')
    (hends : Path.EndsIn path ("" :: d.reverse) n) (hd : ∀ m ∈ d, Path.isEntryName m = true) :
    n' :: d' = n :: d := by
  obtain ⟨hfront, rfl⟩ := h.endsIn.unique hends
  obtain ⟨k, hk⟩ := hends.spelling
  have habsolute : Path.isAbsolute path = true := by
    rw [Path.isAbsolute_eq hk]
    simp
  have hstart : w.startOf path = [] := by rw [startOf, if_pos habsolute]
  rw [h.eq_follow, hstart, hfront, follow_root hd]

theorem LeadsInto.eq_of_pathOf (h : w.LeadsInto (pathOf (n :: d)) front d' n')
    (hnames : ∀ m ∈ n :: d, Path.isEntryName m = true) : n' :: d' = n :: d :=
  h.eq_of_endsIn (Path.endsIn_pathOf hnames) fun m hm => hnames m (List.mem_cons_of_mem n hm)

theorem LeadsInto.eq_of_join (h : w.LeadsInto (Path.join (pathOf (n :: d)) name) front d' n')
    (hnames : ∀ m ∈ n :: d, Path.isEntryName m = true) (hname : Path.isEntryName name = true) :
    n' :: d' = name :: n :: d :=
  h.eq_of_endsIn (Path.endsIn_join_pathOf hnames hname) hnames

/-- A path leads into a directory of another workspace if all that it passes is there. -/
theorem LeadsInto.congr (h : w.LeadsInto path front d n) (hhome : v.home = w.home)
    (hway : ∀ front', front' <+: front →
      v.kindAt? (follow (w.startOf path) front') = some .directory) :
    v.LeadsInto path front d n where
  checked := h.checked
  endsIn := h.endsIn
  short := h.short
  walk := by
    rw [startOf_congr hhome, ← h.walk]
    apply walk_congr
    intro front' hfront
    rw [hway front' hfront, h.kindAt?_follow hfront]
  directory := by
    have hd := hway front (List.prefix_refl front)
    rwa [← h.eq_follow] at hd

/-- A path that leads into a directory once files have been written did so before. -/
theorem LeadsInto.of_holds (h : w.LeadsInto path front d' n') (hsame : SameBut [here] base w)
    (hbase : base.kindAt? here = some .directory) (hholds : w.Holds here done) :
    base.LeadsInto path front d' n' := by
  refine h.congr hsame.home.symm fun front' hfront => ?_
  have hdirectory := h.kindAt?_follow hfront
  by_cases hbelow : here <:+ follow (w.startOf path) front'
  · rw [hholds.eq_of_kindAt? hdirectory hbelow, hbase]
  · rw [← hsame.kinds _ (by simpa using hbelow), hdirectory]

/-- Writing one file after the other, either all of them are held in the end, or one of them could
not be written; what is not in the directory stays as it was. -/
theorem ensures_writeFiles (sys : System) (fs : List RenderedFile) (k : Nat)
    (hnames : ∀ m ∈ n :: d, Path.isEntryName m = true)
    (hbase : base.kindAt? (n :: d) = some .directory) (hsame : SameBut [n :: d] base w)
    (hholds : w.Holds (n :: d) done)
    (hfiles : ∀ f ∈ fs, Path.isEntryName f.name = true ∨
      ∀ front d' m, ¬ base.LeadsInto (Path.join (pathOf (n :: d)) f.name) front d' m) :
    (writeFiles sys (pathOf (n :: d)) k fs).Ensures w
      (fun _ v => SameBut [n :: d] base v ∧ v.Holds (n :: d) (done ++ fs))
      (fun _ v => SameBut [n :: d] base v) := by
  induction fs generalizing w done k with
  | nil => exact Action.ensures_pure ⟨hsame, by simpa using hholds⟩
  | cons f fs ih =>
    obtain ⟨hf, hfs⟩ := List.forall_mem_cons.mp hfiles
    refine Action.ensures_bind (Action.ensures_change (fun v hv => ?_) fun e _ => hsame)
    have hwrite := attempt_eq_ok (mapError_eq_ok_iff.mp hv)
    obtain ⟨front, d', m, hleads, rfl⟩ := write_eq_ok hwrite
    have hname : Path.isEntryName f.name = true := by
      rcases hf with hname | hnone
      · exact hname
      · exact absurd (hleads.of_holds hsame hbase hholds) (hnone front d' m)
    have hplace := hleads.eq_of_join hnames hname
    rw [hplace]
    have hsame' : SameBut [n :: d] base
        (w.putAt (f.name :: n :: d) (some (.file f.contents))) :=
      hsame.and_putAt ⟨n :: d, List.mem_singleton_self _, List.suffix_cons f.name (n :: d)⟩ _
    have hrest := ih (k + 1) hsame' (hholds.write f) hfs
    rwa [List.append_assoc] at hrest

/-! ### The new directory -/

/-- The workspace in which the directories above an output have been made. -/
def withParents (sys : System) (w : Workspace) (output : String) : Workspace :=
  (w.makeDirectories (sys.refuse .makeParent) (outputParent output)).1

/-- The directory above an output is there. -/
structure IsParent (w : Workspace) (output : String) (d : Location) : Prop where
  locate : w.locate (outputParent output) = .ok d
  directory : w.kindAt? d = some .directory

/-- All names that lead to the directory above an output are names of entries. -/
theorem IsParent.isEntryName (h : w.IsParent output d) : ∀ m ∈ d, Path.isEntryName m = true := by
  rw [(walk_eq_ok (locate_eq_ok h.locate).2).1]
  refine forall_isEntryName_follow ?_ fun s hs => Path.isSegment_of_mem_segments hs
  unfold startOf
  split
  · simp
  · exact w.home_isEntryName

/-- The directory above an output is made, and in it a new one for the files. -/
def stage (sys : System) (output : String) : Action OutputError Location := do
  Action.changeAnyway fun w =>
    let (w, r) := w.makeDirectories (sys.refuse .makeParent) (outputParent output)
    (w, inStep .makeParent (outputParent output) r)
  makeTemporary sys .makeStaging (outputParent output) ".tilegen-"

/-- There is no directory for a file of an output: its path leads into none when the new directory
for the files has been made. -/
def HasNoDirectory (sys : System) (w : Workspace) (output name : String) : Prop :=
  ∀ staging, (stage sys output w).2.result = .ok staging →
    ∀ front d n, ¬ (stage sys output w).1.LeadsInto (Path.join (pathOf staging) name) front d n

/-- The new directory is made in the directory above the output, which may have to be made. -/
theorem ensures_stage (sys : System) (w : Workspace) (output : String) :
    (stage sys output).Ensures w
      (fun staging v => ∃ d s, (withParents sys w output).IsParent output d ∧
        (withParents sys w output).IsTemporary d s ∧ staging = s :: d ∧
        v = (withParents sys w output).putAt (s :: d) (some .empty))
      (fun e v => e.step ≠ .restore ∧ v = withParents sys w output) := by
  refine Action.ensures_bind (Action.ensures_changeAnyway ?_ fun e he => ?_)
  · refine ensures_makeTemporary (by decide) (by decide) (by decide) (fun d s hlocate hd hs => ?_) ?_
    · exact ⟨d, s, ⟨hlocate, hd⟩, hs, rfl, rfl⟩
    · intro e he
      exact ⟨by simp [he], rfl⟩
  · exact ⟨by simp [inStep_eq_error he], rfl⟩

/-- A list that ends in blanks behind some part has all before that part in front of it. -/
theorem append_singleton_prefix_of_eq {as rest front : List String} {first : String} {k : Nat}
    (h : as ++ first :: rest = front ++ n :: List.replicate k "") (hrest : ∃ s ∈ rest, s ≠ "") :
    as ++ [first] <+: front := by
  have hleft : as ++ [first] <+: front ++ n :: List.replicate k "" :=
    ⟨rest, by rw [← h, List.append_assoc]; rfl⟩
  refine List.prefix_of_prefix_length_le hleft (List.prefix_append _ _) ?_
  by_contra hlong
  rw [List.length_append, List.length_singleton, not_le, Nat.lt_succ_iff] at hlong
  obtain ⟨s, hs, hne⟩ := hrest
  -- What stands behind the last part is blank.
  have hdrop := congrArg (List.drop (as.length + 1)) h
  rw [List.drop_append, List.drop_append] at hdrop
  have hmem : s ∈ List.drop (as.length + 1 - front.length) (n :: List.replicate k "") := by
    have hfront : List.drop (as.length + 1) front = [] := List.drop_eq_nil_of_le (by omega)
    rw [hfront, List.nil_append] at hdrop
    rw [← hdrop]
    exact List.mem_append_right _ (by simpa using hs)
  obtain ⟨m, hm⟩ : ∃ m, as.length + 1 - front.length = m + 1 :=
    ⟨as.length - front.length, by omega⟩
  rw [hm, List.drop_succ_cons] at hmem
  exact hne (List.eq_of_mem_replicate (List.mem_of_mem_drop hmem))

/-- There is no directory for a file that is to stand in a directory of the new output. -/
theorem hasNoDirectory_of_segments {first : String} {rest : List String} (sys : System)
    (w : Workspace) (output : String) (hname : Path.segments name = first :: rest)
    (hfirst : Path.isEntryName first = true) (hrest : ∃ s ∈ rest, s ≠ "") :
    HasNoDirectory sys w output name := by
  intro staging hresult front d' m hleads
  obtain ⟨d, s, hparent, hs, rfl, hstate⟩ := (ensures_stage sys w output).of_ok hresult
  rw [hstate] at hleads
  have hnames : ∀ m ∈ s :: d, Path.isEntryName m = true :=
    List.forall_mem_cons.mpr ⟨hs.entry, hparent.isEntryName⟩
  have hempty : first.isEmpty = false := by simpa using (Path.isEntryName_iff.mp hfirst).1
  have hrelative : Path.isAbsolute name = false := by rw [Path.isAbsolute_eq hname, hempty]; rfl
  have hsegments := Path.segments_join_pathOf hnames hrelative
  obtain ⟨k, hk⟩ := hleads.endsIn.spelling
  rw [hsegments, hname] at hk
  have hfront := append_singleton_prefix_of_eq hk hrest
  have hstart : Path.isAbsolute (Path.join (pathOf (s :: d)) name) = true := by
    rw [Path.isAbsolute_eq hsegments]
    simp
  have hdirectory := hleads.kindAt?_follow hfront
  rw [startOf, if_pos hstart, follow_append, follow_root hnames, follow_cons, follow_nil,
    enter_of_isEntryName hfirst] at hdirectory
  have hnone := kindAt?_putAt_of_entries_eq_nil hparent.directory s (t := .empty) rfl [first]
  rw [List.singleton_append, hdirectory] at hnone
  simp at hnone

end TileSchema.Workspace
