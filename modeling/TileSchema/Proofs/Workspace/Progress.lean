import Mathlib.Data.Fintype.Card
import TileSchema.Proofs.Workspace.Replacement

/-!
# Operations that succeed

Where all that an operation needs is there, nothing but the length of a name or of a path can be in
its way.  What is needed of a path is its way: directories as far as its last part
(`HasWay`).  A write needs no more than a place where no directory stands, and a move a thing to
move and a free place for it (`HasWay.write`, `HasWay.move`).  A temporary directory needs only the
directory it is made in, since of many names one is free (`stem_append_freshLetters_notMem`).
-/

namespace TileSchema.Workspace

variable {w w' : Workspace} {here d d' p : Location} {n n' s path name : String}
  {ss front front' : List String} {t : Tree} {es : List (String × Tree)}

/-! ### Characters of a path -/

theorem mem_toList_ofSegments {c : Char} (hc : c ≠ '/') (ss : List String) :
    c ∈ (Path.ofSegments ss).toList ↔ ∃ s ∈ ss, c ∈ s.toList := by
  induction ss with
  | nil => simp [Path.ofSegments]
  | cons s ss ih =>
    cases ss with
    | nil => simp [Path.ofSegments]
    | cons s' ss =>
      have hcons : Path.ofSegments (s :: s' :: ss) = s ++ "/" ++ Path.ofSegments (s' :: ss) :=
        String.intercalate_cons_cons
      rw [hcons, String.toList_append, String.toList_append, List.mem_append, List.mem_append, ih,
        List.exists_mem_cons_iff]
      simp [hc]

/-- The path of a location has the characters of its names. -/
theorem mem_toList_pathOf {c : Char} (hc : c ≠ '/') (here : Location) :
    c ∈ (pathOf here).toList ↔ ∃ m ∈ here, c ∈ m.toList := by
  rw [pathOf, String.toList_append, List.mem_append, mem_toList_ofSegments hc]
  simp [hc]

theorem notMem_toList_join {c : Char} (hc : c ≠ '/') {directory : String}
    (hdirectory : c ∉ directory.toList) (hname : c ∉ name.toList) :
    c ∉ (Path.join directory name).toList := by
  unfold Path.join
  split
  · exact hname
  · split <;> simp [hc, hdirectory, hname]

/-! ### Following a way -/

/-- A path that holds no end of a path can be followed, unless it is empty or too long. -/
theorem checkPath_or_tooLong (hnul : '\x00' ∉ path.toList) (hne : path ≠ "") :
    checkPath path = .ok () ∨ checkPath path = .error .nameTooLong := by
  have hempty : path.isEmpty = false := by simpa using hne
  rw [checkPath, if_neg (by simpa using hnul), hempty, if_neg Bool.false_ne_true]
  split
  · exact .inr rfl
  · exact .inl rfl

/-- A walk by directories reaches its end, unless a name is too long. -/
theorem walk_or_tooLong
    (h : ∀ front, front <+: ss → w.kindAt? (follow here front) = some .directory) :
    w.walk here ss = .ok (follow here ss) ∨ w.walk here ss = .error .nameTooLong := by
  induction ss generalizing here with
  | nil => exact .inl rfl
  | cons s ss ih =>
    have hhere : w.kindAt? here = some .directory := h [] List.nil_prefix
    have hnext : w.kindAt? (enter here s) = some .directory := h [s] (by simp)
    have ih := ih fun front hfront => h (s :: front) (List.cons_prefix_cons.mpr ⟨rfl, hfront⟩)
    have hstep : w.step here s = .ok (enter here s) ∨ w.step here s = .error .nameTooLong := by
      rw [step_eq, if_pos hhere]
      split
      · exact .inl rfl
      · split
        · exact .inr rfl
        · rw [if_pos (by simp [hnext])]
          exact .inl rfl
    rw [walk_cons]
    rcases hstep with hstep | hstep
    · rw [hstep]
      exact ih
    · rw [hstep]
      exact .inr rfl

/-- All that a path passes in front of its last part are directories. -/
structure HasWay (w : Workspace) (path : String) (front : List String) (d : Location)
    (n : String) : Prop where
  nulFree : '\x00' ∉ path.toList
  endsIn : Path.EndsIn path front n
  eq_follow : d = follow (w.startOf path) front
  kindAt?_follow : ∀ front', front' <+: front →
    w.kindAt? (follow (w.startOf path) front') = some .directory

theorem HasWay.directory (h : w.HasWay path front d n) : w.kindAt? d = some .directory := by
  rw [h.eq_follow]
  exact h.kindAt?_follow front (List.prefix_refl front)

theorem nulFree_of_checkPath (h : checkPath path = .ok ()) : '\x00' ∉ path.toList := by
  intro hmem
  rw [checkPath, if_pos (by simpa using hmem)] at h
  cases h

theorem LeadsInto.hasWay (h : w.LeadsInto path front d n) : w.HasWay path front d n where
  nulFree := nulFree_of_checkPath h.checked
  endsIn := h.endsIn
  eq_follow := h.eq_follow
  kindAt?_follow _ hfront := h.kindAt?_follow hfront

/-- What is found of a path that ends in a name. -/
theorem target_eq (h : Path.EndsIn path front n) :
    w.target path = (checkPath path >>= fun _ => w.walk (w.startOf path) front >>= fun here =>
      match w.at? here with
      | some (.directory _) =>
        if maxNameBytes < n.utf8ByteSize then .error .nameTooLong
        else .ok ⟨here, some n, (Path.segments path).length ≠ front.length + 1⟩
      | _ => .error .notDirectory) := by
  obtain ⟨-, hdot, hdots, -⟩ := Path.isEntryName_iff.mp h.entry
  have hparts : ((Path.segments path).reverse.dropWhile String.isEmpty).reverse = front ++ [n] := by
    obtain ⟨k, hk⟩ := h.spelling
    have hempty : n.isEmpty = false := by simpa using (Path.isEntryName_iff.mp h.entry).1
    rw [hk, List.reverse_append, List.reverse_cons, List.reverse_replicate, List.append_assoc,
      List.dropWhile_append, List.dropWhile_replicate]
    simp [hempty]
  have hname : (some n).filter (fun s => decide (s ≠ ".") && decide (s ≠ "..")) = some n := by
    simp [Option.filter, hdot, hdots]
  unfold target
  simp only [hparts, List.dropLast_concat, List.getLast?_concat, List.length_append, List.length_singleton,
    hname, Option.any_some, decide_eq_true_eq]
  refine bind_congr fun _ => bind_congr fun here => ?_
  cases w.at? here with
  | none => rfl
  | some t =>
    cases t with
    | file text => rfl
    | directory es =>
      dsimp only
      split <;> rfl

/-- A path that leads into a directory is cut into this and its last part. -/
theorem LeadsInto.target (h : w.LeadsInto path front d n) :
    ∃ slash, w.target path = .ok ⟨d, some n, slash⟩ ∧
      (Path.segments path = front ++ [n] → slash = false) := by
  obtain ⟨es, hes⟩ := kindAt?_eq_directory_iff.mp h.directory
  refine ⟨(Path.segments path).length ≠ front.length + 1, ?_, fun hsegments => by simp [hsegments]⟩
  rw [target_eq h.endsIn, h.checked, ok_bind, h.walk, ok_bind, hes]
  dsimp only
  rw [if_neg (Nat.not_lt.mpr h.short)]

/-- A path whose way is there leads into a directory, unless it or a name on it is too long. -/
theorem HasWay.leadsInto_or_tooLong (h : w.HasWay path front d n) :
    w.LeadsInto path front d n ∨ w.target path = .error .nameTooLong := by
  have hne : path ≠ "" := by
    rintro rfl
    obtain ⟨k, hk⟩ := h.endsIn.spelling
    have hsegments : Path.segments "" = [""] := rfl
    have hmem : n ∈ [""] := by
      rw [← hsegments, hk]
      simp
    exact (Path.isEntryName_iff.mp h.endsIn.entry).1 (List.mem_singleton.mp hmem)
  obtain ⟨es, hes⟩ := kindAt?_eq_directory_iff.mp h.directory
  rw [target_eq h.endsIn]
  rcases checkPath_or_tooLong h.nulFree hne with hcheck | hcheck
  case inr => exact .inr (by rw [hcheck]; rfl)
  rcases walk_or_tooLong h.kindAt?_follow with hwalk | hwalk
  case inr => exact .inr (by rw [hcheck, hwalk]; rfl)
  rw [← h.eq_follow] at hwalk
  by_cases hshort : n.utf8ByteSize ≤ maxNameBytes
  · exact .inl ⟨hcheck, h.endsIn, hshort, hwalk, h.directory⟩
  · right
    rw [hcheck, ok_bind, hwalk, ok_bind, hes]
    dsimp only
    rw [if_pos (Nat.not_le.mp hshort)]

/-! ### Ways to places beside each other -/

/-- The way to a location of directories, from the root. -/
theorem kindAt?_follow_root (hd : w.kindAt? d = some .directory)
    (hnames : ∀ m ∈ d, Path.isEntryName m = true) (hfront : front <+: "" :: d.reverse) :
    w.kindAt? (follow [] front) = some .directory := by
  rcases List.prefix_cons_iff.mp hfront with rfl | ⟨ns, rfl, hns⟩
  · exact kindAt?_of_suffix hd List.nil_suffix
  · have hmem : ∀ m ∈ ns, Path.isEntryName m = true :=
      fun m hm => hnames m (List.mem_reverse.mp (hns.subset hm))
    rw [follow_cons, enter_of_isIdle rfl, follow_of_isEntryName hmem, List.append_nil]
    refine kindAt?_of_suffix hd ?_
    rw [← List.reverse_prefix, List.reverse_reverse]
    exact hns

/-- The names of a location can stand in a path. -/
structure ArePlain (here : Location) : Prop where
  entry : ∀ m ∈ here, Path.isEntryName m = true
  nulFree : ∀ m ∈ here, '\x00' ∉ m.toList

theorem arePlain_cons_iff : ArePlain (n :: d) ↔
    (Path.isEntryName n = true ∧ '\x00' ∉ n.toList) ∧ ArePlain d := by
  constructor
  · rintro ⟨hentry, hnul⟩
    exact ⟨⟨hentry n List.mem_cons_self, hnul n List.mem_cons_self⟩,
      fun m hm => hentry m (List.mem_cons_of_mem n hm), fun m hm => hnul m (List.mem_cons_of_mem n hm)⟩
  · rintro ⟨⟨hentry, hnul⟩, hd⟩
    exact ⟨List.forall_mem_cons.mpr ⟨hentry, hd.entry⟩, List.forall_mem_cons.mpr ⟨hnul, hd.nulFree⟩⟩

theorem nulFree_pathOf (h : ArePlain here) : '\x00' ∉ (pathOf here).toList := by
  rw [mem_toList_pathOf (by decide)]
  rintro ⟨m, hm, hmem⟩
  exact h.nulFree m hm hmem

theorem isAbsolute_pathOf (here : Location) : Path.isAbsolute (pathOf here) = true := by
  simp [Path.isAbsolute, pathOf]

theorem isAbsolute_join_pathOf (hname : Path.isEntryName name = true) (here : Location) :
    Path.isAbsolute (Path.join (pathOf here) name) = true := by
  have hrelative : Path.isAbsolute name = false :=
    Path.isAbsolute_of_isSegment (Path.isSegment_of_isEntryName hname)
  have hempty : (pathOf here).isEmpty = false := by
    rw [Bool.eq_false_iff, Ne, String.isEmpty_iff]
    intro h
    have habsolute := isAbsolute_pathOf here
    rw [h] at habsolute
    exact absurd habsolute (by decide)
  have hhead := isAbsolute_pathOf here
  unfold Path.isAbsolute at hhead ⊢
  rw [Path.join, hrelative, hempty, Bool.or_self, if_neg Bool.false_ne_true]
  obtain ⟨cs, hcs⟩ : ∃ cs, (pathOf here).toList = '/' :: cs := by
    rw [beq_iff_eq] at hhead
    exact List.head?_eq_some_iff.mp hhead
  split <;> simp [hcs]

/-- The way to an entry of a directory. -/
theorem hasWay_pathOf (hd : w.kindAt? d = some .directory) (h : ArePlain (n :: d)) :
    w.HasWay (pathOf (n :: d)) ("" :: d.reverse) d n := by
  have hstart : w.startOf (pathOf (n :: d)) = [] := by rw [startOf, if_pos (isAbsolute_pathOf _)]
  have hnames := (arePlain_cons_iff.mp h).2.entry
  constructor
  case nulFree => exact nulFree_pathOf h
  case endsIn => exact Path.endsIn_pathOf h.entry
  case eq_follow => rw [hstart, follow_root hnames]
  case kindAt?_follow =>
    intro front' hfront
    rw [hstart]
    exact kindAt?_follow_root hd hnames hfront

/-- The way to an entry below an entry of a directory. -/
theorem hasWay_join_pathOf (hd : w.kindAt? (n :: d) = some .directory) (h : ArePlain (n :: d))
    (hname : Path.isEntryName name = true) (hnul : '\x00' ∉ name.toList) :
    w.HasWay (Path.join (pathOf (n :: d)) name) ("" :: (n :: d).reverse) (n :: d) name := by
  have hstart : w.startOf (Path.join (pathOf (n :: d)) name) = [] := by
    rw [startOf, if_pos (isAbsolute_join_pathOf hname _)]
  constructor
  case nulFree => exact notMem_toList_join (by decide) (nulFree_pathOf h) hnul
  case endsIn => exact Path.endsIn_join_pathOf h.entry hname
  case eq_follow => rw [hstart, follow_root h.entry]
  case kindAt?_follow =>
    intro front' hfront
    rw [hstart]
    exact kindAt?_follow_root hd h.entry hfront

/-! ### Writing and moving -/

/-- An operation succeeds, unless a name is too long for it. -/
def WorksUnlessTooLong {α : Type} (r : Except SystemError α) : Prop :=
  (∃ a, r = .ok a) ∨ r = .error .nameTooLong

/-- A file can be written where no directory stands. -/
theorem HasWay.write (h : w.HasWay path front d n) (hslash : Path.segments path = front ++ [n])
    (hfree : w.kindAt? (n :: d) ≠ some .directory) (text : String) :
    WorksUnlessTooLong (w.write path text) := by
  rcases h.leadsInto_or_tooLong with hleads | hlong
  case inr => exact .inr (by rw [Workspace.write, hlong]; rfl)
  obtain ⟨slash, htarget, hno⟩ := hleads.target
  refine .inl ⟨w.putAt (n :: d) (some (.file text)), ?_⟩
  rw [Workspace.write, htarget, hno hslash, ok_bind]
  simp only [Bool.false_eq_true, if_false]
  split
  · next es hes => exact absurd (kindAt?_eq_directory_iff.mpr ⟨es, hes⟩) hfree
  · rfl

/-- A directory can be moved to a free place that is not below it. -/
theorem HasWay.move {source destination : String} (hsource : w.HasWay source front d n)
    (hdestination : w.HasWay destination front' d' n') (ht : w.at? (n :: d) = some (.directory es))
    (hfree : w.kindAt? (n' :: d') = none) (hbelow : ¬ n :: d <:+ n' :: d') :
    WorksUnlessTooLong (w.move source destination) := by
  have hpresent : w.kindAt? (n :: d) ≠ none := by simp [kindAt?, ht]
  have habove : ¬ n' :: d' <:+ n :: d :=
    fun h => hpresent (kindAt?_eq_none_of_suffix hfree h)
  have hne : n :: d ≠ n' :: d' := fun h => hbelow (h ▸ List.suffix_refl _)
  rcases hsource.leadsInto_or_tooLong with hfrom | hlong
  case inr => exact .inr (by rw [Workspace.move, hlong]; rfl)
  obtain ⟨slash, hfrom, -⟩ := hfrom.target
  rcases hdestination.leadsInto_or_tooLong with hto | hlong
  case inr => exact .inr (by rw [Workspace.move, hfrom, hlong]; rfl)
  obtain ⟨slash', hto, -⟩ := hto.target
  refine .inl ⟨(w.putAt (n :: d) none).putAt (n' :: d') (some (.directory es)), ?_⟩
  rw [← List.isSuffixOf_iff_suffix] at hbelow habove
  rw [kindAt?_eq_none_iff] at hfree
  rw [Workspace.move, hfrom, ok_bind, hto, ok_bind]
  dsimp only
  rw [ht]
  simp only [Tree.isDirectory, Bool.not_true, Bool.false_and, hne, hbelow, habove, hfree,
    checkReplace]
  rfl

/-! ### Temporary directories -/

theorem letters_injective : Function.Injective letters := by
  intro a b h
  have hlength := congrArg (fun s => s.toList.length) h
  simpa [letters] using hlength

/-- Of more names than are taken, one is free. -/
theorem stem_append_freshLetters_notMem (stem : String) (taken : List String) :
    stem ++ freshLetters stem taken ∉ taken := by
  have hfree : ∃ k ∈ List.range (taken.length + 1), stem ++ letters (k + 6) ∉ taken := by
    by_contra hall
    simp only [not_exists, not_and, not_not] at hall
    have hnodup : ((List.range (taken.length + 1)).map fun k => stem ++ letters (k + 6)).Nodup := by
      refine List.nodup_range.map fun a b h => ?_
      have hletters : letters (a + 6) = letters (b + 6) := by
        simpa [← String.toList_inj] using h
      have heq := letters_injective hletters
      omega
    have hsubset : ((List.range (taken.length + 1)).map fun k => stem ++ letters (k + 6)) ⊆ taken := by
      intro m hm
      obtain ⟨k, hk, rfl⟩ := List.mem_map.mp hm
      exact hall k hk
    have hlength := (hnodup.subperm hsubset).length_le
    simp only [List.length_map, List.length_range] at hlength
    omega
  rw [freshLetters]
  cases hfind : (List.range (taken.length + 1)).find? fun k => stem ++ letters (k + 6) ∉ taken with
  | some k => simpa using List.find?_some hfind
  | none =>
    obtain ⟨k, hk, hkfree⟩ := hfree
    exact absurd (List.find?_eq_none.mp hfind k hk) (by simpa using hkfree)

/-- A temporary directory can be made in a directory. -/
theorem exists_addTemporary {directory stem : String} (hlocate : w.locate directory = .ok d)
    (hd : w.kindAt? d = some .directory) :
    ∃ made, w.addTemporary (freshLetters stem) directory stem = .ok made := by
  obtain ⟨es, hes⟩ := kindAt?_eq_directory_iff.mp hd
  have habsent : w.child? d (stem ++ freshLetters stem (es.map Prod.fst)) = none := by
    have hlookup := Ordered.lookup_eq_none_iff_notMem.mpr
      (stem_append_freshLetters_notMem stem (es.map Prod.fst))
    rw [child?, ← List.singleton_append, at?_append, hes]
    simp [Tree.find?, hlookup]
  let name := stem ++ freshLetters stem (es.map Prod.fst)
  refine ⟨(w.putAt (name :: d) (some .empty), name :: d), ?_⟩
  rw [addTemporary, hlocate, ok_bind, hes]
  dsimp only
  rw [habsent]
  rfl

/-! ### Directories that are there -/

theorem exists_walk_of_prefix (h : w.walk here ss = .ok p) (hfront : front <+: ss) :
    ∃ q, w.walk here front = .ok q := by
  obtain ⟨rest, rfl⟩ := hfront
  rw [walk_append, bind_eq_ok_iff] at h
  obtain ⟨q, hq, -⟩ := h
  exact ⟨q, hq⟩

/-- A path that leads somewhere has a way to its last part. -/
theorem target_ne_noEntry (hlocate : w.locate path = .ok d) : w.target path ≠ .error .noEntry := by
  obtain ⟨hcheck, hwalk⟩ := locate_eq_ok hlocate
  have hparts : (((Path.segments path).reverse.dropWhile String.isEmpty).reverse).dropLast <+:
      Path.segments path :=
    (List.dropLast_prefix _).trans (List.rdropWhile_prefix String.isEmpty (Path.segments path))
  obtain ⟨q, hq⟩ := exists_walk_of_prefix hwalk hparts
  unfold target
  rw [hcheck]
  change (w.walk _ _ >>= _) ≠ _
  rw [hq, ok_bind]
  split
  · dsimp only
    split <;> exact nofun
  · exact nofun

/-- A directory that is there is not made again. -/
theorem makeDirectory_of_locate (hlocate : w.locate path = .ok d)
    (hd : w.kindAt? d = some .directory) :
    ∃ e, w.makeDirectory path = .error e ∧ e ≠ .noEntry := by
  cases hmade : w.makeDirectory path with
  | ok v =>
    obtain ⟨front, d', n, hleads, habsent, -⟩ := makeDirectory_eq_ok hmade
    obtain ⟨k, hk⟩ := hleads.endsIn.spelling
    obtain ⟨hd', -⟩ := walk_eq_ok (locate_eq_ok hlocate).2
    have hidle : follow (n :: d') (List.replicate k "") = n :: d' := by
      rw [← follow_filter, List.filter_replicate]
      rfl
    rw [hk, follow_append, ← hleads.eq_follow, follow_cons,
      enter_of_isEntryName hleads.endsIn.entry, hidle] at hd'
    rw [hd', habsent] at hd
    cases hd
  | error e =>
    refine ⟨e, rfl, ?_⟩
    rintro rfl
    rw [makeDirectory] at hmade
    cases htarget : w.target path with
    | error e =>
      rw [htarget] at hmade
      obtain rfl : e = .noEntry := Except.error.inj hmade
      exact target_ne_noEntry hlocate htarget
    | ok t =>
      rw [htarget, ok_bind] at hmade
      split at hmade
      · cases hmade
      · dsimp only at hmade
        split at hmade <;> cases hmade

/-- Directories that are there are left as they are. -/
theorem makeDirectories_of_locate (hlocate : w.locate path = .ok d)
    (hd : w.kindAt? d = some .directory) :
    w.makeDirectories (fun _ => none) path = (w, .ok ()) := by
  rw [makeDirectories, Path.ancestors]
  split
  · rfl
  · obtain ⟨e, hmade, hne⟩ := makeDirectory_of_locate hlocate hd
    obtain ⟨es, hes⟩ := kindAt?_eq_directory_iff.mp hd
    have hdirectory : w.isDirectory path = true := by
      have hget : w.get path = .ok (.directory es) := by
        rw [get, hlocate, ok_bind, hes]
        rfl
      rw [isDirectory, hget]
    rw [makeEach, unlessRefused, hmade]
    split
    · next h => cases h
    · next h => exact absurd (Except.error.inj h) hne
    · rw [if_pos hdirectory]

end TileSchema.Workspace
