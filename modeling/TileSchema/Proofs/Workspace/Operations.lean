import TileSchema.Proofs.Workspace.Walk

/-!
# What operations change

Each operation that succeeds puts one thing at one place, and a move clears another place before.
So two workspaces that operations lead from one to the other hold the same but at a few locations
(`SameBut`).  A location where nothing stood and nothing stands again need not be told
(`SameBut.forget`); that is how a temporary directory disappears.

Making directories only adds, and only on the way of the path (`grows_makeDirectories`).
-/

namespace TileSchema.Workspace

variable {w w' v : Workspace} {p d l : Location} {n path text : String} {t : Tree}
  {ls ls' : List Location}

/-! ### Successful operations -/

/-- A file is written at the last part of its path. -/
theorem write_eq_ok (h : w.write path text = .ok w') :
    ∃ front d n, w.LeadsInto path front d n ∧ w' = w.putAt (n :: d) (some (.file text)) := by
  rw [write, bind_eq_ok_iff] at h
  obtain ⟨t, ht, h⟩ := h
  cases hname : t.name with
  | none =>
    rw [hname] at h
    exact absurd h throw_ne_ok
  | some n =>
    obtain ⟨front, hleads⟩ := target_eq_ok ht hname
    rw [hname] at h
    dsimp only at h
    split at h
    · exact absurd h throw_ne_ok
    · split at h
      · exact absurd h throw_ne_ok
      · exact ⟨front, _, n, hleads, (Except.ok.inj h).symm⟩

/-- A directory is made at the last part of its path, where nothing was. -/
theorem makeDirectory_eq_ok (h : w.makeDirectory path = .ok w') :
    ∃ front d n, w.LeadsInto path front d n ∧ w.kindAt? (n :: d) = none ∧
      w' = w.putAt (n :: d) (some .empty) := by
  rw [makeDirectory, bind_eq_ok_iff] at h
  obtain ⟨t, ht, h⟩ := h
  cases hname : t.name with
  | none =>
    rw [hname] at h
    exact absurd h throw_ne_ok
  | some n =>
    obtain ⟨front, hleads⟩ := target_eq_ok ht hname
    rw [hname] at h
    dsimp only at h
    split at h
    · exact absurd h throw_ne_ok
    · next habsent =>
      rw [isSome_child?, Ne, Decidable.not_not] at habsent
      exact ⟨front, _, n, hleads, habsent, (Except.ok.inj h).symm⟩

/-- Something is moved from the last part of a path to that of another one, neither of which is
below the other, or it stays. -/
theorem move_eq_ok {source destination : String} (h : w.move source destination = .ok w') :
    ∃ front d n front' d' n' t,
      w.LeadsInto source front d n ∧ w.LeadsInto destination front' d' n' ∧
      w.at? (n :: d) = some t ∧
      ((n :: d = n' :: d' ∧ w' = w) ∨
        (¬ n :: d <:+ n' :: d' ∧ ¬ n' :: d' <:+ n :: d ∧
          checkReplace t (w.at? (n' :: d')) = .ok () ∧
          w' = (w.putAt (n :: d) none).putAt (n' :: d') (some t))) := by
  rw [move, bind_eq_ok_iff] at h
  obtain ⟨s, hs, h⟩ := h
  rw [bind_eq_ok_iff] at h
  obtain ⟨r, hr, h⟩ := h
  split at h
  case h_2 => exact absurd h throw_ne_ok
  case h_1 n n' hn hn' =>
    obtain ⟨front, hsource⟩ := target_eq_ok hs hn
    obtain ⟨front', hdestination⟩ := target_eq_ok hr hn'
    dsimp only at h
    split at h
    · exact absurd h throw_ne_ok
    · next t ht =>
      refine ⟨front, _, n, front', _, n', t, hsource, hdestination, ht, ?_⟩
      split at h
      · exact absurd h throw_ne_ok
      · split at h
        · next heq => exact .inl ⟨heq, (Except.ok.inj h).symm⟩
        · split at h
          · exact absurd h throw_ne_ok
          · next hbelow =>
            split at h
            · exact absurd h throw_ne_ok
            · next habove =>
              rw [List.isSuffixOf_iff_suffix] at hbelow habove
              simp only [bind_eq_ok_iff] at h
              obtain ⟨⟨⟩, hcheck, h⟩ := h
              exact .inr ⟨hbelow, habove, hcheck, (Except.ok.inj h).symm⟩

/-- A temporary directory is made in the directory of a path, where nothing was. -/
theorem addTemporary_eq_ok {suffix : List String → String} {directory stem : String}
    (h : w.addTemporary suffix directory stem = .ok (w', l)) :
    ∃ d taken, w.locate directory = .ok d ∧ w.kindAt? d = some .directory ∧
      l = (stem ++ suffix taken) :: d ∧ w.kindAt? l = none ∧ w' = w.putAt l (some .empty) := by
  rw [addTemporary, bind_eq_ok_iff] at h
  obtain ⟨d, hd, h⟩ := h
  split at h
  case h_2 => exact absurd h throw_ne_ok
  case h_1 es hes =>
    dsimp only at h
    split at h
    · exact absurd h throw_ne_ok
    · next habsent =>
      rw [isSome_child?, Ne, Decidable.not_not] at habsent
      obtain ⟨rfl, rfl⟩ := Prod.mk.inj (Except.ok.inj h)
      exact ⟨d, _, hd, kindAt?_eq_directory_iff.mpr ⟨es, hes⟩, rfl, habsent, rfl⟩

/-! ### The same but at a few locations -/

/-- Two workspaces in which the same stands wherever it is not at or below given locations. -/
structure SameBut (ls : List Location) (w w' : Workspace) : Prop where
  home : w'.home = w.home
  kinds : ∀ p, (∀ l ∈ ls, ¬ l <:+ p) → w'.kindAt? p = w.kindAt? p

namespace SameBut

theorem refl (ls : List Location) (w : Workspace) : SameBut ls w w := ⟨rfl, fun _ _ => rfl⟩

theorem trans (h : SameBut ls w v) (h' : SameBut ls v w') : SameBut ls w w' where
  home := h'.home.trans h.home
  kinds p hp := (h'.kinds p hp).trans (h.kinds p hp)

/-- It is the same but at more locations, or at locations above. -/
theorem mono (h : SameBut ls w w') (hls : ∀ l ∈ ls, ∃ l' ∈ ls', l' <:+ l) : SameBut ls' w w' where
  home := h.home
  kinds p hp := by
    refine h.kinds p fun l hl hlp => ?_
    obtain ⟨l', hl', habove⟩ := hls l hl
    exact hp l' hl' (habove.trans hlp)

theorem putAt (w : Workspace) (n : String) (d : Location) (t : Option Tree) :
    SameBut [n :: d] w (w.putAt (n :: d) t) where
  home := rfl
  kinds _ hp := kindAt?_putAt_of_not_suffix (hp _ List.mem_cons_self) t

/-- Something may be put at or below the locations that are told. -/
theorem and_putAt (h : SameBut ls w v) (hl : ∃ l ∈ ls, l <:+ n :: d) (t : Option Tree) :
    SameBut ls w (v.putAt (n :: d) t) :=
  h.trans ((putAt v n d t).mono (by simpa using hl))

/-- A location where nothing stands in both need not be told. -/
theorem forget (h : SameBut (l :: ls) w w') (hw : w.kindAt? l = none) (hw' : w'.kindAt? l = none) :
    SameBut ls w w' where
  home := h.home
  kinds p hp := by
    by_cases hl : l <:+ p
    · rw [kindAt?_eq_none_of_suffix hw hl, kindAt?_eq_none_of_suffix hw' hl]
    · exact h.kinds p (List.forall_mem_cons.mpr ⟨hl, hp⟩)

/-- A location where nothing stood is the same once it is cleared. -/
theorem clear (h : SameBut ((n :: d) :: ls) w w') (hw : w.kindAt? (n :: d) = none) :
    SameBut ls w (w'.putAt (n :: d) none) := by
  have hclear : SameBut ((n :: d) :: ls) w' (w'.putAt (n :: d) none) :=
    (putAt w' n d none).mono (by simp)
  exact (h.trans hclear).forget hw (kindAt?_putAt_none w' (List.suffix_refl _))

/-- Something moved away and back is where it was. -/
theorem of_move_back {m : String} {e : Location} (hn : w.at? (n :: d) = some t)
    (hme : ¬ m :: e <:+ n :: d) :
    SameBut [m :: e] w
      ((((w.putAt (n :: d) none).putAt (m :: e) (some t)).putAt (m :: e) none).putAt (n :: d)
        (some t)) where
  home := rfl
  kinds p hp := by
    have hp : ¬ m :: e <:+ p := hp _ List.mem_cons_self
    by_cases hbelow : n :: d <:+ p
    · obtain ⟨x, rfl⟩ := hbelow
      have hpresent : w.kindAt? (n :: d) ≠ none := by simp [kindAt?, hn]
      have hd : w.kindAt? d = some .directory := kindAt?_tail hpresent
      have hmd : ¬ m :: e <:+ d := fun h => hme (h.trans (List.suffix_cons n d))
      -- The directory `d` is neither of the two places, so it is there all the time.
      rw [← kindAt?_putAt_of_not_suffix (not_cons_suffix_self n d) none,
        ← kindAt?_putAt_of_not_suffix hmd (some t), ← kindAt?_putAt_of_not_suffix hmd none] at hd
      obtain ⟨es, hes⟩ := kindAt?_eq_directory_iff.mp hd
      rw [kindAt?, kindAt?, at?_putAt_append hes, at?_append w, hn]
    · rw [kindAt?_putAt_of_not_suffix hbelow, kindAt?_putAt_of_not_suffix hp,
        kindAt?_putAt_of_not_suffix hp, kindAt?_putAt_of_not_suffix hbelow]

end SameBut

/-! ### Making directories -/

/-- The entries of directories that a path names on its way, its last part included. -/
def OnTheWay (w : Workspace) (path : String) (p : Location) : Prop :=
  ∃ front n, front ++ [n] <+: Path.segments path ∧ Path.isEntryName n = true ∧
    p = n :: follow (w.startOf path) front

/-- The same stands at a location, or a directory was made there on the way of a path. -/
def Grown (w : Workspace) (path : String) (w' : Workspace) (p : Location) : Prop :=
  w'.kindAt? p = w.kindAt? p ∨
    (w.kindAt? p = none ∧ w'.kindAt? p = some .directory ∧ w.OnTheWay path p)

/-- A workspace to which only directories on the way of a path were added. -/
structure Grows (w : Workspace) (path : String) (w' : Workspace) : Prop where
  home : w'.home = w.home
  grown : ∀ p, w.Grown path w' p

theorem startOf_congr (h : w'.home = w.home) (path : String) :
    w'.startOf path = w.startOf path := by
  rw [startOf, startOf, h]

theorem onTheWay_congr (h : w'.home = w.home) : w'.OnTheWay path p ↔ w.OnTheWay path p := by
  rw [OnTheWay, OnTheWay, startOf_congr h]

theorem Grows.refl (w : Workspace) (path : String) : w.Grows path w := ⟨rfl, fun _ => .inl rfl⟩

theorem Grows.trans (h : w.Grows path v) (h' : v.Grows path w') : w.Grows path w' where
  home := h'.home.trans h.home
  grown p := by
    rcases h.grown p with hsame | ⟨hw, hv, hway⟩ <;>
      rcases h'.grown p with hsame' | ⟨hv', hw', hway'⟩
    · exact .inl (hsame'.trans hsame)
    · exact .inr ⟨hsame.symm.trans hv', hw', (onTheWay_congr h.home).mp hway'⟩
    · exact .inr ⟨hw, hsame'.trans hv, hway⟩
    · rw [hv] at hv'
      exact absurd hv' (by simp)

/-- A directory is made on the way of any path that begins with the segments of its own. -/
theorem grows_makeDirectory {above : String} (h : w.makeDirectory above = .ok w')
    (habsolute : Path.isAbsolute above = Path.isAbsolute path)
    (hpre : Path.segments above <+: Path.segments path) : w.Grows path w' := by
  obtain ⟨front, d, n, hleads, habsent, rfl⟩ := makeDirectory_eq_ok h
  refine ⟨rfl, fun p => ?_⟩
  by_cases hp : n :: d <:+ p
  · obtain ⟨x, rfl⟩ := hp
    have hkind := kindAt?_putAt_of_entries_eq_nil hleads.directory n (t := .empty) rfl x
    by_cases hx : x = []
    · subst hx
      obtain ⟨k, hk⟩ := hleads.endsIn.spelling
      have hfront : front ++ [n] <+: Path.segments above := ⟨List.replicate k "", by simp [hk]⟩
      have hstart : w.startOf above = w.startOf path := by rw [startOf, startOf, habsolute]
      have hway : w.OnTheWay path (n :: d) :=
        ⟨front, n, hfront.trans hpre, hleads.endsIn.entry, by rw [← hstart, ← hleads.eq_follow]⟩
      exact .inr ⟨habsent, by simpa using hkind, hway⟩
    · rw [if_neg hx] at hkind
      exact .inl (hkind.trans (kindAt?_eq_none_of_suffix habsent (List.suffix_append x _)).symm)
  · exact .inl (kindAt?_putAt_of_not_suffix hp _)

theorem unlessRefused_eq_ok {α : Type} {refusal : Option SystemError} {r : Except SystemError α}
    {a : α} (h : unlessRefused refusal r = .ok a) : r = .ok a := by
  cases refusal with
  | none => exact h
  | some e => exact absurd h (by simp [unlessRefused])

theorem grows_makeEach (refuse : Nat → Option SystemError) {paths : List String}
    (hpaths : ∀ a ∈ paths,
      Path.isAbsolute a = Path.isAbsolute path ∧ Path.segments a <+: Path.segments path) :
    w.Grows path (w.makeEach refuse paths).1 := by
  induction paths with
  | nil => exact .refl w path
  | cons a above ih =>
    obtain ⟨⟨habsolute, hpre⟩, habove⟩ := List.forall_mem_cons.mp hpaths
    have ih := ih habove
    rw [makeEach]
    split
    · next w₁ hmade => exact grows_makeDirectory (unlessRefused_eq_ok hmade) habsolute hpre
    · split
      · next w₁ e hfail =>
        rw [hfail] at ih
        exact ih
      · next w₁ hmade =>
        rw [hmade] at ih
        split
        · next w₂ hmade =>
          exact ih.trans (grows_makeDirectory (unlessRefused_eq_ok hmade) habsolute hpre)
        · exact ih
    · exact .refl w path

/-- Making directories only adds directories, and only on the way of the path. -/
theorem grows_makeDirectories (w : Workspace) (refuse : Nat → Option SystemError) (path : String) :
    w.Grows path (w.makeDirectories refuse path).1 :=
  grows_makeEach refuse fun _ ha => Path.segments_prefix_of_mem_ancestors ha

/-! ### The way to an output -/

/-- Segments lead to the places that others pass, if they are the same but for idle ones. -/
theorem exists_prefix_follow_eq {as bs as' : List String}
    (h : as.filter (!Path.isIdle ·) = bs.filter (!Path.isIdle ·)) (has : as' <+: as) :
    ∃ bs', bs' <+: bs ∧ ∀ here, follow here bs' = follow here as' := by
  obtain ⟨rest, rfl⟩ := has
  rw [List.filter_append] at h
  obtain ⟨bs', bs'', rfl, hbs, -⟩ := List.filter_eq_append_iff.mp h.symm
  refine ⟨bs', List.prefix_append _ _, fun here => ?_⟩
  rw [← follow_filter here bs', hbs, follow_filter]

/-- The directory of a path is the one that its parent leads to, and both ways pass directories. -/
theorem kindAt?_follow_of_locate_outputParent {front front' : List String} {output : String}
    (hlocate : w.locate (outputParent output) = .ok d) (hd : w.kindAt? d = some .directory)
    (hends : Path.EndsIn output front n) (hfront : front' <+: front) :
    w.kindAt? (follow (w.startOf output) front') = some .directory := by
  obtain ⟨habsolute, hfilter⟩ := Path.segments_outputParent hends
  have hstart : w.startOf (outputParent output) = w.startOf output := by
    rw [startOf, startOf, habsolute]
  obtain ⟨ss, hss, hfollow⟩ := exists_prefix_follow_eq hfilter.symm hfront
  obtain ⟨hd', hway⟩ := walk_eq_ok (locate_eq_ok hlocate).2
  rw [← hfollow, ← hstart]
  by_cases heq : ss = Path.segments (outputParent output)
  · rw [heq, ← hd', hd]
  · exact hway ss hss heq

theorem follow_eq_of_locate_outputParent {front : List String} {output : String}
    (hlocate : w.locate (outputParent output) = .ok d) (hends : Path.EndsIn output front n) :
    follow (w.startOf output) front = d := by
  obtain ⟨habsolute, hfilter⟩ := Path.segments_outputParent hends
  have hstart : w.startOf (outputParent output) = w.startOf output := by
    rw [startOf, startOf, habsolute]
  rw [(walk_eq_ok (locate_eq_ok hlocate).2).1, hstart, ← follow_filter, ← hfilter, follow_filter]

/-- All directories on the way to an output that is there are there. -/
theorem kindAt?_of_onTheWay_of_contains {output : String} (h : w.contains output = true)
    (hp : w.OnTheWay (outputParent output) p) : w.kindAt? p = some .directory := by
  obtain ⟨here, hlocate⟩ := exists_eq_ok_of_isOk h
  obtain ⟨-, hway⟩ := walk_eq_ok (locate_eq_ok hlocate).2
  obtain ⟨front, n, hpre, hn, rfl⟩ := hp
  obtain ⟨first, rest, hsegments⟩ := List.exists_cons_of_ne_nil (Path.segments_ne_nil output)
  rcases (Path.dropIdle rest).eq_nil_or_concat with hrest | ⟨front₀, n₀, hrest⟩
  · have hparent : outputParent output = "." := by
      rw [outputParent, Path.parent?_of_dropIdle_eq_nil hsegments hrest]
      split <;> simp_all
    have hsegment : n ∈ Path.segments "." := by
      rw [← hparent]
      exact hpre.subset (by simp)
    have hdot : n = "." := List.mem_singleton.mp hsegment
    exact absurd hdot (Path.isEntryName_iff.mp hn).2.1
  · rw [List.concat_eq_append] at hrest
    obtain ⟨a, ha, hempty, habsolute, hfilter, -⟩ := Path.exists_parent? hsegments hrest
    have hparent : outputParent output = a := by
      rw [outputParent, ha]
      simp [hempty]
    rw [hparent] at hpre ⊢
    obtain ⟨ss, hss, hfollow⟩ := exists_prefix_follow_eq hfilter hpre
    have hstart : w.startOf a = w.startOf output := by rw [startOf, startOf, habsolute]
    have hpass : n :: follow (w.startOf a) front = follow (w.startOf output) ss := by
      rw [hfollow, ← hstart, follow_append, follow_cons, enter_of_isEntryName hn]
      rfl
    have hrest' : front₀ ++ [n₀] <+: rest := hrest ▸ Path.dropIdle_isPrefix rest
    have hss' : ss <+: first :: rest :=
      hss.trans (List.cons_prefix_cons.mpr ⟨rfl, (List.prefix_append _ _).trans hrest'⟩)
    rw [hpass]
    refine hway ss (hsegments ▸ hss') ?_
    rintro rfl
    have hlength := hss.length_le
    have hlength' := hrest'.length_le
    simp only [hsegments, List.length_cons, List.length_append, List.length_nil] at hlength hlength'
    omega

end TileSchema.Workspace
