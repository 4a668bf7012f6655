import Mathlib.Data.List.Infix
import TileSchema.Proofs.Workspace.Gathering

/-!
# Reading beside an output

A new output changes nothing but what stands at its place and below it.  So a document can be read
as before unless its path enters that place (`Grows.read_of_not_enters`): unless it leads there or
below it, or passes something below it.  A path that only passes the place on its way elsewhere
still finds a directory there.

A path that does enter the place finds nothing but the files of the output
(`Holds.exists_file_of_enters`).
-/

namespace TileSchema.Workspace

open Artifact (RenderedFile)

variable {w v base : Workspace} {here p : Location} {path above text : String}
  {files : List RenderedFile}

/-! ### Reading -/

/-- A file is read where its path leads to. -/
theorem read_eq_ok_iff : w.read path = .ok text ↔
    ∃ p, w.locate path = .ok p ∧ w.kindAt? p = some (.file text) := by
  rw [read, bind_eq_ok_iff]
  constructor
  · rintro ⟨t, hget, htext⟩
    rw [get, bind_eq_ok_iff] at hget
    obtain ⟨p, hp, hat⟩ := hget
    refine ⟨p, hp, ?_⟩
    rw [kindAt?]
    cases hfound : w.at? p with
    | none =>
      rw [hfound] at hat
      exact absurd hat throw_ne_ok
    | some u =>
      rw [hfound] at hat
      obtain rfl : u = t := Except.ok.inj hat
      cases u with
      | file s =>
        obtain rfl : s = text := Except.ok.inj htext
        rfl
      | directory es => exact absurd htext throw_ne_ok
  · rintro ⟨p, hp, hkind⟩
    have hat : w.at? p = some (.file text) := by
      rw [kindAt?] at hkind
      cases hfound : w.at? p with
      | none => simp [hfound] at hkind
      | some u =>
        cases u with
        | file s =>
          rw [hfound] at hkind
          obtain rfl : s = text := by simpa [Tree.kind] using hkind
          rfl
        | directory es => simp [hfound, Tree.kind] at hkind
    refine ⟨.file text, ?_, rfl⟩
    rw [get, hp, ok_bind, hat]
    rfl

/-- What stands on the way to a file that is read. -/
theorem kindAt?_follow_of_locate {front : List String} (hlocate : w.locate path = .ok p)
    (hfront : front <+: Path.segments path) (hne : front ≠ Path.segments path) :
    w.kindAt? (follow (w.startOf path) front) = some .directory :=
  (walk_eq_ok (locate_eq_ok hlocate).2).2 front hfront hne

/-! ### Paths that enter a place -/

/-- A path enters a location: it leads there or below it, or passes something below it. -/
def Enters (w : Workspace) (path : String) (here : Location) : Prop :=
  ∃ front ∈ (Path.segments path).inits, here <:+ follow (w.startOf path) front ∧
    (follow (w.startOf path) front = here → front = Path.segments path)

instance (w : Workspace) (path : String) (here : Location) : Decidable (w.Enters path here) :=
  inferInstanceAs (Decidable (∃ front ∈ (Path.segments path).inits, _))

/-- Where a document was read, it is read again if only directories were made, something was put
elsewhere, and a directory stands at the place of that. -/
theorem Grows.read_of_not_enters (hgrows : w.Grows above base) (hsame : SameBut [here] base v)
    (hhere : v.kindAt? here = some .directory) (hread : w.read path = .ok text)
    (henters : ¬ w.Enters path here) : v.read path = .ok text := by
  obtain ⟨p, hlocate, hfile⟩ := read_eq_ok_iff.mp hread
  obtain ⟨hcheck, hwalk⟩ := locate_eq_ok hlocate
  have hend : p = follow (w.startOf path) (Path.segments path) := (walk_eq_ok hwalk).1
  have hkinds : ∀ front, front <+: Path.segments path →
      v.kindAt? (follow (w.startOf path) front) = w.kindAt? (follow (w.startOf path) front) := by
    intro front hfront
    have hpresent : w.kindAt? (follow (w.startOf path) front) ≠ none := by
      by_cases hne : front = Path.segments path
      · rw [hne, ← hend, hfile]
        exact nofun
      · rw [kindAt?_follow_of_locate hlocate hfront hne]
        exact nofun
    have hbase : base.kindAt? (follow (w.startOf path) front) =
        w.kindAt? (follow (w.startOf path) front) := by
      rcases hgrows.grown (follow (w.startOf path) front) with hkind | ⟨habsent, -, -⟩
      · exact hkind
      · exact absurd habsent hpresent
    by_cases hbelow : here <:+ follow (w.startOf path) front
    · -- The path passes the place itself, which was a directory and is one again.
      have hpass : ¬ (follow (w.startOf path) front = here → front = Path.segments path) :=
        fun h => henters ⟨front, (List.mem_inits _ _).mpr hfront, hbelow, h⟩
      obtain ⟨heq, hne⟩ := Classical.not_imp.mp hpass
      rw [kindAt?_follow_of_locate hlocate hfront hne, heq, hhere]
    · rw [hsame.kinds _ (by simpa using hbelow), hbase]
  refine read_eq_ok_iff.mpr ⟨p, ?_, ?_⟩
  · rw [locate, hcheck, startOf_congr (hsame.home.trans hgrows.home)]
    change v.walk _ _ = _
    rw [walk_congr hkinds, hwalk]
  · rw [hend, hkinds _ (List.prefix_refl _), ← hend, hfile]

/-- A file below the place of an output is one of its files. -/
theorem Holds.exists_file (h : v.Holds here files) (hfile : v.kindAt? p = some (.file text))
    (hbelow : here <:+ p) : ∃ f ∈ files, p = f.name :: here := by
  cases p with
  | nil =>
    obtain rfl : here = [] := List.suffix_nil.mp hbelow
    rw [h.kindAt?] at hfile
    cases hfile
  | cons name q =>
    rcases List.suffix_cons_iff.mp hbelow with rfl | hq
    · rw [h.kindAt?] at hfile
      cases hfile
    · have hdirectory : v.kindAt? q = some .directory := kindAt?_tail (n := name) (by simp [hfile])
      obtain rfl : q = here := h.eq_of_kindAt? hdirectory hq
      obtain ⟨es, hes, -, hlookup⟩ := h
      rw [Workspace.kindAt?, ← List.singleton_append, at?_append, hes] at hfile
      cases hlast : lastContents? files name with
      | none => simp [Tree.find?, hlookup, hlast] at hfile
      | some contents =>
        rw [lastContents?, Option.map_eq_some_iff] at hlast
        obtain ⟨f, hf, -⟩ := hlast
        have hname : f.name = name := by simpa using List.find?_some hf
        exact ⟨f, List.mem_reverse.mp (List.mem_of_find?_eq_some hf), by rw [hname]⟩

/-- A path that enters the place of an output leads to one of its files, if it can be read. -/
theorem Holds.exists_file_of_enters (h : v.Holds here files) (hhome : v.home = w.home)
    (henters : w.Enters path here) (hread : v.read path = .ok text) :
    ∃ f ∈ files, follow (w.startOf path) (Path.segments path) = f.name :: here := by
  obtain ⟨p, hlocate, hfile⟩ := read_eq_ok_iff.mp hread
  have hend := (walk_eq_ok (locate_eq_ok hlocate).2).1
  obtain ⟨front, hfront, hbelow, hpass⟩ := henters
  rw [List.mem_inits] at hfront
  rw [← startOf_congr hhome] at hbelow hpass ⊢
  have hwhole : front = Path.segments path := by
    by_contra hne
    exact hne (hpass (h.eq_of_kindAt? (kindAt?_follow_of_locate hlocate hfront hne) hbelow))
  rw [hwhole, ← hend] at hbelow
  rw [← hend]
  exact h.exists_file hfile hbelow

end TileSchema.Workspace
