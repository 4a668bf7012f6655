import Mathlib.Data.List.Basic
import TileSchema.Workspace.Basic

/-!
# What stands where

Something put at a location of a workspace is found at it and below it, and nothing else changes:
a location that is neither below it nor above it holds the very same tree, and a directory above
it stays a directory.

Two workspaces are therefore compared location by location, by the *kind* of what stands there: a
file with its text, or a directory.  The kinds below a location say all that it holds.
-/

namespace TileSchema.Workspace

/-! ### Entries of a directory -/

/-- The entries that stay in front when one is set have other names. -/
theorem lookup_toList_append {name other : String} (h : other ≠ name) (t : Option Tree)
    (es : List (String × Tree)) :
    ((t.map fun t => (name, t)).toList ++ es).lookup other = es.lookup other := by
  have hne : (other == name) = false := by simpa using h
  cases t <;> simp [List.lookup_cons, hne]

theorem lookup_filter_of_ne {name other : String} (h : other ≠ name) (es : List (String × Tree)) :
    (es.filter (·.1 ≠ name)).lookup other = es.lookup other := by
  induction es with
  | nil => rfl
  | cons e es ih =>
    obtain ⟨n, u⟩ := e
    by_cases hn : n = name
    · have hne : (other == n) = false := by simpa [hn] using h
      rw [List.filter_cons_of_neg (by simpa using hn), ih, List.lookup_cons, hne]
    · rw [List.filter_cons_of_pos (by simpa using hn), List.lookup_cons, List.lookup_cons, ih]

/-- Entries under other names than the one that was set. -/
theorem lookup_setEntry_of_ne {name other : String} (h : other ≠ name) (t : Option Tree)
    (es : List (String × Tree)) : (setEntry name t es).lookup other = es.lookup other := by
  induction es with
  | nil => simpa [setEntry] using lookup_toList_append h t []
  | cons e es ih =>
    obtain ⟨n, u⟩ := e
    by_cases hn : n = name
    · subst hn
      have hne : (other == n) = false := by simpa using h
      rw [setEntry, if_pos rfl, lookup_toList_append h, lookup_filter_of_ne h, List.lookup_cons,
        hne]
    · rw [setEntry, if_neg hn, List.lookup_cons, List.lookup_cons, ih]

theorem eq_or_mem_of_mem_setEntry {name : String} {t : Option Tree} {es : List (String × Tree)}
    {e : String × Tree} (h : e ∈ setEntry name t es) : e.1 = name ∨ e ∈ es := by
  induction es with
  | nil => cases t <;> simp_all [setEntry]
  | cons e' es ih =>
    rw [setEntry] at h
    split at h
    · rcases List.mem_append.mp h with hnew | hold
      · cases t <;> simp_all
      · exact .inr (List.mem_cons_of_mem _ (List.mem_of_mem_filter hold))
    · rcases List.mem_cons.mp h with rfl | h
      · exact .inr List.mem_cons_self
      · exact (ih h).imp_right (List.mem_cons_of_mem _)

/-- Names that do not repeat do not repeat with another entry set. -/
theorem nodup_setEntry (name : String) (t : Option Tree) {es : List (String × Tree)}
    (h : (es.map Prod.fst).Nodup) : ((setEntry name t es).map Prod.fst).Nodup := by
  induction es with
  | nil => cases t <;> simp [setEntry]
  | cons e es ih =>
    obtain ⟨n, u⟩ := e
    obtain ⟨hnew, hrest⟩ := List.nodup_cons.mp h
    by_cases hn : n = name
    · have hfilter : ((es.filter (·.1 ≠ name)).map Prod.fst).Nodup :=
        hrest.sublist (List.filter_sublist.map _)
      rw [setEntry, if_pos hn]
      cases t with
      | none => exact hfilter
      | some t => simpa using hfilter
    · rw [setEntry, if_neg hn, List.map_cons, List.nodup_cons]
      refine ⟨fun hmem => ?_, ih hrest⟩
      obtain ⟨e, he, hname⟩ := List.mem_map.mp hmem
      rcases eq_or_mem_of_mem_setEntry he with h' | h'
      · exact hn (hname.symm.trans h')
      · exact hnew (List.mem_map.mpr ⟨e, h', hname⟩)

/-! ### Places in a tree -/

namespace Tree

variable {t u : Tree} {place q : List String} {es : List (String × Tree)}

theorem find?_append (t : Tree) (place rest : List String) :
    t.find? (place ++ rest) = (t.find? place).bind (·.find? rest) := by
  induction place generalizing t with
  | nil => simp [find?]
  | cons n ns ih =>
    cases t with
    | file s => simp [find?]
    | directory es =>
      simp only [List.cons_append, find?, Option.bind_assoc]
      exact congrArg _ (funext ih)

/-- All that is found below a place where something was put. -/
theorem find?_put_append (h : t.find? place = some (.directory es)) (name : String)
    (new : Option Tree) (rest : List String) :
    (t.put (place ++ [name]) new).find? (place ++ name :: rest) = new.bind (·.find? rest) := by
  rw [List.append_cons place name rest, find?_append, find?_put h]

/-- Above the place where something is put stands what was there, with the new thing in it. -/
theorem find?_put_above (t : Tree) (q : List String) {rest : List String} (h : rest ≠ [])
    (new : Option Tree) : (t.put (q ++ rest) new).find? q = (t.find? q).map (·.put rest new) := by
  induction q generalizing t with
  | nil => simp [find?]
  | cons n ns ih =>
    cases t with
    | file s => simp [put, find?]
    | directory es =>
      obtain ⟨m, ms, hm⟩ : ∃ m ms, ns ++ rest = m :: ms :=
        List.exists_cons_of_ne_nil (by simp [h])
      rw [List.cons_append, hm, put_cons, ← hm]
      cases hn : es.lookup n with
      | none => simp [find?, hn]
      | some u => simpa [find?, hn] using ih u

/-- A place neither above nor below the one where something was put holds the same tree. -/
theorem find?_put_of_apart {name : String} (hbelow : ¬ place ++ [name] <+: q)
    (habove : ¬ q <+: place) (new : Option Tree) :
    (t.put (place ++ [name]) new).find? q = t.find? q := by
  induction place generalizing t q with
  | nil =>
    obtain ⟨m, ms, rfl⟩ : ∃ m ms, q = m :: ms :=
      List.exists_cons_of_ne_nil fun h => habove (h ▸ List.nil_prefix)
    have hm : m ≠ name := fun h => hbelow (by simp [h])
    cases t with
    | file s => rfl
    | directory es => simp [put, find?, lookup_setEntry_of_ne hm]
  | cons n ns ih =>
    obtain ⟨m, ms, rfl⟩ : ∃ m ms, q = m :: ms :=
      List.exists_cons_of_ne_nil fun h => habove (h ▸ List.nil_prefix)
    cases t with
    | file s => rfl
    | directory es =>
      obtain ⟨k, ks, hk⟩ : ∃ k ks, ns ++ [name] = k :: ks :=
        List.exists_cons_of_ne_nil (by simp)
      rw [List.cons_append, hk, put_cons, ← hk]
      cases hn : es.lookup n with
      | none => rfl
      | some u =>
        by_cases hm : m = n
        · subst hm
          have ih := ih (t := u) (q := ms) (fun h => hbelow (by simpa using h))
            (fun h => habove (by simpa using h))
          simp [find?, hn, ih]
        · simp [find?, lookup_setEntry_of_ne hm]

/-- Nothing is found below a place that was cleared. -/
theorem find?_put_none (t : Tree) (place : List String) (name : String) (rest : List String) :
    (t.put (place ++ [name]) none).find? (place ++ name :: rest) = none := by
  cases h : t.find? place with
  | none =>
    rw [find?_append, find?_put_above t place (by simp), h]
    rfl
  | some u =>
    cases u with
    | directory es => exact find?_put_append h name none rest
    | file s =>
      rw [find?_append, find?_put_above t place (by simp), h]
      rfl

end Tree

/-! ### Kinds -/

/-- What stands at a location, apart from what a directory holds. -/
inductive Kind where
  | file (text : String)
  | directory
  deriving Repr, DecidableEq

/-- The kind of a tree. -/
def Tree.kind : Tree → Kind
  | .file s => .file s
  | .directory _ => .directory

@[simp] theorem Tree.kind_empty : Tree.empty.kind = .directory := rfl

/-- Something put into a tree does not change its kind. -/
@[simp] theorem Tree.kind_put (t : Tree) (place : List String) (new : Option Tree) :
    (t.put place new).kind = t.kind := by
  cases t with
  | file s => cases place <;> rfl
  | directory es =>
    match place with
    | [] => rfl
    | [n] => rfl
    | n :: m :: ns =>
      rw [put_cons]
      cases es.lookup n <;> rfl

/-- The kind of what stands at a location. -/
def kindAt? (w : Workspace) (p : Location) : Option Kind := (w.at? p).map Tree.kind

section

variable {w : Workspace} {d h p q : Location} {n : String} {es : List (String × Tree)}

theorem kindAt?_eq_directory_iff :
    w.kindAt? d = some .directory ↔ ∃ es, w.at? d = some (.directory es) := by
  unfold kindAt?
  cases w.at? d with
  | none => simp
  | some t => cases t <;> simp [Tree.kind]

theorem kindAt?_eq_none_iff : w.kindAt? p = none ↔ w.at? p = none := by
  simp [kindAt?]

theorem at?_append (w : Workspace) (x h : Location) :
    w.at? (x ++ h) = (w.at? h).bind (·.find? x.reverse) := by
  rw [at?, List.reverse_append, Tree.find?_append]
  rfl

/-- Nothing stands below a location where nothing stands. -/
theorem kindAt?_eq_none_of_suffix (h₀ : w.kindAt? h = none) (hp : h <:+ p) :
    w.kindAt? p = none := by
  obtain ⟨x, rfl⟩ := hp
  rw [kindAt?_eq_none_iff] at h₀ ⊢
  rw [at?_append, h₀]
  rfl

/-- A location is not below an entry of it. -/
theorem not_cons_suffix_self (n : String) (d : Location) : ¬ n :: d <:+ d := by
  intro h
  have hlength := h.length_le
  rw [List.length_cons] at hlength
  omega

/-- What stands somewhere stands in a directory. -/
theorem kindAt?_tail (h₀ : w.kindAt? (n :: d) ≠ none) : w.kindAt? d = some .directory := by
  rw [kindAt?_eq_directory_iff]
  rw [Ne, kindAt?_eq_none_iff, ← List.singleton_append, at?_append] at h₀
  cases hd : w.at? d with
  | none => simp [hd] at h₀
  | some t =>
    cases t with
    | file s => simp [hd, Tree.find?] at h₀
    | directory es => exact ⟨es, rfl⟩

/-! ### Putting something at a location -/

@[simp] theorem home_putAt (w : Workspace) (p : Location) (t : Option Tree) :
    (w.putAt p t).home = w.home := rfl

/-- All that stands below a location where something was put. -/
theorem at?_putAt_append (hd : w.at? d = some (.directory es)) (n : String) (t : Option Tree)
    (x : Location) : (w.putAt (n :: d) t).at? (x ++ n :: d) = t.bind (·.find? x.reverse) := by
  have hput := Tree.find?_put_append (t := w.tree) hd n t x.reverse
  simpa [at?, putAt] using hput

/-- The tree at a location is the same if nothing was put above or below it. -/
theorem at?_putAt_of_apart (hbelow : ¬ n :: d <:+ q) (habove : ¬ q <:+ d) (t : Option Tree) :
    (w.putAt (n :: d) t).at? q = w.at? q := by
  have hbelow' : ¬ d.reverse ++ [n] <+: q.reverse := by
    rwa [← List.reverse_cons, List.reverse_prefix]
  have habove' : ¬ q.reverse <+: d.reverse := by rwa [List.reverse_prefix]
  have hput := Tree.find?_put_of_apart (t := w.tree) hbelow' habove' t
  simpa [at?, putAt] using hput

/-- The kind at a location is the same if nothing was put there or above it. -/
theorem kindAt?_putAt_of_not_suffix (hq : ¬ n :: d <:+ q) (t : Option Tree) :
    (w.putAt (n :: d) t).kindAt? q = w.kindAt? q := by
  by_cases habove : q <:+ d
  · obtain ⟨x, rfl⟩ := habove
    have hne : x.reverse ++ [n] ≠ [] := by simp
    have hput := Tree.find?_put_above w.tree q.reverse hne t
    have hat : (w.putAt (n :: (x ++ q)) t).at? q = (w.at? q).map (·.put (x.reverse ++ [n]) t) := by
      simpa [at?, putAt] using hput
    rw [kindAt?, kindAt?, hat, Option.map_map]
    congr 1
    funext u
    exact Tree.kind_put u _ t
  · rw [kindAt?, kindAt?, at?_putAt_of_apart hq habove]

/-- Nothing stands below a location that was cleared. -/
theorem kindAt?_putAt_none (w : Workspace) (hp : n :: d <:+ p) :
    (w.putAt (n :: d) none).kindAt? p = none := by
  obtain ⟨x, rfl⟩ := hp
  have hput := Tree.find?_put_none w.tree d.reverse n x.reverse
  simpa [kindAt?, at?, putAt] using hput

/-- A file or an empty directory put somewhere, and nothing below it. -/
theorem kindAt?_putAt_of_entries_eq_nil (hd : w.kindAt? d = some .directory) (n : String)
    {t : Tree} (ht : t.entries = []) (x : Location) :
    (w.putAt (n :: d) (some t)).kindAt? (x ++ n :: d) = if x = [] then some t.kind else none := by
  obtain ⟨es, hd⟩ := kindAt?_eq_directory_iff.mp hd
  have hat := at?_putAt_append hd n (some t) x
  rw [kindAt?, hat]
  rcases x.eq_nil_or_concat with rfl | ⟨y, m, rfl⟩
  · simp [Tree.find?]
  · cases t with
    | file s => simp [Tree.find?]
    | directory inner =>
      obtain rfl : inner = [] := ht
      simp [Tree.find?]

end

end TileSchema.Workspace
