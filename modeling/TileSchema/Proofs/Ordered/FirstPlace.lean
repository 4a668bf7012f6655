import Mathlib.Data.List.Induction
import TileSchema.Ordered.Dict
import TileSchema.Ordered.TextSet

/-!
# First places and last values

Sets and dictionaries are built by adding one member after the other.  Here the results are read off
the lists that were added.  A set lists each member at its first place (`distinct_eq_eraseDups`), so
it only grows at its end.  The same holds of the names of entries given one after the other
(`map_fst_collect`) and of those of a dictionary (`names_putAll`); the value of a name, however, is
the last one that was given (`lookup_collect`, `get?_putAll`).  Where whole dictionaries are put one
after the other, places and values may so come from different ones (`names_foldl_putAll`,
`get?_foldl_putAll`).
-/

namespace TileSchema.Ordered

/-! ### Sets -/

/-- Members added one after the other, the last one last. -/
theorem distinct_append_singleton (xs : List String) (x : String) :
    distinct (xs ++ [x]) = addText (distinct xs) x := by
  simp [distinct]

/-- The members of a list, each at its first place. -/
theorem distinct_eq_eraseDups (xs : List String) : distinct xs = xs.eraseDups := by
  induction xs using List.reverseRecOn with
  | nil => rfl
  | append_singleton xs x ih =>
    rw [distinct_append_singleton, List.eraseDups_append, ih, addText]
    by_cases hx : x ∈ xs <;> simp [hx, List.removeAll, List.eraseDups_cons]

/-- A list without repetition has all its members at their first place. -/
theorem distinct_of_nodup {xs : List String} (h : xs.Nodup) : distinct xs = xs := by
  induction xs using List.reverseRecOn with
  | nil => rfl
  | append_singleton xs x ih =>
    obtain ⟨hxs, -, hx⟩ := List.nodup_append.mp h
    have hnew : x ∉ xs := fun hmem => hx x hmem x (List.mem_singleton.mpr rfl) rfl
    rw [distinct_append_singleton, ih hxs, addText, if_neg hnew]

/-- Repetitions within the first members do not matter. -/
theorem distinct_distinct_append (xs ys : List String) :
    distinct (distinct xs ++ ys) = distinct (xs ++ ys) := by
  have hxs : (distinct xs).foldl addText [] = distinct xs := distinct_of_nodup (nodup_distinct xs)
  calc distinct (distinct xs ++ ys)
      = ys.foldl addText ((distinct xs).foldl addText []) := List.foldl_append
    _ = ys.foldl addText (distinct xs) := by rw [hxs]
    _ = distinct (xs ++ ys) := List.foldl_append.symm

namespace TextSet

/-- A set is the set of its members. -/
@[simp] theorem ofList_toList (s : TextSet) : ofList s.toList = s := by
  cases s with
  | mk xs hxs => simp [ofList, distinct_of_nodup hxs]

end TextSet

/-! ### Dictionaries -/

variable {β : Type}

/-- The value of a name after one was given. -/
theorem lookup_putEntry (name : String) (value : β) (es : List (String × β)) (n : String) :
    (putEntry name value es).lookup n = if n = name then some value else es.lookup n := by
  induction es with
  | nil => by_cases h : n = name <;> simp [putEntry, h]
  | cons e es ih =>
    obtain ⟨m, v⟩ := e
    have hput : putEntry name value ((m, v) :: es) =
        if m = name then (m, value) :: es else (m, v) :: putEntry name value es := rfl
    rw [hput]
    by_cases hm : m = name
    · subst hm
      by_cases hn : n = m
      · simp [hn]
      · have hbeq : (n == m) = false := by simpa using hn
        simp [List.lookup_cons, hn, hbeq]
    · rw [if_neg hm, List.lookup_cons, List.lookup_cons, ih]
      by_cases hn : n = m
      · have hne : n ≠ name := fun h => hm (hn ▸ h)
        simp [hn, hn ▸ hne]
      · have hbeq : (n == m) = false := by simpa using hn
        simp [hbeq]

/-- An entry is added behind the others, unless its name is there. -/
theorem putEntry_of_notMem {name : String} {es : List (String × β)} (h : name ∉ es.map Prod.fst)
    (value : β) : putEntry name value es = es ++ [(name, value)] := by
  induction es with
  | nil => rfl
  | cons e es ih =>
    rw [List.map_cons, List.mem_cons, not_or] at h
    rw [putEntry, if_neg (Ne.symm h.1), ih h.2, List.cons_append]

/-- No entry is there that was not given. -/
theorem eq_or_mem_of_mem_putEntry {name : String} {value : β} {es : List (String × β)}
    {e : String × β} (h : e ∈ putEntry name value es) : e = (name, value) ∨ e ∈ es := by
  induction es with
  | nil => exact .inl (List.mem_singleton.mp h)
  | cons d es ih =>
    rw [putEntry] at h
    split at h
    · next hname =>
      rcases List.mem_cons.mp h with rfl | hmem
      · exact .inl (by rw [hname])
      · exact .inr (List.mem_cons_of_mem _ hmem)
    · rcases List.mem_cons.mp h with rfl | hmem
      · exact .inr List.mem_cons_self
      · exact (ih hmem).imp_right (List.mem_cons_of_mem _)

/-- Entries given one after the other, the last one last. -/
theorem collect_append_singleton (es : List (String × β)) (e : String × β) :
    collect (es ++ [e]) = putEntry e.1 e.2 (collect es) := by
  simp [collect]

/-- Of entries given one after the other, each name is at its first place. -/
theorem map_fst_collect (es : List (String × β)) :
    (collect es).map Prod.fst = distinct (es.map Prod.fst) := by
  induction es using List.reverseRecOn with
  | nil => rfl
  | append_singleton es e ih =>
    rw [collect_append_singleton, map_fst_putEntry, ih, List.map_append, List.map_singleton,
      distinct_append_singleton, addText]

/-- Of entries given one after the other, a name has its last value. -/
theorem lookup_collect (es : List (String × β)) (name : String) :
    (collect es).lookup name = es.reverse.lookup name := by
  induction es using List.reverseRecOn with
  | nil => rfl
  | append_singleton es e ih =>
    rw [collect_append_singleton, lookup_putEntry, ih, List.reverse_append, List.reverse_singleton,
      List.singleton_append, List.lookup_cons]
    by_cases hname : name = e.1
    · simp [hname]
    · have hbeq : (name == e.1) = false := by simpa using hname
      rw [if_neg hname, hbeq]

/-- Entries with different names stay as they are given. -/
theorem collect_of_nodup {es : List (String × β)} (h : (es.map Prod.fst).Nodup) :
    collect es = es := by
  induction es using List.reverseRecOn with
  | nil => rfl
  | append_singleton es e ih =>
    rw [List.map_append, List.nodup_append] at h
    have hnew : e.1 ∉ es.map Prod.fst := fun hmem => h.2.2 _ hmem _ (by simp) rfl
    rw [collect_append_singleton, ih h.1, putEntry_of_notMem hnew]

/-- No entry comes from nowhere. -/
theorem mem_of_mem_collect {es : List (String × β)} {e : String × β} (h : e ∈ collect es) :
    e ∈ es := by
  induction es using List.reverseRecOn with
  | nil => exact h
  | append_singleton es d ih =>
    rw [collect_append_singleton] at h
    rcases eq_or_mem_of_mem_putEntry h with rfl | hmem
    · simp
    · exact List.mem_append_left _ (ih hmem)

namespace Dict

@[simp] theorem get?_empty (name : String) : (empty : Dict β).get? name = none := rfl

/-- Giving a value to a name adds the name, unless it is there. -/
theorem names_put (d : Dict β) (name : String) (value : β) :
    (d.put name value).names = addText d.names name := by
  rw [names, entries_put, map_fst_putEntry]
  rfl

/-- Giving a value to a name changes the value of this name only. -/
theorem get?_put (d : Dict β) (name : String) (value : β) (n : String) :
    (d.put name value).get? n = if n = name then some value else d.get? n :=
  lookup_putEntry name value d.entries n

/-- The names after entries were put: those there were, and the new ones at their first places. -/
theorem names_putAll (d : Dict β) (es : List (String × β)) :
    (d.putAll es).names = distinct (d.names ++ es.map Prod.fst) := by
  induction es using List.reverseRecOn with
  | nil =>
    have hnodup : d.names.Nodup := d.nodup
    rw [List.map_nil, List.append_nil, distinct_of_nodup hnodup]
    rfl
  | append_singleton es e ih =>
    have hlast : d.putAll (es ++ [e]) = (d.putAll es).put e.1 e.2 := by simp [putAll]
    rw [hlast, names_put, ih, List.map_append, ← List.append_assoc]
    exact (distinct_append_singleton _ _).symm

/-- The value of a name after the entries of a dictionary were put: the one it has there, or else
the one it had. -/
theorem get?_putAll (d m : Dict β) (name : String) :
    (d.putAll m.entries).get? name = (m.get? name).or (d.get? name) := by
  obtain ⟨es, hes⟩ := m
  change (d.putAll es).get? name = (es.lookup name).or (d.get? name)
  induction es generalizing d with
  | nil => rfl
  | cons e es ih =>
    obtain ⟨hfresh, hrest⟩ := List.nodup_cons.mp hes
    have hfirst : d.putAll (e :: es) = (d.put e.1 e.2).putAll es := rfl
    rw [hfirst, ih _ hrest, get?_put, List.lookup_cons]
    by_cases hname : name = e.1
    · -- no later entry has the name
      have hlater : es.lookup name = none := lookup_eq_none_iff_notMem.mpr (hname ▸ hfresh)
      rw [hlater]
      simp [hname]
    · have hbeq : (name == e.1) = false := by simpa using hname
      simp [hname, hbeq]

/-- The names of dictionaries put one after the other: each at its first place. -/
theorem names_foldl_putAll (d : Dict β) (ms : List (Dict β)) :
    (ms.foldl (fun d m => d.putAll m.entries) d).names =
      distinct (d.names ++ ms.flatMap names) := by
  induction ms generalizing d with
  | nil =>
    have hnodup : d.names.Nodup := d.nodup
    rw [List.flatMap_nil, List.append_nil, distinct_of_nodup hnodup]
    rfl
  | cons m ms ih =>
    have hnames : (d.putAll m.entries).names = distinct (d.names ++ m.names) :=
      names_putAll d m.entries
    rw [List.foldl_cons, ih, hnames, distinct_distinct_append, List.flatMap_cons, List.append_assoc]

/-- The value of a name after dictionaries were put one after the other: the one in the last of them
that has the name. -/
theorem get?_foldl_putAll (d : Dict β) (ms : List (Dict β)) (name : String) :
    (ms.foldl (fun d m => d.putAll m.entries) d).get? name =
      (ms.reverse.findSome? (·.get? name)).or (d.get? name) := by
  induction ms generalizing d with
  | nil => rfl
  | cons m ms ih =>
    rw [List.foldl_cons, ih, get?_putAll, List.reverse_cons, List.findSome?_append]
    simp [Option.or_assoc]

end Dict

end TileSchema.Ordered
