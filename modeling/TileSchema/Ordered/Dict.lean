/-!
# Dictionaries that remember their order

A dictionary lists its entries in the order in which their names first came.  Giving a name
another value does not move it.
-/

namespace TileSchema.Ordered

/-- A list of named entries with one more, or with another value for a name that it has. -/
def putEntry {β : Type} (name : String) (value : β) : List (String × β) → List (String × β)
  | [] => [(name, value)]
  | (n, v) :: es => if n = name then (n, value) :: es else (n, v) :: putEntry name value es

/-- The names after an entry was put: the same, or one more at the end. -/
theorem map_fst_putEntry {β : Type} (name : String) (value : β) (es : List (String × β)) :
    (putEntry name value es).map Prod.fst =
      if name ∈ es.map Prod.fst then es.map Prod.fst else es.map Prod.fst ++ [name] := by
  induction es with
  | nil => rfl
  | cons e es ih =>
    obtain ⟨n, v⟩ := e
    by_cases h : n = name
    · simp [putEntry, h]
    · have h' : ¬ name = n := fun he => h he.symm
      simp only [putEntry, h, if_false, List.map_cons, ih, List.mem_cons, h', false_or]
      split <;> simp

theorem nodup_putEntry {β : Type} {es : List (String × β)} (h : (es.map Prod.fst).Nodup)
    (name : String) (value : β) : ((putEntry name value es).map Prod.fst).Nodup := by
  rw [map_fst_putEntry]
  split
  · exact h
  · next hn =>
    rw [List.nodup_append]
    refine ⟨h, by simp, ?_⟩
    intro a ha b hb hab
    simp only [List.mem_singleton] at hb
    exact hn (hb ▸ hab ▸ ha)

/-- There is no value for the names that are not listed, and only for these. -/
theorem lookup_eq_none_iff_notMem {β : Type} {name : String} {es : List (String × β)} :
    es.lookup name = none ↔ name ∉ es.map Prod.fst := by
  rw [List.lookup_eq_none_iff, List.mem_map]
  constructor
  · rintro hall ⟨e, he, rfl⟩
    simpa using hall e he
  · intro hname e he
    rw [bne_iff_ne]
    rintro rfl
    exact hname ⟨e, he, rfl⟩

/-- Entries given one after the other. -/
def collect {β : Type} (es : List (String × β)) : List (String × β) :=
  es.foldl (fun acc e => putEntry e.1 e.2 acc) []

/-- Named values in the order in which their names first came. -/
structure Dict (β : Type) where
  entries : List (String × β)
  nodup : (entries.map Prod.fst).Nodup

namespace Dict

variable {β : Type}

/-- No entries. -/
def empty : Dict β := ⟨[], .nil⟩

instance : Inhabited (Dict β) := ⟨empty⟩

/-- A dictionary with an entry more, or with another value for a name. -/
def put (d : Dict β) (name : String) (value : β) : Dict β :=
  ⟨putEntry name value d.entries, nodup_putEntry d.nodup name value⟩

/-- A dictionary with all entries of a list put into it in order. -/
def putAll (d : Dict β) (es : List (String × β)) : Dict β :=
  es.foldl (fun d e => d.put e.1 e.2) d

/-- The dictionary of the entries of a list. -/
def ofList (es : List (String × β)) : Dict β := empty.putAll es

/-- The value of a name. -/
def get? (d : Dict β) (name : String) : Option β := d.entries.lookup name

/-- The names in order. -/
def names (d : Dict β) : List String := d.entries.map Prod.fst

/-- The number of entries. -/
def size (d : Dict β) : Nat := d.entries.length

@[simp] theorem entries_put (d : Dict β) (name : String) (value : β) :
    (d.put name value).entries = putEntry name value d.entries := rfl

end Dict

end TileSchema.Ordered
