/-!
# Sets of texts that remember their order

A set of texts lists its members in the order in which they were first added.  The order shows
when the set is printed, and does not count when two sets are compared.
-/

namespace TileSchema.Ordered

/-- A list of texts with one more at its end, unless it is there already. -/
def addText (xs : List String) (x : String) : List String := if x ∈ xs then xs else xs ++ [x]

theorem nodup_addText {xs : List String} (h : xs.Nodup) (x : String) : (addText xs x).Nodup := by
  unfold addText
  split
  · exact h
  next hx =>
    rw [List.nodup_append]
    refine ⟨h, by simp, ?_⟩
    intro a ha b hb hab
    simp only [List.mem_singleton] at hb
    exact hx (hb ▸ hab ▸ ha)

@[simp] theorem mem_addText {xs : List String} {x y : String} :
    y ∈ addText xs x ↔ y ∈ xs ∨ y = x := by
  unfold addText
  split
  · next hx =>
    constructor
    · exact Or.inl
    · rintro (h | rfl)
      · exact h
      · exact hx
  · simp

/-- The members of a list, each at its first place. -/
def distinct (xs : List String) : List String := xs.foldl addText []

theorem nodup_foldl_addText (xs : List String) :
    ∀ {acc : List String}, acc.Nodup → (xs.foldl addText acc).Nodup := by
  induction xs with
  | nil => exact id
  | cons x xs ih => exact fun h => ih (nodup_addText h x)

theorem nodup_distinct (xs : List String) : (distinct xs).Nodup :=
  nodup_foldl_addText xs .nil

theorem mem_foldl_addText {xs : List String} {y : String} :
    ∀ {acc : List String}, y ∈ xs.foldl addText acc ↔ y ∈ acc ∨ y ∈ xs := by
  induction xs with
  | nil => simp
  | cons x xs ih =>
    intro acc
    rw [List.foldl_cons, ih, mem_addText, List.mem_cons, or_assoc]

@[simp] theorem mem_distinct {xs : List String} {y : String} : y ∈ distinct xs ↔ y ∈ xs := by
  simp [distinct, mem_foldl_addText]

/-- A set of texts in the order in which they were added. -/
structure TextSet where
  toList : List String
  nodup : toList.Nodup
  deriving DecidableEq

namespace TextSet

/-- The set of the members of a list. -/
def ofList (xs : List String) : TextSet := ⟨distinct xs, nodup_distinct xs⟩

/-- Whether a text is in a set. -/
def contains (s : TextSet) (x : String) : Bool := x ∈ s.toList

/-- Whether two sets have the same members. -/
def same (s t : TextSet) : Bool :=
  s.toList.length == t.toList.length && s.toList.all t.contains

@[simp] theorem mem_ofList {xs : List String} {x : String} :
    x ∈ (ofList xs).toList ↔ x ∈ xs := mem_distinct

@[simp] theorem contains_iff {s : TextSet} {x : String} :
    s.contains x = true ↔ x ∈ s.toList := by
  simp [contains]

end TextSet

end TileSchema.Ordered
