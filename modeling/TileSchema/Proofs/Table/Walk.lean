import TileSchema.Proofs.Filter.Parts
import TileSchema.Table.Compile

/-!
# Compilation as a walk

Tables are compiled one after the other, and for each table its columns, its fields and its filters
can be wrong.  Here these nested loops become one: the items of tables are their fields one by one,
and what is wrong with a table at the place where it is noticed (`items`), and compiling the tables
is a walk along the items (`compileAll_eq_walk`).  A field that is registered already with another
type is no item of its own, since it depends on the walk.
-/

namespace TileSchema.Table

variable {types : FieldTypes} {f : Field} {key : String} {t : TableSpec} {e : SchemaError}
  {entries : List (String × TableSpec)}

/-! ### The items of tables -/

/-- What is come to when tables are gone through. -/
inductive Item where
  /-- A field of a table. -/
  | field (table : String) (f : Field)
  /-- Something wrong with a table. -/
  | fault (e : SchemaError)

/-- The items of a table: its fields and after them what is wrong with its filters, or only what is
wrong with its columns. -/
def itemsOf (key : String) (t : TableSpec) : List Item :=
  match fields key t, liftFault (tablePlace key) (tableSelection t) with
  | .error e, _ => [.fault e]
  | .ok fs, .error e => fs.map (.field key) ++ [.fault e]
  | .ok fs, .ok _ => fs.map (.field key)

/-- The items of tables in order. -/
def items (entries : List (String × TableSpec)) : List Item :=
  entries.flatMap fun entry => itemsOf entry.1 entry.2

/-! ### Walks -/

/-- The types after the fields of items have been registered up to the first fault or conflict, and
this error. -/
def walk (types : FieldTypes) : List Item → FieldTypes × Except SchemaError Unit
  | [] => (types, .ok ())
  | .fault e :: _ => (types, .error e)
  | .field key f :: is =>
    match types.register key [f] with
    | (types, .error e) => (types, .error e)
    | (types, .ok ()) => walk types is

/-- A walk along two lists. -/
theorem walk_append (types : FieldTypes) (is js : List Item) :
    walk types (is ++ js) =
      match walk types is with
      | (types, .error e) => (types, .error e)
      | (types, .ok ()) => walk types js := by
  induction is generalizing types with
  | nil => rfl
  | cons i is ih =>
    cases i with
    | fault e => rfl
    | field key f =>
      rw [List.cons_append, walk, walk]
      rcases types.register key [f] with ⟨types', _ | _⟩
      · rfl
      · exact ih types'

/-- Registering fields is a walk along them. -/
theorem register_eq_walk (key : String) (types : FieldTypes) (fs : List Field) :
    types.register key fs = walk types (fs.map (.field key)) := by
  induction fs generalizing types with
  | nil => rfl
  | cons f fs ih =>
    rw [List.map_cons, walk, FieldTypes.register, FieldTypes.register]
    cases hget : types.get? f.name with
    | none => exact ih _
    | some existing =>
      by_cases heq : existing = f.type
      · simp only [heq, if_true]
        exact ih types
      · simp only [heq, if_false]

/-- Compiling a table is a walk along its items. -/
theorem compileOne_eq_walk (types : FieldTypes) (key : String) (t : TableSpec) :
    walk types (itemsOf key t) =
      ((compileOne types key t).1, (compileOne types key t).2.map fun _ => ()) := by
  unfold itemsOf compileOne
  cases hfields : fields key t with
  | error e => rfl
  | ok fs =>
    cases hselection : liftFault (tablePlace key) (tableSelection t) with
    | error e =>
      simp only [walk_append, ← register_eq_walk]
      rcases types.register key fs with ⟨types', _ | _⟩ <;> rfl
    | ok expression =>
      simp only [← register_eq_walk]
      rcases types.register key fs with ⟨types', _ | _⟩ <;> rfl

/-- Compiling tables is a walk along their items. -/
theorem compileAll_eq_walk (types : FieldTypes) (entries : List (String × TableSpec)) :
    walk types (items entries) =
      ((compileAll types entries).1, (compileAll types entries).2.map fun _ => ()) := by
  induction entries generalizing types with
  | nil => rfl
  | cons entry entries ih =>
    have hitems : items (entry :: entries) = itemsOf entry.1 entry.2 ++ items entries :=
      List.flatMap_cons
    rw [hitems, walk_append, compileOne_eq_walk, compileAll]
    rcases compileOne types entry.1 entry.2 with ⟨types', _ | c⟩
    · rfl
    · dsimp only [Except.map]
      rw [ih]
      rcases compileAll types' entries with ⟨types'', _ | cs⟩ <;> rfl

/-! ### Faults are no conflicts -/

/-- An error is a conflict if it is that of a field with two types. -/
def IsConflict : SchemaError → Prop
  | .conflictingFieldType .. => True
  | _ => False

/-- Columns do not fail with a conflict. -/
theorem not_isConflict_of_columnFields {cs : List Column} (h : columnFields key cs = .error e) :
    ¬ IsConflict e := by
  induction cs with
  | nil => simp [columnFields] at h
  | cons c cs ih =>
    have hcolumn : ∀ e, columnField key c = .error e → ¬ IsConflict e := by
      intro e hc
      unfold columnField at hc
      split at hc
      · cases hc
        exact not_false
      · simp at hc
      · simp at hc
      · split at hc
        · cases hc
          exact not_false
        · simp at hc
    rw [columnFields] at h
    cases hc : columnField key c with
    | error e' =>
      rw [hc] at h
      cases h
      exact hcolumn e hc
    | ok field =>
      cases hcs : columnFields key cs with
      | error e' =>
        rw [hc, hcs] at h
        cases h
        exact ih hcs
      | ok rest =>
        rw [hc, hcs] at h
        cases h

/-- The faults of tables are no conflicts. -/
theorem not_isConflict_of_fault (h : .fault e ∈ items entries) : ¬ IsConflict e := by
  obtain ⟨⟨key, t⟩, -, hitem⟩ := List.mem_flatMap.mp h
  have hselection : ∀ e, liftFault (tablePlace key) (tableSelection t) = .error e →
      ¬ IsConflict e := by
    intro e he
    cases hs : tableSelection t with
    | ok _ =>
      rw [hs] at he
      cases he
    | error fault =>
      rw [hs] at he
      cases he
      exact not_false
  change Item.fault e ∈ itemsOf key t at hitem
  unfold itemsOf at hitem
  split at hitem
  · next e' hfields =>
    cases List.mem_singleton.mp hitem
    unfold fields at hfields
    cases hcolumns : columnFields key (relevantColumns t) with
    | error e'' =>
      rw [hcolumns] at hfields
      cases hfields
      exact not_isConflict_of_columnFields hcolumns
    | ok fs => simp [hcolumns, Except.map] at hfields
  · next fs e' _ hfilters =>
    rcases List.mem_append.mp hitem with hfield | hfault
    · simp at hfield
    · cases List.mem_singleton.mp hfault
      exact hselection e hfilters
  · simp at hitem

end TileSchema.Table
