import TileSchema.Proofs.Ordered.FirstPlace
import TileSchema.Proofs.Table.Dispatch
import TileSchema.Proofs.Table.Walk

/-!
# One type for each field name

The types of the fields are registered while the tables are compiled, in one call after another, and
what was registered in front of an error stays.  So the registered types depend on how far each call
has come.

A call is a walk along the items of its tables that ends at the first fault or the first field that
contradicts an earlier one.  The types record the fields that have been taken up, those of all
earlier calls included: their names, each at its first place, and for each name the type that all
fields of this name have (`Records`).  A step of a walk keeps this (`Records.register_cases`), hence
a walk and a sequence of calls do (`Records.walk`, `records_typesAfter`).  What ends a walk is said
by `walk_eq_error_iff`, and `field_types_consistent_over_runs` collects what follows for calls.
-/

namespace TileSchema.Table

open Ordered (Dict)

variable {types types' : FieldTypes} {earlier fs : List Field} {f g : Field} {key name : String}
  {e : SchemaError}

/-- Two fields contradict each other if they have one name and different types. -/
def Contradicts (f g : Field) : Prop := f.name = g.name ∧ f.type ≠ g.type

instance : DecidableRel Contradicts := fun f g =>
  inferInstanceAs (Decidable (f.name = g.name ∧ f.type ≠ g.type))

/-- The names that have a type. -/
def FieldTypes.names (types : FieldTypes) : List String := types.entries.map Prod.fst

/-- Going through items after earlier fields, one comes to the item `next`: in front of it there are
only fields, and no two of all these fields contradict each other. -/
structure Reaches (earlier : List Field) (is : List Item) (before : List (String × Field))
    (next : Item) : Prop where
  split : ∃ after, is = before.map (fun p => .field p.1 p.2) ++ next :: after
  consistent : (earlier ++ before.map Prod.snd).Pairwise fun a b => ¬ Contradicts a b

/-- The fields taken up from items after earlier fields: all those up to the first fault and the
first field that contradicts an earlier one. -/
def takenUp (earlier : List Field) : List Item → List Field
  | .field _ f :: is =>
    if ∃ g ∈ earlier, Contradicts f g then [] else f :: takenUp (earlier ++ [f]) is
  | _ => []

/-! ### Calls in a row -/

/-- The types after calls one after the other. -/
def typesAfter (calls : List (Dict TableSpec)) : FieldTypes :=
  calls.foldl (fun types tables => (compile types tables).1) .empty

/-- The fields that calls one after the other have taken up.  A field that was refused, or not come
to, has given its name no type and is none of them. -/
def fieldsOf (calls : List (Dict TableSpec)) : List Field :=
  calls.foldl (fun earlier tables => earlier ++ takenUp earlier (items tables.entries)) []

@[simp] theorem typesAfter_append_singleton (calls : List (Dict TableSpec)) (tables : Dict TableSpec) :
    typesAfter (calls ++ [tables]) = (compile (typesAfter calls) tables).1 := by
  simp [typesAfter]

@[simp] theorem fieldsOf_append_singleton (calls : List (Dict TableSpec)) (tables : Dict TableSpec) :
    fieldsOf (calls ++ [tables]) =
      fieldsOf calls ++ takenUp (fieldsOf calls) (items tables.entries) := by
  simp [fieldsOf]

/-! ### What the types record -/

/-- Types record fields if they list the names of the fields, each at its first place, and give
every field its type. -/
structure Records (types : FieldTypes) (fs : List Field) : Prop where
  names_eq : types.names = Ordered.distinct (fs.map Field.name)
  get?_eq : ∀ f ∈ fs, types.get? f.name = some f.type

/-- A name has no type exactly if it is not listed. -/
theorem get?_eq_none_iff : types.get? name = none ↔ name ∉ types.names := by
  rw [FieldTypes.get?, FieldTypes.names, Ordered.lookup_eq_none_iff_notMem]

/-- Types keep what they have when names are added. -/
theorem get?_of_isPrefix {type : FieldType} (hadds : types.entries <+: types'.entries)
    (h : types.get? name = some type) : types'.get? name = some type := by
  obtain ⟨added, hadded⟩ := hadds
  unfold FieldTypes.get? at h ⊢
  rw [← hadded, List.lookup_append, h, Option.some_or]

namespace Records

theorem empty : Records .empty [] := ⟨rfl, by simp⟩

/-- The name of a field that is recorded has no other type. -/
theorem type_eq (h : Records types fs) (hf : f ∈ fs) (hg : g ∈ fs) (hname : f.name = g.name) :
    f.type = g.type := by
  have htype : some f.type = some g.type := by
    rw [← h.get?_eq f hf, ← h.get?_eq g hg, hname]
  exact Option.some.inj htype

/-- No two recorded fields contradict each other. -/
theorem consistent (h : Records types fs) : fs.Pairwise fun a b => ¬ Contradicts a b :=
  List.pairwise_of_forall_mem_list fun _ ha _ hb hab => hab.2 (h.type_eq ha hb hab.1)

/-- A name with a type is that of a recorded field of this type. -/
theorem exists_of_get?_eq {type : FieldType} (h : Records types fs)
    (hget : types.get? name = some type) : ∃ f ∈ fs, f.name = name ∧ f.type = type := by
  have hname : name ∈ types.names := by
    by_contra hnot
    rw [get?_eq_none_iff.mpr hnot] at hget
    exact absurd hget (by simp)
  rw [h.names_eq, Ordered.mem_distinct, List.mem_map] at hname
  obtain ⟨f, hf, rfl⟩ := hname
  rw [h.get?_eq f hf, Option.some.injEq] at hget
  exact ⟨f, hf, rfl, hget⟩

/-- A field that has the recorded type of its name is recorded already. -/
theorem concat_of_get?_eq (h : Records types earlier) (hget : types.get? f.name = some f.type) :
    Records types (earlier ++ [f]) := by
  obtain ⟨g, hg, hname, -⟩ := h.exists_of_get?_eq hget
  refine ⟨?_, ?_⟩
  · have hmem : f.name ∈ Ordered.distinct (earlier.map Field.name) :=
      Ordered.mem_distinct.mpr (List.mem_map.mpr ⟨g, hg, hname⟩)
    rw [List.map_append, List.map_singleton, Ordered.distinct_append_singleton, Ordered.addText,
      if_pos hmem, h.names_eq]
  · intro f' hf'
    rcases List.mem_append.mp hf' with hold | hnew
    · exact h.get?_eq f' hold
    · rw [List.mem_singleton.mp hnew, hget]

/-- A field whose name is not listed is recorded by an entry behind the others. -/
theorem concat_of_get?_eq_none (h : Records types earlier) (hget : types.get? f.name = none) :
    Records ⟨types.entries ++ [(f.name, f.type)]⟩ (earlier ++ [f]) := by
  have hfresh : f.name ∉ types.names := get?_eq_none_iff.mp hget
  refine ⟨?_, ?_⟩
  · have hnot : f.name ∉ Ordered.distinct (earlier.map Field.name) := h.names_eq ▸ hfresh
    rw [List.map_append, List.map_singleton, Ordered.distinct_append_singleton, Ordered.addText,
      if_neg hnot, ← h.names_eq]
    simp [FieldTypes.names]
  · intro f' hf'
    rcases List.mem_append.mp hf' with hold | hnew
    · exact get?_of_isPrefix (List.prefix_append _ _) (h.get?_eq f' hold)
    · rw [List.mem_singleton.mp hnew]
      unfold FieldTypes.get? at hget ⊢
      rw [List.lookup_append, hget]
      simp

/-- A field is refused if it contradicts one that is recorded, and otherwise recorded with them. -/
theorem register_cases (h : Records types earlier) (key : String) (f : Field) :
    (∃ g ∈ earlier, Contradicts f g ∧ types.register key [f] =
        (types, .error (.conflictingFieldType f.name g.type f.type key))) ∨
      (∀ g ∈ earlier, ¬ Contradicts f g) ∧
        ∃ types', types.register key [f] = (types', .ok ()) ∧ Records types' (earlier ++ [f]) := by
  rw [FieldTypes.register]
  cases hget : types.get? f.name with
  | some existing =>
    obtain ⟨g, hg, hname, rfl⟩ := h.exists_of_get?_eq hget
    by_cases htype : g.type = f.type
    · refine Or.inr ⟨fun g' hg' hcon => ?_, types, by simp [htype, FieldTypes.register], ?_⟩
      · exact hcon.2 (htype.symm.trans (h.type_eq hg hg' (hname.trans hcon.1)))
      · exact h.concat_of_get?_eq (htype ▸ hget)
    · refine Or.inl ⟨g, hg, ⟨hname.symm, Ne.symm htype⟩, ?_⟩
      simp [htype]
  | none =>
    refine Or.inr ⟨fun g hg hcon => ?_, _, rfl, h.concat_of_get?_eq_none hget⟩
    rw [hcon.1, h.get?_eq g hg] at hget
    exact absurd hget (by simp)

/-- After a walk, the types record the fields that were taken up, too. -/
theorem walk (h : Records types earlier) (is : List Item) :
    Records (walk types is).1 (earlier ++ takenUp earlier is) := by
  induction is generalizing types earlier with
  | nil => simpa [Table.walk, takenUp] using h
  | cons i is ih =>
    cases i with
    | fault e => simpa [Table.walk, takenUp] using h
    | field key f =>
      rw [Table.walk, takenUp]
      rcases h.register_cases key f with ⟨g, hg, hcon, hregister⟩ | ⟨hnone, types', hregister, h'⟩
      · rw [hregister, if_pos ⟨g, hg, hcon⟩, List.append_nil]
        exact h
      · rw [hregister, if_neg (by simpa using hnone), List.append_cons]
        exact ih h'

end Records

/-! ### Names are only added -/

/-- Registering a field keeps the types that there are. -/
theorem register_isPrefix (types : FieldTypes) (key : String) (f : Field) :
    types.entries <+: (types.register key [f]).1.entries := by
  rw [FieldTypes.register]
  cases types.get? f.name with
  | none => exact List.prefix_append _ _
  | some existing =>
    by_cases heq : existing = f.type
    · rw [heq]
      simp [FieldTypes.register]
    · simp [heq]

/-- A walk keeps the types that there are. -/
theorem walk_isPrefix (types : FieldTypes) (is : List Item) :
    types.entries <+: (walk types is).1.entries := by
  induction is generalizing types with
  | nil => exact List.prefix_rfl
  | cons i is ih =>
    cases i with
    | fault e => exact List.prefix_rfl
    | field key f =>
      have hstep := register_isPrefix types key f
      rw [walk]
      rcases hregister : types.register key [f] with ⟨types', _ | _⟩
      · simpa [hregister] using hstep
      · rw [hregister] at hstep
        exact hstep.trans (ih types')

/-- A call keeps the types that there are. -/
theorem compile_isPrefix (types : FieldTypes) (tables : Dict TableSpec) :
    types.entries <+: (compile types tables).1.entries := by
  have hwalk := walk_isPrefix types (items tables.entries)
  rwa [compileAll_eq_walk] at hwalk

/-- Calls keep the types that there are. -/
theorem typesAfter_isPrefix (calls more : List (Dict TableSpec)) :
    (typesAfter calls).entries <+: (typesAfter (calls ++ more)).entries := by
  induction more using List.reverseRecOn with
  | nil => simp
  | append_singleton more tables ih =>
    rw [← List.append_assoc, typesAfter_append_singleton]
    exact ih.trans (compile_isPrefix _ _)

/-- After calls one after the other, the types record the fields that were taken up. -/
theorem records_typesAfter (calls : List (Dict TableSpec)) :
    Records (typesAfter calls) (fieldsOf calls) := by
  induction calls using List.reverseRecOn with
  | nil => exact .empty
  | append_singleton calls tables ih =>
    have hwalk := ih.walk (items tables.entries)
    rw [compileAll_eq_walk] at hwalk
    rw [typesAfter_append_singleton, fieldsOf_append_singleton]
    exact hwalk

/-! ### Where a walk ends -/

variable {is : List Item} {i next : Item} {before : List (String × Field)}

/-- An item ends a walk with an error: a fault with itself, and a field that contradicts an earlier
one with their two types. -/
def EndsWith (earlier : List Field) : Item → SchemaError → Prop
  | .fault e, e' => e' = e
  | .field key f, e' => ∃ g ∈ earlier, Contradicts f g ∧
      e' = .conflictingFieldType f.name g.type f.type key

/-- The next item is the first one, or the first one is a field and comes before it. -/
theorem reaches_cons_iff (hearlier : earlier.Pairwise fun a b => ¬ Contradicts a b) :
    Reaches earlier (i :: is) before next ↔
      (before = [] ∧ i = next) ∨
        ∃ key f rest, i = .field key f ∧ before = (key, f) :: rest ∧
          Reaches (earlier ++ [f]) is rest next := by
  constructor
  · rintro ⟨⟨after, hsplit⟩, hconsistent⟩
    cases before with
    | nil => exact Or.inl ⟨rfl, (List.cons.inj hsplit).1⟩
    | cons p rest =>
      obtain ⟨hi, his⟩ := List.cons.inj hsplit
      refine Or.inr ⟨p.1, p.2, rest, hi, rfl, ⟨after, his⟩, ?_⟩
      simpa using hconsistent
  · rintro (⟨rfl, rfl⟩ | ⟨key, f, rest, rfl, rfl, ⟨after, rfl⟩, hconsistent⟩)
    · exact ⟨⟨is, rfl⟩, by simpa using hearlier⟩
    · exact ⟨⟨after, rfl⟩, by simpa using hconsistent⟩

/-- A field that one gets past contradicts no earlier one. -/
theorem Reaches.not_contradicts {rest : List (String × Field)} (h : Reaches (earlier ++ [f]) is rest next)
    (hg : g ∈ earlier) : ¬ Contradicts g f := by
  have hpair := (List.pairwise_append.mp h.consistent).1
  exact (List.pairwise_append.mp hpair).2.2 g hg f (List.mem_singleton.mpr rfl)

/-- Contradiction goes both ways. -/
theorem Contradicts.symm (h : Contradicts f g) : Contradicts g f := ⟨h.1.symm, h.2.symm⟩

/-- Of a fault and what follows it, the fault ends a walk. -/
theorem exists_reaches_fault_iff (hearlier : earlier.Pairwise fun a b => ¬ Contradicts a b)
    {e' : SchemaError} :
    (∃ before next, Reaches earlier (.fault e' :: is) before next ∧
      EndsWith (earlier ++ before.map Prod.snd) next e) ↔ e' = e := by
  simp only [reaches_cons_iff hearlier]
  constructor
  · rintro ⟨before, next, ⟨rfl, rfl⟩ | ⟨key, f, rest, hi, -⟩, hends⟩
    · exact Eq.symm hends
    · cases hi
  · rintro rfl
    exact ⟨[], .fault e', Or.inl ⟨rfl, rfl⟩, rfl⟩

/-- Of a field that contradicts an earlier one and what follows it, the field ends a walk. -/
theorem exists_reaches_iff_of_contradicts (h : Records types earlier) (hg : g ∈ earlier)
    (hcon : Contradicts f g) :
    (∃ before next, Reaches earlier (.field key f :: is) before next ∧
      EndsWith (earlier ++ before.map Prod.snd) next e) ↔
        .conflictingFieldType f.name g.type f.type key = e := by
  simp only [reaches_cons_iff h.consistent]
  constructor
  · rintro ⟨before, next, ⟨rfl, rfl⟩ | ⟨_, _, rest, hi, -, hrest⟩, hends⟩
    · obtain ⟨g', hg', hcon', rfl⟩ := hends
      rw [List.map_nil, List.append_nil] at hg'
      rw [h.type_eq hg hg' (hcon.1.symm.trans hcon'.1)]
    · cases hi
      exact absurd hcon.symm (hrest.not_contradicts hg)
  · rintro rfl
    refine ⟨[], .field key f, Or.inl ⟨rfl, rfl⟩, g, ?_, hcon, rfl⟩
    simpa using hg

/-- A field that contradicts no earlier one is one of them for what follows it. -/
theorem exists_reaches_iff_of_not_contradicts
    (hearlier : earlier.Pairwise fun a b => ¬ Contradicts a b)
    (hnone : ∀ g ∈ earlier, ¬ Contradicts f g) :
    (∃ before next, Reaches earlier (.field key f :: is) before next ∧
      EndsWith (earlier ++ before.map Prod.snd) next e) ↔
        ∃ before next, Reaches (earlier ++ [f]) is before next ∧
          EndsWith (earlier ++ [f] ++ before.map Prod.snd) next e := by
  simp only [reaches_cons_iff hearlier]
  constructor
  · rintro ⟨before, next, ⟨rfl, rfl⟩ | ⟨_, _, rest, hi, rfl, hreaches⟩, hends⟩
    · obtain ⟨g, hg, hcon, -⟩ := hends
      exact absurd hcon (hnone g (by simpa using hg))
    · cases hi
      exact ⟨rest, next, hreaches, by simpa using hends⟩
  · rintro ⟨rest, next, hreaches, hends⟩
    refine ⟨(key, f) :: rest, next, Or.inr ⟨key, f, rest, rfl, rfl, hreaches⟩, ?_⟩
    simpa using hends

/-- A walk fails exactly if it comes to an item that ends it, and with the error of this item. -/
theorem walk_eq_error_iff (h : Records types earlier) :
    (walk types is).2 = .error e ↔
      ∃ before next, Reaches earlier is before next ∧
        EndsWith (earlier ++ before.map Prod.snd) next e := by
  induction is generalizing types earlier with
  | nil =>
    simp only [walk, reduceCtorEq, false_iff]
    rintro ⟨before, next, ⟨⟨after, hsplit⟩, -⟩, -⟩
    cases before <;> cases hsplit
  | cons i is ih =>
    cases i with
    | fault e' => rw [exists_reaches_fault_iff h.consistent, walk, Except.error.injEq]
    | field key f =>
      rw [walk]
      rcases h.register_cases key f with ⟨g, hg, hcon, hregister⟩ | ⟨hnone, types', hregister, h'⟩
      · rw [exists_reaches_iff_of_contradicts h hg hcon, hregister]
        simp only [Except.error.injEq]
      · rw [exists_reaches_iff_of_not_contradicts h.consistent hnone, hregister]
        exact ih h'

/-- If a walk comes to an item that ends it, the fields in front of this item are those taken up. -/
theorem takenUp_of_reaches (hreaches : Reaches earlier is before next)
    (hends : EndsWith (earlier ++ before.map Prod.snd) next e) :
    takenUp earlier is = before.map Prod.snd := by
  obtain ⟨⟨after, rfl⟩, hconsistent⟩ := hreaches
  induction before generalizing earlier with
  | nil =>
    cases next with
    | fault e' => rfl
    | field key f =>
      obtain ⟨g, hg, hcon, -⟩ := hends
      have hany : ∃ g ∈ earlier, Contradicts f g := ⟨g, by simpa using hg, hcon⟩
      change takenUp earlier (.field key f :: after) = []
      rw [takenUp, if_pos hany]
  | cons p before ih =>
    have hnone : ¬ ∃ g ∈ earlier, Contradicts p.2 g := by
      rintro ⟨g, hg, hcon⟩
      have hp : p.2 ∈ (p :: before).map Prod.snd := List.mem_cons_self
      exact (List.pairwise_append.mp hconsistent).2.2 g hg p.2 hp hcon.symm
    rw [List.map_cons, List.cons_append, takenUp, if_neg hnone, List.map_cons,
      ih (by simpa using hends) (by simpa using hconsistent)]

/-- A walk that does not fail takes up all fields. -/
theorem mem_takenUp_of_walk (h : Records types earlier) (hok : (walk types is).2 = .ok ())
    (hf : .field key f ∈ is) : f ∈ takenUp earlier is := by
  induction is generalizing types earlier with
  | nil => cases hf
  | cons i is ih =>
    cases i with
    | fault e => simp [walk] at hok
    | field key' f' =>
      rw [walk] at hok
      rcases h.register_cases key' f' with ⟨g, -, -, hregister⟩ | ⟨hnone, types', hregister, h'⟩
      · simp [hregister] at hok
      · rw [hregister] at hok
        rw [takenUp, if_neg (by simpa using hnone)]
        rcases List.mem_cons.mp hf with heq | hmem
        · cases heq
          exact List.mem_cons_self
        · exact List.mem_cons_of_mem _ (ih h' hok hmem)

/-! ### Calls -/

/-- Going through items after earlier fields, the first thing wrong is a field that contradicts one
in front of it. -/
structure FirstConflict (earlier : List Field) (is : List Item) (before : List (String × Field))
    (key : String) (f g : Field) : Prop where
  reaches : Reaches earlier is before (.field key f)
  mem : g ∈ earlier ++ before.map Prod.snd
  contradicts : Contradicts f g

/-- A call fails with a conflict exactly if the first thing wrong is a field with another type than
one in front of it. -/
theorem compile_eq_conflict_iff {tables : Dict TableSpec} {existing found : FieldType}
    (h : Records types earlier) :
    (compile types tables).2 = .error (.conflictingFieldType name existing found key) ↔
      ∃ before f g, FirstConflict earlier (items tables.entries) before key f g ∧
        name = f.name ∧ existing = g.type ∧ found = f.type := by
  have hwalk : (compile types tables).2 = .error (.conflictingFieldType name existing found key) ↔
      (walk types (items tables.entries)).2 =
        .error (.conflictingFieldType name existing found key) := by
    rw [compileAll_eq_walk, compile]
    cases (compileAll types tables.entries).2 <;> simp [Except.map]
  rw [hwalk, walk_eq_error_iff h]
  constructor
  · rintro ⟨before, next, hreaches, hends⟩
    cases next with
    | fault e =>
      -- the faults of tables are other errors
      obtain ⟨after, hsplit⟩ := hreaches.split
      have hfault : Item.fault e ∈ items tables.entries := by simp [hsplit]
      have hconflict : ¬ IsConflict e := not_isConflict_of_fault hfault
      rw [← show _ = e from hends] at hconflict
      exact absurd trivial hconflict
    | field key' f =>
      obtain ⟨g, hg, hcon, heq⟩ := hends
      cases heq
      exact ⟨before, f, g, ⟨hreaches, hg, hcon⟩, rfl, rfl, rfl⟩
  · rintro ⟨before, f, g, ⟨hreaches, hg, hcon⟩, rfl, rfl, rfl⟩
    exact ⟨before, .field key f, hreaches, g, hg, hcon, rfl⟩

/-- A call that fails with a conflict has taken up the fields in front of it. -/
theorem fieldsOf_of_firstConflict {calls : List (Dict TableSpec)} {tables : Dict TableSpec}
    (h : FirstConflict (fieldsOf calls) (items tables.entries) before key f g) :
    fieldsOf (calls ++ [tables]) = fieldsOf calls ++ before.map Prod.snd := by
  rw [fieldsOf_append_singleton, takenUp_of_reaches h.reaches ⟨g, h.mem, h.contradicts, rfl⟩]

/-- A field of a compiled table is among the items of the tables. -/
theorem mem_items_of_compile {tables : Dict TableSpec} {cs : List Compiled} {c : Compiled}
    (hok : (compile types tables).2 = .ok cs) (hc : c ∈ cs) (hf : f ∈ c.fields) :
    ∃ key, .field key f ∈ items tables.entries := by
  have hcompiled : List.Forall₂ IsCompiled tables.entries cs := compileAll_eq_ok (Prod.ext rfl hok)
  obtain ⟨entry, hentry, fs, e, hfields, hselection, rfl⟩ := exists_isCompiled_of_mem hcompiled hc
  have hlift : liftFault (tablePlace entry.1) (tableSelection entry.2) = .ok e :=
    liftFault_eq_ok_iff.mpr hselection
  refine ⟨entry.1, List.mem_flatMap.mpr ⟨entry, hentry, ?_⟩⟩
  rw [itemsOf, hfields, hlift]
  exact List.mem_map_of_mem hf

/-- A field of a successful call has its type from then on. -/
theorem get?_of_compile {tables : Dict TableSpec} {cs : List Compiled} {c : Compiled}
    (before after : List (Dict TableSpec)) (hok : (compile (typesAfter before) tables).2 = .ok cs)
    (hc : c ∈ cs) (hf : f ∈ c.fields) :
    (typesAfter (before ++ tables :: after)).get? f.name = some f.type := by
  have hwalk : (walk (typesAfter before) (items tables.entries)).2 = .ok () := by
    rw [compile] at hok
    rw [compileAll_eq_walk, hok]
    rfl
  obtain ⟨key, hitem⟩ := mem_items_of_compile hok hc hf
  have htaken : f ∈ takenUp (fieldsOf before) (items tables.entries) :=
    mem_takenUp_of_walk (records_typesAfter before) hwalk hitem
  have hget : (typesAfter (before ++ [tables])).get? f.name = some f.type := by
    refine (records_typesAfter _).get?_eq f ?_
    rw [fieldsOf_append_singleton]
    exact List.mem_append_right _ htaken
  rw [List.append_cons]
  exact get?_of_isPrefix (typesAfter_isPrefix _ after) hget

/-- The types of the fields are consistent over all calls.  No name is listed twice, and calls add
names at the end and change nothing in front of them.  A name of a field in a successful call has
the type of that field ever after.  A call fails with a conflict exactly if the first thing wrong in
it is a field that contradicts one in front of it, in this or an earlier call; then the names of the
fields in front of it have been added, and no others. -/
theorem field_types_consistent_over_runs (calls : List (Dict TableSpec)) :
    (typesAfter calls).names.Nodup ∧
    (∀ more, (typesAfter calls).entries <+: (typesAfter (calls ++ more)).entries) ∧
    (∀ before tables after cs, calls = before ++ tables :: after →
      (compile (typesAfter before) tables).2 = .ok cs →
      ∀ c ∈ cs, ∀ f ∈ c.fields, (typesAfter calls).get? f.name = some f.type) ∧
    ∀ tables,
      (∀ name existing found key,
        (compile (typesAfter calls) tables).2 =
            .error (.conflictingFieldType name existing found key) ↔
          ∃ before f g, FirstConflict (fieldsOf calls) (items tables.entries) before key f g ∧
            name = f.name ∧ existing = g.type ∧ found = f.type) ∧
      ∀ before key f g, FirstConflict (fieldsOf calls) (items tables.entries) before key f g →
        (typesAfter (calls ++ [tables])).names =
            ((typesAfter calls).names ++ before.map fun p => p.2.name).eraseDups ∧
          ∀ p ∈ before, (typesAfter (calls ++ [tables])).get? p.2.name = some p.2.type := by
  have hrecords := records_typesAfter calls
  refine ⟨?_, typesAfter_isPrefix calls, ?_, fun tables => ⟨?_, ?_⟩⟩
  · rw [hrecords.names_eq]
    exact Ordered.nodup_distinct _
  · rintro before tables after cs rfl hok c hc f hf
    exact get?_of_compile before after hok hc hf
  · intro name existing found key
    exact compile_eq_conflict_iff hrecords
  · intro before key f g hconflict
    have hafter := records_typesAfter (calls ++ [tables])
    rw [fieldsOf_of_firstConflict hconflict] at hafter
    constructor
    · rw [hafter.names_eq, hrecords.names_eq, ← Ordered.distinct_eq_eraseDups,
        Ordered.distinct_distinct_append]
      simp [Function.comp_def]
    · intro p hp
      exact hafter.get?_eq p.2 (List.mem_append_right _ (List.mem_map_of_mem hp))

/-- A table of points with one column and a mapping. -/
def pointsWith (c : Column) (mapping : Filter) : TableSpec where
  kind := "point"
  columns := [c]
  mapping := some mapping

/-- A table with a name, whose mapping is malformed. -/
def namedPlaces : Dict TableSpec :=
  Dict.empty.put "places"
    (pointsWith { kind := "string", name := "name", key := some "name" } (.scalar "city"))

/-- A table with a height. -/
def highPeaks : Dict TableSpec :=
  Dict.empty.put "peaks" (pointsWith { kind := "integer", name := "height", key := some "ele" } .null)

/-- A table with a name that is a number. -/
def numberedRoads : Dict TableSpec :=
  Dict.empty.put "roads" (pointsWith { kind := "integer", name := "name", key := some "ref" } .null)

/-- A call fails after its field was registered, the next one succeeds, and a third one fails with a
field that contradicts the first. -/
theorem field_types_consistent_over_runs_failed_call :
    (typesAfter [namedPlaces, highPeaks]).get? "height" = some .integer ∧
      (compile (typesAfter [namedPlaces, highPeaks]) numberedRoads).2 =
        .error (.conflictingFieldType "name" .string .integer "roads") ∧
      (typesAfter [namedPlaces, highPeaks, numberedRoads]).names = ["name", "source", "height"] := by
  obtain ⟨-, -, hget, hcalls⟩ := field_types_consistent_over_runs [namedPlaces, highPeaks]
  obtain ⟨c, hok, hfield⟩ : ∃ c, (compile (typesAfter [namedPlaces]) highPeaks).2 = .ok [c] ∧
      ⟨.integer, "height", .attributeAsInt "ele"⟩ ∈ c.fields := ⟨_, rfl, List.mem_cons_self⟩
  obtain ⟨hconflict, hnames⟩ := hcalls numberedRoads
  have hfirst : FirstConflict (fieldsOf [namedPlaces, highPeaks]) (items numberedRoads.entries) []
      "roads" ⟨.integer, "name", .attributeAsInt "ref"⟩ ⟨.string, "name", .attribute "name"⟩ :=
    ⟨⟨⟨_, rfl⟩, by decide⟩, by decide, by decide⟩
  refine ⟨?_, ?_, ?_⟩
  · exact hget [namedPlaces] highPeaks [] [c] rfl hok c (List.mem_singleton.mpr rfl) _ hfield
  · exact (hconflict _ _ _ _).mpr ⟨_, _, _, hfirst, rfl, rfl, rfl⟩
  · exact (hnames _ _ _ _ hfirst).1

end TileSchema.Table
