import TileSchema.Filter.Compile
import TileSchema.Proofs.Filter.Meaning
import TileSchema.Proofs.Results

/-!
# The parts of a filter

A filter is compiled to the disjunction of its parts, so an element satisfies it exactly if it
satisfies one of them (`satisfies_iff`).  This file says what the parts are, document by document:
a list has the parts of its items (`isPart_sequence_iff`), a mapping those of its entries, each
entry taken as a mapping of its own (`isPart_mapping_iff`), and under a combinator key all parts
below are grouped into one (`isPart_combinator_iff`).  A document is accepted if it has parts at
all, that is if nothing in it is malformed.
-/

namespace TileSchema

namespace Filter

variable {el : Element} {f : Filter} {fs : List Filter} {p : Expression}

/-- Induction on documents: the items of a list, and the values of a mapping, are taken together. -/
@[elab_as_elim, induction_eliminator]
theorem induction {motive : Filter → Prop}
    (null : motive .null) (scalar : ∀ text, motive (.scalar text))
    (sequence : ∀ items, (∀ f ∈ items, motive f) → motive (.sequence items))
    (mapping : ∀ entries, (∀ entry ∈ entries, motive entry.2) → motive (.mapping entries))
    (f : Filter) : motive f := by
  refine @Filter.rec motive (fun items => ∀ f ∈ items, motive f)
    (fun entries => ∀ entry ∈ entries, motive entry.2) (fun entry => motive entry.2)
    null scalar sequence mapping ?_ ?_ ?_ ?_ (fun _ _ h => h) f
  · simp
  · exact fun f fs hf hfs => List.forall_mem_cons.mpr ⟨hf, hfs⟩
  · simp
  · exact fun entry es hentry hes => List.forall_mem_cons.mpr ⟨hentry, hes⟩

/-- A document is accepted if it can be compiled. -/
def IsAccepted (f : Filter) : Prop := ∃ e, f.compile = .ok e

/-- An element satisfies a filter if it satisfies the expression that the filter is compiled to. -/
def Satisfies (el : Element) (f : Filter) : Prop :=
  ∃ e, f.compile = .ok e ∧ e.evaluate el = true

/-- An expression is a part of a filter if it is among those that the filter is compiled from. -/
def IsPart (p : Expression) (f : Filter) : Prop := ∃ ps, f.parts = .ok ps ∧ p ∈ ps

/-- A document is accepted exactly if its parts can be read. -/
theorem isAccepted_iff : IsAccepted f ↔ ∃ ps, f.parts = .ok ps := by
  unfold IsAccepted compile
  constructor
  · rintro ⟨e, he⟩
    obtain ⟨ps, hps, -⟩ := map_eq_ok_iff.mp he
    exact ⟨ps, hps⟩
  · rintro ⟨ps, hps⟩
    exact ⟨.or ps, by rw [hps]; rfl⟩

/-- Only accepted documents are satisfied. -/
theorem Satisfies.isAccepted (h : Satisfies el f) : IsAccepted f :=
  h.imp fun _ he => he.1

/-- An element satisfies a filter exactly if it satisfies one of the parts. -/
theorem satisfies_iff : Satisfies el f ↔ ∃ p, IsPart p f ∧ p.evaluate el = true := by
  unfold Satisfies compile
  constructor
  · rintro ⟨e, he, heval⟩
    obtain ⟨ps, hps, rfl⟩ := map_eq_ok_iff.mp he
    obtain ⟨p, hp, hpeval⟩ := Expression.evaluate_or.mp heval
    exact ⟨p, ⟨ps, hps, hp⟩, hpeval⟩
  · rintro ⟨p, ⟨ps, hps, hp⟩, hpeval⟩
    exact ⟨.or ps, by rw [hps]; rfl, Expression.evaluate_or.mpr ⟨p, hp, hpeval⟩⟩

/-- The parts of a filter are those that were read. -/
theorem isPart_iff_of_parts {ps : List Expression} (h : f.parts = .ok ps) :
    IsPart p f ↔ p ∈ ps := by
  constructor
  · rintro ⟨qs, hqs, hp⟩
    rw [h, Except.ok.injEq] at hqs
    rwa [hqs]
  · exact fun hp => ⟨ps, h, hp⟩

/-! ### Lists -/

/-- The parts of a list of documents, read one after the other. -/
theorem partsOfItems_cons_eq_ok_iff {ps : List Expression} :
    partsOfItems (f :: fs) = .ok ps ↔
      ∃ qs, f.parts = .ok qs ∧ ∃ rest, partsOfItems fs = .ok rest ∧ qs ++ rest = ps := by
  simp only [partsOfItems, bind_eq_ok_iff, pure, Except.pure, Except.ok.injEq]

/-- The items of a list can be read together exactly if they can be read one by one. -/
theorem exists_partsOfItems_iff :
    (∃ ps, partsOfItems fs = .ok ps) ↔ ∀ f ∈ fs, IsAccepted f := by
  induction fs with
  | nil => simp [partsOfItems]
  | cons f fs ih =>
    rw [List.forall_mem_cons, ← ih, isAccepted_iff]
    constructor
    · rintro ⟨ps, hps⟩
      obtain ⟨qs, hqs, rest, hrest, -⟩ := partsOfItems_cons_eq_ok_iff.mp hps
      exact ⟨⟨qs, hqs⟩, ⟨rest, hrest⟩⟩
    · rintro ⟨⟨qs, hqs⟩, ⟨rest, hrest⟩⟩
      exact ⟨qs ++ rest, partsOfItems_cons_eq_ok_iff.mpr ⟨qs, hqs, rest, hrest, rfl⟩⟩

/-- What has been read from the items of a list are the parts of the items. -/
theorem mem_partsOfItems_iff {ps : List Expression} (h : partsOfItems fs = .ok ps) :
    p ∈ ps ↔ ∃ f ∈ fs, IsPart p f := by
  induction fs generalizing ps with
  | nil =>
    rw [partsOfItems, Except.ok.injEq] at h
    simp [← h]
  | cons f fs ih =>
    obtain ⟨qs, hqs, rest, hrest, rfl⟩ := partsOfItems_cons_eq_ok_iff.mp h
    rw [List.mem_append, ih hrest, List.exists_mem_cons_iff, isPart_iff_of_parts hqs]

/-- The parts of a list are those of its items. -/
theorem parts_sequence (fs : List Filter) : (Filter.sequence fs).parts = partsOfItems fs := by
  rw [parts]

/-- A list is accepted exactly if all its items are. -/
theorem isAccepted_sequence_iff : IsAccepted (.sequence fs) ↔ ∀ f ∈ fs, IsAccepted f := by
  rw [isAccepted_iff, parts_sequence, exists_partsOfItems_iff]

/-- The parts of an accepted list are the parts of its items. -/
theorem isPart_sequence_iff (h : IsAccepted (.sequence fs)) :
    IsPart p (.sequence fs) ↔ ∃ f ∈ fs, IsPart p f := by
  obtain ⟨ps, hps⟩ := isAccepted_iff.mp h
  rw [isPart_iff_of_parts hps]
  rw [parts_sequence] at hps
  exact mem_partsOfItems_iff hps

/-! ### Mappings -/

variable {key : String} {entry : String × Filter} {entries : List (String × Filter)}

/-- A key that names no connective differs from both combinator keys. -/
theorem combinator?_eq_none_iff : combinator? key = none ↔ key ≠ andKey ∧ key ≠ orKey := by
  unfold combinator?
  by_cases hand : key = andKey
  · simp [hand]
  · by_cases hor : key = orKey
    · subst hor
      simp [hand]
    · simp [hand, hor]

/-- The combinator key of a mapping is the first of the two that is among its keys. -/
theorem combinatorKey?_eq_find? (entries : List (String × Filter)) :
    combinatorKey? entries = [andKey, orKey].find? (· ∈ entries.map Prod.fst) := by
  have hlookup : ∀ key : String,
      (entries.lookup key).isSome = decide (key ∈ entries.map Prod.fst) := by
    intro key
    rw [Bool.eq_iff_iff, decide_eq_true_iff, ← not_iff_not, Bool.not_eq_true,
      Option.isSome_eq_false_iff, Option.isNone_iff_eq_none, Ordered.lookup_eq_none_iff_notMem]
  rw [combinatorKey?, hlookup, hlookup, List.find?_cons, List.find?_cons, List.find?_nil]
  cases decide (andKey ∈ entries.map Prod.fst) <;>
    cases decide (orKey ∈ entries.map Prod.fst) <;> rfl

/-- No combinator key decides a mapping exactly if none is among its keys. -/
theorem combinatorKey?_eq_none_iff :
    combinatorKey? entries = none ↔ ∀ entry ∈ entries, combinator? entry.1 = none := by
  rw [combinatorKey?_eq_find?, List.find?_eq_none]
  simp only [combinator?_eq_none_iff, List.mem_cons, List.not_mem_nil, or_false, forall_eq_or_imp,
    forall_eq, decide_eq_true_eq, forall_and, List.mem_map, not_exists, not_and, ne_eq]

/-- A key that names a connective is one of the two combinator keys. -/
theorem exists_combinator?_iff : (∃ op, combinator? key = some op) ↔ key = andKey ∨ key = orKey := by
  rw [← Option.isSome_iff_exists, ← Option.ne_none_iff_isSome, Ne, combinator?_eq_none_iff]
  tauto

/-- A mapping is a combinator alone, or a mapping of fields, or it has a combinator key next to
other keys. -/
theorem mapping_cases (entries : List (String × Filter)) :
    (∃ key f op, entries = [(key, f)] ∧ combinator? key = some op) ∨
      (∀ entry ∈ entries, combinator? entry.1 = none) ∨
      1 < entries.length ∧ ∃ key, combinatorKey? entries = some key := by
  cases hkey : combinatorKey? entries with
  | none => exact Or.inr (Or.inl (combinatorKey?_eq_none_iff.mp hkey))
  | some key =>
    match entries with
    | [] => simp [combinatorKey?] at hkey
    | [(key', f)] =>
      have hne : ¬ ∀ entry ∈ [(key', f)], combinator? entry.1 = none := by
        rw [← combinatorKey?_eq_none_iff, hkey]
        exact Option.some_ne_none key
      obtain ⟨op, hop⟩ := Option.ne_none_iff_exists'.mp (by simpa using hne)
      exact Or.inl ⟨key', f, op, rfl, hop⟩
    | a :: b :: rest => exact Or.inr (Or.inr ⟨by simp, key, rfl⟩)

/-- Under a combinator key all parts are grouped into one. -/
theorem parts_mapping_of_combinator {op : Connective} (hkey : combinator? key = some op) :
    (Filter.mapping [(key, f)]).parts = f.parts.map fun ps => [.group op ps] := by
  rw [parts, hkey]
  cases f.parts <;> rfl

/-- A combinator key next to other keys is refused, whatever stands under the keys. -/
theorem parts_mapping_of_mixed (hlen : 1 < entries.length)
    (hkey : combinatorKey? entries = some key) :
    (Filter.mapping entries).parts = .error (.combinatorNotAlone key) := by
  match entries with
  | a :: b :: rest => rw [parts, hkey]; simp

/-- A mapping without combinator keys has one part for each field. -/
theorem parts_mapping_of_plain (h : ∀ entry ∈ entries, combinator? entry.1 = none) :
    (Filter.mapping entries).parts = fieldExpressions entries := by
  match entries, h with
  | [], _ => rw [parts, combinatorKey?_eq_none_iff.mpr (by simp)]; simp
  | [(key, f)], h => rw [parts, h (key, f) (by simp)]
  | a :: b :: rest, h => rw [parts, combinatorKey?_eq_none_iff.mpr h]; simp

/-- The part of a field is read as that of a mapping with this field alone. -/
theorem parts_singleton_of_plain (h : combinator? entry.1 = none) :
    (Filter.mapping [entry]).parts = (fieldExpression entry.1 entry.2).map ([·]) := by
  rw [parts_mapping_of_plain (by simpa using h)]
  simp only [fieldExpressions]
  cases fieldExpression entry.1 entry.2 <;> rfl

/-- A mapping of fields is read as the list of its fields. -/
theorem fieldExpressions_eq_partsOfItems (h : ∀ entry ∈ entries, combinator? entry.1 = none) :
    fieldExpressions entries = partsOfItems (entries.map fun entry => .mapping [entry]) := by
  induction entries with
  | nil => simp [fieldExpressions, partsOfItems]
  | cons entry entries ih =>
    obtain ⟨hentry, hentries⟩ := List.forall_mem_cons.mp h
    rw [List.map_cons, partsOfItems, ← ih hentries, parts_singleton_of_plain hentry,
      fieldExpressions]
    cases fieldExpression entry.1 entry.2 <;> rfl

/-- A combinator that is accepted stands alone: the keys of an accepted mapping name no connective
if there are several. -/
theorem isAccepted_mapping_cases (h : IsAccepted (.mapping entries)) :
    (∃ entry, entries = [entry]) ∨ ∀ entry ∈ entries, combinator? entry.1 = none := by
  obtain ⟨ps, hps⟩ := isAccepted_iff.mp h
  rcases mapping_cases entries with ⟨key, f, op, rfl, -⟩ | hplain | ⟨hlen, key, hkey⟩
  · exact Or.inl ⟨(key, f), rfl⟩
  · exact Or.inr hplain
  · rw [parts_mapping_of_mixed hlen hkey] at hps
    cases hps

/-- An accepted mapping is read as the list of its entries. -/
theorem parts_mapping_eq_sequence (h : IsAccepted (.mapping entries)) :
    (Filter.mapping entries).parts =
      (Filter.sequence (entries.map fun entry => .mapping [entry])).parts := by
  rcases isAccepted_mapping_cases h with ⟨entry, rfl⟩ | hplain
  · rw [List.map_singleton, parts_sequence, partsOfItems, partsOfItems]
    cases (Filter.mapping [entry]).parts with
    | error e => rfl
    | ok ps => simp [bind, Except.bind, pure, Except.pure]
  · rw [parts_mapping_of_plain hplain, fieldExpressions_eq_partsOfItems hplain, parts_sequence]

/-- The list of the entries of an accepted mapping is accepted. -/
theorem IsAccepted.sequence_of_mapping (h : IsAccepted (.mapping entries)) :
    IsAccepted (.sequence (entries.map fun entry => .mapping [entry])) := by
  obtain ⟨ps, hps⟩ := isAccepted_iff.mp h
  rw [parts_mapping_eq_sequence h] at hps
  exact isAccepted_iff.mpr ⟨ps, hps⟩

/-- The entries of an accepted mapping are accepted, each as a mapping of its own. -/
theorem IsAccepted.of_mem_entries (h : IsAccepted (.mapping entries)) (hentry : entry ∈ entries) :
    IsAccepted (.mapping [entry]) :=
  isAccepted_sequence_iff.mp h.sequence_of_mapping _ (List.mem_map_of_mem hentry)

/-- The parts of an accepted mapping are the parts of its entries. -/
theorem isPart_mapping_iff (h : IsAccepted (.mapping entries)) :
    IsPart p (.mapping entries) ↔ ∃ entry ∈ entries, IsPart p (.mapping [entry]) := by
  have hread : IsPart p (.mapping entries) ↔
      IsPart p (.sequence (entries.map fun entry => .mapping [entry])) := by
    rw [IsPart, parts_mapping_eq_sequence h, IsPart]
  rw [hread, isPart_sequence_iff h.sequence_of_mapping]
  simp only [List.mem_map, exists_exists_and_eq_and]

/-! ### Combinators and fields -/

variable {op : Connective} {values : Filter}

/-- A combinator is accepted exactly if what it combines is. -/
theorem isAccepted_combinator_iff (hkey : combinator? key = some op) :
    IsAccepted (.mapping [(key, f)]) ↔ IsAccepted f := by
  rw [isAccepted_iff, isAccepted_iff, parts_mapping_of_combinator hkey]
  simp [map_eq_ok_iff]

/-- A combinator has one part, the group of all that it combines. -/
theorem isPart_combinator_iff (hkey : combinator? key = some op) :
    IsPart p (.mapping [(key, f)]) ↔ ∃ ps, f.parts = .ok ps ∧ p = .group op ps := by
  rw [IsPart, parts_mapping_of_combinator hkey]
  simp [map_eq_ok_iff]

/-- A field is accepted exactly if its question can be read. -/
theorem isAccepted_field_iff (hkey : combinator? key = none) :
    IsAccepted (.mapping [(key, values)]) ↔ ∃ e, fieldExpression key values = .ok e := by
  rw [isAccepted_iff, parts_singleton_of_plain hkey]
  simp [map_eq_ok_iff]

/-- A field has one part, the question that it asks. -/
theorem isPart_field_iff (hkey : combinator? key = none) :
    IsPart p (.mapping [(key, values)]) ↔ fieldExpression key values = .ok p := by
  rw [IsPart, parts_singleton_of_plain hkey]
  simp [map_eq_ok_iff]

/-- A field asks for its tag with any value, or for one of its literals. -/
theorem fieldExpression_cases (h : fieldExpression key values = .ok p) :
    p = .matchField key ∨
      ∃ literals, values.literals = .ok literals ∧ literals ≠ [] ∧ anyValue ∉ literals ∧
        p = .anyOf key literals := by
  unfold fieldExpression at h
  obtain ⟨literals, hliterals, hp⟩ := bind_eq_ok_iff.mp h
  by_cases hany : (literals.isEmpty || decide (anyValue ∈ literals)) = true
  · rw [if_pos hany] at hp
    exact Or.inl (Except.ok.inj hp).symm
  · rw [if_neg hany] at hp
    simp only [Bool.or_eq_true, List.isEmpty_iff, decide_eq_true_eq, not_or] at hany
    exact Or.inr ⟨literals, hliterals, hany.1, hany.2, (Except.ok.inj hp).symm⟩

/-- An entry of an accepted mapping has exactly one part. -/
theorem IsAccepted.exists_parts_entry (h : IsAccepted (.mapping [entry])) :
    ∃ p, (Filter.mapping [entry]).parts = .ok [p] := by
  obtain ⟨key, f⟩ := entry
  cases hkey : combinator? key with
  | some op =>
    obtain ⟨ps, hps⟩ := isAccepted_iff.mp ((isAccepted_combinator_iff hkey).mp h)
    refine ⟨.group op ps, ?_⟩
    rw [parts_mapping_of_combinator hkey, hps]
    rfl
  | none =>
    obtain ⟨e, he⟩ := (isAccepted_field_iff hkey).mp h
    refine ⟨e, ?_⟩
    rw [parts_singleton_of_plain hkey, he]
    rfl

end Filter

end TileSchema
