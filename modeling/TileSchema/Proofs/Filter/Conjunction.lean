import TileSchema.Proofs.Filter.Fields

/-!
# Conjunctions of filters

A mapping of several fields is satisfied as soon as one of its fields matches
(`satisfies_mapping_iff`).  Under the conjunction key, though, a mapping is not read as a filter of
its own: its fields become members of the conjunction next to those of its neighbours.  A
conjunction therefore asks for every entry of every filter in it
(`satisfies_conjunction_iff`), which is all of the filters only if each has one entry.

`conjunction_asks_for_every_entry` states both readings side by side and says exactly for which
filters they agree.
-/

namespace TileSchema.Filter

variable {el : Element} {f : Filter} {fs : List Filter} {p : Expression}
  {key : String} {values : Filter} {entry : String × Filter} {es : List (String × Filter)}

/-- A document that stands for a filter of its own: neither nothing nor a list of documents. -/
def StandsAlone : Filter → Prop
  | .null => False
  | .sequence _ => False
  | _ => True

/-- The entries of a mapping. -/
def entries : Filter → List (String × Filter)
  | .mapping es => es
  | _ => []

/-- The conjunction of filters, as a document. -/
def conjunction (fs : List Filter) : Filter := .mapping [(andKey, .sequence fs)]

/-- A conjunction means all of its filters if it is satisfied by exactly those elements that satisfy
each of them. -/
def MeansAll (fs : List Filter) : Prop :=
  ∀ el, Satisfies el (conjunction fs) ↔ ∀ f ∈ fs, Satisfies el f

@[simp] theorem entries_mapping (es : List (String × Filter)) :
    (Filter.mapping es).entries = es := rfl

/-- An accepted document that stands alone is a mapping. -/
theorem exists_eq_mapping (halone : f.StandsAlone) (h : IsAccepted f) : ∃ es, f = .mapping es := by
  cases f with
  | null => exact absurd halone not_false
  | scalar text =>
    obtain ⟨ps, hps⟩ := isAccepted_iff.mp h
    simp [parts] at hps
  | sequence items => exact absurd halone not_false
  | mapping es => exact ⟨es, rfl⟩

/-! ### Mappings -/

/-- A mapping is satisfied as soon as one of its entries is. -/
theorem satisfies_mapping_iff (h : IsAccepted (.mapping es)) :
    Satisfies el (.mapping es) ↔ ∃ entry ∈ es, Satisfies el (.mapping [entry]) := by
  simp only [satisfies_iff, isPart_mapping_iff h]
  constructor
  · rintro ⟨p, ⟨entry, hentry, hp⟩, heval⟩
    exact ⟨entry, hentry, p, hp, heval⟩
  · rintro ⟨entry, hentry, p, hp, heval⟩
    exact ⟨p, ⟨entry, hentry, hp⟩, heval⟩

/-- An entry is satisfied exactly if all its parts hold: it has only one. -/
theorem satisfies_entry_iff (h : IsAccepted (.mapping [entry])) :
    Satisfies el (.mapping [entry]) ↔
      ∀ p, IsPart p (.mapping [entry]) → p.evaluate el = true := by
  obtain ⟨q, hq⟩ := h.exists_parts_entry
  simp [satisfies_iff, isPart_iff_of_parts hq]

/-- A document under the conjunction key is satisfied exactly if all its parts hold. -/
theorem satisfies_and_iff (h : IsAccepted f) :
    Satisfies el (.mapping [(andKey, f)]) ↔ ∀ p, IsPart p f → p.evaluate el = true := by
  have hkey : combinator? andKey = some .and := by simp [combinator?]
  obtain ⟨ps, hps⟩ := isAccepted_iff.mp h
  simp only [satisfies_iff, isPart_combinator_iff hkey, isPart_iff_of_parts hps]
  constructor
  · rintro ⟨p, ⟨qs, hqs, rfl⟩, heval⟩
    rw [hps, Except.ok.injEq] at hqs
    rw [hqs]
    exact Expression.evaluate_and.mp heval
  · intro hall
    exact ⟨.and ps, ⟨ps, hps, rfl⟩, Expression.evaluate_and.mpr hall⟩

/-! ### The two readings -/

/-- A conjunction of accepted filters is accepted. -/
theorem isAccepted_conjunction (h : ∀ f ∈ fs, IsAccepted f) : IsAccepted (conjunction fs) := by
  have hkey : combinator? andKey = some .and := by simp [combinator?]
  exact (isAccepted_combinator_iff hkey).mpr (isAccepted_sequence_iff.mpr h)

/-- A conjunction asks for every entry of every filter in it. -/
theorem satisfies_conjunction_iff (h : ∀ f ∈ fs, f.StandsAlone ∧ IsAccepted f) :
    Satisfies el (conjunction fs) ↔
      ∀ f ∈ fs, ∀ entry ∈ f.entries, Satisfies el (.mapping [entry]) := by
  have haccepted : IsAccepted (.sequence fs) := isAccepted_sequence_iff.mpr fun f hf => (h f hf).2
  have hentry : ∀ f ∈ fs, ((∀ p, IsPart p f → p.evaluate el = true) ↔
      ∀ entry ∈ f.entries, Satisfies el (.mapping [entry])) := by
    intro f hf
    obtain ⟨halone, hacc⟩ := h f hf
    obtain ⟨es, rfl⟩ := exists_eq_mapping halone hacc
    simp only [isPart_mapping_iff hacc, entries_mapping]
    constructor
    · intro hall entry hmem
      exact (satisfies_entry_iff (hacc.of_mem_entries hmem)).mpr
        fun p hp => hall p ⟨entry, hmem, hp⟩
    · rintro hall p ⟨entry, hmem, hp⟩
      exact (satisfies_entry_iff (hacc.of_mem_entries hmem)).mp (hall entry hmem) p hp
  rw [conjunction, satisfies_and_iff haccepted]
  simp only [isPart_sequence_iff haccepted]
  constructor
  · intro hall f hf
    exact (hentry f hf).mp fun p hp => hall p ⟨f, hf, hp⟩
  · rintro hall p ⟨f, hf, hp⟩
    exact (hentry f hf).mpr (hall f hf) p hp

/-- If every filter has one entry, a conjunction means all of its filters. -/
theorem meansAll_of_length_eq_one (h : ∀ f ∈ fs, f.StandsAlone ∧ IsAccepted f)
    (hone : ∀ f ∈ fs, f.entries.length = 1) : MeansAll fs := by
  intro el
  rw [satisfies_conjunction_iff h]
  refine forall₂_congr fun f hf => ?_
  obtain ⟨es, rfl⟩ := exists_eq_mapping (h f hf).1 (h f hf).2
  obtain ⟨entry, hentries⟩ := List.length_eq_one_iff.mp (hone _ hf)
  rw [entries_mapping] at hentries
  simp [hentries]

/-! ### Telling fields apart -/

/-- Of two fields with different keys, the first can hold without the second. -/
theorem exists_satisfies_and_not_satisfies {k₁ k₂ : String} {v₁ : Filter} (v₂ : Filter)
    (hplain₁ : combinator? k₁ = none) (hplain₂ : combinator? k₂ = none) (hne : k₁ ≠ k₂)
    (h₁ : IsAccepted (.mapping [(k₁, v₁)])) :
    ∃ el, Satisfies el (.mapping [(k₁, v₁)]) ∧ ¬ Satisfies el (.mapping [(k₂, v₂)]) := by
  obtain ⟨value, hvalue⟩ := exists_admits v₁
  refine ⟨⟨[], [(k₁, value)]⟩, ?_, ?_⟩
  · rw [satisfies_field_iff hplain₁ h₁]
    exact ⟨value, by simp [Element.tag?], hvalue⟩
  · intro hsatisfies
    obtain ⟨value', htag, -⟩ := (satisfies_field_iff hplain₂ hsatisfies.isAccepted).mp hsatisfies
    simp [Element.tag?, hne.symm] at htag

/-- A conjunction of one mapping means that mapping only if there is one entry. -/
theorem length_eq_one_of_meansAll (hacc : IsAccepted (.mapping es)) (hkeys : (es.map Prod.fst).Nodup)
    (hmeans : MeansAll [.mapping es]) : es.length = 1 := by
  have hboth : ∀ el, (∀ entry ∈ es, Satisfies el (.mapping [entry])) ↔
      ∃ entry ∈ es, Satisfies el (.mapping [entry]) := by
    intro el
    have hel := hmeans el
    rw [satisfies_conjunction_iff (by simpa using ⟨trivial, hacc⟩)] at hel
    simpa [satisfies_mapping_iff hacc] using hel
  match es, hacc, hkeys, hboth with
  | [], _, _, hboth =>
    -- no entry fails, and none is satisfied
    have hnone := (hboth ⟨[], []⟩).mp (by simp)
    simp at hnone
  | [entry], _, _, _ => rfl
  | (k₁, v₁) :: (k₂, v₂) :: rest, hacc, hkeys, hboth =>
    have hplain := (isAccepted_mapping_cases hacc).resolve_left (by simp)
    have hne : k₁ ≠ k₂ := by
      intro heq
      simp [heq] at hkeys
    obtain ⟨el, hel₁, hel₂⟩ := exists_satisfies_and_not_satisfies v₂ (hplain (k₁, v₁) (by simp))
      (hplain (k₂, v₂) (by simp)) hne (hacc.of_mem_entries List.mem_cons_self)
    have hall := (hboth el).mpr ⟨(k₁, v₁), List.mem_cons_self, hel₁⟩
    exact absurd (hall (k₂, v₂) (by simp)) hel₂

/-! ### What a conjunction means -/

/-- A conjunction of filters that stand alone and are accepted is accepted.  It asks for every entry
of every filter, while a filter by itself asks for some entry only.  So for a list of filters and
all lists that leave some of them out, the conjunction means all of its filters exactly if each
filter has a single entry: a combinator, or one field. -/
theorem conjunction_asks_for_every_entry (fs : List Filter)
    (h : ∀ f ∈ fs, f.StandsAlone ∧ IsAccepted f) :
    IsAccepted (conjunction fs) ∧
      (∀ el, Satisfies el (conjunction fs) ↔
        ∀ f ∈ fs, ∀ entry ∈ f.entries, Satisfies el (.mapping [entry])) ∧
      (∀ el, ∀ f ∈ fs, Satisfies el f ↔ ∃ entry ∈ f.entries, Satisfies el (.mapping [entry])) ∧
      ((∀ f ∈ fs, (f.entries.map Prod.fst).Nodup) →
        ((∀ gs, gs.Sublist fs → MeansAll gs) ↔ ∀ f ∈ fs, f.entries.length = 1)) := by
  refine ⟨isAccepted_conjunction fun f hf => (h f hf).2, fun el => satisfies_conjunction_iff h,
    ?_, fun hkeys => ⟨?_, ?_⟩⟩
  · intro el f hf
    obtain ⟨es, rfl⟩ := exists_eq_mapping (h f hf).1 (h f hf).2
    exact satisfies_mapping_iff (h _ hf).2
  · intro hmeans f hf
    obtain ⟨es, rfl⟩ := exists_eq_mapping (h f hf).1 (h f hf).2
    have hsub : [Filter.mapping es].Sublist fs := List.singleton_sublist.mpr hf
    exact length_eq_one_of_meansAll (h _ hf).2 (hkeys _ hf) (hmeans _ hsub)
  · intro hone gs hsub
    exact meansAll_of_length_eq_one (fun f hf => h f (hsub.subset hf))
      fun f hf => hone f (hsub.subset hf)

/-- Two fields next to a third under the conjunction key: all three are asked for, which is not what
the two filters mean. -/
theorem conjunction_asks_for_every_entry_three_fields :
    ¬ Satisfies ⟨[], [("a", "1"), ("c", "x")]⟩
      (conjunction [.mapping [("a", .sequence []), ("b", .null)], .mapping [("c", .scalar "x")]]) ∧
    ¬ ∀ gs, gs.Sublist [.mapping [("a", .sequence []), ("b", .null)],
      .mapping [("c", .scalar "x")]] → MeansAll gs := by
  have hfilters : ∀ f ∈ [Filter.mapping [("a", .sequence []), ("b", .null)],
      Filter.mapping [("c", .scalar "x")]], f.StandsAlone ∧ IsAccepted f := by
    intro f hf
    rcases List.mem_pair.mp hf with rfl | rfl
    · exact ⟨trivial, _, rfl⟩
    · exact ⟨trivial, _, rfl⟩
  obtain ⟨-, hall, -, hmeans⟩ := conjunction_asks_for_every_entry _ hfilters
  constructor
  · rw [hall]
    intro hentries
    obtain ⟨e, he, heval⟩ := hentries _ List.mem_cons_self ("b", .null) (by simp)
    cases he
    revert heval
    decide
  · rw [hmeans (by simp)]
    simp

/-- A conjunction of one filter with two fields is not that filter: the element has one of the two
tags only. -/
theorem not_meansAll_of_two_fields :
    (Filter.mapping [("a", .sequence []), ("b", .sequence [])]).StandsAlone ∧
      IsAccepted (.mapping [("a", .sequence []), ("b", .sequence [])]) ∧
      ¬ MeansAll [.mapping [("a", .sequence []), ("b", .sequence [])]] := by
  refine ⟨trivial, ⟨_, rfl⟩, fun hmeans => ?_⟩
  have hel := hmeans ⟨[], [("a", "1")]⟩
  have hfilter : ∀ f ∈ [Filter.mapping [("a", .sequence []), ("b", .sequence [])]],
      Satisfies ⟨[], [("a", "1")]⟩ f := by
    rw [List.forall_mem_singleton]
    exact ⟨_, rfl, by decide⟩
  obtain ⟨e, he, heval⟩ := hel.mpr hfilter
  cases he
  revert heval
  decide

end TileSchema.Filter
