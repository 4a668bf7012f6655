import TileSchema.Filter.Basic
import TileSchema.Proofs.Decimal.Separation
import TileSchema.Proofs.Ordered.FirstPlace

/-!
# Keys that are read as one name

The keys of a YAML mapping are values of any kind, and the names in a filter are texts.  Two keys may
differ and have one text: the number one and the text of it, or a text under a tag and without.  A
mapping with such keys loses entries when it is read as a filter: each name stands at its first
place, with the value of its last entry.

In a whole document nothing is lost exactly if the texts of the keys differ within each mapping.  One
direction is by induction on the document.  For the other one, no mapping of a filter that was read
has a name twice (`nodup_of_mem_mappings_ofValue`), so mappings that are there entry by entry have
different texts.

Among keys without a tag that are no collections, only a text can be mixed up with something else:
the texts of all others determine them (`same_of_scalarText?`).
-/

namespace TileSchema

open Yaml (Value)
open Ordered (collect)

/-! ### Values and their mappings -/

namespace Yaml.Value

/-- Induction on values: the items of a sequence, and the values of a mapping, are taken together.
The keys of a mapping are not looked into. -/
theorem induction {motive : Value → Prop}
    (null : motive .null) (bool : ∀ b, motive (.bool b)) (int : ∀ n, motive (.int n))
    (float : ∀ x, motive (.float x)) (string : ∀ s, motive (.string s))
    (sequence : ∀ items, (∀ v ∈ items, motive v) → motive (.sequence items))
    (mapping : ∀ entries, (∀ entry ∈ entries, motive entry.2) → motive (.mapping entries))
    (tagged : ∀ tag v, motive v → motive (.tagged tag v)) (v : Value) : motive v := by
  refine @Value.rec motive (fun items => ∀ v ∈ items, motive v)
    (fun entries => ∀ entry ∈ entries, motive entry.2) (fun entry => motive entry.2)
    null bool int float string sequence mapping tagged ?_ ?_ ?_ ?_ (fun _ _ _ h => h) v
  · simp
  · exact fun v vs hv hvs => List.forall_mem_cons.mpr ⟨hv, hvs⟩
  · simp
  · exact fun entry es hentry hes => List.forall_mem_cons.mpr ⟨hentry, hes⟩

mutual

/-- The mappings in a value, at any depth. -/
def mappings : Value → List (List (Value × Value))
  | .sequence items => mappingsOfItems items
  | .mapping entries => entries :: mappingsOfEntries entries
  | .tagged _ v => mappings v
  | _ => []

/-- The mappings in the items of a sequence. -/
def mappingsOfItems : List Value → List (List (Value × Value))
  | [] => []
  | v :: vs => mappings v ++ mappingsOfItems vs

/-- The mappings in the values of a mapping. -/
def mappingsOfEntries : List (Value × Value) → List (List (Value × Value))
  | [] => []
  | (_, v) :: es => mappings v ++ mappingsOfEntries es

end

@[simp] theorem mappingsOfItems_eq_flatMap (vs : List Value) :
    mappingsOfItems vs = vs.flatMap mappings := by
  induction vs with
  | nil => rfl
  | cons v vs ih => simp [mappingsOfItems, ih]

@[simp] theorem mappingsOfEntries_eq_flatMap (es : List (Value × Value)) :
    mappingsOfEntries es = es.flatMap fun e => mappings e.2 := by
  induction es with
  | nil => rfl
  | cons e es ih => simp [mappingsOfEntries, ih]

/-- A text. -/
def isString : Value → Bool
  | .string _ => true
  | _ => false

/-- A key that has no tag and is no collection. -/
def isPlain : Value → Bool
  | .sequence _ | .mapping _ | .tagged .. => false
  | _ => true

end Yaml.Value

namespace Filter

/-! ### Filters and their mappings -/

mutual

/-- The mappings in a filter document, at any depth. -/
def mappings : Filter → List (List (String × Filter))
  | .sequence items => mappingsOfItems items
  | .mapping entries => entries :: mappingsOfEntries entries
  | _ => []

/-- The mappings in the items of a list. -/
def mappingsOfItems : List Filter → List (List (String × Filter))
  | [] => []
  | f :: fs => mappings f ++ mappingsOfItems fs

/-- The mappings in the values of a mapping. -/
def mappingsOfEntries : List (String × Filter) → List (List (String × Filter))
  | [] => []
  | (_, f) :: es => mappings f ++ mappingsOfEntries es

end

@[simp] theorem mappingsOfItems_eq_flatMap (fs : List Filter) :
    mappingsOfItems fs = fs.flatMap mappings := by
  induction fs with
  | nil => rfl
  | cons f fs ih => simp [mappingsOfItems, ih]

@[simp] theorem mappingsOfEntries_eq_flatMap (es : List (String × Filter)) :
    mappingsOfEntries es = es.flatMap fun e => mappings e.2 := by
  induction es with
  | nil => rfl
  | cons e es ih => simp [mappingsOfEntries, ih]

/-! ### Reading -/

/-- An entry as it is read: its key as a name, and its value as a filter. -/
def readEntry (e : Value × Value) : String × Filter := (keyText e.1, ofValue e.2)

@[simp] theorem ofItems_eq_map (vs : List Value) : ofItems vs = vs.map ofValue := by
  induction vs with
  | nil => rfl
  | cons v vs ih => rw [ofItems, ih, List.map_cons]

@[simp] theorem ofEntries_eq_map (es : List (Value × Value)) : ofEntries es = es.map readEntry := by
  induction es with
  | nil => rfl
  | cons e es ih => rw [ofEntries, ih, List.map_cons, readEntry]

theorem map_fst_map_readEntry (es : List (Value × Value)) :
    (es.map readEntry).map Prod.fst = es.map fun e => keyText e.1 := List.map_map

/-- In a filter that was read, no mapping has a name twice. -/
theorem nodup_of_mem_mappings_ofValue (v : Value) :
    ∀ es ∈ (ofValue v).mappings, (es.map Prod.fst).Nodup := by
  induction v using Value.induction with
  | null | bool | int | float | string => simp [ofValue, mappings]
  | tagged tag v ih => simpa [ofValue] using ih
  | sequence items ih =>
    simp only [ofValue, ofItems_eq_map, mappings, mappingsOfItems_eq_flatMap, List.flatMap_map]
    intro es hes
    obtain ⟨v, hv, hes⟩ := List.mem_flatMap.mp hes
    exact ih v hv es hes
  | mapping entries ih =>
    simp only [ofValue, ofEntries_eq_map, mappings, mappingsOfEntries_eq_flatMap]
    intro es hes
    rcases List.mem_cons.mp hes with rfl | hes
    · rw [Ordered.map_fst_collect]
      exact Ordered.nodup_distinct _
    · obtain ⟨e, he, hes⟩ := List.mem_flatMap.mp hes
      obtain ⟨entry, hentry, rfl⟩ := List.mem_map.mp (Ordered.mem_of_mem_collect he)
      exact ih entry hentry es hes

/-- If the texts of the keys differ within each mapping, the mappings are read entry by entry. -/
theorem mappings_ofValue (v : Value)
    (h : ∀ entries ∈ v.mappings, (entries.map fun e => keyText e.1).Nodup) :
    (ofValue v).mappings = v.mappings.map fun entries => entries.map readEntry := by
  induction v using Value.induction with
  | null | bool | int | float | string => simp [ofValue, mappings, Value.mappings]
  | tagged tag v ih =>
    rw [Value.mappings] at h ⊢
    exact ih h
  | sequence items ih =>
    simp only [Value.mappings, Value.mappingsOfItems_eq_flatMap] at h ⊢
    simp only [ofValue, ofItems_eq_map, mappings, mappingsOfItems_eq_flatMap, List.flatMap_map,
      List.map_flatMap]
    refine List.flatMap_congr fun v hv => ih v hv fun es hes => h es ?_
    exact List.mem_flatMap.mpr ⟨v, hv, hes⟩
  | mapping entries ih =>
    simp only [Value.mappings, Value.mappingsOfEntries_eq_flatMap, List.forall_mem_cons] at h ⊢
    have hnames : ((entries.map readEntry).map Prod.fst).Nodup := by
      rw [map_fst_map_readEntry]
      exact h.1
    simp only [ofValue, ofEntries_eq_map, Ordered.collect_of_nodup hnames, mappings,
      mappingsOfEntries_eq_flatMap, List.flatMap_map, List.map_cons, List.map_flatMap]
    refine congrArg _ (List.flatMap_congr fun e he => ih e he fun es hes => h.2 es ?_)
    exact List.mem_flatMap.mpr ⟨e, he, hes⟩

/-! ### Texts of keys -/

/-- Floating-point numbers of one text are the same key. -/
theorem sameFloat_of_text_eq {x y : Float}
    (h : Decimal.text Decimal.scalarStyle x = Decimal.text Decimal.scalarStyle y) :
    Value.sameFloat x y = true := by
  unfold Value.sameFloat
  rcases Decimal.eq_or_isNan_of_text_eq h with rfl | ⟨hx, hy⟩
  · cases hx : Decimal.isNan x with
    | true => rw [if_pos rfl]
    | false =>
      rw [if_neg Bool.false_ne_true]
      exact Decimal.beq_self_of_isNan_eq_false hx
  · rw [if_pos hx, hy]

/-- The words for the scalars that are neither numbers nor texts. -/
def words : List String := ["null", "true", "false"]

/-- The scalar that a word is for. -/
def wordValue (w : String) : Value := if w = "null" then .null else .bool (w = "true")

/-- An integer is not written as a word. -/
theorem toString_notMem_words (n : Int) : toString n ∉ words := by
  have hletter : ∀ w ∈ words, ∃ c ∈ w.toList, c.isDigit = false ∧ c ≠ '-' := by
    simp [words]
  intro hw
  obtain ⟨c, hc, hdigit, hminus⟩ := hletter _ hw
  rcases Decimal.isDigit_or_eq_minus_of_mem_toString n c hc with h | h
  · rw [hdigit] at h
    cases h
  · exact hminus h

/-- A floating-point number is not written as a word. -/
theorem text_notMem_words (x : Float) : Decimal.text Decimal.scalarStyle x ∉ words := by
  have hwords : ∀ w ∈ words, Decimal.readNumber? w.toList = none ∧
      w ≠ ".nan" ∧ w ≠ ".inf" ∧ w ≠ "-.inf" := by decide
  intro hw
  obtain ⟨hread, hnan, hinf, hneg⟩ := hwords _ hw
  rw [Decimal.readNumber?_toList_text] at hread
  have hfinite : Decimal.isFinite x = false := by
    cases hx : Decimal.isFinite x <;> simp [hx] at hread ⊢
  rcases Decimal.text_of_isFinite_eq_false hfinite with ⟨-, htext⟩ | ⟨negative, -, htext⟩
  · exact hnan htext
  · cases negative
    · exact hinf htext
    · exact hneg htext

/-- What is written as a word is the scalar that the word is for. -/
theorem eq_wordValue {v : Value} {w : String} (hw : w ∈ words) (hv : Yaml.scalarText? v = some w) :
    v = wordValue w := by
  cases v with
  | null =>
    cases hv
    rfl
  | bool b =>
    cases b <;> cases hv <;> rfl
  | int n =>
    cases hv
    exact absurd hw (toString_notMem_words n)
  | float x =>
    cases hv
    exact absurd hw (text_notMem_words x)
  | string | sequence | mapping | tagged => cases hv

/-- What is not written as a word is a number. -/
theorem number_cases {v : Value} {s : String} (hs : s ∉ words) (hv : Yaml.scalarText? v = some s) :
    (∃ n, v = .int n ∧ s = toString n) ∨
      ∃ x, v = .float x ∧ s = Decimal.text Decimal.scalarStyle x := by
  cases v with
  | null =>
    cases hv
    exact absurd (by decide) hs
  | bool b =>
    cases hv
    exact absurd (by cases b <;> decide) hs
  | int n => exact .inl ⟨n, rfl, (Option.some.inj hv).symm⟩
  | float x => exact .inr ⟨x, rfl, (Option.some.inj hv).symm⟩
  | string | sequence | mapping | tagged => cases hv

/-- The text of a scalar that is no text itself determines it. -/
theorem same_of_scalarText? {k l : Value} {s : String} (hk : Yaml.scalarText? k = some s)
    (hl : Yaml.scalarText? l = some s) : k.same l = true := by
  by_cases hs : s ∈ words
  · rw [eq_wordValue hs hk, eq_wordValue hs hl, wordValue]
    split
    · rfl
    · simp [Value.same]
  · rcases number_cases hs hk with ⟨n, rfl, hn⟩ | ⟨x, rfl, hx⟩
    · rcases number_cases hs hl with ⟨m, rfl, hm⟩ | ⟨y, rfl, hy⟩
      · have heq : n = m := Int.repr_inj.mp (hn.symm.trans hm)
        simp [Value.same, heq]
      · exact absurd (hy.symm.trans hn) (Decimal.text_ne_toString y n)
    · rcases number_cases hs hl with ⟨m, rfl, hm⟩ | ⟨y, rfl, hy⟩
      · exact absurd (hx.symm.trans hm) (Decimal.text_ne_toString x m)
      · exact sameFloat_of_text_eq (hx.symm.trans hy)

/-- A plain key that is no text is read as the text of a scalar. -/
theorem scalarText?_of_isPlain {k : Value} (hk : k.isPlain = true) (hs : k.isString = false) :
    Yaml.scalarText? k = some (keyText k) := by
  cases k with
  | null | bool | int | float => rfl
  | string => cases hs
  | sequence | mapping | tagged => cases hk

/-- A text is read as itself. -/
theorem eq_string_of_isString {k : Value} (hk : k.isString = true) : k = .string (keyText k) := by
  cases k with
  | string s => rfl
  | null | bool | int | float | sequence | mapping | tagged => cases hk

/-- Plain keys of one text are the same key, or one of them is a text and the other is not. -/
theorem same_or_isString_ne {k l : Value} (hk : k.isPlain = true) (hl : l.isPlain = true)
    (h : keyText k = keyText l) : k.same l = true ∨ k.isString ≠ l.isString := by
  by_cases hstring : k.isString = l.isString
  · left
    cases hks : k.isString with
    | true =>
      rw [eq_string_of_isString hks, eq_string_of_isString (hstring.symm.trans hks), h]
      simp [Value.same]
    | false =>
      have hltext := scalarText?_of_isPlain hl (hstring.symm.trans hks)
      rw [← h] at hltext
      exact same_of_scalarText? (scalarText?_of_isPlain hk hks) hltext
  · exact .inr hstring

/-! ### Main result -/

/-- Reading a value as a filter keeps the entries of all mappings in it, at any depth, exactly if the
texts of the keys differ within each of them.  In any case a mapping is read with one entry for each
text of a key, at the place of the first entry with this text and with the value of the last one.
Different keys that have no tags and are no collections have different texts, unless one of them is
a text and the other is not. -/
theorem entries_kept_iff_key_texts_differ :
    (∀ v : Value, (ofValue v).mappings = (v.mappings.map fun entries => entries.map readEntry) ↔
      ∀ entries ∈ v.mappings, (entries.map fun e => keyText e.1).Nodup) ∧
    (∀ entries, ∃ es, ofValue (.mapping entries) = .mapping es ∧
      es.map Prod.fst = (entries.map fun e => keyText e.1).eraseDups ∧
      ∀ name, es.lookup name = (entries.reverse.map readEntry).lookup name) ∧
    ∀ k l : Value, k.isPlain = true → l.isPlain = true → keyText k = keyText l →
      k.same l = true ∨ k.isString ≠ l.isString := by
  refine ⟨fun v => ⟨fun hread entries hentries => ?_, mappings_ofValue v⟩, fun entries => ?_,
    fun k l => same_or_isString_ne⟩
  · have hmem : entries.map readEntry ∈ (ofValue v).mappings := by
      rw [hread]
      exact List.mem_map_of_mem hentries
    rw [← map_fst_map_readEntry]
    exact nodup_of_mem_mappings_ofValue v _ hmem
  · refine ⟨collect (entries.map readEntry), by simp [ofValue], ?_, fun name => ?_⟩
    · rw [Ordered.map_fst_collect, map_fst_map_readEntry, Ordered.distinct_eq_eraseDups]
    · rw [Ordered.lookup_collect, List.map_reverse]

/-- A list with a mapping from a text and from null. -/
def laneFilter : Value :=
  .sequence [.mapping [(.string "lanes", .sequence [.int 2, .int 3]), (.null, .bool true)]]

/-- A mapping from a text and from null is read entry by entry; the number two and its text are two
plain keys of one text. -/
theorem entries_kept_iff_key_texts_differ_lanes :
    ((∀ entries ∈ laneFilter.mappings, (entries.map fun e => keyText e.1).Nodup) ∧
      (ofValue laneFilter).mappings = laneFilter.mappings.map fun entries => entries.map readEntry) ∧
    Value.isPlain (.int 2) = true ∧ Value.isPlain (.string "2") = true ∧
    keyText (.int 2) = keyText (.string "2") ∧
    (Value.same (.int 2) (.string "2") = true ∨
      Value.isString (.int 2) ≠ Value.isString (.string "2")) := by
  have htexts : ∀ entries ∈ laneFilter.mappings, (entries.map fun e => keyText e.1).Nodup := by
    decide
  obtain ⟨hread, -, hplain⟩ := entries_kept_iff_key_texts_differ
  exact ⟨⟨htexts, (hread laneFilter).mpr htexts⟩, rfl, rfl, rfl,
    hplain (.int 2) (.string "2") rfl rfl rfl⟩

/-- The number one and its text are different keys, but one entry is read for both. -/
theorem entry_lost_to_text_of_number :
    [(Value.int 1, Value.string "a"), (Value.string "1", Value.string "b")].Pairwise
      (fun d e => d.1.same e.1 = false) ∧
    ofValue (.mapping [(.int 1, .string "a"), (.string "1", .string "b")]) =
      .mapping [("1", .scalar "b")] ∧
    [(Value.int 1, Value.string "a"), (Value.string "1", Value.string "b")].map readEntry =
      [("1", .scalar "a"), ("1", .scalar "b")] :=
  ⟨by decide, rfl, rfl⟩

end Filter

end TileSchema
