import Mathlib.Data.List.Forall2
import TileSchema.Artifact.Build
import TileSchema.Proofs.Code.FirstClaims
import TileSchema.Proofs.Filter.Leaves
import TileSchema.Proofs.Rules.FieldValues
import TileSchema.Proofs.Text.Declarable

/-!
# Functions that capture constructors

The rules of a layer call the constructors of expressions by names that come from outside of the
module with the functions.  A function that is declared in this module under such a name hides the
constructor from all rules of the module, its own among them, and they call the function instead.

Which constructors are called is read off the expressions of the rules: each node of an expression
is written as a call of the constructor of its kind (`callee_eq_word`).  Which names are declared
depends on the fields.  Nothing is put in front of the name of a field, so the function of a field
that spells the name of a constructor has this name (`snakeIdent_eq_word_iff`), and the module has a
function of this name, be it the one of another field.

So a constructor is captured just if the layer has a field with rules that spells it, and a rule
that calls it.  In a compiled layer the rules are positive, and neither negations nor questions for
a type are among what they call (`isPositive_of_compileLayer`).
-/

namespace TileSchema

open TileSchema.Filter (Expression)
open Text (foldChar guardStart isWordChar reservedWords snakeCase snakeIdent unrawableWords)

/-! ### Names of constructors -/

namespace Text

variable {cs ds : List Char} {c : Char} {name word : String}

/-- A name spells a word if it has the letters and digits of the word, in upper or lower case, and
any other characters where the word has underscores. -/
def Spells (name word : String) : Prop :=
  List.Forall₂ (fun c w => if isWordChar c then c.toLower = w else w = '_') name.toList word.toList

theorem spells_iff_map_foldChar : Spells name word ↔ name.toList.map foldChar = word.toList := by
  have hchar : ∀ c w : Char,
      (if isWordChar c then c.toLower = w else w = '_') ↔ foldChar c = w := by
    intro c w
    cases hc : isWordChar c with
    | true => rw [foldChar_of_isWordChar hc]; simp
    | false => rw [foldChar_of_not_isWordChar hc]; simp [eq_comm]
  rw [Spells, ← List.forall₂_eq_eq_eq, List.forall₂_map_left_iff]
  simp only [hchar]

/-- What starts with a letter has nothing put in front of it. -/
theorem guardStart_eq_cons_iff (hdigit : c.isDigit = false) (hunderscore : '_' ≠ c) :
    guardStart ds = c :: cs ↔ ds = c :: cs := by
  cases ds with
  | nil => simp [guardStart, hunderscore]
  | cons d ds =>
    rw [guardStart]
    cases hd : d.isDigit with
    | true =>
      have hne : d ≠ c := by
        rintro rfl
        exact absurd hd (by simp [hdigit])
      simp [hunderscore, hne]
    | false => simp

end Text

namespace Filter.Expression.Kind

/-- The name of a constructor needs no mark. -/
theorem word_notMem (k : Kind) : k.word ∉ unrawableWords ∧ k.word ∉ reservedWords := by
  cases k with
  | group op => cases op <;> simp [word, Connective.word, unrawableWords, reservedWords]
  | _ => simp [word, unrawableWords, reservedWords]

/-- The name of a constructor is not what a word is made with a mark. -/
theorem word_ne_marked (k : Kind) (s : String) : "r#" ++ s ≠ k.word := by
  have hmark : '#' ∉ k.word.toList := by
    cases k with
    | group op => cases op <;> decide
    | _ => decide
  intro heq
  exact hmark (by simp [← heq])

/-- The name of a constructor does not end as a word does that can have no mark. -/
theorem word_ne_append_underscore (k : Kind) : ∀ s ∈ unrawableWords, s ++ "_" ≠ k.word := by
  cases k with
  | group op => cases op <;> decide
  | _ => decide

/-- A field has the name of a constructor exactly if it spells it. -/
theorem snakeIdent_eq_word_iff (k : Kind) (name : String) :
    snakeIdent name = k.word ↔ Text.Spells name k.word := by
  obtain ⟨c, hc, cs, hword⟩ := k.exists_word_eq
  have hletters : ∀ c ∈ firstLetters, c.isDigit = false ∧ '_' ≠ c := by simp [firstLetters]
  have hfold : snakeCase name = k.word ↔ Text.Spells name k.word := by
    rw [Text.spells_iff_map_foldChar, ← String.toList_inj, Text.toList_snakeCase, hword]
    exact Text.guardStart_eq_cons_iff (hletters c hc).1 (hletters c hc).2
  rw [← hfold]
  rcases Text.snakeIdent_cases name with ⟨hmem, heq⟩ | ⟨-, hmem, heq⟩ | ⟨-, -, heq⟩
  · rw [heq]
    refine iff_of_false (k.word_ne_append_underscore _ hmem) fun hsnake => ?_
    exact k.word_notMem.1 (hsnake ▸ hmem)
  · rw [heq]
    refine iff_of_false (k.word_ne_marked _) fun hsnake => ?_
    exact k.word_notMem.2 (hsnake ▸ hmem)
  · rw [heq]

end Filter.Expression.Kind

/-! ### Called constructors -/

namespace Filter.Expression

variable {e m : Expression}

/-- The name in front of the first bracket in the text of an expression. -/
def callee (e : Expression) : String := String.ofList (e.text.toList.takeWhile (· ≠ '('))

/-- An expression is written as a call of the constructor of its kind. -/
theorem callee_eq_word (e : Expression) : e.callee = e.kind.word := by
  have hword : ∀ c ∈ e.kind.word.toList, decide (c ≠ '(') = true :=
    fun c hc => decide_eq_true (ne_of_mem_of_not_mem hc e.kind.bracket_notMem_word)
  have hchars : e.text.toList = e.kind.word.toList ++ '(' :: (e.argumentsChars ++ [')']) := by
    rw [toList_text, chars_eq]
    simp [callChars]
  rw [callee, hchars, Text.takeWhile_run hword (by simp), String.ofList_toList]

/-- The constructors that the text of an expression calls. -/
def calledWords (e : Expression) : List String := e.nodes.map callee

/-- All nodes of a positive expression are positive. -/
theorem IsPositive.of_mem_nodes (h : IsPositive e) (hm : m ∈ e.nodes) : IsPositive m := by
  induction h with
  | group hes ih =>
    rw [nodes_group, List.mem_cons] at hm
    rcases hm with rfl | hm
    · exact .group hes
    · obtain ⟨e, he, hm⟩ := List.mem_flatMap.mp hm
      exact ih e he hm
  | matchField key =>
    rw [List.mem_singleton.mp hm]
    exact .matchField key
  | matchAny key hne hany =>
    rw [List.mem_singleton.mp hm]
    exact .matchAny key hne hany

/-- The constructors that groups and questions for tags are made with. -/
def positiveWords : List String := ["and", "or", "match_field", "match_any"]

/-- A positive expression calls no other constructors. -/
theorem IsPositive.calledWords_subset (h : IsPositive e) : e.calledWords ⊆ positiveWords := by
  intro word hword
  obtain ⟨m, hm, rfl⟩ := List.mem_map.mp hword
  rw [callee_eq_word]
  cases h.of_mem_nodes hm with
  | @group op es => cases op <;> simp [kind, Kind.word, Connective.word, positiveWords]
  | matchField key => simp [kind, Kind.word, positiveWords]
  | matchAny key => simp [kind, Kind.word, positiveWords]

end Filter.Expression

namespace Code

open Artifact (LayerArtifact LayerField compileLayer fieldValues)
open TileSchema.Filter.Expression (IsPositive positiveWords)

variable {l : LayerArtifact} {layer : Layer} {word : String}

/-! ### Declared functions -/

/-- The functions that the module of a layer declares. -/
def layerFunctions (l : LayerArtifact) : List RuleFunction :=
  ruleFunctions (innerLines "field_mappings" (layerModule l).lines)

/-- Of the functions that fields ask for, the first of each name is declared. -/
theorem keepsFirst_layerFunctions (l : LayerArtifact) :
    KeepsFirst RuleFunction.ident (fieldFunctions l.fields) (layerFunctions l) :=
  keepsFirst_fieldFunctions l

/-- The fields with rules give the functions that are asked for. -/
theorem mem_fieldFunctions_iff {fields : List LayerField} {g : RuleFunction} :
    g ∈ fieldFunctions fields ↔
      ∃ f ∈ fields, ∃ index, f.mapping = some index ∧ ⟨snakeIdent f.name, index.rules⟩ = g := by
  simp only [fieldFunctions, List.mem_filterMap, Option.map_eq_some_iff]

/-! ### Captured constructors -/

/-- The constructors that the rules of a function call. -/
def RuleFunction.calledWords (f : RuleFunction) : List String :=
  f.rules.flatMap fun r => r.expression.calledWords

/-- Functions of one module capture a constructor if one of them has its name and the rules of one
of them call it. -/
def Captures (fs : List RuleFunction) (word : String) : Prop :=
  (∃ f ∈ fs, f.ident = word) ∧ ∃ f ∈ fs, word ∈ f.calledWords

/-- What rules call are the constructors of the nodes of their expressions. -/
theorem RuleFunction.mem_calledWords_iff {f : RuleFunction} :
    word ∈ f.calledWords ↔ ∃ r ∈ f.rules, ∃ e ∈ r.expression.nodes, e.kind.word = word := by
  simp only [RuleFunction.calledWords, Expression.calledWords, List.mem_flatMap, List.mem_map,
    Expression.callee_eq_word]

/-- What is called is a constructor. -/
theorem RuleFunction.exists_kind_of_mem_calledWords {f : RuleFunction} (h : word ∈ f.calledWords) :
    ∃ k : Filter.Expression.Kind, k.word = word := by
  obtain ⟨r, -, e, -, he⟩ := RuleFunction.mem_calledWords_iff.mp h
  exact ⟨e.kind, he⟩

/-- A layer declares a function with the name of a constructor exactly if a field with rules spells
it. -/
theorem exists_ident_eq_word_iff (l : LayerArtifact) (k : Filter.Expression.Kind) :
    (∃ f ∈ layerFunctions l, f.ident = k.word) ↔
      ∃ f ∈ l.fields, f.mapping.isSome = true ∧ Text.Spells f.name k.word := by
  rw [(keepsFirst_layerFunctions l).exists_ident_iff]
  constructor
  · rintro ⟨g, hg, hword⟩
    obtain ⟨f, hf, index, hindex, rfl⟩ := mem_fieldFunctions_iff.mp hg
    exact ⟨f, hf, by rw [hindex]; rfl, (k.snakeIdent_eq_word_iff f.name).mp hword⟩
  · rintro ⟨f, hf, hsome, hspells⟩
    obtain ⟨index, hindex⟩ := Option.isSome_iff_exists.mp hsome
    exact ⟨_, mem_fieldFunctions_iff.mpr ⟨f, hf, index, hindex, rfl⟩,
      (k.snakeIdent_eq_word_iff f.name).mpr hspells⟩

/-- A constructor is called exactly if it is called by the rules of a field that is the first to ask
for its function. -/
theorem exists_mem_calledWords_iff (l : LayerArtifact) :
    (∃ g ∈ layerFunctions l, word ∈ g.calledWords) ↔
      ∃ g ∈ fieldFunctions l.fields,
        (fieldFunctions l.fields).find? (fun g' => g'.ident = g.ident) = some g ∧
          word ∈ g.calledWords := by
  have hkept := keepsFirst_layerFunctions l
  constructor
  · rintro ⟨g, hg, hword⟩
    exact ⟨g, hkept.sublist.subset hg, hkept.mem_iff.mp hg, hword⟩
  · rintro ⟨g, -, hfirst, hword⟩
    exact ⟨g, hkept.mem_iff.mpr hfirst, hword⟩

/-! ### Compiled layers -/

theorem isPositive_of_fieldValues {place : String} {values : Option Filter}
    {allowed : List String} {index : RuleIndex String}
    (h : fieldValues place values = .ok (allowed, some index)) :
    ∀ r ∈ index.rules, IsPositive r.expression := by
  cases values with
  | none => cases h
  | some values =>
    obtain ⟨allowed', -, h⟩ := bind_eq_ok_iff.mp h
    cases hentries : valueFilters? values with
    | none =>
      rw [hentries] at h
      cases h
    | some entries =>
      rw [hentries] at h
      obtain ⟨index', hindex, h⟩ := bind_eq_ok_iff.mp h
      cases h
      obtain ⟨rules, hrules, rfl⟩ := map_eq_ok_iff.mp (mapError_eq_ok_iff.mp hindex)
      exact isPositive_of_fieldRules hrules

/-- The rules of a compiled layer are positive. -/
theorem isPositive_of_compileLayer (h : compileLayer layer = .ok l) :
    ∀ f ∈ l.fields, ∀ index, f.mapping = some index →
      ∀ r ∈ index.rules, IsPositive r.expression := by
  obtain ⟨fields, hfields, h⟩ := bind_eq_ok_iff.mp h
  cases h
  intro f hf index hindex
  obtain ⟨entry, -, hentry⟩ := exists_of_mem_mapM hfields f hf
  obtain ⟨⟨allowed, mapping⟩, hvalues, hentry⟩ := bind_eq_ok_iff.mp hentry
  cases hentry
  cases hindex
  exact isPositive_of_fieldValues hvalues

/-! ### Main result -/

/-- In the module of a layer with functions for its fields, a constructor is captured exactly if a
field with rules spells it and it is called by the rules of a field that is the first to ask for its
function.  Of the constructors, those of negations and of questions for a type are never captured in
a layer that is compiled from a schema.

The functions are read off the strings that are written as lines, so breaks inside a comment do not
count; the text of the module has the same functions where no text of the layer leaves its comment
(`ruleFunctions_codeLines`). -/
theorem captures_iff_spells (l : LayerArtifact) :
    (∀ word, Captures (layerFunctions l) word ↔
      (∃ f ∈ l.fields, f.mapping.isSome = true ∧ Text.Spells f.name word) ∧
        ∃ g ∈ fieldFunctions l.fields,
          (fieldFunctions l.fields).find? (fun g' => g'.ident = g.ident) = some g ∧
            word ∈ g.calledWords) ∧
      ∀ layer, compileLayer layer = .ok l → ∀ word, Captures (layerFunctions l) word →
        word ∈ positiveWords := by
  refine ⟨fun word => ?_, fun layer hlayer word hcaptures => ?_⟩
  · rw [Captures, exists_mem_calledWords_iff]
    refine and_congr_left fun hcalled => ?_
    obtain ⟨g, -, -, hword⟩ := hcalled
    obtain ⟨k, rfl⟩ := g.exists_kind_of_mem_calledWords hword
    exact exists_ident_eq_word_iff l k
  · obtain ⟨-, g, hg, hword⟩ := hcaptures
    have hasked := (keepsFirst_layerFunctions l).sublist.subset hg
    obtain ⟨f, hf, index, hindex, rfl⟩ := mem_fieldFunctions_iff.mp hasked
    obtain ⟨r, hr, hr'⟩ := List.mem_flatMap.mp hword
    exact (isPositive_of_compileLayer hlayer f hf index hindex r hr).calledWords_subset hr'

/-- A layer whose fields have rules. -/
def layerOfFields (fields : List (String × Filter)) : Layer where
  id := "sign"
  fields := fields.foldl (fun d f => d.put f.1 (.detailed "" (some f.2))) .empty

/-- The filters for two values, the second of which asks for one of two tags. -/
def signValues : Filter :=
  .mapping [("a", .mapping [("ref", .scalar "A")]),
    ("b", .mapping [("ref", .scalar "A"), ("name", .scalar "B")])]

/-- A layer with a field that spells the name of a constructor. -/
def guideLayer : Layer :=
  layerOfFields [("Or", .mapping [("a", .mapping [("ref", .scalar "A")])]), ("class", signValues)]

/-- A field captures the constructor that another field of its layer calls. -/
theorem captures_iff_spells_guide :
    ∃ l, compileLayer guideLayer = .ok l ∧ Captures (layerFunctions l) "or" ∧
      ¬ Captures (layerFunctions l) "match_type" := by
  obtain ⟨l, hl, f, hf, hname, hmapping, g, hg, hfirst, hword⟩ : ∃ l,
      compileLayer guideLayer = .ok l ∧
      ∃ f ∈ l.fields, f.name = "Or" ∧ f.mapping.isSome = true ∧
        ∃ g ∈ fieldFunctions l.fields,
          (fieldFunctions l.fields).find? (fun g' => g'.ident = g.ident) = some g ∧
            "or" ∈ g.calledWords := by
    refine ⟨_, rfl, _, List.mem_cons_self, rfl, rfl, _, List.mem_cons_of_mem _ List.mem_cons_self,
      rfl, RuleFunction.mem_calledWords_iff.mpr ?_⟩
    exact ⟨_, List.mem_cons_of_mem _ List.mem_cons_self, _, List.mem_cons_self, rfl⟩
  obtain ⟨hcaptures, hpositive⟩ := captures_iff_spells l
  refine ⟨l, hl, (hcaptures "or").mpr ⟨⟨f, hf, hmapping, ?_⟩, g, hg, hfirst, hword⟩, ?_⟩
  · rw [hname, Text.spells_iff_map_foldChar]
    decide
  · exact fun htype => absurd (hpositive _ hl _ htype) (by decide)

/-- A schema with a field that has the name of a constructor. -/
def signSchema : Schema where
  tileset := { layers := ["sign.yaml"] }
  layers := [layerOfFields [("or", signValues)]]
  tables := .empty

/-- A field with the name of a constructor captures it from its own rules, in a schema for which
code is generated. -/
theorem captures_of_field_or :
    ∃ a files, (Artifact.build signSchema "v1").result = .ok a ∧
      (Artifact.render .code a).result = .ok files ∧
      ∃ l ∈ a.layers, Captures (layerFunctions l) "or" := by
  obtain ⟨a, hbuild, hmodules, htypes, htraits, l, hl, f, hf, hname, hmapping, g, hg, hfirst, hword⟩ :
      ∃ a, (Artifact.build signSchema "v1").result = .ok a ∧
      AreApart (moduleClaims a) ∧ AreApart (typeClaims a) ∧ AreApart (traitClaims a) ∧
      ∃ l ∈ a.layers, ∃ f ∈ l.fields, f.name = "or" ∧ f.mapping.isSome = true ∧
        ∃ g ∈ fieldFunctions l.fields,
          (fieldFunctions l.fields).find? (fun g' => g'.ident = g.ident) = some g ∧
            "or" ∈ g.calledWords := by
    refine ⟨_, rfl, List.nodup_singleton _, List.nodup_nil, List.nodup_nil, _,
      List.mem_singleton.mpr rfl, _, List.mem_singleton.mpr rfl, rfl, rfl, _,
      List.mem_singleton.mpr rfl, rfl, RuleFunction.mem_calledWords_iff.mpr ?_⟩
    exact ⟨_, List.mem_cons_of_mem _ List.mem_cons_self, _, List.mem_cons_self, rfl⟩
  obtain ⟨files, hrender⟩ := (exists_render_iff a).mpr ⟨hmodules, htypes, htraits⟩
  have hspells : Text.Spells f.name "or" := by
    rw [hname, Text.spells_iff_map_foldChar]
    decide
  exact ⟨a, files, hbuild, hrender, l, hl,
    (exists_ident_eq_word_iff l (.group .or)).mpr ⟨f, hf, hmapping, hspells⟩,
    (exists_mem_calledWords_iff l).mpr ⟨g, hg, hfirst, hword⟩⟩

end Code

end TileSchema
