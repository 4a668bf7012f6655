import TileSchema.Proofs.Code.CodeLines

/-!
# The first claim of an identifier

Each of the three modules in the module of a layer is a scope.  What is declared there is compared
with what the fields of the layer ask for, one by one in their order.  An identifier is made of a
field and a value, and the way it is split is lost, so different fields can ask for one identifier,
and a value can ask for the one of a list of values.

The first that asks for an identifier has it (`KeepsFirst`), as settling keeps the first.  What is
settled is what the written lines declare (`keepsFirst_fieldConstants` and its siblings), and what
their text declares where no text of the layer leaves its comment.  A value that breaks its comment
can hold a declaration of its own, and then an identifier is declared twice
(`not_keepsFirst_of_constant_in_value`).
-/

namespace TileSchema.Code

open Artifact (LayerArtifact LayerField)
open Text (constantCase snakeIdent)

/-! ### What fields ask for -/

/-- The constants that fields ask for, each with the name of the field. -/
def fieldConstants (fields : List LayerField) : List Constant :=
  fields.map fun f => .text (constantCase f.name) f.name

/-- The constants that the values of fields ask for: for each field one for each value, and behind
them one for the list of all values, if there are any. -/
def valueConstants (fields : List LayerField) : List Constant :=
  fields.flatMap fun f =>
    (f.allowedValues.map fun v => Constant.text (constantCase f.name ++ "_" ++ constantCase v) v) ++
      if f.allowedValues = [] then []
      else [Constant.list (constantCase f.name ++ "_VALUES") f.allowedValues]

/-- The functions that fields with rules ask for. -/
def fieldFunctions (fields : List LayerField) : List RuleFunction :=
  fields.filterMap fun f => f.mapping.map fun index => ⟨snakeIdent f.name, index.rules⟩

theorem map_fieldDeclarations (fields : List LayerField) :
    (fieldDeclarations fields).map (fun d => Constant.text d.ident d.name) =
      fieldConstants fields := List.map_map

theorem map_mappingDeclarations (fields : List LayerField) :
    (mappingDeclarations fields).map (fun d => RuleFunction.mk d.ident d.item.rules) =
      fieldFunctions fields := by
  rw [mappingDeclarations, List.map_filterMap, fieldFunctions]
  refine List.filterMap_congr fun f _ => ?_
  cases f.mapping <;> rfl

theorem map_valueDeclarations (fields : List LayerField) :
    (valueDeclarations fields).map valueConstant = valueConstants fields := by
  rw [valueDeclarations, List.map_flatMap, valueConstants]
  refine List.flatMap_congr fun f _ => ?_
  cases hvalues : f.allowedValues with
  | nil => simp [valueDeclarationsOf, hvalues]
  | cons v vs => simp [valueDeclarationsOf, valueConstant, hvalues, String.append_assoc]

/-! ### What the written lines declare -/

theorem keepsFirst_fieldConstants (l : LayerArtifact) :
    KeepsFirst Constant.ident (fieldConstants l.fields)
      ((innerLines "fields" (layerModule l).lines).filterMap constant?) := by
  obtain ⟨hfields, -, -⟩ := innerLines_lines (layerModule l)
  rw [hfields, filterMap_constant?_fieldLines (hasNames_layerModule l).fields,
    ← map_fieldDeclarations]
  exact (keepsFirst_kept _).map fun _ => rfl

theorem keepsFirst_valueConstants (l : LayerArtifact) :
    KeepsFirst Constant.ident (valueConstants l.fields)
      ((innerLines "field_values" (layerModule l).lines).filterMap constant?) := by
  obtain ⟨-, hvalues, -⟩ := innerLines_lines (layerModule l)
  have hident : ∀ d, (valueConstant d).ident = d.ident := by
    intro d
    unfold valueConstant
    cases d.item <;> rfl
  rw [hvalues, filterMap_constant?_valueLine (hasNames_layerModule l).values,
    ← map_valueDeclarations]
  exact (keepsFirst_kept _).map hident

theorem keepsFirst_fieldFunctions (l : LayerArtifact) :
    KeepsFirst RuleFunction.ident (fieldFunctions l.fields)
      (ruleFunctions (innerLines "field_mappings" (layerModule l).lines)) := by
  obtain ⟨-, -, hmappings⟩ := innerLines_lines (layerModule l)
  have huse : functionName? (indent 2 "use super::*;") = none := by decide
  rw [hmappings, ruleFunctions, huse, ruleFunctions_flatMap (hasNames_layerModule l).mappings,
    ← map_mappingDeclarations]
  exact (keepsFirst_kept _).map fun _ => rfl

/-! ### Main result -/

/-- In the module of every layer no text of which leaves its comment, the first claim of an identifier
wins and nothing else is lost.  What the text of the module declares in the modules inside is what
the fields, their values and their rules ask for, in this order, but for what asks for an identifier
that was asked for before; each identifier that is asked for is declared once, as the first wants it.
Values and lists of values share one scope over all fields. -/
theorem first_claims_are_declared {isBreak : Char → Bool} (hbreak : BreaksLines isBreak)
    (hend : isBreak '\n' = true) (l : LayerArtifact)
    (htexts : ∀ text ∈ layerTexts l, ContinuesComment isBreak text) :
    let lines := codeLines isBreak (unlines (layerModule l).lines)
    KeepsFirst Constant.ident (fieldConstants l.fields)
        ((innerLines "fields" lines).filterMap constant?) ∧
      KeepsFirst Constant.ident (valueConstants l.fields)
        ((innerLines "field_values" lines).filterMap constant?) ∧
      KeepsFirst RuleFunction.ident (fieldFunctions l.fields)
        (ruleFunctions (innerLines "field_mappings" lines)) := by
  dsimp only
  rw [filterMap_constant?_codeLines hbreak hend htexts (by decide),
    filterMap_constant?_codeLines hbreak hend htexts (by decide),
    ruleFunctions_codeLines hbreak hend htexts (by decide)]
  exact ⟨keepsFirst_fieldConstants l, keepsFirst_valueConstants l, keepsFirst_fieldFunctions l⟩

/-- A layer of peaks.  Two fields ask for one identifier, and so do a value and the list of values. -/
def peakLayer : LayerArtifact where
  id := "peak"
  description := "Summits"
  bufferSize := 4
  fields := [⟨"class", "", ["peak", "values"], some ⟨[⟨.matchField "ele", "peak"⟩]⟩⟩,
    ⟨"Class", "", [], none⟩]

/-- What the text of the layer of peaks declares is the first claim of each identifier. -/
theorem first_claims_are_declared_peaks :
    let lines := codeLines isLineEnd (unlines (layerModule peakLayer).lines)
    KeepsFirst Constant.ident [.text "CLASS" "class", .text "CLASS" "Class"]
        ((innerLines "fields" lines).filterMap constant?) ∧
      KeepsFirst Constant.ident [.text "CLASS_PEAK" "peak", .text "CLASS_VALUES" "values",
          .list "CLASS_VALUES" ["peak", "values"]]
        ((innerLines "field_values" lines).filterMap constant?) ∧
      KeepsFirst RuleFunction.ident [⟨"class", [⟨.matchField "ele", "peak"⟩]⟩]
        (ruleFunctions (innerLines "field_mappings" lines)) := by
  have hlayer : layerTexts peakLayer = ["peak", "peak", "values"] := by decide
  have hplain : ∀ text ∈ layerTexts peakLayer, IsPlainText text := by
    rw [hlayer]
    iterate 3 refine isPlainText_cons (by decide) ?_
    exact List.forall_mem_nil _
  have hfields : fieldConstants peakLayer.fields =
      [.text "CLASS" "class", .text "CLASS" "Class"] := by decide
  have hvalues : valueConstants peakLayer.fields = [.text "CLASS_PEAK" "peak",
      .text "CLASS_VALUES" "values", .list "CLASS_VALUES" ["peak", "values"]] := by decide
  have hfunctions : fieldFunctions peakLayer.fields =
      [⟨"class", [⟨.matchField "ele", "peak"⟩]⟩] := by
    have hname : snakeIdent "class" = "class" := by decide
    rw [fieldFunctions, peakLayer]
    simp [hname]
  rw [← hfields, ← hvalues, ← hfunctions]
  exact first_claims_are_declared breaksLines_isLineEnd rfl peakLayer fun text htext =>
    (hplain text htext).continuesComment breaksLines_isLineEnd

/-- The name of a peak, with a constant behind it in a line of its own. -/
def constantInValue : Filter := .mapping [
  ("peak\x60\n        pub const CLASS: &str = \"other\";\n        /// \x60hill",
    .mapping [("natural", .scalar "peak")])]

/-- A value that breaks its comment can declare the constant of the field again.  Then the text of the
module declares an identifier twice, first as no field asks for it. -/
theorem not_keepsFirst_of_constant_in_value :
    ∃ a files l before after,
      (Artifact.build (schemaWith "Summits" constantInValue) "v1").result = .ok a ∧
      (Artifact.render .code a).result = .ok files ∧ l ∈ a.layers ∧
      ⟨"schema.rs", before ++ unlines (layerModule l).lines ++ after⟩ ∈ files ∧
      let declared := (innerLines "fields"
        (codeLines isLineEnd (unlines (layerModule l).lines))).filterMap constant?
      fieldConstants l.fields = [.text "CLASS" "class"] ∧
      declared = [.text "CLASS" "other", .text "CLASS" "class"] ∧
      ¬ KeepsFirst Constant.ident (fieldConstants l.fields) declared := by
  obtain ⟨a, l, hbuild, hmodules, htypes, htraits, hl, hid, hasked, hcode⟩ : ∃ a l,
      (Artifact.build (schemaWith "Summits" constantInValue) "v1").result = .ok a ∧
      AreApart (moduleClaims a) ∧ AreApart (typeClaims a) ∧ AreApart (traitClaims a) ∧
      l ∈ a.layers ∧ l.id = "peak" ∧
      fieldConstants l.fields = [.text "CLASS" "class"] ∧
      (((layerModule l).fields.flatMap fieldLines).map (indent 2)).flatMap (codeLines isLineEnd) =
        [indent 2 (textConstant "CLASS" "other"), indent 2 (textConstant "CLASS" "class")] := by
    refine ⟨_, _, rfl, List.nodup_singleton _, List.nodup_nil, List.nodup_nil,
      List.mem_singleton.mpr rfl, rfl, ?_, ?_⟩
    · decide
    · decide
  obtain ⟨files, hrender⟩ := (exists_render_iff a).mpr ⟨hmodules, htypes, htraits⟩
  obtain ⟨before, after, hfile⟩ := exists_layerFile_eq_append hrender hl
  have hplain : IsPlainText l.id := by
    rw [hid]
    exact isPlainText_ofList (by decide)
  obtain ⟨rest, hinner⟩ := exists_innerLines_fields_eq (l := l) breaksLines_isLineEnd rfl
    (hplain.continuesComment breaksLines_isLineEnd)
  have hdeclared : (innerLines "fields"
      (codeLines isLineEnd (unlines (layerModule l).lines))).filterMap constant? =
        [.text "CLASS" "other", .text "CLASS" "class"] := by
    have hname : IsName "CLASS" := isName_ofList (by decide)
    have hblanks : ∀ line ∈ [indent 2 (textConstant "CLASS" "other"),
        indent 2 (textConstant "CLASS" "class")], blanks line ≠ blanks innerClosing := by
      rw [List.forall_mem_cons, List.forall_mem_singleton, blanks_indent, blanks_indent,
        blanks_textConstant, blanks_textConstant]
      exact ⟨by decide, by decide⟩
    rw [hinner, hcode, takeWhile_ne_closing hblanks,
      List.filterMap_cons_some (constant?_textConstant hname "other"),
      List.filterMap_cons_some (constant?_textConstant hname "class"), List.filterMap_nil]
  refine ⟨a, files, l, before, after, hbuild, hrender, hl, hfile, hasked, hdeclared, fun hkeeps => ?_⟩
  have hnodup := hkeeps.distinct
  rw [hdeclared] at hnodup
  exact absurd hnodup (by decide)

/-- A value can hold the identifier of the list of values. -/
example :
    (kept (valueDeclarations [⟨"class", "", ["values", "shop"], none⟩])).map valueConstant =
      [.text "CLASS_VALUES" "values", .text "CLASS_SHOP" "shop"] := by
  decide

end TileSchema.Code
