import TileSchema.Proofs.Code.CommentLines
import TileSchema.Proofs.Code.LayerItems
import TileSchema.Proofs.Code.RowModule

/-!
# Texts of a schema in comments

Texts of a schema stand in many comments of the generated code.  Descriptions are put on one line
first, so that they cannot break it.  The names of layers, tables and fields and the values of
fields stand there as they are, and the comment ends with its line only if they do not break it, or
go on as a comment where they do.

Both files are gone through part by part.  All lines are plain but the comments that such a text
stands in.  So a property that plain texts have holds of all lines of a file exactly if these
comments have it (`forall_rowFileLines_iff`, `forall_layerFileLines_iff`): that they stay comments,
from which `comments_end_with_line_iff` follows, and that they are comments to begin with
(`isWritten_rowFileLines`, `isWritten_layerLines`).
-/

namespace TileSchema.Code

open Artifact (ArtifactSet LayerArtifact LayerField RenderedFile)
open Table (Compiled Extraction Field FieldType)

variable {isBreak : Char → Bool} {schema : Schema} {source name : String} {a : ArtifactSet}
  {m : RowModule} {r : RowDeclaration} {files : List RenderedFile} {P : String → Prop}

/-! ### What all files share -/

/-- The first lines of a file. -/
theorem isPlainText_preamble : ∀ line ∈ preamble, IsPlainText line := by
  unfold preamble noticeLines warningLine
  simp only [List.cons_append, List.nil_append]
  repeat refine isPlainText_cons (by decide) ?_
  exact List.forall_mem_nil _

theorem isPlainText_expressionImports : IsPlainText expressionImports :=
  (isPlainText_ofList (by decide)).append (isPlainText_ofList (by decide))

/-- What all rows share. -/
theorem isPlainText_sharedLines (source : String) :
    ∀ line ∈ sharedLines source, IsPlainText line := by
  simp only [sharedLines, lintLine]
  refine isPlainText_cons (by decide) ?_
  refine isPlainText_cons_between (isPlainText_oneLine source) (by decide) (by decide) ?_
  iterate 11 refine isPlainText_cons (by decide) ?_
  refine List.forall_mem_cons.mpr ⟨isPlainText_expressionImports, ?_⟩
  repeat refine isPlainText_cons (by decide) ?_
  exact List.forall_mem_nil _

/-- Of a comment in front of plain lines, only the comment matters. -/
theorem forall_cons_doc_iff {doc : String} {ls : List String} (hP : ∀ s, IsPlainText s → P s)
    (hls : ∀ line ∈ ls, IsPlainText line) : (∀ line ∈ "" :: doc :: ls, P line) ↔ P doc := by
  rw [List.forall_mem_cons, List.forall_mem_cons]
  constructor
  · rintro ⟨-, hdoc, -⟩
    exact hdoc
  · intro hdoc
    exact ⟨hP _ isPlainText_empty, hdoc, fun line hline => hP line (hls line hline)⟩

/-! ### Rows -/

theorem isPlainText_storedType (type : FieldType) : IsPlainText (storedType type) := by
  cases type
  all_goals exact isPlainText_ofList (by decide)

theorem isPlainText_accessorType (type : FieldType) : IsPlainText (accessorType type) := by
  cases type
  all_goals exact isPlainText_ofList (by decide)

/-- What an accessor gives is plain. -/
theorem isPlainText_accessorBody (type : FieldType) (h : IsName name) :
    IsPlainText (accessorBody type name) := by
  cases type with
  | string => exact h.isPlainText.between (by decide) (by decide)
  | boolean => exact (isPlainText_ofList (by decide)).append h.isPlainText
  | integer => exact (isPlainText_ofList (by decide)).append h.isPlainText
  | rawElement => exact (isPlainText_ofList (by decide)).append h.isPlainText

/-- How a constructor reads a field is plain: the key of a tag is quoted. -/
theorem isPlainText_extractionCode (x : Extraction) : IsPlainText (extractionCode x) := by
  rcases x with key | key | key | _ | key | _ | _ | _
  · exact (isPlainText_quote key).between (by decide) (by decide)
  · exact (isPlainText_quote key).between (by decide) (by decide)
  · exact (isPlainText_quote key).between (by decide) (by decide)
  · exact isPlainText_ofList (by decide)
  · exact (isPlainText_quote key).between (by decide) (by decide)
  · exact isPlainText_ofList (by decide)
  · exact isPlainText_ofList (by decide)
  · exact isPlainText_ofList (by decide)

theorem isPlainText_keyParameterOf (fields : List Field) : IsPlainText (keyParameterOf fields) := by
  unfold keyParameterOf
  split
  · exact isPlainText_ofList (by decide)
  · exact isPlainText_ofList (by decide)

/-- The structure of a row type is plain behind its comment. -/
theorem isPlainText_structureLines {t : Compiled} (h : IsName t.rowType) :
    ∀ line ∈ (structureLines (rowDeclaration t)).tail, IsPlainText line := by
  have hmembers : ∀ line ∈ (rowDeclaration t).members.map
      (fun m => "    pub " ++ m.ident ++ ": " ++ m.type ++ ","), IsPlainText line := by
    simp only [rowDeclaration, List.forall_mem_map]
    intro f _
    have hname : IsName (memberOf f).ident := isName_snakeIdent f.name
    exact (hname.isPlainText.between (by decide) (by decide)).append_between
      (isPlainText_storedType f.type) (by decide)
  unfold structureLines
  simp only [List.cons_append, List.tail_cons, List.nil_append]
  refine isPlainText_cons (by decide) ?_
  refine isPlainText_cons_between h.isPlainText (by decide) (by decide) ?_
  rw [List.forall_mem_append]
  exact ⟨hmembers, isPlainText_cons (by decide) (List.forall_mem_nil _)⟩

/-- What belongs to a row type itself is plain. -/
theorem isPlainText_inherentLines {t : Compiled} (h : IsName t.rowType) :
    ∀ line ∈ inherentLines (rowDeclaration t), IsPlainText line := by
  have hinitializers : ∀ line ∈ (rowDeclaration t).initializers.map
      (fun i => "            " ++ i.ident ++ ": " ++ i.value ++ ","), IsPlainText line := by
    simp only [rowDeclaration, List.forall_mem_map]
    intro f _
    have hname : IsName (initializerOf f).ident := isName_snakeIdent f.name
    exact (hname.isPlainText.between (by decide) (by decide)).append_between
      (isPlainText_extractionCode f.extraction) (by decide)
  have hexpression : IsPlainText ("        " ++ t.expression.text) :=
    (isPlainText_ofList (by decide)).append (isPlainText_text t.expression)
  unfold inherentLines
  simp only [List.forall_mem_append]
  refine ⟨⟨?_, hinitializers⟩, ?_⟩
  · refine isPlainText_cons_between h.isPlainText (by decide) (by decide) ?_
    refine isPlainText_cons_between (isPlainText_quote _) (by decide) (by decide) ?_
    iterate 3 refine isPlainText_cons (by decide) ?_
    refine List.forall_mem_cons.mpr ⟨hexpression, ?_⟩
    iterate 2 refine isPlainText_cons (by decide) ?_
    refine isPlainText_cons_between (isPlainText_keyParameterOf _) (by decide) (by decide) ?_
    exact isPlainText_cons (by decide) (List.forall_mem_nil _)
  · iterate 3 refine isPlainText_cons (by decide) ?_
    exact List.forall_mem_nil _

/-- The row trait and the trait of handlers are plain. -/
theorem isPlainText_rowTraitLines (h : r.HasNames) : ∀ line ∈ rowTraitLines r, IsPlainText line := by
  have hrow : IsPlainText r.rowType := h.rowType.isPlainText
  unfold rowTraitLines
  refine isPlainText_cons_between hrow (by decide) (by decide) ?_
  iterate 5 refine isPlainText_cons (by decide) ?_
  refine isPlainText_cons_between hrow (by decide) (by decide) ?_
  refine isPlainText_cons_between h.handler.isPlainText (by decide) (by decide) ?_
  refine isPlainText_cons_between hrow (by decide) (by decide) ?_
  exact isPlainText_cons (by decide) (List.forall_mem_nil _)

/-- The implementation of an accessor trait is plain. -/
theorem isPlainText_accessorImplLines (h : IsName name) (f : Field) :
    ∀ line ∈ accessorImplLines name (accessorImplOf f), IsPlainText line := by
  have htrait : IsName (accessorTrait f.name) := isName_upperCamel _
  have hmethod : IsName (Text.snakeIdent f.name) := isName_snakeIdent f.name
  unfold accessorImplLines
  refine isPlainText_cons (by decide) (List.forall_mem_cons.mpr ⟨?_, ?_⟩)
  · exact (htrait.isPlainText.between (by decide) (by decide)).append_between h.isPlainText
      (by decide)
  refine List.forall_mem_cons.mpr ⟨?_, List.forall_mem_cons.mpr ⟨?_, ?_⟩⟩
  · exact (hmethod.isPlainText.between (by decide) (by decide)).append_between
      (isPlainText_accessorType f.type) (by decide)
  · exact (isPlainText_ofList (by decide)).append (isPlainText_accessorBody f.type hmethod)
  · iterate 2 refine isPlainText_cons (by decide) ?_
    exact List.forall_mem_nil _

/-- Of the lines of a row type, only the comment that mentions its table may fail to be plain. -/
theorem forall_rowLines_iff (hP : ∀ s, IsPlainText s → P s) {t : Compiled} (h : IsName t.rowType) :
    (∀ line ∈ (rowDeclaration t).lines, P line) ↔ P (rowDoc t.tableName) := by
  have haccessors : ∀ line ∈ (rowDeclaration t).accessors.flatMap (accessorImplLines t.rowType),
      IsPlainText line := by
    simp only [rowDeclaration, List.forall_mem_flatMap, List.forall_mem_map]
    exact fun f _ => isPlainText_accessorImplLines h f
  have hlines : (rowDeclaration t).lines = "" :: rowDoc t.tableName ::
      ((structureLines (rowDeclaration t)).tail ++ "" :: inherentLines (rowDeclaration t) ++
        "" :: rowTraitLines (rowDeclaration t) ++
          (rowDeclaration t).accessors.flatMap (accessorImplLines t.rowType)) := rfl
  rw [hlines]
  refine forall_cons_doc_iff hP ?_
  simp only [List.forall_mem_append, List.forall_mem_cons]
  exact ⟨⟨⟨isPlainText_structureLines h, isPlainText_empty, isPlainText_inherentLines h⟩,
    isPlainText_empty, isPlainText_rowTraitLines (hasNames_rowDeclaration h)⟩, haccessors⟩

/-! ### Traits and dispatch -/

/-- Of the lines of an accessor trait, only the comment that mentions its field may fail to be
plain. -/
theorem forall_accessorLines_iff (hP : ∀ s, IsPlainText s → P s) (field : String)
    (type : FieldType) :
    (∀ line ∈ (accessorDeclaration field type).lines, P line) ↔
      P (accessorDoc (accessorDeclaration field type)) := by
  have htrait : IsName (accessorTrait field) := isName_upperCamel _
  have hmethod : IsName (Text.snakeIdent field) := isName_snakeIdent field
  unfold AccessorDeclaration.lines
  refine forall_cons_doc_iff hP ?_
  refine isPlainText_cons_between htrait.isPlainText (by decide) (by decide) ?_
  refine List.forall_mem_cons.mpr ⟨?_, isPlainText_cons (by decide) (List.forall_mem_nil _)⟩
  exact (hmethod.isPlainText.between (by decide) (by decide)).append_between
    (isPlainText_accessorType type) (by decide)

/-- The index of rows is plain. -/
theorem isPlainText_indexLines {entries : List String} (h : ∀ n ∈ entries, IsName n) :
    ∀ line ∈ indexLines entries, IsPlainText line := by
  have hentry : ∀ n ∈ entries, ∀ line ∈ entryLines n, IsPlainText line := by
    intro n hn
    have hname : IsPlainText n := (h n hn).isPlainText
    unfold entryLines
    iterate 2 refine isPlainText_cons (by decide) ?_
    iterate 2 refine isPlainText_cons_between hname (by decide) (by decide) ?_
    refine isPlainText_cons (by decide) ?_
    refine isPlainText_cons_between hname (by decide) (by decide) ?_
    exact isPlainText_cons (by decide) (List.forall_mem_nil _)
  unfold indexLines
  simp only [List.forall_mem_append, List.forall_mem_flatMap]
  refine ⟨⟨?_, hentry⟩, ?_⟩
  · repeat refine isPlainText_cons (by decide) ?_
    exact List.forall_mem_nil _
  · repeat refine isPlainText_cons (by decide) ?_
    exact List.forall_mem_nil _

/-- The trait of subscribers is plain. -/
theorem isPlainText_subscriberLines {methods : List SubscriberMethod}
    (h : ∀ m ∈ methods, IsName m.method ∧ IsName m.handler) :
    ∀ line ∈ subscriberLines methods, IsPlainText line := by
  have hmethod : ∀ m ∈ methods, ∀ line ∈ m.lines, IsPlainText line := by
    intro m hm
    obtain ⟨hname, hhandler⟩ := h m hm
    unfold SubscriberMethod.lines
    refine List.forall_mem_cons.mpr ⟨?_, ?_⟩
    · exact (hname.isPlainText.between (by decide) (by decide)).append_between
        hhandler.isPlainText (by decide)
    · iterate 2 refine isPlainText_cons (by decide) ?_
      exact List.forall_mem_nil _
  have hmethods : ∀ line ∈ spaced (methods.map SubscriberMethod.lines), IsPlainText line := by
    intro line hline
    rcases eq_empty_or_mem_of_mem_spaced hline with rfl | ⟨g, hg, hmem⟩
    · exact isPlainText_empty
    · obtain ⟨m, hm, rfl⟩ := List.mem_map.mp hg
      exact hmethod m hm line hmem
  unfold subscriberLines
  simp only [List.forall_mem_append]
  refine ⟨⟨?_, hmethods⟩, isPlainText_cons (by decide) (List.forall_mem_nil _)⟩
  repeat refine isPlainText_cons (by decide) ?_
  exact List.forall_mem_nil _

/-- The dispatch is plain. -/
theorem isPlainText_dispatchLines {branches : List DispatchBranch}
    (h : ∀ b ∈ branches, IsName b.method ∧ IsName b.rowType) :
    ∀ line ∈ dispatchLines branches, IsPlainText line := by
  have hbranch : ∀ b ∈ branches, ∀ line ∈ b.lines, IsPlainText line := by
    intro b hb
    obtain ⟨hmethod, hrow⟩ := h b hb
    unfold DispatchBranch.lines
    refine isPlainText_cons_between hmethod.isPlainText (by decide) (by decide) ?_
    refine isPlainText_cons_between hrow.isPlainText (by decide) (by decide) ?_
    refine isPlainText_cons (by decide) ?_
    refine isPlainText_cons_between hrow.isPlainText (by decide) (by decide) ?_
    repeat refine isPlainText_cons (by decide) ?_
    exact List.forall_mem_nil _
  unfold dispatchLines
  simp only [List.forall_mem_append, List.forall_mem_flatMap]
  refine ⟨⟨?_, hbranch⟩, ?_⟩
  · repeat refine isPlainText_cons (by decide) ?_
    exact List.forall_mem_nil _
  · repeat refine isPlainText_cons (by decide) ?_
    exact List.forall_mem_nil _

/-- Of the lines of the file of the rows, only the comments that mention tables and fields may fail
to be plain. -/
theorem forall_rowFileLines_iff (hP : ∀ s, IsPlainText s → P s) (hb : IsBuilt schema a)
    (h : IsRowModule a m) :
    (∀ line ∈ rowFileLines a.source m, P line) ↔
      (∀ t ∈ elementTables a.tables, P (rowDoc t.tableName)) ∧
        ∀ e ∈ a.fieldTypes.entries, P (accessorDoc (accessorDeclaration e.1 e.2)) := by
  have hnames := hasNames_of_isRowModule hb h
  have hmethods : ∀ x ∈ m.methods, IsName x.method ∧ IsName x.handler := by
    rw [h.methods, List.forall_mem_map]
    exact fun t ht => ⟨isName_snakeIdent t.tableName, isName_handlerTrait (isName_rowType hb ht)⟩
  have hrows : (∀ line ∈ m.rows.flatMap RowDeclaration.lines, P line) ↔
      ∀ t ∈ elementTables a.tables, P (rowDoc t.tableName) := by
    rw [h.rows, List.forall_mem_flatMap, List.forall_mem_map]
    exact forall₂_congr fun t ht => forall_rowLines_iff hP (isName_rowType hb ht)
  have haccessors : (∀ line ∈ m.accessors.flatMap AccessorDeclaration.lines, P line) ↔
      ∀ e ∈ a.fieldTypes.entries, P (accessorDoc (accessorDeclaration e.1 e.2)) := by
    rw [h.accessors, List.forall_mem_flatMap, List.forall_mem_map]
    exact forall₂_congr fun e _ => forall_accessorLines_iff hP e.1 e.2
  have hplain : ∀ ls : List String, (∀ line ∈ ls, IsPlainText line) → ∀ line ∈ ls, P line :=
    fun ls hls line hline => hP line (hls line hline)
  unfold rowFileLines
  simp only [List.forall_mem_append, hrows, haccessors]
  constructor
  · rintro ⟨⟨⟨⟨⟨-, htables⟩, hfields⟩, -⟩, -⟩, -⟩
    exact ⟨htables, hfields⟩
  · rintro ⟨htables, hfields⟩
    refine ⟨⟨⟨⟨⟨⟨?_, ?_⟩, htables⟩, hfields⟩, ?_⟩, ?_⟩, ?_⟩
    · exact hplain _ isPlainText_preamble
    · exact hplain _ (isPlainText_sharedLines a.source)
    · exact hplain _ (isPlainText_indexLines hnames.entries)
    · exact hplain _ (isPlainText_subscriberLines hmethods)
    · exact hplain _ (isPlainText_dispatchLines hnames.branches)

/-- What an accessor trait is said to be in front of the name of its field starts a comment. -/
theorem exists_accessorDoc_eq (field : String) (type : FieldType) :
    ∃ cs, startsComment cs = true ∧
      accessorDoc (accessorDeclaration field type) =
        String.ofList cs ++ field ++ "\x60 attribute." := by
  cases type with
  | string => exact ⟨"/// Rows with a String \x60".toList, by decide, rfl⟩
  | boolean => exact ⟨"/// Rows with a Boolean \x60".toList, by decide, rfl⟩
  | integer => exact ⟨"/// Rows with a Integer \x60".toList, by decide, rfl⟩
  | rawElement => exact ⟨"/// Rows with a RawElement \x60".toList, by decide, rfl⟩

/-- The file of the rows has only comments that end with their line if the names of its tables and
fields do not break them. -/
theorem staysComment_rowFileLines_iff (hbreak : BreaksLines isBreak) (hb : IsBuilt schema a)
    (h : IsRowModule a m) :
    (∀ line ∈ rowFileLines a.source m, StaysComment isBreak line) ↔
      (∀ t ∈ elementTables a.tables, ContinuesComment isBreak t.tableName) ∧
        ∀ e ∈ a.fieldTypes.entries, ContinuesComment isBreak e.1 := by
  have htable : ∀ table, StaysComment isBreak (rowDoc table) ↔ ContinuesComment isBreak table :=
    fun table => staysComment_text_iff hbreak (by decide) (by decide) table
  have hfield : ∀ field type, StaysComment isBreak (accessorDoc (accessorDeclaration field type)) ↔
      ContinuesComment isBreak field := by
    intro field type
    obtain ⟨cs, hstart, hdoc⟩ := exists_accessorDoc_eq field type
    rw [hdoc]
    exact staysComment_text_iff hbreak hstart (by decide) field
  simp only [forall_rowFileLines_iff (fun _ hs => hs.staysComment hbreak) hb h, htable, hfield]

/-- All lines of the file of the rows are plain or comments. -/
theorem isWritten_rowFileLines (hb : IsBuilt schema a) (h : IsRowModule a m) :
    ∀ line ∈ rowFileLines a.source m, IsWritten line := by
  rw [forall_rowFileLines_iff (fun _ hs => hs.isWritten) hb h]
  refine ⟨fun t _ => isWritten_comment (by decide) _ _, fun e _ => ?_⟩
  obtain ⟨cs, hstart, hdoc⟩ := exists_accessorDoc_eq e.1 e.2
  rw [hdoc]
  exact isWritten_comment hstart _ _

/-! ### Layers -/

theorem IsPlainText.indent {s : String} (h : IsPlainText s) (level : Nat) :
    IsPlainText (indent level s) := by
  refine IsPlainText.append (isPlainText_ofList ?_) h
  rw [List.all_replicate]
  simp [isPlain]

/-- The constant of a text is plain, as the text is quoted. -/
theorem isPlainText_textConstant (h : IsName name) (text : String) :
    IsPlainText (textConstant name text) :=
  (h.isPlainText.between (by decide) (by decide)).append_between (isPlainText_quote text) (by decide)

theorem isPlainText_listConstant (h : IsName name) (texts : List String) :
    IsPlainText (listConstant name texts) :=
  (h.isPlainText.between (by decide) (by decide)).append_between (isPlainText_quoteList texts)
    (by decide)

theorem isPlainText_valueLine {d : Declaration ValueItem} (h : IsName d.ident) :
    IsPlainText (valueLine d) := by
  unfold valueLine
  cases d.item with
  | value v => exact isPlainText_textConstant h v
  | list vs => exact isPlainText_listConstant h vs

/-- A description is put on one line. -/
theorem isPlainText_description (description : String) :
    IsPlainText ("/// " ++ Text.oneLine description) :=
  (isPlainText_ofList (by decide)).append (isPlainText_oneLine description)

theorem isPlainText_layerDoc (description : String) :
    ∀ line ∈ layerDoc description, IsPlainText line := by
  unfold layerDoc
  split
  · exact List.forall_mem_nil _
  · exact List.forall_mem_singleton.mpr (isPlainText_description description)

/-- The function for the rules of a field is plain. -/
theorem isPlainText_mappingLines {d : Declaration (RuleIndex String)} (h : IsName d.ident) :
    ∀ line ∈ mappingLines d, IsPlainText line := by
  have hrule : ∀ r : Rule String, IsPlainText
      (indent 4 ("(" ++ Text.quote r.result ++ ", " ++ r.expression.text ++ "),")) := fun r =>
    (((isPlainText_quote r.result).between (by decide) (by decide)).append_between
      (isPlainText_text r.expression) (by decide)).indent 4
  have hfunction : IsPlainText
      (indent 2 ("pub fn " ++ d.ident ++ "() -> MultiExpression<&'static str> \x7b")) :=
    IsPlainText.indent (h.isPlainText.between (by decide) (by decide)) 2
  have hlist : IsPlainText "MultiExpression::of(vec![" := isPlainText_ofList (by decide)
  have hlistEnd : IsPlainText "])" := isPlainText_ofList (by decide)
  have hbrace : IsPlainText "\x7d" := isPlainText_ofList (by decide)
  unfold mappingLines
  rw [List.forall_mem_append, List.forall_mem_append, List.forall_mem_map]
  refine ⟨⟨?_, fun r _ => hrule r⟩, ?_⟩
  · refine List.forall_mem_cons.mpr ⟨isPlainText_empty, List.forall_mem_cons.mpr ⟨hfunction, ?_⟩⟩
    exact List.forall_mem_singleton.mpr (hlist.indent 3)
  · refine List.forall_mem_cons.mpr ⟨hlistEnd.indent 3, ?_⟩
    exact List.forall_mem_singleton.mpr (hbrace.indent 2)

/-- Of the comment on the name of a field, only the lines with its values may fail to be plain. -/
theorem forall_fieldDoc_iff (hP : ∀ s, IsPlainText s → P s) (f : LayerField) :
    (∀ line ∈ fieldDoc f, P line) ↔ ∀ v ∈ f.allowedValues, P ("/// - \x60" ++ v ++ "\x60") := by
  have hdescription : P ("/// " ++ Text.oneLine f.description) :=
    hP _ (isPlainText_description f.description)
  have hempty : P "///" := hP _ (isPlainText_ofList (by decide))
  have hheading : P "/// Allowed values:" := hP _ (isPlainText_ofList (by decide))
  have hoptional : ∀ (b : Bool) (s : String), P s → ∀ line ∈ if b then [] else [s], P line := by
    intro b s hs
    cases b <;> simp [hs]
  unfold fieldDoc
  rw [List.forall_mem_append]
  refine (and_iff_right (hoptional _ _ hdescription)).trans ?_
  split
  · next hnone => simp [List.isEmpty_iff.mp hnone]
  · rw [List.forall_mem_append, List.forall_mem_cons, List.forall_mem_map]
    exact (and_iff_right (hoptional _ _ hempty)).trans (and_iff_right hheading)

/-- The constant for the name of a field is plain. -/
theorem forall_fieldLines_iff (hP : ∀ s, IsPlainText s → P s) {d : Declaration LayerField}
    (h : IsName d.ident) :
    (∀ line ∈ fieldLines d, P line) ↔
      ∀ v ∈ d.item.allowedValues, P ("/// - \x60" ++ v ++ "\x60") := by
  rw [fieldLines, List.forall_mem_append, List.forall_mem_singleton, forall_fieldDoc_iff hP]
  exact and_iff_left (hP _ (isPlainText_textConstant h d.name))

/-- Of the first lines of the module of a layer, only the comment on the names of its fields may fail
to be plain. -/
theorem forall_layerFront_iff (hP : ∀ s, IsPlainText s → P s) {m : LayerModule}
    (h : IsName m.ident) :
    (∀ line ∈ layerFront m, P line) ↔ P (indent 1 (fieldsDoc m.id)) := by
  have hindent : ∀ s, IsPlainText s → P (indent 1 s) := fun s hs => hP _ (hs.indent 1)
  have hdoc : ∀ line ∈ layerDoc m.description, P line := fun line hline =>
    hP line (isPlainText_layerDoc m.description line hline)
  have hmodule : P ("pub mod " ++ m.ident ++ " \x7b") :=
    hP _ (h.isPlainText.between (by decide) (by decide))
  have hname : P (indent 1 (textConstant "LAYER_NAME" m.id)) :=
    hindent _ (isPlainText_textConstant (isName_ofList (by decide)) m.id)
  have hbuffer : P (indent 1
      ("pub const BUFFER_SIZE: f64 = " ++ Decimal.text Decimal.codeStyle m.bufferSize ++ ";")) :=
    hindent _ ((isPlainText_number m.bufferSize).between (by decide) (by decide))
  have huse : P (indent 1 "use super::*;") := hindent _ (isPlainText_ofList (by decide))
  have hempty : P "" := hP _ isPlainText_empty
  unfold layerFront
  simp only [List.forall_mem_append, List.forall_mem_cons, hmodule, hname, hbuffer, huse, hempty,
    List.not_mem_nil, false_implies, implies_true, and_true, true_and]
  exact and_iff_right hdoc

/-- Of the lines of the module of a layer, only the comments that mention the layer and the values of
its fields may fail to be plain. -/
theorem forall_layerLines_iff (hP : ∀ s, IsPlainText s → P s) {m : LayerModule} (h : m.HasNames) :
    (∀ line ∈ m.lines, P line) ↔
      (P (indent 1 (fieldsDoc m.id)) ∧ P (indent 1 (valuesDoc m.id)) ∧
        P (indent 1 (mappingsDoc m.id))) ∧
      ∀ d ∈ m.fields, ∀ v ∈ d.item.allowedValues, P (indent 2 ("/// - \x60" ++ v ++ "\x60")) := by
  have hindent : ∀ level s, IsPlainText s → P (indent level s) := fun level s hs =>
    hP _ (hs.indent level)
  have hfields : (∀ d ∈ m.fields, ∀ line ∈ fieldLines d, P (indent 2 line)) ↔
      ∀ d ∈ m.fields, ∀ v ∈ d.item.allowedValues, P (indent 2 ("/// - \x60" ++ v ++ "\x60")) :=
    forall₂_congr fun d hd => forall_fieldLines_iff (hindent 2) (h.fields d hd)
  have hvalues : ∀ d ∈ m.values, P (indent 2 (valueLine d)) := fun d hd =>
    hindent 2 _ (isPlainText_valueLine (h.values d hd))
  have hmappings : ∀ d ∈ m.mappings, ∀ line ∈ mappingLines d, P line := fun d hd line hline =>
    hP line (isPlainText_mappingLines (h.mappings d hd) line hline)
  have hopen : ∀ {cs : List Char}, cs.all isPlain = true → P (innerOpening (String.ofList cs)) :=
    fun hcs => hindent 1 _ ((isPlainText_ofList hcs).between (by decide) (by decide))
  have hopening : P (innerOpening "fields") ∧ P (innerOpening "field_values") ∧
      P (innerOpening "field_mappings") :=
    ⟨hopen (by decide), hopen (by decide), hopen (by decide)⟩
  have huse : P (indent 2 "use super::*;") := hindent 2 _ (isPlainText_ofList (by decide))
  have hclosing : P innerClosing := hindent 1 _ (isPlainText_ofList (by decide))
  have hbrace : P "\x7d" := hP _ (isPlainText_ofList (by decide))
  have hempty : P "" := hP _ isPlainText_empty
  rw [lines_eq]
  simp only [List.forall_mem_append, List.forall_mem_cons, List.forall_mem_map,
    List.forall_mem_flatMap, forall_layerFront_iff hP h.ident, hfields, huse, hopening, hclosing,
    hbrace, hempty, List.not_mem_nil, false_implies, implies_true, and_true, true_and]
  constructor
  · rintro ⟨hid, htexts, hid', -, hid'', -⟩
    exact ⟨⟨hid, hid', hid''⟩, htexts⟩
  · rintro ⟨⟨hid, hid', hid''⟩, htexts⟩
    exact ⟨hid, htexts, hid', hvalues, hid'', hmappings⟩

/-- The constants of the tileset are plain. -/
theorem isPlainText_tilesetLines (a : ArtifactSet) : ∀ line ∈ tilesetLines a, IsPlainText line := by
  unfold tilesetLines
  simp only [List.forall_mem_cons]
  exact ⟨isPlainText_textConstant (isName_ofList (by decide)) _,
    isPlainText_textConstant (isName_ofList (by decide)) _,
    isPlainText_textConstant (isName_ofList (by decide)) _,
    isPlainText_textConstant (isName_ofList (by decide)) _,
    isPlainText_listConstant (isName_ofList (by decide)) _,
    isPlainText_listConstant (isName_ofList (by decide)) _, List.forall_mem_nil _⟩

/-- The lines of the file of the layers are plain outside the modules of the layers. -/
theorem forall_layerFileLines_iff (hP : ∀ s, IsPlainText s → P s) (a : ArtifactSet)
    (modules : List LayerModule) :
    (∀ line ∈ layerFileLines a modules, P line) ↔ ∀ m ∈ modules, ∀ line ∈ m.lines, P line := by
  have hfront : ∀ line ∈ preamble ++ [
      "//! Vector tile layer definitions, attributes and allowed values generated",
      "//! from the OpenMapTiles schema " ++ Text.oneLine a.source ++ ".", "", lintLine, "",
      expressionImports, ""] ++ tilesetLines a, IsPlainText line := by
    rw [List.forall_mem_append, List.forall_mem_append]
    refine ⟨⟨isPlainText_preamble, isPlainText_cons (by decide) ?_⟩, isPlainText_tilesetLines a⟩
    refine isPlainText_cons_between (isPlainText_oneLine a.source) (by decide) (by decide) ?_
    iterate 3 refine isPlainText_cons (by decide) ?_
    refine List.forall_mem_cons.mpr ⟨isPlainText_expressionImports, ?_⟩
    exact isPlainText_cons (by decide) (List.forall_mem_nil _)
  have hempty : P "" := hP _ isPlainText_empty
  unfold layerFileLines
  rw [List.forall_mem_append, and_iff_right fun line h => hP line (hfront line h),
    List.forall_mem_flatMap]
  simp only [List.forall_mem_cons, hempty, true_and]

/-- The texts of a layer that stand in comments as they are: its name, and the values of the fields
that are declared. -/
def layerTexts (l : LayerArtifact) : List String :=
  l.id :: (kept (fieldDeclarations l.fields)).flatMap (·.item.allowedValues)

/-- The module of a layer has only comments that end with their line if the name of the layer and the
values of its fields do not break them. -/
theorem staysComment_layerLines_iff (hbreak : BreaksLines isBreak) (l : LayerArtifact) :
    (∀ line ∈ (layerModule l).lines, StaysComment isBreak line) ↔
      ∀ text ∈ layerTexts l, ContinuesComment isBreak text := by
  have hid : (StaysComment isBreak (fieldsDoc l.id) ↔ ContinuesComment isBreak l.id) ∧
      (StaysComment isBreak (valuesDoc l.id) ↔ ContinuesComment isBreak l.id) ∧
      (StaysComment isBreak (mappingsDoc l.id) ↔ ContinuesComment isBreak l.id) :=
    ⟨staysComment_text_iff hbreak (by decide) (by decide) l.id,
      staysComment_text_iff hbreak (by decide) (by decide) l.id,
      staysComment_text_iff hbreak (by decide) (by decide) l.id⟩
  have hvalue : ∀ v, StaysComment isBreak ("/// - \x60" ++ v ++ "\x60") ↔
      ContinuesComment isBreak v := fun v => staysComment_text_iff hbreak (by decide) (by decide) v
  have hmodule : (layerModule l).id = l.id := rfl
  rw [forall_layerLines_iff (fun _ hs => hs.staysComment hbreak) (hasNames_layerModule l), layerTexts,
    List.forall_mem_cons, List.forall_mem_flatMap]
  simp only [staysComment_indent_iff hbreak, hmodule, hid, hvalue, and_self]
  rfl

/-- All lines of the module of a layer are plain or comments. -/
theorem isWritten_layerLines {m : LayerModule} (h : m.HasNames) :
    ∀ line ∈ m.lines, IsWritten line := by
  rw [forall_layerLines_iff (fun _ hs => hs.isWritten) h]
  have hid : IsWritten (fieldsDoc m.id) ∧ IsWritten (valuesDoc m.id) ∧ IsWritten (mappingsDoc m.id) :=
    ⟨isWritten_comment (by decide) _ _, isWritten_comment (by decide) _ _,
      isWritten_comment (by decide) _ _⟩
  refine ⟨⟨hid.1.indent 1, hid.2.1.indent 1, hid.2.2.indent 1⟩, fun d _ v _ => ?_⟩
  exact (isWritten_comment (by decide) v _).indent 2

/-! ### The files -/

/-- The texts of artifacts that stand in comments as they are: the names of the layers, the values
of the fields that are declared, the names of the tables whose rows are built from elements, and the
names of all fields of tables. -/
def commentTexts (a : ArtifactSet) : List String :=
  a.layers.flatMap (fun l =>
    l.id :: (kept (fieldDeclarations l.fields)).flatMap (·.item.allowedValues)) ++
  (elementTables a.tables).map (·.tableName) ++ a.fieldTypes.entries.map Prod.fst

/-- The lines of both files. -/
theorem exists_lines_of_render (h : (Artifact.render .code a).result = .ok files) :
    ∃ m, rowModule a = .ok m ∧
      files = [⟨"schema.rs", unlines (layerFileLines a (a.layers.map layerModule))⟩,
        ⟨"tables.rs", unlines (rowFileLines a.source m)⟩] := by
  simp only [Artifact.render, Artifact.renderCode, layerFile, rowFile, Traced.result_bind,
    Traced.result_ofExcept, Traced.result_pure, bind_eq_ok_iff, result_layerModules_nil,
    map_eq_ok_iff] at h
  obtain ⟨layers, ⟨modules, ⟨-, -, rfl⟩, hlayers⟩, rows, ⟨m, hm, hrows⟩, hfiles⟩ := h
  cases hlayers
  cases hrows
  cases hfiles
  exact ⟨m, hm, rfl⟩

/-- The comments of generated code end with their lines exactly if each text that stands in one as
it is goes on as a comment wherever it breaks the line.  Descriptions stand on one line and do no
harm. -/
theorem comments_end_with_line_iff (hbreak : BreaksLines isBreak)
    (hbuild : (Artifact.build schema source).result = .ok a)
    (hrender : (Artifact.render .code a).result = .ok files) :
    ∃ layerLines rowLines,
      files = [⟨"schema.rs", unlines layerLines⟩, ⟨"tables.rs", unlines rowLines⟩] ∧
      layerLines = layerFileLines a (a.layers.map layerModule) ∧
      (∃ m, rowModule a = .ok m ∧ rowLines = rowFileLines a.source m) ∧
      ((∀ line ∈ layerLines ++ rowLines, StaysComment isBreak line) ↔
        ∀ text ∈ commentTexts a, ContinuesComment isBreak text) := by
  obtain ⟨m, hm, hfiles⟩ := exists_lines_of_render hrender
  refine ⟨_, _, hfiles, rfl, ⟨m, hm, rfl⟩, ?_⟩
  have htexts : commentTexts a = a.layers.flatMap layerTexts ++
      (elementTables a.tables).map (·.tableName) ++ a.fieldTypes.entries.map Prod.fst := rfl
  rw [List.forall_mem_append, forall_layerFileLines_iff fun _ hs => hs.staysComment hbreak,
    staysComment_rowFileLines_iff hbreak (isBuilt_of_build hbuild) (isRowModule_of_rowModule hm),
    htexts]
  simp only [List.forall_mem_append, List.forall_mem_map, List.forall_mem_flatMap,
    staysComment_layerLines_iff hbreak, and_assoc]

/-- A schema with one layer, whose only field has a description and values. -/
def schemaWith (description : String) (values : Filter) : Schema where
  tileset := { layers := ["peak.yaml"] }
  layers := [{
    id := "peak"
    fields := Ordered.Dict.empty.put "class" (.detailed description values) }]
  tables := .empty

/-- The end of a line. -/
def isLineEnd (c : Char) : Bool := c == '\n'

theorem breaksLines_isLineEnd : BreaksLines isLineEnd := by
  refine ⟨?_, by decide⟩
  intro c hc
  rw [beq_iff_eq.mp hc]
  decide

/-- A description with two lines is on one line of the comment. -/
theorem comments_end_with_line_iff_two_lines :
    ∃ a files layerLines rowLines,
      (Artifact.build (schemaWith "Summits\nwith a name" (.sequence [.scalar "peak"]))
        "v1").result = .ok a ∧
      (Artifact.render .code a).result = .ok files ∧
      files = [⟨"schema.rs", unlines layerLines⟩, ⟨"tables.rs", unlines rowLines⟩] ∧
      ∀ line ∈ layerLines ++ rowLines, StaysComment isLineEnd line := by
  obtain ⟨a, hbuild, hmodules, htypes, htraits, htexts⟩ : ∃ a,
      (Artifact.build (schemaWith "Summits\nwith a name" (.sequence [.scalar "peak"]))
        "v1").result = .ok a ∧
      AreApart (moduleClaims a) ∧ AreApart (typeClaims a) ∧ AreApart (traitClaims a) ∧
      commentTexts a = ["peak", "peak"] := by
    refine ⟨_, rfl, List.nodup_singleton _, List.nodup_nil, List.nodup_nil, ?_⟩
    decide
  obtain ⟨files, hrender⟩ := (exists_render_iff a).mpr ⟨hmodules, htypes, htraits⟩
  obtain ⟨layerLines, rowLines, hfiles, -, -, hstays⟩ :=
    comments_end_with_line_iff breaksLines_isLineEnd hbuild hrender
  refine ⟨a, files, layerLines, rowLines, hbuild, hrender, hfiles, hstays.mpr ?_⟩
  have hpeak : ContinuesComment isLineEnd "peak" :=
    (isPlainText_ofList (by decide)).continuesComment breaksLines_isLineEnd
  rw [htexts]
  simp [hpeak]

/-- The peaks, as a value whose name has two lines. -/
def brokenValues : Filter := .mapping [("high\npeak", .mapping [("natural", .scalar "peak")])]

/-- A value with two lines breaks out of the comment on its field. -/
theorem not_staysComment_of_broken_value :
    ∃ a files rowLines,
      (Artifact.build (schemaWith "Summits" brokenValues) "v1").result = .ok a ∧
      (Artifact.render .code a).result = .ok files ∧
      files = [⟨"schema.rs", unlines (layerFileLines a (a.layers.map layerModule))⟩,
        ⟨"tables.rs", unlines rowLines⟩] ∧
      ¬ ∀ line ∈ layerFileLines a (a.layers.map layerModule), StaysComment isLineEnd line := by
  obtain ⟨a, hbuild, hmodules, htypes, htraits, htext⟩ : ∃ a,
      (Artifact.build (schemaWith "Summits" brokenValues) "v1").result = .ok a ∧
      AreApart (moduleClaims a) ∧ AreApart (typeClaims a) ∧ AreApart (traitClaims a) ∧
      ∃ l ∈ a.layers, ∃ d ∈ (layerModule l).fields, "high\npeak" ∈ d.item.allowedValues := by
    exact ⟨_, rfl, List.nodup_singleton _, List.nodup_nil, List.nodup_nil, _,
      List.mem_singleton.mpr rfl, _, List.mem_singleton.mpr rfl, List.mem_singleton.mpr rfl⟩
  obtain ⟨files, hrender⟩ := (exists_render_iff a).mpr ⟨hmodules, htypes, htraits⟩
  obtain ⟨m, -, hfiles⟩ := exists_lines_of_render hrender
  obtain ⟨l, hl, d, hd, hv⟩ := htext
  refine ⟨a, files, _, hbuild, hrender, hfiles, fun hstays => ?_⟩
  rw [forall_layerFileLines_iff fun _ hs => hs.staysComment breaksLines_isLineEnd,
    List.forall_mem_map] at hstays
  have hlayer := hstays l hl
  rw [staysComment_layerLines_iff breaksLines_isLineEnd] at hlayer
  have hcontinues := hlayer "high\npeak"
    (List.mem_cons_of_mem _ (List.mem_flatMap.mpr ⟨d, hd, hv⟩))
  have hpeak : IsComment ['p', 'e', 'a', 'k'] :=
    hcontinues _ (by simp [brokenLines, isLineEnd, List.splitOnP_cons_eq_if_modifyHead])
  exact absurd hpeak (by decide)

end TileSchema.Code
