import TileSchema.Code.LayersText
import TileSchema.Code.RowsText
import TileSchema.Proofs.Filter.Reading

/-!
# Expressions in the generated files

The rules of a layer field stand in the file of the layers, one in a line, and the expression of a
table stands in the file of the rows, in a line of its own.  Such a line is told from the other
lines of its module by the spaces at its start and by the character behind them, so the rules and
the expressions are read off the lines of a module with no need to know where they are.

The rules read off the lines of a layer are those of its fields (`filterMap_readRule?_lines`), and
the expression read off the lines of a row type is that of its table
(`filterMap_readMapping?_lines`).  As the reader of expressions gives back what was written, the
generated code means what was compiled.
-/

namespace TileSchema.Code

open TileSchema.Filter (Expression)
open Table (Compiled)

variable {line : String}

/-! ### Reading a line -/

/-- The number of spaces at the start of a line. -/
def blanks (line : String) : Nat := (line.toList.takeWhile (· = ' ')).length

/-- What stands behind the spaces of a line, if there are so many of them. -/
def behindBlanks? (n : Nat) (line : String) : Option (List Char) :=
  if blanks line = n then some (line.toList.dropWhile (· = ' ')) else none

/-- The rule in a line. -/
def readRule? (line : String) : Option (Rule String) := do
  let cs ← behindBlanks? 16 line
  let cs ← ['('].isPrefixOf? cs
  let (result, cs) ← Expression.readText cs
  let cs ← [',', ' '].isPrefixOf? cs
  let (e, cs) ← Expression.readFront cs.length cs
  if cs = [')', ','] then some ⟨e, result⟩ else none

/-- The expression that makes up a line. -/
def readMapping? (line : String) : Option Expression := do
  let cs ← behindBlanks? 8 line
  Expression.ofText? (String.ofList cs)

/-! ### Spaces at the start -/

@[simp] theorem blanks_indent (level : Nat) (line : String) :
    blanks (indent level line) = 4 * level + blanks line := by
  have hblank : ∀ c ∈ List.replicate (4 * level) ' ', decide (c = ' ') = true := by simp
  rw [blanks, indent, String.toList_append, String.toList_ofList,
    List.takeWhile_append_of_pos hblank, List.length_append, List.length_replicate, blanks]

/-- A line that does not start with a space has none at its start. -/
theorem blanks_eq_zero (h : line.toList.head? ≠ some ' ') : blanks line = 0 := by
  rw [blanks]
  cases hcs : line.toList with
  | nil => rfl
  | cons c cs =>
    have hc : c ≠ ' ' := by simpa [hcs] using h
    simp [hc]

/-- What stands behind the spaces of a shifted line is the line. -/
theorem behindBlanks?_indent (level : Nat) (h : line.toList.head? ≠ some ' ') :
    behindBlanks? (4 * level) (indent level line) = some line.toList := by
  have hblank : ∀ c ∈ List.replicate (4 * level) ' ', decide (c = ' ') = true := by simp
  have hcount : blanks (indent level line) = 4 * level := by
    rw [blanks_indent, blanks_eq_zero h, Nat.add_zero]
  have hline : line.toList.dropWhile (· = ' ') = line.toList := by
    cases hcs : line.toList with
    | nil => rfl
    | cons c cs => exact List.dropWhile_cons_of_neg (by simpa [hcs] using h)
  rw [behindBlanks?, if_pos hcount, indent, String.toList_append, String.toList_ofList,
    List.dropWhile_append_of_pos hblank, hline]

/-! ### Rules -/

/-- The rules in lines are those between lines with other than sixteen spaces at their starts. -/
theorem filterMap_readRule?_between {before lines after : List String}
    (hbefore : ∀ line ∈ before, blanks line ≠ 16) (hafter : ∀ line ∈ after, blanks line ≠ 16) :
    (before ++ lines ++ after).filterMap readRule? = lines.filterMap readRule? := by
  have hnone : ∀ ls : List String, (∀ line ∈ ls, blanks line ≠ 16) → ls.filterMap readRule? = [] := by
    intro ls hls
    refine List.filterMap_eq_nil_iff.mpr fun line hline => ?_
    simp [readRule?, behindBlanks?, hls line hline]
  rw [List.filterMap_append, List.filterMap_append, hnone _ hbefore, hnone _ hafter,
    List.nil_append, List.append_nil]

/-- A rule is read off its line. -/
theorem readRule?_ruleLine (r : Rule String) :
    readRule? (indent 4 ("(" ++ Text.quote r.result ++ ", " ++ r.expression.text ++ "),")) =
      some r := by
  have hchars : ("(" ++ Text.quote r.result ++ ", " ++ r.expression.text ++ "),").toList =
      '(' :: (Expression.quotedChars r.result ++ ',' :: ' ' ::
        (r.expression.chars ++ [')', ','])) := by
    simp
  have hexpression : Expression.readFront (r.expression.chars ++ [')', ',']).length
      (r.expression.chars ++ [')', ',']) = some (r.expression, [')', ',']) :=
    Expression.readFront_chars _ (by simp) _
  rw [readRule?, behindBlanks?_indent 4 (by simp), hchars]
  simp only [List.isPrefixOf?, Option.bind_eq_bind, Option.bind_some, beq_self_eq_true, if_true,
    Expression.readText_quotedChars, hexpression]

/-- The rules of a field are read off its lines. -/
theorem filterMap_readRule?_mappingLines (d : Declaration (RuleIndex String)) :
    (mappingLines d).filterMap readRule? = d.item.rules := by
  unfold mappingLines
  rw [filterMap_readRule?_between, List.filterMap_map]
  · exact (List.filterMap_congr fun r _ => readRule?_ruleLine r).trans List.filterMap_some
  · simp only [List.forall_mem_cons, blanks_indent]
    simp [blanks]
  · simp only [List.forall_mem_cons, blanks_indent]
    simp [blanks]

@[simp] theorem blanks_textConstant (ident text : String) : blanks (textConstant ident text) = 0 := by
  unfold textConstant
  simp [blanks]

@[simp] theorem blanks_valueLine (d : Declaration ValueItem) : blanks (valueLine d) = 0 := by
  unfold valueLine
  split
  · exact blanks_textConstant _ _
  · unfold listConstant
    simp [blanks]

@[simp] theorem blanks_fieldsDoc (id : String) : blanks (fieldsDoc id) = 0 := by
  unfold fieldsDoc
  simp [blanks]

@[simp] theorem blanks_valuesDoc (id : String) : blanks (valuesDoc id) = 0 := by
  unfold valuesDoc
  simp [blanks]

@[simp] theorem blanks_mappingsDoc (id : String) : blanks (mappingsDoc id) = 0 := by
  unfold mappingsDoc
  simp [blanks]

/-- The comments and the constant for the name of a field are not shifted. -/
theorem blanks_of_mem_fieldLines (d : Declaration Artifact.LayerField) :
    ∀ line ∈ fieldLines d, blanks line = 0 := by
  have hvalues : ∀ line ∈ d.item.allowedValues.map fun v => "/// - \x60" ++ v ++ "\x60",
      blanks line = 0 := by
    rw [List.forall_mem_map]
    simp [blanks]
  have hdoc : ∀ line ∈ fieldDoc d.item, blanks line = 0 := by
    unfold fieldDoc
    dsimp only
    rw [List.forall_mem_append]
    constructor
    · split <;> simp [blanks]
    · split
      · simp
      · rw [List.forall_mem_append, List.forall_mem_cons]
        refine ⟨?_, ?_, hvalues⟩
        · split <;> simp [blanks]
        · simp [blanks]
  rw [fieldLines, List.forall_mem_append, List.forall_mem_singleton]
  exact ⟨hdoc, blanks_textConstant _ _⟩

/-- The rules of the fields of a layer are read off the lines of its module. -/
theorem filterMap_readRule?_lines (m : LayerModule) :
    m.lines.filterMap readRule? = m.mappings.flatMap (·.item.rules) := by
  have hdoc : ∀ line ∈ layerDoc m.description, blanks line ≠ 16 := by
    unfold layerDoc
    split <;> simp [blanks]
  have hfields : ∀ line ∈ m.fields.flatMap fieldLines, 4 * 2 + blanks line ≠ 16 := by
    intro line hline
    obtain ⟨d, -, hd⟩ := List.mem_flatMap.mp hline
    rw [blanks_of_mem_fieldLines d line hd]
    decide
  have hvalues : ∀ d ∈ m.values, 4 * 2 + blanks (valueLine d) ≠ 16 := by simp
  rw [LayerModule.lines, filterMap_readRule?_between, List.filterMap_flatMap]
  · simp only [filterMap_readRule?_mappingLines]
  · simp only [List.forall_mem_append, List.forall_mem_cons, List.forall_mem_map, blanks_indent,
      blanks_textConstant, blanks_fieldsDoc, blanks_valuesDoc, blanks_mappingsDoc]
    refine ⟨⟨⟨⟨⟨?_, ?_⟩, ?_⟩, ?_⟩, ?_⟩, ?_⟩
    · exact hdoc
    · simp [blanks]
    · exact hfields
    · simp [blanks]
    · exact hvalues
    · simp [blanks]
  · simp only [List.forall_mem_cons, blanks_indent]
    simp [blanks]

/-! ### Expressions of tables -/

/-- The first character behind the spaces of a line. -/
def firstMark? (line : String) : Option Char := (line.toList.dropWhile (· = ' ')).head?

/-- Lines with other than eight spaces at their starts, or another letter behind them, hold no
expressions. -/
theorem filterMap_readMapping?_eq_nil {lines : List String}
    (h : ∀ line ∈ lines, blanks line = 8 → ∀ c ∈ firstMark? line, c ∉ Expression.firstLetters) :
    lines.filterMap readMapping? = [] := by
  refine List.filterMap_eq_nil_iff.mpr fun line hline => ?_
  by_cases hblank : blanks line = 8
  · have hnone : Expression.ofText? (String.ofList (line.toList.dropWhile (· = ' '))) = none := by
      refine Expression.ofText?_eq_none ?_
      rw [String.toList_ofList]
      exact h line hline hblank
    rw [readMapping?, behindBlanks?, if_pos hblank, Option.bind_eq_bind, Option.bind_some, hnone]
  · simp [readMapping?, behindBlanks?, hblank]

/-- The expression is read off its line. -/
theorem readMapping?_text (e : Expression) : readMapping? ("        " ++ e.text) = some e := by
  obtain ⟨c, hc, cs, hchars⟩ := e.exists_chars_eq
  have hne : c ≠ ' ' := ne_of_mem_of_not_mem hc (by decide)
  have hbehind : behindBlanks? 8 ("        " ++ e.text) = some e.text.toList := by
    simp [behindBlanks?, blanks, hchars, hne]
  rw [readMapping?, hbehind, Option.bind_eq_bind, Option.bind_some, String.ofList_toList]
  exact e.ofText?_text

/-- The expression of a table is read off the lines with its constructor. -/
theorem filterMap_readMapping?_inherentLines (r : RowDeclaration) :
    (inherentLines r).filterMap readMapping? = [r.expression] := by
  have hsplit : inherentLines r = (inherentLines r).take 5 ++
      ("        " ++ r.expression.text) :: (inherentLines r).drop 6 := rfl
  rw [hsplit, List.filterMap_append, List.filterMap_cons, readMapping?_text,
    filterMap_readMapping?_eq_nil, filterMap_readMapping?_eq_nil, List.nil_append]
  · simp only [inherentLines, List.cons_append, List.drop_succ_cons, List.drop_zero,
      List.nil_append, List.forall_mem_cons, List.forall_mem_append, List.forall_mem_map]
    simp [blanks, firstMark?, Expression.firstLetters]
  · simp only [inherentLines, List.cons_append, List.take_succ_cons, List.take_zero,
      List.forall_mem_cons]
    simp [blanks]

/-- The implementation of an accessor trait by a field holds no expression of a table. -/
theorem filterMap_readMapping?_accessorImplLines (rowType : String) (f : Table.Field) :
    (accessorImplLines rowType (accessorImplOf f)).filterMap readMapping? = [] := by
  refine filterMap_readMapping?_eq_nil ?_
  have hbody : ∀ c ∈ firstMark? ("        " ++ (accessorImplOf f).body),
      c ∉ Expression.firstLetters := by
    unfold accessorImplOf accessorBody
    cases f.type <;> simp [firstMark?, Expression.firstLetters]
  unfold accessorImplLines
  simp only [List.forall_mem_cons]
  refine ⟨?_, ?_, ?_, fun _ => hbody, ?_, ?_, ?_⟩
  all_goals simp [blanks]

/-- The expression of a table is read off the lines of its row type. -/
theorem filterMap_readMapping?_lines (t : Compiled) :
    (rowDeclaration t).lines.filterMap readMapping? = [t.expression] := by
  have hstructure : ("" :: structureLines (rowDeclaration t)).filterMap readMapping? = [] := by
    refine filterMap_readMapping?_eq_nil ?_
    unfold structureLines rowDoc
    simp only [List.forall_mem_append, List.forall_mem_cons, List.forall_mem_map]
    simp [blanks]
  have htraits : ("" :: rowTraitLines (rowDeclaration t)).filterMap readMapping? = [] := by
    refine filterMap_readMapping?_eq_nil ?_
    unfold rowTraitLines
    simp only [List.forall_mem_cons]
    simp [blanks, firstMark?, Expression.firstLetters]
  have haccessors : ((rowDeclaration t).accessors.flatMap
      (accessorImplLines (rowDeclaration t).rowType)).filterMap readMapping? = [] := by
    rw [List.filterMap_flatMap, List.flatMap_eq_nil_iff]
    intro i hi
    obtain ⟨f, -, rfl⟩ := List.mem_map.mp hi
    exact filterMap_readMapping?_accessorImplLines _ f
  have hempty : readMapping? "" = none := rfl
  rw [RowDeclaration.lines, List.filterMap_append, List.filterMap_append, List.filterMap_append,
    hstructure, htraits, haccessors, List.filterMap_cons, hempty,
    filterMap_readMapping?_inherentLines, List.nil_append, List.append_nil, List.append_nil]
  rfl

/-! ### Main result -/

/-- The text of an expression determines it.  The text is the calls that build the expression, and
the reader gives back every expression, with its members and its values in order; so two expressions
with one text are one expression.  In the generated files the texts are where they are expected:
what is read off the lines of a layer is the rules of its fields, and what is read off the lines of
a row type is the expression of its table. -/
theorem expression_text_determines_expression :
    (∀ e : Expression, e.text = e.written) ∧
    (∀ e : Expression, Expression.ofText? e.text = some e) ∧
    Function.Injective Expression.text ∧
    (∀ m : LayerModule, m.lines.filterMap readRule? = m.mappings.flatMap (·.item.rules)) ∧
    ∀ t : Compiled, (rowDeclaration t).lines.filterMap readMapping? = [t.expression] :=
  ⟨Expression.text_eq_written, Expression.ofText?_text, Expression.text_injective,
    filterMap_readRule?_lines, filterMap_readMapping?_lines⟩

end TileSchema.Code
