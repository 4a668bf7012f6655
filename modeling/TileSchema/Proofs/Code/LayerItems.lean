import TileSchema.Proofs.Code.Expressions
import TileSchema.Proofs.Code.RowFile
import TileSchema.Proofs.Code.Scope

/-!
# What the module of a layer declares

In the module of a layer there are three modules: the names of its fields, the values of the fields
and the functions for their rules.  What is declared in one of them is read off the strings that are
written as its lines, constants by `constant?` and functions by `ruleFunctions`.

The lines of a module inside are those that are written for it (`innerLines_lines`), as no line in
front of it opens a module of its name and no line within is as far in as the one that closes it.
The text of the module can have a break inside of a comment; where none leaves it, the same is read
off the text (`filterMap_constant?_codeLines`, `ruleFunctions_codeLines`).
-/

namespace TileSchema.Code

open Artifact (LayerArtifact LayerField)
open TileSchema.Filter (Expression)
open Text (constantCase isNameChar)

variable {name : String}

/-! ### Modules in a module -/

/-- The line that opens a module in a module. -/
def innerOpening (name : String) : String := indent 1 ("pub mod " ++ name ++ " \x7b")

/-- The line that closes a module in a module. -/
def innerClosing : String := indent 1 "\x7d"

/-- The lines of the module of a name in a module. -/
def innerLines (name : String) (lines : List String) : List String :=
  ((lines.dropWhile (· ≠ innerOpening name)).drop 1).takeWhile (· ≠ innerClosing)

@[simp] theorem toList_indent (level : Nat) (line : String) :
    (indent level line).toList = List.replicate (4 * level) ' ' ++ line.toList := by
  rw [indent, String.toList_append, String.toList_ofList]

/-- A line further in does not open a module in a module. -/
theorem ne_innerOpening_of_blanks {line : String} (h : blanks line ≠ 4) :
    line ≠ innerOpening name := by
  rintro rfl
  have hopening : blanks (innerOpening name) = 4 := by
    rw [innerOpening, blanks_indent]
    simp [blanks]
  exact h hopening

/-- A line for something else does not open a module in a module. -/
theorem indent_ne_innerOpening {line : String} (h : ¬ "pub mod ".toList <+: line.toList) :
    indent 1 line ≠ innerOpening name := by
  intro heq
  have hcs := congrArg String.toList heq
  rw [innerOpening, toList_indent, toList_indent, List.append_cancel_left_eq] at hcs
  rw [hcs, String.append_assoc, String.toList_append] at h
  exact h (List.prefix_append _ _)

/-- Lines in front that do not open the module do not matter. -/
theorem innerLines_append {before : List String} (h : ∀ line ∈ before, line ≠ innerOpening name)
    (rest : List String) : innerLines name (before ++ rest) = innerLines name rest := by
  have hbefore : ∀ line ∈ before, decide (line ≠ innerOpening name) = true :=
    fun line hline => decide_eq_true (h line hline)
  rw [innerLines, List.dropWhile_append_of_pos hbefore, innerLines]

/-- Lines go up to the one that closes them, if none of them is as far in. -/
theorem takeWhile_ne_closing {inner : List String} {closing : String}
    (h : ∀ line ∈ inner, blanks line ≠ blanks closing) (rest : List String) :
    (inner ++ closing :: rest).takeWhile (· ≠ closing) = inner := by
  have hne : ∀ line ∈ inner, decide (line ≠ closing) = true := by
    intro line hline
    refine decide_eq_true fun heq => h line hline ?_
    rw [heq]
  rw [List.takeWhile_append_of_pos hne, List.takeWhile_cons_of_neg (by simp), List.append_nil]

/-- The lines of a module go up to the one that closes it. -/
theorem innerLines_opening {inner : List String} (h : ∀ line ∈ inner, blanks line ≠ 4)
    (rest : List String) :
    innerLines name (innerOpening name :: (inner ++ innerClosing :: rest)) = inner := by
  have hclosing : blanks innerClosing = 4 := by decide
  have hinner : ∀ line ∈ inner, blanks line ≠ blanks innerClosing := by
    rw [hclosing]
    exact h
  rw [innerLines, List.dropWhile_cons_of_neg (by simp), List.drop_one, List.tail_cons,
    takeWhile_ne_closing hinner]

/-- The modules in front of the one that is asked for do not matter. -/
theorem innerLines_skip {opened : String} {inner : List String}
    (hopened : innerOpening opened ≠ innerOpening name) (hinner : ∀ line ∈ inner, blanks line = 8)
    (rest : List String) :
    innerLines name (innerOpening opened :: (inner ++ innerClosing :: rest)) =
      innerLines name rest := by
  have hlines : ∀ line ∈ innerOpening opened :: (inner ++ [innerClosing]),
      line ≠ innerOpening name := by
    rw [List.forall_mem_cons, List.forall_mem_append, List.forall_mem_singleton]
    refine ⟨hopened, fun line hline => ne_innerOpening_of_blanks ?_, ?_⟩
    · rw [hinner line hline]
      decide
    · exact indent_ne_innerOpening (by simp)
  rw [← innerLines_append hlines rest]
  simp

/-! ### Constants -/

/-- A constant that is declared: a text, or a list of texts. -/
inductive Constant where
  | text (ident value : String)
  | list (ident : String) (values : List String)
  deriving Repr, DecidableEq

/-- The identifier of a constant. -/
def Constant.ident : Constant → String
  | .text ident _ => ident
  | .list ident _ => ident

/-- The text that a constant is declared to be, read behind its identifier. -/
def textValue? (cs : List Char) : Option String := do
  let cs ← ": &str = ".toList.isPrefixOf? cs
  let (value, cs) ← Expression.readText cs
  if cs = [';'] then some value else none

/-- The list of texts that a constant is declared to be, read behind its identifier. -/
def listValue? (cs : List Char) : Option (List String) := do
  let cs ← ": &[&str] = &".toList.isPrefixOf? cs
  let (values, cs) ← Expression.readList Expression.readText cs.length cs
  if cs = [';'] then some values else none

/-- The constant that a line declares. -/
def constant? (line : String) : Option Constant :=
  (nameBehind? (indent 2 "pub const ") line.toList).bind fun found =>
    (textValue? found.2).map (.text found.1) <|> (listValue? found.2).map (.list found.1)

/-- A constant that is a text is read off its line. -/
theorem constant?_textConstant (h : IsName name) (value : String) :
    constant? (indent 2 (textConstant name value)) = some (.text name value) := by
  have hname : nameBehind? (indent 2 "pub const ") (indent 2 (textConstant name value)).toList =
      some (name, ": &str = ".toList ++ (Expression.quotedChars value ++ [';'])) := by
    refine nameBehind?_eq ?_ h ?_
    · simp [textConstant]
    · simp [isNameChar, Text.isWordChar]
  have hvalue : textValue? (": &str = ".toList ++ (Expression.quotedChars value ++ [';'])) =
      some value := by
    simp only [textValue?, isPrefixOf?_append, Option.bind_eq_bind, Option.bind_some,
      Expression.readText_quotedChars, if_pos]
  rw [constant?, hname, Option.bind_some, hvalue]
  rfl

/-- A constant that is a list of texts is read off its line. -/
theorem constant?_listConstant (h : IsName name) (values : List String) :
    constant? (indent 2 (listConstant name values)) = some (.list name values) := by
  have hquoted : (Text.quoteList values).toList =
      Expression.listChars (values.map Expression.quotedChars) := by
    have htext : Text.quoteList values = Expression.listText (values.map Text.quote) := rfl
    have hquote : String.toList ∘ Text.quote = Expression.quotedChars :=
      funext Expression.toList_quote
    rw [htext, Expression.toList_listText, List.map_map, hquote]
  generalize hcs : Expression.listChars (values.map Expression.quotedChars) ++ [';'] = cs
  have hname : nameBehind? (indent 2 "pub const ") (indent 2 (listConstant name values)).toList =
      some (name, ": &[&str] = &".toList ++ cs) := by
    refine nameBehind?_eq ?_ h ?_
    · simp [listConstant, hquoted, ← hcs]
    · simp [isNameChar, Text.isWordChar]
  have hlength : values.length ≤ cs.length := by
    have hitems := Expression.length_lt_length_listChars (values.map Expression.quotedChars)
    rw [List.length_map] at hitems
    rw [← hcs, List.length_append]
    omega
  have htext : textValue? (": &[&str] = &".toList ++ cs) = none := by
    simp [textValue?, List.isPrefixOf?]
  have hvalues : listValue? (": &[&str] = &".toList ++ cs) = some values := by
    have hread : Expression.readList Expression.readText cs.length cs = some (values, [';']) := by
      rw [← hcs] at hlength ⊢
      exact Expression.readList_quotedChars values hlength
    simp only [listValue?, isPrefixOf?_append, Option.bind_eq_bind, Option.bind_some, hread, if_pos]
  rw [constant?, hname, Option.bind_some, htext, hvalues]
  rfl

/-- A line that does not start as a constant does is none. -/
theorem constant?_eq_none {line : String} {c : Char} (hc : line.toList.head? = some c)
    (h : c ≠ 'p') : constant? (indent 2 line) = none := by
  have hstart : nameBehind? (indent 2 "pub const ") (indent 2 line).toList = none := by
    obtain ⟨cs, hcs⟩ := List.head?_eq_some_iff.mp hc
    have hne : ('p' == c) = false := by simpa using Ne.symm h
    simp [nameBehind?, hcs, List.isPrefixOf?, List.replicate_succ, hne]
  rw [constant?, hstart, Option.bind_none]

/-- The comment on the name of a field consists of comment lines. -/
theorem head?_of_mem_fieldDoc (f : LayerField) :
    ∀ line ∈ fieldDoc f, line.toList.head? = some '/' := by
  unfold fieldDoc
  dsimp only
  rw [List.forall_mem_append]
  constructor
  · split <;> simp
  · split
    · simp
    · rw [List.forall_mem_append, List.forall_mem_cons, List.forall_mem_map]
      refine ⟨?_, by simp, by simp⟩
      split <;> simp

/-- The constants for the names of fields are read off their lines. -/
theorem filterMap_constant?_fieldLines {ds : List (Declaration LayerField)}
    (h : ∀ d ∈ ds, IsName d.ident) :
    ((ds.flatMap fieldLines).map (indent 2)).filterMap constant? =
      ds.map fun d => .text d.ident d.name := by
  have hone : ∀ d ∈ ds,
      ((fieldLines d).map (indent 2)).filterMap constant? = [.text d.ident d.name] := by
    intro d hd
    have hdoc : ((fieldDoc d.item).map (indent 2)).filterMap constant? = [] := by
      rw [List.filterMap_eq_nil_iff, List.forall_mem_map]
      exact fun line hline => constant?_eq_none (head?_of_mem_fieldDoc d.item line hline) (by decide)
    rw [fieldLines, List.map_append, List.filterMap_append, hdoc, List.nil_append, List.map_singleton]
    exact List.filterMap_cons_some (constant?_textConstant (h d hd) d.name)
  rw [List.map_flatMap]
  exact filterMap_flatMap_eq_map hone

/-- The constant for a value, or for all values, of a field. -/
def valueConstant (d : Declaration ValueItem) : Constant :=
  match d.item with
  | .value v => .text d.ident v
  | .list vs => .list d.ident vs

/-- The constants for the values of fields are read off their lines. -/
theorem filterMap_constant?_valueLine {ds : List (Declaration ValueItem)}
    (h : ∀ d ∈ ds, IsName d.ident) :
    (ds.map fun d => indent 2 (valueLine d)).filterMap constant? = ds.map valueConstant := by
  rw [List.filterMap_map, ← List.filterMap_eq_map]
  refine List.filterMap_congr fun d hd => ?_
  rw [Function.comp_apply, Function.comp_apply, valueLine, valueConstant]
  cases d.item with
  | value v => exact constant?_textConstant (h d hd) v
  | list vs => exact constant?_listConstant (h d hd) vs

/-! ### Functions -/

/-- A function that is declared, with the rules that it gives. -/
structure RuleFunction where
  ident : String
  rules : List (Rule String)

/-- The line that opens a function. -/
def functionOpening (name : String) : String :=
  indent 2 ("pub fn " ++ name ++ "() -> MultiExpression<&'static str> \x7b")

/-- The line that closes a function. -/
def functionClosing : String := indent 2 "\x7d"

/-- The name of the function that a line opens. -/
def functionName? (line : String) : Option String :=
  nameBetween? (indent 2 "pub fn ") "() -> MultiExpression<&'static str> \x7b" line

/-- The functions that lines declare: a function goes from the line that opens it up to the one that
closes it. -/
def ruleFunctions : List String → List RuleFunction
  | [] => []
  | line :: lines =>
    match functionName? line with
    | some name =>
      ⟨name, (lines.takeWhile (· ≠ functionClosing)).filterMap readRule?⟩ :: ruleFunctions lines
    | none => ruleFunctions lines

/-- Lines in front that open no function do not matter. -/
theorem ruleFunctions_append {before : List String}
    (h : ∀ line ∈ before, functionName? line = none) (rest : List String) :
    ruleFunctions (before ++ rest) = ruleFunctions rest := by
  induction before with
  | nil => rfl
  | cons line before ih =>
    obtain ⟨hline, hbefore⟩ := List.forall_mem_cons.mp h
    rw [List.cons_append, ruleFunctions, hline]
    exact ih hbefore

/-- A line that opens a function is eight spaces in. -/
theorem functionName?_eq_none {line : String} (h : blanks line ≠ 8) : functionName? line = none := by
  have hstart : nameBehind? (indent 2 "pub fn ") line.toList = none := by
    rw [nameBehind?, Option.map_eq_none_iff]
    refine Option.eq_none_iff_forall_ne_some.mpr fun cs hcs => h ?_
    have hline := List.isPrefixOf?_eq_some_iff_append_eq.mp hcs
    rw [blanks, ← hline]
    simp [List.replicate_succ]
  rw [functionName?, nameBetween?, hstart, Option.bind_none]

theorem functionName?_functionOpening (h : IsName name) :
    functionName? (functionOpening name) = some name := by
  refine nameBetween?_eq ?_ h (by simp [isNameChar, Text.isWordChar])
  simp only [functionOpening, indent, String.append_assoc]

/-- Between the lines that open and close a function, its rules are written further in. -/
theorem exists_mappingLines_eq (d : Declaration (RuleIndex String)) :
    ∃ body, (∀ line ∈ body, blanks line ≠ 8) ∧ body.filterMap readRule? = d.item.rules ∧
      mappingLines d = ["", functionOpening d.ident] ++ body ++ [functionClosing] := by
  obtain ⟨body, hbody, hlines⟩ : ∃ body, (∀ line ∈ body, blanks line ≠ 8) ∧
      mappingLines d = ["", functionOpening d.ident] ++ body ++ [functionClosing] := by
    refine ⟨indent 3 "MultiExpression::of(vec![" :: (d.item.rules.map (fun r =>
      indent 4 ("(" ++ Text.quote r.result ++ ", " ++ r.expression.text ++ "),")) ++
        [indent 3 "])"]), ?_, ?_⟩
    · simp only [List.forall_mem_cons, List.forall_mem_append, List.forall_mem_map, blanks_indent]
      simp [blanks]
    · simp [mappingLines, functionOpening, functionClosing]
  refine ⟨body, hbody, ?_, hlines⟩
  rw [← filterMap_readRule?_mappingLines d, hlines, filterMap_readRule?_between]
  · simp [functionOpening, blanks]
  · simp [functionClosing, blanks]

/-- The function for the rules of a field is read off its lines. -/
theorem ruleFunctions_mappingLines {d : Declaration (RuleIndex String)} (h : IsName d.ident)
    (rest : List String) :
    ruleFunctions (mappingLines d ++ rest) = ⟨d.ident, d.item.rules⟩ :: ruleFunctions rest := by
  obtain ⟨body, hbody, hrules, hlines⟩ := exists_mappingLines_eq d
  have hempty : functionName? "" = none := functionName?_eq_none (by decide)
  have hclosing : functionName? functionClosing = none := by decide
  have hblanks : blanks functionClosing = 8 := by decide
  have hinner : ∀ line ∈ body, blanks line ≠ blanks functionClosing := by
    rw [hblanks]
    exact hbody
  calc ruleFunctions (mappingLines d ++ rest)
      = ruleFunctions ("" :: functionOpening d.ident :: (body ++ functionClosing :: rest)) := by
        rw [hlines]
        simp
    _ = ⟨d.ident, d.item.rules⟩ :: ruleFunctions (body ++ functionClosing :: rest) := by
        rw [ruleFunctions, hempty, ruleFunctions, functionName?_functionOpening h]
        dsimp only
        rw [takeWhile_ne_closing hinner, hrules]
    _ = ⟨d.ident, d.item.rules⟩ :: ruleFunctions rest := by
        rw [ruleFunctions_append fun line hline => functionName?_eq_none (hbody line hline),
          ruleFunctions, hclosing]

/-- No line of a function is as far in as the ends of modules in a module. -/
theorem blanks_ne_of_mem_mappingLines (d : Declaration (RuleIndex String)) :
    ∀ line ∈ mappingLines d, blanks line ≠ 4 := by
  unfold mappingLines
  simp only [List.forall_mem_append, List.forall_mem_cons, List.forall_mem_map, blanks_indent]
  simp [blanks]

/-- The functions for the rules of fields are read off their lines. -/
theorem ruleFunctions_flatMap {ds : List (Declaration (RuleIndex String))}
    (h : ∀ d ∈ ds, IsName d.ident) :
    ruleFunctions (ds.flatMap mappingLines) = ds.map fun d => ⟨d.ident, d.item.rules⟩ := by
  induction ds with
  | nil => rfl
  | cons d ds ih =>
    obtain ⟨hd, hds⟩ := List.forall_mem_cons.mp h
    rw [List.flatMap_cons, ruleFunctions_mappingLines hd, ih hds, List.map_cons]

/-! ### Names of a layer -/

/-- What the module of a layer declares has names that can be read. -/
structure LayerModule.HasNames (m : LayerModule) : Prop where
  ident : IsName m.ident
  fields : ∀ d ∈ m.fields, IsName d.ident
  values : ∀ d ∈ m.values, IsName d.ident
  mappings : ∀ d ∈ m.mappings, IsName d.ident

/-- The identifiers asked for by fields can be read back. -/
theorem isName_of_mem_fieldDeclarations (fields : List LayerField) :
    ∀ d ∈ fieldDeclarations fields, IsName d.ident :=
  List.forall_mem_map.mpr fun f _ => isName_constantCase f.name

/-- The identifiers asked for by values of fields can be read back. -/
theorem isName_of_mem_valueDeclarations (fields : List LayerField) :
    ∀ d ∈ valueDeclarations fields, IsName d.ident := by
  have hsuffix : IsName "VALUES" := isName_ofList (by decide)
  have hone : ∀ f : LayerField, ∀ d ∈ valueDeclarationsOf f, IsName d.ident := by
    intro f
    have hunderscore : IsName "_" := isName_ofList (by decide)
    have hstart : IsName (constantCase f.name ++ "_") :=
      (isName_constantCase f.name).append hunderscore
    unfold valueDeclarationsOf
    split
    · simp
    · dsimp only
      rw [List.forall_mem_append, List.forall_mem_map, List.forall_mem_singleton]
      exact ⟨fun v _ => hstart.append (isName_constantCase v), hstart.append hsuffix⟩
  intro d hd
  obtain ⟨f, -, hd⟩ := List.mem_flatMap.mp hd
  exact hone f d hd

/-- The identifiers asked for by rules of fields can be read back. -/
theorem isName_of_mem_mappingDeclarations (fields : List LayerField) :
    ∀ d ∈ mappingDeclarations fields, IsName d.ident := by
  intro d hd
  obtain ⟨f, -, hf⟩ := List.mem_filterMap.mp hd
  obtain ⟨index, -, rfl⟩ := Option.map_eq_some_iff.mp hf
  exact isName_snakeIdent f.name

/-- What is kept of declarations can be read back if all of them can. -/
theorem isName_of_mem_kept {α : Type} {ds : List (Declaration α)} (h : ∀ d ∈ ds, IsName d.ident) :
    ∀ d ∈ kept ds, IsName d.ident :=
  fun d hd => h d ((keepsFirst_kept ds).sublist.subset hd)

/-- All names in the module of a layer can be read back. -/
theorem hasNames_layerModule (l : LayerArtifact) : (layerModule l).HasNames where
  ident := isName_snakeIdent l.id
  fields := isName_of_mem_kept (isName_of_mem_fieldDeclarations l.fields)
  values := isName_of_mem_kept (isName_of_mem_valueDeclarations l.fields)
  mappings := isName_of_mem_kept (isName_of_mem_mappingDeclarations l.fields)

/-! ### The three modules -/

/-- The lines of the module of a layer in front of the modules in it. -/
def layerFront (m : LayerModule) : List String :=
  layerDoc m.description ++
  ["pub mod " ++ m.ident ++ " \x7b",
    indent 1 "use super::*;",
    "",
    indent 1 (textConstant "LAYER_NAME" m.id),
    indent 1 ("pub const BUFFER_SIZE: f64 = " ++ Decimal.text Decimal.codeStyle m.bufferSize ++
      ";"),
    "",
    indent 1 (fieldsDoc m.id)]

/-- Behind its first lines, the module of a layer consists of three modules. -/
theorem lines_eq (m : LayerModule) :
    m.lines = layerFront m ++ innerOpening "fields" ::
      ((m.fields.flatMap fieldLines).map (indent 2) ++ innerClosing ::
        (["", indent 1 (valuesDoc m.id)] ++ innerOpening "field_values" ::
          (m.values.map (fun d => indent 2 (valueLine d)) ++ innerClosing ::
            (["", indent 1 (mappingsDoc m.id)] ++ innerOpening "field_mappings" ::
              (indent 2 "use super::*;" :: m.mappings.flatMap mappingLines ++ innerClosing ::
                ["\x7d"]))))) := by
  simp [LayerModule.lines, layerFront, innerOpening, innerClosing]

/-- The first lines open no module. -/
theorem ne_innerOpening_of_mem_layerFront (m : LayerModule) (name : String) :
    ∀ line ∈ layerFront m, line ≠ innerOpening name := by
  have hdoc : ∀ line ∈ layerDoc m.description, line ≠ innerOpening name := by
    unfold layerDoc
    split
    · exact nofun
    · rw [List.forall_mem_singleton]
      exact ne_innerOpening_of_blanks (by simp [blanks])
  unfold layerFront
  simp only [List.forall_mem_append, List.forall_mem_cons]
  refine ⟨hdoc, ?_, ?_, ?_, ?_, ?_, ?_, ?_, nofun⟩
  · exact ne_innerOpening_of_blanks (by simp [blanks])
  · exact indent_ne_innerOpening (by simp)
  · exact ne_innerOpening_of_blanks (by decide)
  · exact indent_ne_innerOpening (by simp [textConstant])
  · generalize Decimal.text Decimal.codeStyle m.bufferSize = size
    exact indent_ne_innerOpening (by simp)
  · exact ne_innerOpening_of_blanks (by decide)
  · exact indent_ne_innerOpening (by unfold fieldsDoc; simp)

theorem blanks_fieldLines (m : LayerModule) :
    ∀ line ∈ (m.fields.flatMap fieldLines).map (indent 2), blanks line = 8 := by
  rw [List.forall_mem_map]
  intro line hline
  obtain ⟨d, -, hd⟩ := List.mem_flatMap.mp hline
  rw [blanks_indent, blanks_of_mem_fieldLines d line hd]

theorem blanks_valueLines (m : LayerModule) :
    ∀ line ∈ m.values.map (fun d => indent 2 (valueLine d)), blanks line = 8 := by
  rw [List.forall_mem_map]
  intro d _
  rw [blanks_indent, blanks_valueLine]

theorem blanks_mappingLines_ne (m : LayerModule) :
    ∀ line ∈ indent 2 "use super::*;" :: m.mappings.flatMap mappingLines, blanks line ≠ 4 := by
  rw [List.forall_mem_cons]
  refine ⟨by decide, fun line hline => ?_⟩
  obtain ⟨d, -, hd⟩ := List.mem_flatMap.mp hline
  exact blanks_ne_of_mem_mappingLines d line hd

/-- The lines between the modules in a module open none. -/
theorem ne_innerOpening_between (m : LayerModule) (name : String) :
    (∀ line ∈ ["", indent 1 (valuesDoc m.id)], line ≠ innerOpening name) ∧
      ∀ line ∈ ["", indent 1 (mappingsDoc m.id)], line ≠ innerOpening name := by
  simp only [List.forall_mem_cons]
  refine ⟨⟨?_, ?_, nofun⟩, ?_, ?_, nofun⟩
  · exact ne_innerOpening_of_blanks (by decide)
  · exact indent_ne_innerOpening (by unfold valuesDoc; simp)
  · exact ne_innerOpening_of_blanks (by decide)
  · exact indent_ne_innerOpening (by unfold mappingsDoc; simp)

/-- The lines of the three modules in the module of a layer. -/
theorem innerLines_lines (m : LayerModule) :
    innerLines "fields" m.lines = (m.fields.flatMap fieldLines).map (indent 2) ∧
    innerLines "field_values" m.lines = m.values.map (fun d => indent 2 (valueLine d)) ∧
    innerLines "field_mappings" m.lines =
      indent 2 "use super::*;" :: m.mappings.flatMap mappingLines := by
  have hfront := ne_innerOpening_of_mem_layerFront m
  have hfields := blanks_fieldLines m
  have hvalues := blanks_valueLines m
  have hbetween := ne_innerOpening_between m
  rw [lines_eq]
  refine ⟨?_, ?_, ?_⟩
  · rw [innerLines_append (hfront "fields")]
    exact innerLines_opening (fun line hline => by simp [hfields line hline]) _
  · rw [innerLines_append (hfront "field_values"), innerLines_skip (by decide) hfields,
      innerLines_append (hbetween "field_values").1]
    exact innerLines_opening (fun line hline => by simp [hvalues line hline]) _
  · rw [innerLines_append (hfront "field_mappings"), innerLines_skip (by decide) hfields,
      innerLines_append (hbetween "field_mappings").1, innerLines_skip (by decide) hvalues,
      innerLines_append (hbetween "field_mappings").2]
    exact innerLines_opening (blanks_mappingLines_ne m) _

end TileSchema.Code
