import TileSchema.Proofs.Code.RowModule
import TileSchema.Proofs.Text.Quoted

/-!
# The names in a constructor

The constructor of a row type has two parameters, the element and the mapping key, and its values
are made from these.  Both are read off its lines: a parameter is a name in front of a colon, and a
variable is a name that is neither called nor behind a dot, outside of string literals
(`withoutLiterals_quoteChars`).

The mapping key has a mark in front of its name if no field has a use for it, so the values name it
as the constructor does (`mem_parameters_of_mem_used`).
-/

namespace TileSchema.Code

open Table (Compiled Extraction Field)
open Text (QuoteStyle hexDigit hexDigits isNameChar)

variable {cs rest : List Char} {line : String} {r : RowDeclaration} {t : Compiled}

/-! ### String literals -/

/-- Where a scan for string literals is. -/
inductive LiteralPlace where
  | outside
  | inside
  /-- Behind a backslash. -/
  | escaped

/-- Characters without what stands between the quotes of string literals. -/
def withoutLiterals : LiteralPlace → List Char → List Char
  | _, [] => []
  | .outside, c :: cs => c :: withoutLiterals (if c = '"' then .inside else .outside) cs
  | .inside, c :: cs =>
    if c = '"' then c :: withoutLiterals .outside cs
    else withoutLiterals (if c = '\\' then .escaped else .inside) cs
  | .escaped, _ :: cs => withoutLiterals .inside cs

theorem withoutLiterals_outside_append (h : '"' ∉ cs) (rest : List Char) :
    withoutLiterals .outside (cs ++ rest) = cs ++ withoutLiterals .outside rest := by
  induction cs with
  | nil => rfl
  | cons c cs ih =>
    rw [List.mem_cons, not_or] at h
    rw [List.cons_append, withoutLiterals, if_neg (Ne.symm h.1), ih h.2, List.cons_append]

/-- Characters that neither end a literal nor escape one are left out. -/
theorem withoutLiterals_inside_append (h : ∀ c ∈ cs, c ≠ '"' ∧ c ≠ '\\') (rest : List Char) :
    withoutLiterals .inside (cs ++ rest) = withoutLiterals .inside rest := by
  induction cs with
  | nil => rfl
  | cons c cs ih =>
    obtain ⟨⟨hquote, hbackslash⟩, hcs⟩ := List.forall_mem_cons.mp h
    rw [List.cons_append, withoutLiterals, if_neg hquote, if_neg hbackslash, ih hcs]

/-- The digits of a code point end no literal. -/
theorem ne_of_mem_hexDigits {c : Char} (n : Nat) (h : c ∈ hexDigits n) : c ≠ '"' ∧ c ≠ '\\' := by
  have hdigit : ∀ k < 16, hexDigit k ≠ '"' ∧ hexDigit k ≠ '\\' := by decide
  fun_induction hexDigits n with
  | case1 n hn =>
    rw [List.mem_singleton] at h
    exact h ▸ hdigit n hn
  | case2 n hn ih =>
    rw [List.mem_append, List.mem_singleton] at h
    rcases h with h | rfl
    · exact ih h
    · exact hdigit _ (Nat.mod_lt n (by decide))

/-- A character in a literal does not end it. -/
theorem withoutLiterals_escape (style : QuoteStyle) (c : Char) (rest : List Char) :
    withoutLiterals .inside (Text.escape style c ++ rest) = withoutLiterals .inside rest := by
  obtain ⟨m, -, -, heq⟩ | heq | ⟨hquote, hbackslash, heq⟩ := Text.escape_cases style c
  · rw [heq]
    rfl
  · have hdigits : ∀ d ∈ '\x7b' :: hexDigits c.toNat ++ ['\x7d'], d ≠ '"' ∧ d ≠ '\\' := by
      rw [List.forall_mem_append, List.forall_mem_cons, List.forall_mem_singleton]
      exact ⟨⟨by decide, fun d => ne_of_mem_hexDigits c.toNat⟩, by decide⟩
    rw [heq]
    exact withoutLiterals_inside_append hdigits rest
  · rw [heq]
    exact withoutLiterals_inside_append (by simp [hbackslash, hquote]) rest

/-- Of a literal, only the quotes stay. -/
theorem withoutLiterals_quoteChars (style : QuoteStyle) (cs rest : List Char) :
    withoutLiterals .outside (Text.quoteChars style cs ++ rest) =
      '"' :: '"' :: withoutLiterals .outside rest := by
  have hbody : withoutLiterals .inside (cs.flatMap (Text.escape style) ++ '"' :: rest) =
      '"' :: withoutLiterals .outside rest := by
    induction cs with
    | nil => rfl
    | cons c cs ih => rw [List.flatMap_cons, List.append_assoc, withoutLiterals_escape, ih]
  simpa [Text.quoteChars, withoutLiterals] using hbody

/-! ### Names in a line -/

/-- A name in a line, with the characters before and behind it. -/
structure Word where
  before : Char
  name : String
  behind : Char
  deriving Repr, DecidableEq

/-- The names among characters, the first of which may have been read in part. -/
def words (before : Char) (start : List Char) : List Char → List Word
  | [] => if start.isEmpty then [] else [⟨before, String.ofList start, ' '⟩]
  | c :: cs =>
    if isNameChar c then words before (start ++ [c]) cs
    else if start.isEmpty then words c [] cs
    else ⟨before, String.ofList start, c⟩ :: words c [] cs

/-- The names among characters, outside of string literals. -/
def wordsOf (cs : List Char) : List Word := words ' ' [] (withoutLiterals .outside cs)

/-- The names that have a type. -/
def parametersIn (cs : List Char) : List String :=
  ((wordsOf cs).filter (·.behind == ':')).map Word.name

/-- The names that stand for a value: they are not called, and not behind a dot. -/
def variablesIn (cs : List Char) : List String :=
  ((wordsOf cs).filter fun w => w.before != '.' && w.behind != '(').map Word.name

/-- The variables from which the value of a field is made. -/
def variablesOf : Extraction → List String
  | .mappingKey => ["mapping_key"]
  | .mappingValue => ["source", "mapping_key"]
  | _ => ["source"]

/-- The variables are read off the value, whatever stands in its literals. -/
theorem variablesIn_extractionCode (e : Extraction) :
    variablesIn (extractionCode e ++ ",").toList = variablesOf e := by
  have hliteral : ∀ (call key : String), '"' ∉ call.toList →
      withoutLiterals .outside (call ++ Text.quote key ++ ")" ++ ",").toList =
        call.toList ++ ['"', '"', ')', ','] := by
    intro call key hcall
    have hchars : (call ++ Text.quote key ++ ")" ++ ",").toList =
        call.toList ++ (Text.quoteChars Text.textStyle key.toList ++ [')', ',']) := by
      simp [Text.quote]
    rw [hchars, withoutLiterals_outside_append hcall, withoutLiterals_quoteChars]
    rfl
  have hcall : ∀ (call key : String), '"' ∉ call.toList →
      ((words ' ' [] (call.toList ++ ['"', '"', ')', ','])).filter
        fun w => w.before != '.' && w.behind != '(').map Word.name = ["source"] →
      variablesIn (call ++ Text.quote key ++ ")" ++ ",").toList = ["source"] := by
    intro call key hquote hwords
    rw [variablesIn, wordsOf, hliteral call key hquote, hwords]
  match e with
  | .attribute key => exact hcall "source.get_string(" key (by decide) (by decide)
  | .attributeAsBool key => exact hcall "source.get_bool(" key (by decide) (by decide)
  | .attributeAsInt key => exact hcall "source.get_long(" key (by decide) (by decide)
  | .wayZOrder => decide
  | .direction key => exact hcall "source.direction(" key (by decide) (by decide)
  | .mappingKey => decide
  | .mappingValue => decide
  | .sourceElement => decide

/-! ### Constructors -/

/-- The names in the constructor of a type. -/
structure ConstructorNames where
  type : String
  parameters : List String
  used : List String
  deriving Repr, DecidableEq

/-- What stands behind the label of a line in a constructor. -/
def valueBehind? (line : String) : Option (List Char) :=
  match nameBehind? "            " line.toList with
  | some (_, ':' :: ' ' :: cs) => some cs
  | _ => none

/-- The parameters in the line that opens a constructor. -/
def parameters? (line : String) : Option (List String) :=
  ("    pub fn new(".toList.isPrefixOf? line.toList).map parametersIn

/-- The constructor in an item. -/
def Item.constructor? (i : Item) : Option ConstructorNames :=
  match headingOf i.header with
  | .functions type =>
    some ⟨type, (i.body.filterMap parameters?).flatten,
      (i.body.filterMap valueBehind?).flatMap variablesIn⟩
  | _ => none

/-- The constructors in lines. -/
def constructors (lines : List String) : List ConstructorNames :=
  (items lines).filterMap Item.constructor?

/-- The names in the constructor of the rows of a table. -/
def constructorOf (t : Compiled) : ConstructorNames :=
  ⟨t.rowType, ["source", keyParameterOf t.fields], t.fields.flatMap (variablesOf ·.extraction)⟩

theorem keyParameterOf_cases (fs : List Field) :
    keyParameterOf fs = "mapping_key" ∨ keyParameterOf fs = "_mapping_key" := by
  unfold keyParameterOf
  split
  · exact .inl rfl
  · exact .inr rfl

theorem valueBehind?_eq_none (h : labelBehind? "            " line = none) :
    valueBehind? line = none := by
  have hnone : ∀ name tail,
      nameBehind? "            " line.toList ≠ some (name, ':' :: ' ' :: tail) := by
    intro name tail heq
    simp [labelBehind?, heq] at h
  unfold valueBehind?
  split
  · next heq => exact absurd heq (hnone _ _)
  · rfl

/-- The value of a member is read, whatever it is. -/
theorem valueBehind?_eq {name value : String} (h : IsName name) :
    valueBehind? ("            " ++ name ++ ": " ++ value ++ ",") = some (value ++ ",").toList := by
  have hcs : ("            " ++ name ++ ": " ++ value ++ ",").toList =
      "            ".toList ++ (name.toList ++ ':' :: ' ' :: (value ++ ",").toList) := by
    simp
  have hname := nameBehind?_eq hcs h (by simp [isNameChar, Text.isWordChar])
  simp only [valueBehind?, hname]

/-- The values in a constructor are those of its fields. -/
theorem filterMap_valueBehind?_functionsItem (h : r.HasNames) :
    (functionsItem r).body.filterMap valueBehind? =
      r.initializers.map fun i => (i.value ++ ",").toList := by
  have hfront : (functionsFront r).filterMap valueBehind? = [] :=
    List.filterMap_eq_nil_iff.mpr fun line hline =>
      valueBehind?_eq_none (labelBehind?_functionsFront r line hline)
  have hbehind : ["        \x7d", "    \x7d"].filterMap valueBehind? = [] := by decide
  rw [body_functionsItem, List.filterMap_append, List.filterMap_append, hfront, hbehind,
    List.nil_append, List.append_nil, List.filterMap_map, ← List.filterMap_eq_map]
  exact List.filterMap_congr fun i hi => valueBehind?_eq (h.initializers i hi)

/-- The parameters of a constructor stand in the line that opens it. -/
theorem filterMap_parameters?_functionsItem (t : Compiled) :
    (functionsItem (rowDeclaration t)).body.filterMap parameters? =
      [["source", keyParameterOf t.fields]] := by
  have hkey : parameters? ("    pub fn new(source: &SourceFeature, " ++ keyParameterOf t.fields ++
      ": &str) -> Self \x7b") = some ["source", keyParameterOf t.fields] := by
    rcases keyParameterOf_cases t.fields with h | h <;> rw [h] <;> decide
  have hvalues : ((rowDeclaration t).initializers.map fun i =>
      "            " ++ i.ident ++ ": " ++ i.value ++ ",").filterMap parameters? = [] := by
    rw [List.filterMap_map, List.filterMap_eq_nil_iff]
    intro i _
    simp [parameters?, List.isPrefixOf?]
  have hbehind : ["        \x7d", "    \x7d"].filterMap parameters? = [] := by decide
  have hfront : (functionsFront (rowDeclaration t)).filterMap parameters? =
      [["source", keyParameterOf t.fields]] := by
    have htable : parameters? ("    pub const TABLE: &'static str = " ++ Text.quote t.tableName ++
        ";") = none := by
      simp [parameters?, List.isPrefixOf?]
    have hexpression : parameters? ("        " ++ t.expression.text) = none := by
      simp [parameters?, List.isPrefixOf?]
    rw [functionsFront, rowDeclaration, List.filterMap_cons_none htable,
      List.filterMap_cons_none (by decide), List.filterMap_cons_none (by decide),
      List.filterMap_cons_none (by decide), List.filterMap_cons_none hexpression,
      List.filterMap_cons_none (by decide), List.filterMap_cons_none (by decide),
      List.filterMap_cons_some hkey, List.filterMap_cons_none (by decide), List.filterMap_nil]
  rw [body_functionsItem, List.filterMap_append, List.filterMap_append, hfront, hvalues, hbehind]
  rfl

/-- Each constructor names its parameters and the variables of its values. -/
theorem constructor?_functionsItem (h : (rowDeclaration t).HasNames) :
    (functionsItem (rowDeclaration t)).constructor? = some (constructorOf t) := by
  have hheading : headingOf (functionsItem (rowDeclaration t)).header = .functions t.rowType :=
    headingOf_functions h.rowType
  have hused : ((functionsItem (rowDeclaration t)).body.filterMap valueBehind?).flatMap variablesIn =
      t.fields.flatMap (variablesOf ·.extraction) := by
    rw [filterMap_valueBehind?_functionsItem h, rowDeclaration, List.map_map, List.flatMap_map]
    exact List.flatMap_congr fun f _ => variablesIn_extractionCode f.extraction
  simp only [Item.constructor?, hheading, hused, filterMap_parameters?_functionsItem, constructorOf]
  rfl

/-- A constructor uses no names but its parameters. -/
theorem mem_parameters_of_mem_used {n : String} (h : n ∈ (constructorOf t).used) :
    n ∈ (constructorOf t).parameters := by
  obtain ⟨f, hf, hn⟩ := List.mem_flatMap.mp h
  have hkey : n = "source" ∨ (n = "mapping_key" ∧ f.extraction.usesMappingKey = true) := by
    revert hn
    cases f.extraction <;> simp +contextual [variablesOf, Extraction.usesMappingKey]
  rcases hkey with rfl | ⟨rfl, huses⟩
  · exact List.mem_cons_self
  · have hany : t.fields.any (·.extraction.usesMappingKey) = true :=
      List.any_eq_true.mpr ⟨f, hf, huses⟩
    have hparameter : keyParameterOf t.fields = "mapping_key" := by rw [keyParameterOf, if_pos hany]
    simp [constructorOf, hparameter]

end TileSchema.Code
