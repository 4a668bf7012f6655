import TileSchema.Proofs.Code.Expressions
import TileSchema.Proofs.Code.Items

/-!
# The items of a row type

Each item of the file of the rows declares a structure, a trait, functions or an implementation, and
its members and methods are read off the lines that are written inside it (`Item.declared`).

A row type is written as four items and one for each accessor (`items_rowLines_append`), and what is
read off them is what it declares (`map_declared_rowItems`).
-/

namespace TileSchema.Code

open TileSchema.Filter (Expression)
open Text (isNameChar)

variable {line start name type : String} {r : RowDeclaration}

/-! ### Lines inside items -/

/-- A method with the type of its result. -/
structure Signature where
  method : String
  type : String
  deriving Repr, DecidableEq

/-- Characters without the mark that ends a signature. -/
def withoutEnd? (cs : List Char) : Option (List Char) :=
  match cs.reverse with
  | ';' :: cs => some cs.reverse
  | '\x7b' :: ' ' :: cs => some cs.reverse
  | _ => none

/-- The method in a line. -/
def signature? (line : String) : Option Signature := do
  let (method, cs) ← nameBehind? "    fn " line.toList
  let cs ← "(&self) -> ".toList.isPrefixOf? cs
  let type ← withoutEnd? cs
  return ⟨method, String.ofList type⟩

/-- The name behind a text in a line, if a colon follows. -/
def labelBehind? (start line : String) : Option String :=
  match nameBehind? start line.toList with
  | some (name, ':' :: ' ' :: _) => some name
  | _ => none

theorem signature?_eq {stop : String} (hname : IsName name)
    (hstop : stop = ";" ∨ stop = " \x7b")
    (hline : line = "    fn " ++ name ++ "(&self) -> " ++ type ++ stop) :
    signature? line = some ⟨name, type⟩ := by
  have hcs : line.toList =
      "    fn ".toList ++ (name.toList ++ ("(&self) -> ".toList ++ (type.toList ++ stop.toList))) := by
    simp [hline]
  have hend : withoutEnd? (type.toList ++ stop.toList) = some type.toList := by
    rcases hstop with rfl | rfl <;> simp [withoutEnd?]
  have hmethod := nameBehind?_eq hcs hname (by simp [isNameChar, Text.isWordChar])
  simp only [signature?, hmethod, Option.bind_eq_bind, Option.bind_some, isPrefixOf?_append, hend,
    String.ofList_toList]
  rfl

theorem labelBehind?_eq {stop : String} (hname : IsName name)
    (hline : line = start ++ name ++ (": " ++ stop)) : labelBehind? start line = some name := by
  have hcs : line.toList = start.toList ++ (name.toList ++ ':' :: ' ' :: stop.toList) := by
    simp [hline]
  have hlabel := nameBehind?_eq hcs hname (by simp [isNameChar, Text.isWordChar])
  simp only [labelBehind?, hlabel]

/-! ### What items declare -/

/-- The row types that the index of rows is made from, by the three places of an entry. -/
structure IndexNames where
  tables : List String
  constructors : List String
  expressions : List String
  deriving Repr, DecidableEq

/-- The methods and row types that the dispatch is made from, by the three places of a branch. -/
structure DispatchNames where
  methods : List String
  tables : List String
  rows : List String
  deriving Repr, DecidableEq

/-- What an item declares, with the declarations inside it. -/
inductive Declared where
  | structure_ (name : String) (members : List String)
  | trait (name : String) (methods : List Signature)
  | function (name : String) (entries : IndexNames)
  | functions (type : String) (initializers : List String) (expressions : List Expression)
  | implementation (trait type : String) (methods : List Signature)
  | other (branches : DispatchNames)

/-- The row types that lines of an index are made from. -/
def indexNames (lines : List String) : IndexNames where
  tables := lines.filterMap (nameBetween? "                table: " "::TABLE,")
  constructors := lines.filterMap
    (nameBetween? "                create: |source, key| Box::new(" "::new(source, key)),")
  expressions := lines.filterMap (nameBetween? "            " "::mapping(),")

/-- The methods and row types that lines of a dispatch are made from. -/
def dispatchNames (lines : List String) : DispatchNames where
  methods := lines.filterMap
    (nameBetween? "        if let Some(handler) = subscriber." "() \x7b")
  tables := lines.filterMap
    (nameBetween? "            result.entry(" "::TABLE).or_default().push(Box::new(")
  rows := lines.filterMap
    (nameBetween? "                    if let Some(row) = row.as_any().downcast_ref::<" ">() \x7b")

/-- What an item declares. -/
def Item.declared (i : Item) : Declared :=
  match headingOf i.header with
  | .structure_ name => .structure_ name (i.body.filterMap (labelBehind? "    pub "))
  | .trait name => .trait name (i.body.filterMap signature?)
  | .function name => .function name (indexNames i.body)
  | .functions type =>
    .functions type (i.body.filterMap (labelBehind? "            ")) (i.body.filterMap readMapping?)
  | .implementation trait type => .implementation trait type (i.body.filterMap signature?)
  | .other => .other (dispatchNames i.body)

/-! ### Items of a row type -/

/-- What a row type declares has names that can be read. -/
structure RowDeclaration.HasNames (r : RowDeclaration) : Prop where
  rowType : IsName r.rowType
  handler : IsName r.handler
  members : ∀ x ∈ r.members, IsName x.ident
  initializers : ∀ x ∈ r.initializers, IsName x.ident
  accessors : ∀ x ∈ r.accessors, IsName x.trait ∧ IsName x.method

/-- The structure of a row type. -/
def structureItem (r : RowDeclaration) : Item where
  header := "pub struct " ++ r.rowType ++ " \x7b"
  body := r.members.map fun m => "    pub " ++ m.ident ++ ": " ++ m.type ++ ","

/-- The functions of a row type. -/
def functionsItem (r : RowDeclaration) : Item where
  header := "impl " ++ r.rowType ++ " \x7b"
  body := (inherentLines r).tail.dropLast

/-- The implementation of the row trait. -/
def rowItem (r : RowDeclaration) : Item where
  header := "impl " ++ "Row" ++ " for " ++ r.rowType ++ " \x7b"
  body := ["    fn as_any(&self) -> &dyn Any \x7b", "        self", "    \x7d"]

/-- The trait of the handlers. -/
def handlerItem (r : RowDeclaration) : Item where
  header := "pub trait " ++ r.handler ++ " \x7b"
  body := ["    fn process(&self, element: &" ++ r.rowType ++ ", features: &mut FeatureCollector);"]

/-- The implementation of an accessor trait. -/
def accessorImplItem (rowType : String) (i : AccessorImpl) : Item where
  header := "impl " ++ i.trait ++ " for " ++ rowType ++ " \x7b"
  body := ["    fn " ++ i.method ++ "(&self) -> " ++ i.type ++ " \x7b", "        " ++ i.body, "    \x7d"]

/-- The items of a row type. -/
def rowItems (r : RowDeclaration) : List Item :=
  [structureItem r, functionsItem r, rowItem r, handlerItem r] ++
    r.accessors.map (accessorImplItem r.rowType)

/-- What a row type declares. -/
def RowDeclaration.declared (r : RowDeclaration) : List Declared :=
  [.structure_ r.rowType (r.members.map Member.ident),
    .functions r.rowType (r.initializers.map Initializer.ident) [r.expression],
    .implementation "Row" r.rowType [⟨"as_any", "&dyn Any"⟩],
    .trait r.handler []] ++
  r.accessors.map fun i => .implementation i.trait r.rowType [⟨i.method, i.type⟩]

theorem lines_functionsItem (r : RowDeclaration) : (functionsItem r).lines = inherentLines r := by
  simp [functionsItem, Item.lines, inherentLines, List.dropLast_cons_of_ne_nil,
    List.dropLast_append_of_ne_nil]

theorem isReadable_structureItem (r : RowDeclaration) : (structureItem r).IsReadable where
  opens := opensItem_append (by simp)
  inner := by
    rw [structureItem, List.forall_mem_map]
    intro m _
    exact ((((isShifted_ofList.append m.ident).append _).append m.type).append _).isInner

/-- The lines of the functions of a row type in front of the values of its constructor. -/
def functionsFront (r : RowDeclaration) : List String :=
  ["    pub const TABLE: &'static str = " ++ Text.quote r.table ++ ";",
    "",
    "    /// imposm3 \"mapping\" selecting the elements that appear in this table.",
    "    pub fn mapping() -> Expression \x7b",
    "        " ++ r.expression.text,
    "    \x7d",
    "",
    "    pub fn new(source: &SourceFeature, " ++ r.keyParameter ++ ": &str) -> Self \x7b",
    "        Self \x7b"]

theorem body_functionsItem (r : RowDeclaration) :
    (functionsItem r).body = functionsFront r ++
      ((r.initializers.map fun i => "            " ++ i.ident ++ ": " ++ i.value ++ ",") ++
        ["        \x7d", "    \x7d"]) := by
  simp [functionsItem, functionsFront, inherentLines, List.dropLast_cons_of_ne_nil,
    List.dropLast_append_of_ne_nil]

theorem isReadable_functionsItem (r : RowDeclaration) : (functionsItem r).IsReadable where
  opens := opensItem_append (by simp)
  inner := by
    have hfront : ∀ line ∈ functionsFront r, IsInner line := by
      refine isInner_cons ((isShifted_ofList.append _).append _) ?_
      refine List.forall_mem_cons.mpr ⟨isInner_empty, ?_⟩
      iterate 2 refine isInner_cons isShifted_ofList ?_
      refine isInner_cons (isShifted_ofList.append _) (isInner_cons isShifted_ofList ?_)
      refine List.forall_mem_cons.mpr ⟨isInner_empty, ?_⟩
      refine isInner_cons ((isShifted_ofList.append _).append _) ?_
      exact isInner_cons isShifted_ofList (List.forall_mem_nil _)
    rw [body_functionsItem, List.forall_mem_append, List.forall_mem_append, List.forall_mem_map]
    refine ⟨hfront, fun i _ => ?_, ?_⟩
    · exact ((((isShifted_ofList.append i.ident).append _).append i.value).append _).isInner
    · exact isInner_cons isShifted_ofList (isInner_cons isShifted_ofList (List.forall_mem_nil _))

theorem isReadable_rowItem (r : RowDeclaration) : (rowItem r).IsReadable where
  opens := opensItem_append (by simp)
  inner := by
    iterate 3 refine isInner_cons isShifted_ofList ?_
    exact List.forall_mem_nil _

theorem isReadable_handlerItem (r : RowDeclaration) : (handlerItem r).IsReadable where
  opens := opensItem_append (by simp)
  inner := isInner_cons ((isShifted_ofList.append r.rowType).append _) (List.forall_mem_nil _)

theorem isReadable_accessorImplItem (rowType : String) (i : AccessorImpl) :
    (accessorImplItem rowType i).IsReadable where
  opens := opensItem_append (by simp)
  inner := by
    have hmethod : IsShifted ("    fn " ++ i.method) := isShifted_ofList.append i.method
    refine isInner_cons (((hmethod.append _).append i.type).append _) ?_
    refine isInner_cons (isShifted_ofList.append i.body) ?_
    exact isInner_cons isShifted_ofList (List.forall_mem_nil _)

/-- The items of a row type are read off its lines. -/
theorem items_rowLines_append (r : RowDeclaration) (rest : List String) :
    items (r.lines ++ rest) = rowItems r ++ items rest := by
  have hsplit : r.lines ++ rest = ["", rowDoc r.table, "#[derive(Debug, Clone)]"] ++
      ((structureItem r).lines ++ "" :: ((functionsItem r).lines ++ "" :: ((rowItem r).lines ++
        (["", "/// Layers implement this to receive [\x60" ++ r.rowType ++
            "\x60] rows through [\x60TableSubscriber\x60]."] ++
          ((handlerItem r).lines ++
            (r.accessors.flatMap (accessorImplLines r.rowType) ++ rest)))))) := by
    rw [lines_functionsItem]
    simp [RowDeclaration.lines, structureLines, rowTraitLines, structureItem, rowItem, handlerItem,
      Item.lines]
  have hdoc : ∀ line ∈ ["", rowDoc r.table, "#[derive(Debug, Clone)]"], opensItem line = false := by
    have htable : opensItem (rowDoc r.table) = false := by
      unfold rowDoc
      exact not_opensItem_append _ (by decide)
    rw [List.forall_mem_cons, List.forall_mem_cons, List.forall_mem_singleton]
    exact ⟨by decide, htable, by decide⟩
  have hhandler : ∀ line ∈ ["", "/// Layers implement this to receive [\x60" ++ r.rowType ++
      "\x60] rows through [\x60TableSubscriber\x60]."], opensItem line = false := by
    rw [List.forall_mem_cons, List.forall_mem_singleton]
    exact ⟨by decide, not_opensItem_append _ (by decide)⟩
  have haccessor : ∀ i, ∀ rest, items (accessorImplLines r.rowType i ++ rest) =
      [accessorImplItem r.rowType i] ++ items rest := by
    intro i rest
    have hlines : accessorImplLines r.rowType i = "" :: (accessorImplItem r.rowType i).lines := rfl
    rw [hlines, List.cons_append, items_cons_empty,
      items_lines_append (isReadable_accessorImplItem r.rowType i), List.singleton_append]
  rw [hsplit, items_append_of_not_opensItem hdoc, items_lines_append (isReadable_structureItem r),
    items_cons_empty, items_lines_append (isReadable_functionsItem r), items_cons_empty,
    items_lines_append (isReadable_rowItem r), items_append_of_not_opensItem hhandler,
    items_lines_append (isReadable_handlerItem r), items_flatMap_append haccessor, rowItems,
    List.map_eq_flatMap]
  rfl

/-- The structure of a row type declares its members. -/
theorem declared_structureItem (h : r.HasNames) :
    (structureItem r).declared = .structure_ r.rowType (r.members.map Member.ident) := by
  have hmembers : (structureItem r).body.filterMap (labelBehind? "    pub ") =
      r.members.map Member.ident := by
    rw [structureItem, List.filterMap_map, ← List.filterMap_eq_map]
    refine List.filterMap_congr fun m hm => ?_
    have hline : "    pub " ++ m.ident ++ ": " ++ m.type ++ "," =
        "    pub " ++ m.ident ++ (": " ++ (m.type ++ ",")) := by simp [String.append_assoc]
    exact labelBehind?_eq (h.members m hm) hline
  have hheading : headingOf (structureItem r).header = .structure_ r.rowType :=
    headingOf_structure h.rowType
  simp only [Item.declared, hheading, hmembers]

/-- No line in front of the values has a label. -/
theorem labelBehind?_functionsFront (r : RowDeclaration) :
    ∀ line ∈ functionsFront r, labelBehind? "            " line = none := by
  obtain ⟨c, hc, cs, hchars⟩ := r.expression.exists_chars_eq
  have hne : c ≠ ' ' := ne_of_mem_of_not_mem hc (by decide)
  simp [functionsFront, labelBehind?, nameBehind?, List.isPrefixOf?, hchars, hne.symm]

/-- The functions of a row type name its members and hold its expression. -/
theorem declared_functionsItem (h : r.HasNames) :
    (functionsItem r).declared =
      .functions r.rowType (r.initializers.map Initializer.ident) [r.expression] := by
  have hinitializers : (functionsItem r).body.filterMap (labelBehind? "            ") =
      r.initializers.map Initializer.ident := by
    have hbehind : ["        \x7d", "    \x7d"].filterMap (labelBehind? "            ") = [] := by decide
    rw [body_functionsItem, List.filterMap_append, List.filterMap_append, hbehind, List.append_nil,
      List.filterMap_eq_nil_iff.mpr (labelBehind?_functionsFront r), List.nil_append, List.filterMap_map,
      ← List.filterMap_eq_map]
    refine List.filterMap_congr fun i hi => ?_
    have hline : "            " ++ i.ident ++ ": " ++ i.value ++ "," =
        "            " ++ i.ident ++ (": " ++ (i.value ++ ",")) := by simp [String.append_assoc]
    exact labelBehind?_eq (h.initializers i hi) hline
  have hexpressions : (functionsItem r).body.filterMap readMapping? = [r.expression] := by
    have hheader : readMapping? (functionsItem r).header = none := by
      simp [functionsItem, readMapping?, behindBlanks?, blanks]
    have hclosing : ["\x7d"].filterMap readMapping? = [] := by decide
    have hall := filterMap_readMapping?_inherentLines r
    rw [← lines_functionsItem, Item.lines, List.filterMap_cons_none hheader, List.filterMap_append,
      hclosing, List.append_nil] at hall
    exact hall
  have hheading : headingOf (functionsItem r).header = .functions r.rowType :=
    headingOf_functions h.rowType
  simp only [Item.declared, hheading, hinitializers, hexpressions]

theorem isName_row : IsName "Row" := isName_ofList (by decide)

/-- The implementation of the row trait gives the row itself. -/
theorem declared_rowItem (h : r.HasNames) :
    (rowItem r).declared = .implementation "Row" r.rowType [⟨"as_any", "&dyn Any"⟩] := by
  have hmethods : (rowItem r).body.filterMap signature? = [⟨"as_any", "&dyn Any"⟩] := by
    simp only [rowItem]
    decide
  have hheading : headingOf (rowItem r).header = .implementation "Row" r.rowType :=
    headingOf_implementation isName_row h.rowType
  simp only [Item.declared, hheading, hmethods]

/-- The trait of the handlers has a method that takes a row, and no accessor. -/
theorem declared_handlerItem (h : r.HasNames) : (handlerItem r).declared = .trait r.handler [] := by
  have hmethods : (handlerItem r).body.filterMap signature? = [] := by
    simp [handlerItem, signature?, nameBehind?, List.isPrefixOf?, isNameChar, Text.isWordChar]
  have hheading : headingOf (handlerItem r).header = .trait r.handler := headingOf_trait h.handler
  simp only [Item.declared, hheading, hmethods]

/-- The implementation of an accessor trait has the one method. -/
theorem declared_accessorImplItem {i : AccessorImpl} (hrow : IsName name)
    (hi : IsName i.trait ∧ IsName i.method) :
    (accessorImplItem name i).declared = .implementation i.trait name [⟨i.method, i.type⟩] := by
  have hmethods : (accessorImplItem name i).body.filterMap signature? = [⟨i.method, i.type⟩] := by
    have hmethod := signature?_eq hi.2 (Or.inr rfl)
      (rfl : "    fn " ++ i.method ++ "(&self) -> " ++ i.type ++ " \x7b" = _)
    have hbody : signature? ("        " ++ i.body) = none := by
      simp [signature?, nameBehind?, List.isPrefixOf?]
    have hclosing : signature? "    \x7d" = none := by decide
    simp only [accessorImplItem, List.filterMap_cons, hmethod, hbody, hclosing, List.filterMap_nil]
  have hheading : headingOf (accessorImplItem name i).header = .implementation i.trait name :=
    headingOf_implementation hi.1 hrow
  simp only [Item.declared, hheading, hmethods]

/-- What is read off the items of a row type is what it declares. -/
theorem map_declared_rowItems (h : r.HasNames) : (rowItems r).map Item.declared = r.declared := by
  have haccessors : r.accessors.map (Item.declared ∘ accessorImplItem r.rowType) =
      r.accessors.map fun i => .implementation i.trait r.rowType [⟨i.method, i.type⟩] :=
    List.map_congr_left fun i hi => declared_accessorImplItem h.rowType (h.accessors i hi)
  rw [rowItems, RowDeclaration.declared, List.map_append, List.map_map, haccessors]
  simp only [List.map_cons, List.map_nil, declared_structureItem h, declared_functionsItem h,
    declared_rowItem h, declared_handlerItem h]

end TileSchema.Code
