import TileSchema.Proofs.Code.RowFile

/-!
# The declarations of the file of the rows

The structures, traits, functions and implementations that the written lines of a file declare, each
kind in the order of the file.  For the file of the rows they are given by the module of rows
(`structures_rowFileLines` and so on): the kinds that have one declaration for each row type have it
in the order of the row types.
-/

namespace TileSchema.Code

open TileSchema.Filter (Expression)

variable {m : RowModule} {r : RowDeclaration}

/-! ### Kinds of declarations -/

/-- A structure that is declared. -/
structure StructureDeclaration where
  name : String
  members : List String
  deriving Repr, DecidableEq

/-- A trait that is declared. -/
structure TraitDeclaration where
  name : String
  methods : List Signature
  deriving Repr, DecidableEq

/-- The functions of a type: the members that its constructor sets, and its expressions. -/
structure FunctionsDeclaration where
  type : String
  initializers : List String
  expressions : List Expression

/-- The implementation of a trait by a type. -/
structure Implementation where
  trait : String
  type : String
  methods : List Signature
  deriving Repr, DecidableEq

/-- The structure that is declared. -/
def Declared.structure? : Declared → Option StructureDeclaration
  | .structure_ name members => some ⟨name, members⟩
  | _ => none

/-- The trait that is declared. -/
def Declared.trait? : Declared → Option TraitDeclaration
  | .trait name methods => some ⟨name, methods⟩
  | _ => none

/-- The functions that are declared. -/
def Declared.functions? : Declared → Option FunctionsDeclaration
  | .functions typeName initializers expressions => some ⟨typeName, initializers, expressions⟩
  | _ => none

/-- The implementation that is declared. -/
def Declared.implementation? : Declared → Option Implementation
  | .implementation traitName typeName methods => some ⟨traitName, typeName, methods⟩
  | _ => none

/-- The index of rows that is declared. -/
def Declared.index? : Declared → Option IndexNames
  | .function "mappings" entries => some entries
  | _ => none

/-- The dispatch that is declared. -/
def Declared.dispatch? : Declared → Option DispatchNames
  | .other branches => some branches
  | _ => none

/-- What lines declare. -/
def declarations (lines : List String) : List Declared := (items lines).map Item.declared

/-! ### Declarations of a row type -/

theorem filterMap_structure?_declared (r : RowDeclaration) :
    r.declared.filterMap Declared.structure? = [⟨r.rowType, r.members.map Member.ident⟩] := by
  simp [RowDeclaration.declared, Declared.structure?, List.filterMap_cons]

theorem filterMap_functions?_declared (r : RowDeclaration) :
    r.declared.filterMap Declared.functions? =
      [⟨r.rowType, r.initializers.map Initializer.ident, [r.expression]⟩] := by
  simp [RowDeclaration.declared, Declared.functions?, List.filterMap_cons]

theorem filterMap_trait?_declared (r : RowDeclaration) :
    r.declared.filterMap Declared.trait? = [⟨r.handler, []⟩] := by
  simp [RowDeclaration.declared, Declared.trait?, List.filterMap_cons]

/-- What a row type implements: the row trait, and the trait of each of its accessors. -/
def RowDeclaration.implementations (r : RowDeclaration) : List Implementation :=
  ⟨"Row", r.rowType, [⟨"as_any", "&dyn Any"⟩]⟩ ::
    r.accessors.map fun i => ⟨i.trait, r.rowType, [⟨i.method, i.type⟩]⟩

theorem filterMap_implementation?_declared (r : RowDeclaration) :
    r.declared.filterMap Declared.implementation? = r.implementations := by
  have haccessors : (r.accessors.map fun i => Declared.implementation i.trait r.rowType
      [⟨i.method, i.type⟩]).filterMap Declared.implementation? =
        r.accessors.map fun i => ⟨i.trait, r.rowType, [⟨i.method, i.type⟩]⟩ := by
    rw [List.filterMap_map, ← List.filterMap_eq_map]
    rfl
  rw [RowDeclaration.declared, List.filterMap_append, haccessors]
  rfl

theorem filterMap_index?_declared (r : RowDeclaration) :
    r.declared.filterMap Declared.index? = [] := by
  simp [RowDeclaration.declared, Declared.index?, List.filterMap_cons]

theorem filterMap_dispatch?_declared (r : RowDeclaration) :
    r.declared.filterMap Declared.dispatch? = [] := by
  simp [RowDeclaration.declared, Declared.dispatch?, List.filterMap_cons]

/-! ### Declarations of the file -/

/-- The structures are the entry of the index of rows and one for each row type. -/
theorem structures_rowFileLines (source : String) (h : m.HasNames) :
    (declarations (rowFileLines source m)).filterMap Declared.structure? =
      ⟨"RowConstructor", ["table", "create"]⟩ ::
        m.rows.map fun r => ⟨r.rowType, r.members.map Member.ident⟩ := by
  have hrows := filterMap_flatMap_eq_map fun r (_ : r ∈ m.rows) => filterMap_structure?_declared r
  rw [declarations, declared_rowFileLines source h, RowModule.declared]
  simp [hrows, Declared.structure?, List.filterMap_cons]

/-- Each row type has its functions. -/
theorem functions_rowFileLines (source : String) (h : m.HasNames) :
    (declarations (rowFileLines source m)).filterMap Declared.functions? =
      m.rows.map fun r => ⟨r.rowType, r.initializers.map Initializer.ident, [r.expression]⟩ := by
  have hrows := filterMap_flatMap_eq_map fun r (_ : r ∈ m.rows) => filterMap_functions?_declared r
  rw [declarations, declared_rowFileLines source h, RowModule.declared]
  simp [hrows, Declared.functions?, List.filterMap_cons]

/-- The traits are the row trait, those of the handlers, those of the accessors and that of the
subscribers. -/
theorem traits_rowFileLines (source : String) (h : m.HasNames) :
    (declarations (rowFileLines source m)).filterMap Declared.trait? =
      ⟨"Row", [⟨"as_any", "&dyn Any"⟩]⟩ :: (m.rows.map (fun r => ⟨r.handler, []⟩) ++
        (m.accessors.map (fun d => ⟨d.trait, [⟨d.method, d.type⟩]⟩) ++
          [⟨"TableSubscriber", m.methods.map SubscriberMethod.signature⟩])) := by
  have hrows := filterMap_flatMap_eq_map fun r (_ : r ∈ m.rows) => filterMap_trait?_declared r
  have haccessors : (m.accessors.map fun d => Declared.trait d.trait
      [⟨d.method, d.type⟩]).filterMap Declared.trait? =
        m.accessors.map fun d => ⟨d.trait, [⟨d.method, d.type⟩]⟩ := by
    rw [List.filterMap_map, ← List.filterMap_eq_map]
    rfl
  rw [declarations, declared_rowFileLines source h, RowModule.declared]
  simp only [List.filterMap_append, hrows, haccessors]
  rfl

/-- The implementations are those of the row types. -/
theorem implementations_rowFileLines (source : String) (h : m.HasNames) :
    (declarations (rowFileLines source m)).filterMap Declared.implementation? =
      m.rows.flatMap RowDeclaration.implementations := by
  have hrows : (m.rows.flatMap RowDeclaration.declared).filterMap Declared.implementation? =
      m.rows.flatMap RowDeclaration.implementations := by
    rw [List.filterMap_flatMap]
    exact List.flatMap_congr fun r _ => filterMap_implementation?_declared r
  rw [declarations, declared_rowFileLines source h, RowModule.declared]
  simp [hrows, Declared.implementation?, List.filterMap_cons]

/-- There is one index of rows. -/
theorem indexes_rowFileLines (source : String) (h : m.HasNames) :
    (declarations (rowFileLines source m)).filterMap Declared.index? =
      [⟨m.entries, m.entries, m.entries⟩] := by
  have hrows : (m.rows.flatMap RowDeclaration.declared).filterMap Declared.index? = [] := by
    rw [List.filterMap_flatMap, List.flatMap_eq_nil_iff]
    exact fun r _ => filterMap_index?_declared r
  rw [declarations, declared_rowFileLines source h, RowModule.declared]
  simp [hrows, Declared.index?, List.filterMap_cons]

/-- There is one dispatch. -/
theorem dispatches_rowFileLines (source : String) (h : m.HasNames) :
    (declarations (rowFileLines source m)).filterMap Declared.dispatch? =
      [⟨m.branches.map (·.method), m.branches.map (·.rowType), m.branches.map (·.rowType)⟩] := by
  have hrows : (m.rows.flatMap RowDeclaration.declared).filterMap Declared.dispatch? = [] := by
    rw [List.filterMap_flatMap, List.flatMap_eq_nil_iff]
    exact fun r _ => filterMap_dispatch?_declared r
  rw [declarations, declared_rowFileLines source h, RowModule.declared]
  simp [hrows, Declared.dispatch?, List.filterMap_cons]

end TileSchema.Code
