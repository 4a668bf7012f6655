import TileSchema.Artifact.Build
import TileSchema.Code.Scope
import TileSchema.Text.Identifier
import TileSchema.Trace

/-!
# Declarations of the layers

Each layer becomes a module with three modules inside: the names of its fields, the values that
they take, and functions that give the value to an element.  Each of the three is a scope, in which
a colliding declaration is left out with a warning.  Two layers in one module are an error.
-/

namespace TileSchema.Code

open Artifact (LayerArtifact LayerField)

/-- What stands for the values of a field. -/
inductive ValueItem where
  /-- A constant for one value. -/
  | value (text : String)
  /-- The list of all values. -/
  | list (texts : List String)
  deriving Repr, DecidableEq

/-- The module of a layer. -/
structure LayerModule where
  ident : String
  id : String
  description : String
  bufferSize : Float
  /-- Constants for the names of the fields. -/
  fields : List (Declaration LayerField)
  /-- Constants for the values of the fields. -/
  values : List (Declaration ValueItem)
  /-- Functions for the rules of the fields. -/
  mappings : List (Declaration (RuleIndex String))

/-! ### Declarations asked for -/

/-- The constants for the names of fields. -/
def fieldDeclarations (fields : List LayerField) : List (Declaration LayerField) :=
  fields.map fun f => ⟨Text.constantCase f.name, f.name, f⟩

/-- The constants for the values of a field: one for each value, and one for all of them. -/
def valueDeclarationsOf (f : LayerField) : List (Declaration ValueItem) :=
  if f.allowedValues.isEmpty then []
  else
    let start := Text.constantCase f.name ++ "_"
    f.allowedValues.map (fun v => ⟨start ++ Text.constantCase v, f.name ++ "=" ++ v, .value v⟩) ++
      [⟨start ++ "VALUES", f.name, .list f.allowedValues⟩]

/-- The constants for the values of fields. -/
def valueDeclarations (fields : List LayerField) : List (Declaration ValueItem) :=
  fields.flatMap valueDeclarationsOf

/-- The functions for the rules of fields. -/
def mappingDeclarations (fields : List LayerField) : List (Declaration (RuleIndex String)) :=
  fields.filterMap fun f => f.mapping.map fun index => ⟨Text.snakeIdent f.name, f.name, index⟩

/-! ### Modules -/

/-- The warning that a declaration is left out. -/
def collisionWarning (layer : String) (c : Collision) : String :=
  "Layer " ++ layer ++ ": " ++ c.name ++ " collides with " ++ c.holder ++ " as " ++ c.ident ++
    ", skipping it"

/-- The collisions in the three scopes of a layer. -/
def layerCollisions (l : LayerArtifact) : List Collision :=
  collisions (fieldDeclarations l.fields) ++ collisions (valueDeclarations l.fields) ++
    collisions (mappingDeclarations l.fields)

/-- The module of a layer. -/
def layerModule (l : LayerArtifact) : LayerModule where
  ident := Text.snakeIdent l.id
  id := l.id
  description := l.description
  bufferSize := l.bufferSize
  fields := kept (fieldDeclarations l.fields)
  values := kept (valueDeclarations l.fields)
  mappings := kept (mappingDeclarations l.fields)

/-- The events of leaving out the declarations that collide. -/
def layerWarnings (l : LayerArtifact) : List Event :=
  (layerCollisions l).map fun c => .report .warn (collisionWarning l.id c)

/-- The modules of layers, in a scope that some modules have been added to. -/
def layerModules (scope : Scope) : List LayerArtifact → Traced RenderError (List LayerModule)
  | [] => pure []
  | l :: ls => do
    let m := layerModule l
    match scope.lookup m.ident with
    | some holder => .ofExcept (.error (.sameModule ⟨m.ident, l.id, holder⟩))
    | none =>
      Traced.emit (layerWarnings l)
      let rest ← layerModules ((m.ident, l.id) :: scope) ls
      return m :: rest

end TileSchema.Code
