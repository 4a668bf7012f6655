/-!
# Scopes of generated names

Identifiers are made from the names of a schema, and two names may give the same one.  In a scope
the first name that asks for an identifier has it.  The declarations asked for are settled in
order: those that come first are kept, and the others are collisions, each of which knows the name
that holds its identifier.

Most collisions of names only cost a constant.  Three would make code that does not compile, and
are errors: two layers in one module, two tables with one type, two fields with one trait.
-/

namespace TileSchema.Code

/-- Something to be declared: the identifier asked for, the name that asks for it, and what the
declaration holds. -/
structure Declaration (α : Type) where
  ident : String
  name : String
  item : α

/-- A name that asked for an identifier which another name holds. -/
structure Collision where
  ident : String
  name : String
  holder : String
  deriving Repr, DecidableEq

/-- The identifiers that are taken, each with the name that holds it. -/
abbrev Scope := List (String × String)

variable {α : Type}

/-- The declarations that a scope has room for, in order, and the collisions of the others. -/
def settle (scope : Scope) : List (Declaration α) → List (Declaration α) × List Collision
  | [] => ([], [])
  | d :: ds =>
    match scope.lookup d.ident with
    | some holder =>
      let rest := settle scope ds
      (rest.1, ⟨d.ident, d.name, holder⟩ :: rest.2)
    | none =>
      let rest := settle ((d.ident, d.name) :: scope) ds
      (d :: rest.1, rest.2)

/-- The declarations that are kept in a scope of their own. -/
def kept (ds : List (Declaration α)) : List (Declaration α) := (settle [] ds).1

/-- The collisions in a scope of their own. -/
def collisions (ds : List (Declaration α)) : List Collision := (settle [] ds).2

@[simp] theorem settle_nil (scope : Scope) : settle scope ([] : List (Declaration α)) = ([], []) :=
  rfl

/-! ### Names that cannot be generated -/

/-- Why no code can be generated. -/
inductive RenderError where
  | sameModule (c : Collision)
  | sameType (c : Collision)
  | sameTrait (c : Collision)
  deriving Repr, DecidableEq

/-- The wording of an error. -/
def RenderError.message : RenderError → String
  | .sameModule c =>
    "Layers '" ++ c.holder ++ "' and '" ++ c.name ++ "' both map to module " ++ c.ident
  | .sameType c =>
    "Tables '" ++ c.holder ++ "' and '" ++ c.name ++ "' both generate type " ++ c.ident
  | .sameTrait c =>
    "Fields '" ++ c.holder ++ "' and '" ++ c.name ++ "' both generate trait " ++ c.ident

/-- Declarations that have to be distinct: the first collision is an error. -/
def requireDistinct (error : Collision → RenderError) (ds : List (Declaration α)) :
    Except RenderError Unit :=
  match collisions ds with
  | [] => .ok ()
  | c :: _ => .error (error c)

end TileSchema.Code
