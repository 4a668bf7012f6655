import TileSchema.Filter.Basic
import TileSchema.Filter.Simplify

/-!
# Filters as expressions

A filter is satisfied by an element as soon as one of its parts is: an entry of a mapping asks for
one of the values of a tag, or just for the tag, and a list has the parts of its items.  Under the
two combinator keys a filter stands for the conjunction or disjunction of its parts.
-/

namespace TileSchema.Filter

/-- The connective of a combinator key. -/
def combinator? (key : String) : Option Connective :=
  if key = andKey then some .and else if key = orKey then some .or else none

/-- The combinator key that decides how a mapping is read, if it has one. -/
def combinatorKey? (entries : List (String × Filter)) : Option String :=
  if (entries.lookup andKey).isSome then some andKey
  else if (entries.lookup orKey).isSome then some orKey
  else none

/-- The question that an entry asks: for the tag if any value will do, else for its values. -/
def fieldExpression (key : String) (values : Filter) : Except Fault Expression := do
  let literals ← values.literals
  if literals.isEmpty || anyValue ∈ literals then return .matchField key
  return .anyOf key literals

/-- The questions that the entries of a mapping ask. -/
def fieldExpressions : List (String × Filter) → Except Fault (List Expression)
  | [] => .ok []
  | (key, values) :: es => do
    let e ← fieldExpression key values
    let rest ← fieldExpressions es
    return e :: rest

mutual

/-- The parts of a filter. -/
def parts : Filter → Except Fault (List Expression)
  | .null => .ok []
  | .scalar s => .error (.literalAsFilter s)
  | .sequence items => partsOfItems items
  | .mapping [(key, f)] =>
    match combinator? key with
    | some op => do
      let es ← parts f
      return [.group op es]
    | none => fieldExpressions [(key, f)]
  | .mapping entries =>
    match combinatorKey? entries with
    | some key => .error (.combinatorNotAlone key)
    | none => fieldExpressions entries

/-- The parts of all items. -/
def partsOfItems : List Filter → Except Fault (List Expression)
  | [] => .ok []
  | f :: fs => do
    let es ← parts f
    let rest ← partsOfItems fs
    return es ++ rest

end

/-- The expression of a filter: the disjunction of its parts. -/
def compile (f : Filter) : Except Fault Expression := (parts f).map .or

/-- The parts of a filter that may be absent. -/
def optionalParts : Option Filter → Except Fault (List Expression)
  | none => .ok []
  | some f => parts f

end TileSchema.Filter
