import TileSchema.Filter.Compile
import TileSchema.Schema.Error
import TileSchema.Text.Identifier

/-!
# Rules and the values of a layer field

A rule gives a result to the elements that satisfy its expression.  An index is a list of rules in
which every rule that is satisfied fires: there is no priority, and equal rules are not merged.

The values that a layer field can take are given either as a list, which only documents them, or
as a mapping from each value to the filter of the elements that have it.  The mapping becomes a
rule index.  An entry whose filter comes down to a constant says nothing about an element, and
gives no rule.
-/

namespace TileSchema

open TileSchema.Filter (Element Expression)

/-! ### Rule indexes -/

/-- A result for the elements that satisfy an expression. -/
structure Rule (α : Type) where
  expression : Expression
  result : α

/-- Rules in the order in which their results are listed. -/
structure RuleIndex (α : Type) where
  rules : List (Rule α)

namespace RuleIndex

variable {α : Type}

/-- The number of rules. -/
def size (index : RuleIndex α) : Nat := index.rules.length

/-- Whether an index has no rule. -/
def isEmpty (index : RuleIndex α) : Bool := index.rules.isEmpty

/-- The results of the rules that an element satisfies, in order. -/
def results (index : RuleIndex α) (el : Element) : List α :=
  (index.rules.filter fun r => r.expression.evaluate el).map Rule.result

end RuleIndex

/-! ### Values of a field -/

/-- The documented values of a field: the names of a mapping as they are, or the literals of a
list up to their first space, each value once. -/
def allowedValues : Filter → Except Filter.Fault (List String)
  | .mapping entries => .ok (Ordered.distinct (entries.map Prod.fst))
  | .null => .ok []
  | f => f.literals.map fun values => Ordered.distinct (values.map Text.documentedValue)

/-- The entries of a field that is given by filters. -/
def valueFilters? : Filter → Option (List (String × Filter))
  | .mapping entries => some entries
  | _ => none

/-- The place of an error in the filter of a value. -/
def valuePlace (value : String) : String := "value '" ++ value ++ "'"

/-- The rules of a field, one for each entry that is no constant. -/
def fieldRules : List (String × Filter) → Except SchemaError (List (Rule String))
  | [] => .ok []
  | (value, filter) :: es => do
    let e ← liftFault (valuePlace value) filter.compile
    let rest ← fieldRules es
    let e := e.simplify
    return if e.isTrue || e.isFalse then rest else ⟨e, value⟩ :: rest

/-- The index that gives the values of a field to an element. -/
def fieldMapping (entries : List (String × Filter)) : Except SchemaError (RuleIndex String) :=
  (fieldRules entries).map RuleIndex.mk

end TileSchema
