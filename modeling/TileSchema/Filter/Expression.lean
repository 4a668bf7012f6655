import TileSchema.Ordered.TextSet
import TileSchema.Text.Quoted

/-!
# Boolean expressions over map elements

An element of a map has types (`point`, `way`, …) and tags.  An expression says of an element
whether it is wanted: it asks for a tag, for one of several values of a tag or for a type, and
groups such questions by a connective.

An empty group is a constant, the neutral one of its connective: the empty conjunction is true and
the empty disjunction is false.  The two connectives are one type, so whatever holds of one by
duality is said once.
-/

namespace TileSchema.Filter

open Ordered (TextSet)

/-- How a group joins its members. -/
inductive Connective where
  | and
  | or
  deriving Repr, DecidableEq

namespace Connective

/-- The other connective. -/
def dual : Connective → Connective
  | .and => .or
  | .or => .and

/-- The value of an empty group. -/
def neutral : Connective → Bool
  | .and => true
  | .or => false

/-- Two truth values joined. -/
def join : Connective → Bool → Bool → Bool
  | .and, a, b => a && b
  | .or, a, b => a || b

/-- The word that a group is written with. -/
def word : Connective → String
  | .and => "and"
  | .or => "or"

@[simp] theorem neutral_dual (op : Connective) : op.dual.neutral = !op.neutral := by
  cases op <;> rfl

end Connective

/-- A question about an element. -/
inductive Expression where
  | group (op : Connective) (members : List Expression)
  | not (e : Expression)
  /-- The tag is there, with a value that is not empty. -/
  | matchField (key : String)
  /-- The tag has one of the values. -/
  | matchAny (key : String) (values : TextSet)
  /-- The element is of the type. -/
  | matchType (kind : String)

/-- A map element: the types it is of, and its tags. -/
structure Element where
  types : List String
  tags : List (String × String)
  deriving Repr, DecidableEq

/-- The value of a tag. -/
def Element.tag? (el : Element) (key : String) : Option String := el.tags.lookup key

namespace Expression

/-- The conjunction of expressions. -/
abbrev and (es : List Expression) : Expression := .group .and es

/-- The disjunction of expressions. -/
abbrev or (es : List Expression) : Expression := .group .or es

/-- A tag with one of the values of a list. -/
def anyOf (key : String) (values : List String) : Expression := .matchAny key (.ofList values)

/-- Whether an expression is the empty conjunction. -/
def isTrue : Expression → Bool
  | .group .and [] => true
  | _ => false

/-- Whether an expression is the empty disjunction. -/
def isFalse : Expression → Bool
  | .group .or [] => true
  | _ => false

/-! ### Meaning -/

mutual

/-- The answer of an element to an expression. -/
def evaluate (el : Element) : Expression → Bool
  | .group op es => evaluateGroup el op es
  | .not e => !evaluate el e
  | .matchField key => (el.tag? key).any fun v => !v.isEmpty
  | .matchAny key values => (el.tag? key).any values.contains
  | .matchType kind => el.types.contains kind

/-- The answers to the members of a group, joined. -/
def evaluateGroup (el : Element) (op : Connective) : List Expression → Bool
  | [] => op.neutral
  | e :: es => op.join (evaluate el e) (evaluateGroup el op es)

end

@[simp] theorem evaluateGroup_and (el : Element) (es : List Expression) :
    evaluateGroup el .and es = es.all (evaluate el) := by
  induction es with
  | nil => rfl
  | cons e es ih => simp [evaluateGroup, Connective.join, ih]

@[simp] theorem evaluateGroup_or (el : Element) (es : List Expression) :
    evaluateGroup el .or es = es.any (evaluate el) := by
  induction es with
  | nil => rfl
  | cons e es ih => simp [evaluateGroup, Connective.join, ih]

/-! ### Equality -/

mutual

/-- Whether two expressions are equal, the values of a tag being compared as sets. -/
def same : Expression → Expression → Bool
  | .group o as, .group p bs => o == p && sameMembers as bs
  | .not a, .not b => same a b
  | .matchField a, .matchField b => a == b
  | .matchAny a vs, .matchAny b ws => a == b && vs.same ws
  | .matchType a, .matchType b => a == b
  | _, _ => false

/-- Whether two lists of expressions are equal member by member. -/
def sameMembers : List Expression → List Expression → Bool
  | [], [] => true
  | a :: as, b :: bs => same a b && sameMembers as bs
  | _, _ => false

end

/-! ### Text -/

/-- Texts with a comma and a space between them. -/
def commaJoin : List (List Char) → List Char
  | [] => []
  | [t] => t
  | t :: ts => t ++ ',' :: ' ' :: commaJoin ts

/-- Texts in brackets. -/
def listChars (ts : List (List Char)) : List Char := '[' :: (commaJoin ts ++ [']'])

/-- A call: its word, and its arguments in round brackets. -/
def callChars (word : String) (arguments : List Char) : List Char :=
  word.toList ++ '(' :: (arguments ++ [')'])

/-- A key, a value or a type between quotes. -/
def quotedChars (s : String) : List Char := Text.quoteChars Text.textStyle s.toList

mutual

/-- The text of an expression, as calls that build it. -/
def chars : Expression → List Char
  | .group op es => callChars op.word (listChars (membersChars es))
  | .not e => callChars "not" (chars e)
  | .matchField key => callChars "match_field" (quotedChars key)
  | .matchAny key values =>
    callChars "match_any" (quotedChars key ++ ',' :: ' ' :: listChars (values.toList.map quotedChars))
  | .matchType kind => callChars "match_type" (quotedChars kind)

/-- The texts of expressions. -/
def membersChars : List Expression → List (List Char)
  | [] => []
  | e :: es => chars e :: membersChars es

end

/-- The text of an expression. -/
def text (e : Expression) : String := String.ofList e.chars

end Expression

end TileSchema.Filter
