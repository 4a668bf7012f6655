import TileSchema.Text.Repertoire

/-!
# Identifiers

Schema names are free text; the names that generated code declares are not.  This file holds the
three spellings a name is turned into: joined capitalised words for types, upper case for
constants, lower case for modules, functions and fields.  All three work on ASCII letters and
digits, and treat every other character as a separator.

It also holds the documented form of an allowed value, which ends before its first space.
-/

namespace TileSchema.Text

/-- The words of the language of the generated code that no plain name may be. -/
def reservedWords : List String :=
  ["as", "async", "await", "break", "const", "continue", "crate", "dyn", "else", "enum",
    "extern", "false", "fn", "for", "if", "impl", "in", "let", "loop", "match", "mod", "move",
    "mut", "pub", "ref", "return", "static", "struct", "trait", "true", "type", "unsafe", "use",
    "where", "while", "abstract", "become", "box", "do", "final", "gen", "macro", "override",
    "priv", "try", "typeof", "unsized", "virtual", "yield"]

/-- The reserved words that cannot be marked as raw names. -/
def unrawableWords : List String := ["self", "super", "crate"]

/-! ### Characters -/

/-- A letter or digit of ASCII. -/
def isWordChar (c : Char) : Bool := c.isAlphanum

/-- A character of an identifier: what is no letter or digit becomes an underscore. -/
def sanitizeChar (c : Char) : Char := if isWordChar c then c else '_'

/-- An identifier that is empty or starts with a digit gets an underscore in front. -/
def guardStart : List Char → List Char
  | [] => ['_']
  | c :: cs => if c.isDigit then '_' :: c :: cs else c :: cs

/-! ### Spellings -/

/-- The maximal runs of letters and digits, the given characters being the run read so far. -/
def wordRuns : List Char → List Char → List (List Char)
  | run, [] => if run.isEmpty then [] else [run.reverse]
  | run, c :: rest =>
    if isWordChar c then wordRuns (c :: run) rest
    else if run.isEmpty then wordRuns [] rest
    else run.reverse :: wordRuns [] rest

/-- A word with its first letter in upper case and the others in lower case. -/
def capitalize : List Char → List Char
  | [] => []
  | c :: cs => c.toUpper :: cs.map Char.toLower

/-- The words of a name, capitalised and joined: `osm_water_polygon` is `OsmWaterPolygon`. -/
def upperCamel (name : String) : String :=
  String.ofList ((wordRuns [] name.toList).flatMap capitalize)

/-- A name in upper case: `name:en` is `NAME_EN`. -/
def constantCase (name : String) : String :=
  String.ofList (guardStart (name.toList.map fun c => (sanitizeChar c).toUpper))

/-- A name in lower case, not yet told apart from the reserved words. -/
def snakeCase (name : String) : String :=
  String.ofList (guardStart (name.toList.map fun c => (sanitizeChar c).toLower))

/-- A name in lower case that can be declared: a reserved word is marked as a raw name, or ends in
an underscore where no mark is allowed. -/
def snakeIdent (name : String) : String :=
  let ident := snakeCase name
  if ident ∈ unrawableWords then ident ++ "_"
  else if ident ∈ reservedWords then "r#" ++ ident
  else ident

/-! ### Documented values -/

/-- The part of an allowed value before its first space: what follows is a remark. -/
def documentedValue (value : String) : String :=
  String.ofList (value.toList.takeWhile (· ≠ ' '))

end TileSchema.Text
