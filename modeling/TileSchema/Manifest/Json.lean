import TileSchema.Decimal.Notation

/-!
# JSON documents

A JSON document is a tree whose objects list their members in order.  It is written over several
lines, two spaces further in at each level; an empty array or object stays on one line.

Inside a string the quote, the backslash and the control characters are escaped, five of them by a
letter.  A number is written with the fewest digits that read back.
-/

namespace TileSchema.Manifest

/-- A JSON document. -/
inductive Json where
  | null
  | number (x : Float)
  | string (s : String)
  | array (items : List Json)
  | object (members : List (String × Json))

namespace Json

/-! ### Strings -/

/-- The hexadecimal digit of a number below sixteen. -/
def hexDigit (n : Nat) : Char := if n < 10 then Char.ofNat (48 + n) else Char.ofNat (87 + n)

/-- A character as it stands in a string. -/
def escape (c : Char) : List Char :=
  if c = '"' then ['\\', '"']
  else if c = '\\' then ['\\', '\\']
  else if c = '\x08' then ['\\', 'b']
  else if c = '\x0c' then ['\\', 'f']
  else if c = '\n' then ['\\', 'n']
  else if c = '\r' then ['\\', 'r']
  else if c = '\t' then ['\\', 't']
  else if c.toNat < 0x20 then
    ['\\', 'u', '0', '0', hexDigit (c.toNat / 16), hexDigit (c.toNat % 16)]
  else [c]

/-- A string with its quotes. -/
def quote (s : String) : String := String.ofList ('"' :: s.toList.flatMap escape ++ ['"'])

/-! ### Documents -/

/-- A line break and the indentation of a level. -/
def newline (level : Nat) : String := String.ofList ('\n' :: List.replicate (2 * level) ' ')

/-- Items between two brackets, each on a line of its own. -/
def bracketed (level : Nat) (left right : String) (items : List String) : String :=
  if items.isEmpty then left ++ right
  else
    left ++ newline (level + 1) ++ ("," ++ newline (level + 1)).intercalate items ++
      newline level ++ right

mutual

/-- The text of a document at a level. -/
def textAt (level : Nat) : Json → String
  | .null => "null"
  | .number x => Decimal.text Decimal.manifestStyle x
  | .string s => quote s
  | .array items => bracketed level "[" "]" (itemTexts (level + 1) items)
  | .object members => bracketed level "\x7b" "\x7d" (memberTexts (level + 1) members)

/-- The texts of the items of an array. -/
def itemTexts (level : Nat) : List Json → List String
  | [] => []
  | item :: items => textAt level item :: itemTexts level items

/-- The texts of the members of an object. -/
def memberTexts (level : Nat) : List (String × Json) → List String
  | [] => []
  | (name, value) :: members =>
    (quote name ++ ": " ++ textAt level value) :: memberTexts level members

end

/-- The text of a document. -/
def text (j : Json) : String := textAt 0 j

end Json

end TileSchema.Manifest
