import TileSchema.Text.Repertoire

/-!
# Quoted text

A text between double quotes, on one line and free of invisible characters, as messages, rule
text and generated code show it.  The double quote and the backslash are written with a backslash
in front, four control characters by a letter, and every other character that is unprintable or
joins its neighbour by its code point in hexadecimal digits between braces.

The style record says whether the single quote is escaped too: it is in a path, and it is not in
a text.
-/

namespace TileSchema.Text

/-- What two kinds of quoted text decide differently. -/
structure QuoteStyle where
  /-- Whether a single quote gets a backslash. -/
  escapesSingleQuote : Bool
  deriving Repr, DecidableEq

/-- A quoted text leaves the single quote alone. -/
def textStyle : QuoteStyle := ⟨false⟩

/-- A quoted path escapes the single quote. -/
def pathStyle : QuoteStyle := ⟨true⟩

/-! ### Hexadecimal digits -/

/-- The lower-case hexadecimal digit of a number below sixteen. -/
def hexDigit (n : Nat) : Char := if n < 10 then Char.ofNat (48 + n) else Char.ofNat (87 + n)

/-- The hexadecimal digits of a number, the most significant first and none in front of it. -/
def hexDigits (n : Nat) : List Char :=
  if _h : n < 16 then [hexDigit n] else hexDigits (n / 16) ++ [hexDigit (n % 16)]
termination_by n
decreasing_by omega

/-! ### Writing -/

/-- A character by its code point. -/
def escapeCode (c : Char) : List Char := '\\' :: 'u' :: '\x7b' :: hexDigits c.toNat ++ ['\x7d']

/-- A character as it stands between the quotes. -/
def escape (style : QuoteStyle) (c : Char) : List Char :=
  if c = '\x00' then ['\\', '0']
  else if c = '\t' then ['\\', 't']
  else if c = '\r' then ['\\', 'r']
  else if c = '\n' then ['\\', 'n']
  else if c = '\\' then ['\\', '\\']
  else if c = '"' then ['\\', '"']
  else if c = '\'' && style.escapesSingleQuote then ['\\', '\'']
  else if isExtending c then escapeCode c
  else if isPrintable c then [c]
  else escapeCode c

/-- The characters of a quoted text, with the quotes. -/
def quoteChars (style : QuoteStyle) (cs : List Char) : List Char :=
  '"' :: cs.flatMap (escape style) ++ ['"']

/-- A text in double quotes. -/
def quote (s : String) : String := String.ofList (quoteChars textStyle s.toList)

/-- A path in double quotes. -/
def quotePath (s : String) : String := String.ofList (quoteChars pathStyle s.toList)

/-- A list of quoted texts in brackets. -/
def quoteList (texts : List String) : String :=
  "[" ++ ", ".intercalate (texts.map quote) ++ "]"

end TileSchema.Text
