import TileSchema.Decimal.Shortest

/-!
# Number text

Four places show floating-point numbers, and each has its own idea of when a number is written
positionally, how an exponent looks and what stands for the values that are no decimals.  These
decisions are one record, `NumberStyle`; the digits come from `shortest` in all four.

A whole number keeps a fractional part `.0`, and zero keeps its sign.
-/

namespace TileSchema.Decimal

/-- How a place writes floating-point numbers. -/
structure NumberStyle where
  /-- Numbers from `10 ^ leastPlain` on are written positionally … -/
  leastPlain : Option Int
  /-- … as long as they are below `10 ^ plainBound`. -/
  plainBound : Option Int
  /-- The text in front of an exponent that is not negative. -/
  exponentSign : String
  nan : String
  infinite : String
  tie : Tie
  deriving Repr, DecidableEq

/-- A number as a scalar of a document or a key of a filter. -/
def scalarStyle : NumberStyle := ⟨some (-5), some 16, "", ".nan", ".inf", .toEven⟩

/-- A number as generated code has it. -/
def codeStyle : NumberStyle := ⟨some (-4), some 16, "", "NaN", "inf", .up⟩

/-- A number in the manifest, which has no number but the finite ones. -/
def manifestStyle : NumberStyle := ⟨some (-5), some 16, "+", "null", "null", .toEven⟩

/-- A number in a message, never with an exponent. -/
def messageStyle : NumberStyle := ⟨none, none, "", "NaN", "inf", .up⟩

/-- A run of zeros. -/
def zeros (n : Nat) : String := String.ofList (List.replicate n '0')

/-- The digits `ds` written positionally, the point standing after `point` of them. -/
def positional (ds : List Char) (point : Int) : String :=
  let n := ds.length
  if point ≤ 0 then "0." ++ zeros (-point).toNat ++ String.ofList ds
  else if (n : Int) ≤ point then String.ofList ds ++ zeros (point.toNat - n) ++ ".0"
  else String.ofList (ds.take point.toNat) ++ "." ++ String.ofList (ds.drop point.toNat)

/-- The digits `ds` written with an exponent. -/
def scientific (style : NumberStyle) (ds : List Char) (exponent : Int) : String :=
  let fraction := ds.drop 1
  let mantissa := String.ofList (ds.take 1) ++
    if fraction.isEmpty then "" else "." ++ String.ofList fraction
  let sign := if exponent < 0 then "-" else style.exponentSign
  mantissa ++ "e" ++ sign ++ toString exponent.natAbs

/-- Digits without the zeros at their end, each zero moving the exponent. -/
def dropZeros : Nat → Nat → Int → Digits
  | 0, n, e => ⟨n, e⟩
  | fuel + 1, n, e => if n % 10 = 0 then dropZeros fuel (n / 10) (e + 1) else ⟨n, e⟩

/-- A positive decimal in a style. -/
def Digits.text (style : NumberStyle) (d : Digits) : String :=
  let d := dropZeros 20 d.digits d.exponent
  let ds := Nat.toDigits 10 d.digits
  let point : Int := ds.length + d.exponent
  let exponent := point - 1
  let plain := style.leastPlain.all (· ≤ exponent) && style.plainBound.all (exponent < ·)
  if plain then positional ds point else scientific style ds exponent

/-- A floating-point number in a style. -/
def text (style : NumberStyle) (x : Float) : String :=
  match magnitude x with
  | .nan => style.nan
  | .infinite negative => if negative then "-" ++ style.infinite else style.infinite
  | .finite negative m q =>
    let sign := if negative then "-" else ""
    if m = 0 then sign ++ "0.0" else sign ++ (shortest style.tie m q).text style

end TileSchema.Decimal
