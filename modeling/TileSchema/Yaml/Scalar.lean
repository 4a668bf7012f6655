import TileSchema.Decimal.Notation
import TileSchema.Yaml.Node
import TileSchema.Yaml.Value

/-!
# What a scalar means

A plain scalar is the first of null, a boolean, an integer and a floating-point number that its
characters spell, and a text otherwise.  A quoted scalar is a text, and so is a scalar under a
foreign tag.  A core tag asks for one type and admits nothing else.

An integer may have a sign and a base, but no zeros in front of a decimal; beyond sixty-four bits
it is refused, and beyond a hundred and twenty-eight it is no integer at all.
-/

namespace TileSchema.Yaml

/-! ### Null and booleans -/

/-- The words that spell null. -/
def isNullWord (s : String) : Bool := s ∈ ["null", "Null", "NULL", "~"]

/-- The boolean that a word spells. -/
def boolean? (s : String) : Option Bool :=
  if s ∈ ["true", "True", "TRUE"] then some true
  else if s ∈ ["false", "False", "FALSE"] then some false
  else none

/-! ### Integers -/

/-- The value of a digit in a base up to sixteen. -/
def digitValue? (base : Nat) (c : Char) : Option Nat :=
  let value :=
    if c.isDigit then some (c.toNat - 48)
    else if 'a' ≤ c && c ≤ 'f' then some (c.toNat - 87)
    else if 'A' ≤ c && c ≤ 'F' then some (c.toNat - 55)
    else none
  value.filter (· < base)

/-- The number that at least one digit spells. -/
def natural? (base : Nat) (cs : List Char) : Option Nat :=
  if cs.isEmpty then none
  else cs.foldl (fun acc c => acc.bind fun n => (digitValue? base c).map (base * n + ·)) (some 0)

/-- A decimal number with a zero in front is a text: digits, but no number. -/
def isPadded (cs : List Char) : Bool :=
  let cs := match cs with
    | '-' :: r => r
    | '+' :: r => r
    | r => r
  1 < cs.length && cs.head? == some '0' && cs.all Char.isDigit

/-- The magnitude behind the sign of an integer, in one of four bases.  The two letters of a base
that are followed by no digits do not count as a base. -/
def magnitude? (padded : Bool) (cs : List Char) : Option Nat :=
  let based := match cs with
    | '0' :: 'x' :: r => natural? 16 r
    | '0' :: 'o' :: r => natural? 8 r
    | '0' :: 'b' :: r => natural? 2 r
    | _ => none
  based.or (if padded then none else natural? 10 cs)

/-- The integer that characters spell, of any size. -/
def integer? (cs : List Char) : Option Int :=
  let padded := isPadded cs
  match cs with
  | '-' :: r => (magnitude? padded r).map fun n => -(n : Int)
  | '+' :: r => (magnitude? padded r).map fun n => (n : Int)
  | r => (magnitude? padded r).map fun n => (n : Int)

/-- Whether an integer fits sixty-four bits, with a sign or without. -/
def fitsWord (n : Int) : Bool := -(Int.pow 2 63) ≤ n && n < Int.pow 2 64

/-- Whether an integer fits a hundred and twenty-eight bits, with a sign or without. -/
def fitsDoubleWord (n : Int) : Bool := -(Int.pow 2 127) ≤ n && n < Int.pow 2 128

/-! ### Floating-point numbers -/

/-- The exponent behind a decimal: nothing, or a letter and an integer. -/
def exponent? (cs : List Char) : Option Int :=
  match cs with
  | [] => some 0
  | e :: r =>
    if e = 'e' || e = 'E' then
      match r with
      | '-' :: r => (natural? 10 r).map fun n => -(n : Int)
      | '+' :: r => (natural? 10 r).map fun n => (n : Int)
      | r => (natural? 10 r).map fun n => (n : Int)
    else none

/-- The number that digits with a point and an exponent spell. -/
def decimal? (negative : Bool) (cs : List Char) : Option Float :=
  let (whole, rest) := cs.span Char.isDigit
  let (fraction, rest) := match rest with
    | '.' :: r => r.span Char.isDigit
    | r => ([], r)
  match natural? 10 (whole ++ fraction), exponent? rest with
  | some m, some e => some (Decimal.nearest negative m (e - fraction.length))
  | _, _ => none

/-- The floating-point number that characters spell.  One too large for any is none. -/
def float? (cs : List Char) : Option Float :=
  let s := String.ofList cs
  if s ∈ [".inf", ".Inf", ".INF", "+.inf", "+.Inf", "+.INF"] then some (1.0 / 0.0)
  else if s ∈ ["-.inf", "-.Inf", "-.INF"] then some (-1.0 / 0.0)
  else if s ∈ [".nan", ".NaN", ".NAN"] then some (0.0 / 0.0)
  else
    let number := match cs with
      | '+' :: r => decimal? false r
      | '-' :: r => decimal? true r
      | r => decimal? false r
    number.filter Decimal.isFinite

/-! ### Scalars -/

/-- An integer as a value. -/
def integerValue (n : Int) : Except Fault Value :=
  if fitsWord n then .ok (.int n) else .error .integerTooLarge

/-- The meaning of a plain scalar. -/
def plainValue (s : String) : Except Fault Value :=
  let cs := s.toList
  if cs.isEmpty || isNullWord s then .ok .null
  else match boolean? s with
    | some b => .ok (.bool b)
    | none =>
      match (integer? cs).filter fitsDoubleWord with
      | some n => integerValue n
      | none =>
        match if isPadded cs then none else float? cs with
        | some x => .ok (.float x)
        | none => .ok (.string s)

/-- The meaning of a scalar under a core tag. -/
def coreValue (kind : CoreTag) (s : String) : Except Fault Value :=
  let refuse (v : Option Value) : Except Fault Value :=
    match v with
    | some v => .ok v
    | none => .error .badCoreScalar
  match kind with
  | .null => refuse (if isNullWord s then some .null else none)
  | .boolean => refuse ((boolean? s).map .bool)
  | .integer =>
    match (integer? s.toList).filter fitsDoubleWord with
    | some n => integerValue n
    | none => .error .badCoreScalar
  | .float => refuse ((float? s.toList).map .float)

/-- The meaning of a scalar without a tag of the document's own. -/
def scalarValue (tag : Option Tag) (plain : Bool) (s : String) : Except Fault Value :=
  match tag with
  | some (.core kind) => coreValue kind s
  | some .foreign => .ok (.string s)
  | _ => if plain then plainValue s else .ok (.string s)

end TileSchema.Yaml
