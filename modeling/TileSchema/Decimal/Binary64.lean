/-!
# Binary floating-point numbers as integers

The sixty-four bits of a `Float` hold a sign, a mantissa and an exponent.  This file reads them as
an exact product `m · 2 ^ q` and goes the other way, from an exact decimal `m · 10 ^ e` to the
nearest `Float`, a half going to the even mantissa.  Everything in between is arithmetic on
natural numbers, so nothing depends on how a machine rounds.
-/

namespace TileSchema.Decimal

/-- What the bits of a floating-point number say. -/
inductive Magnitude where
  /-- Not a number. -/
  | nan
  /-- Larger than every finite number. -/
  | infinite (negative : Bool)
  /-- The number `m · 2 ^ q`, or its negative. -/
  | finite (negative : Bool) (m : Nat) (q : Int)
  deriving Repr, DecidableEq

/-- The magnitude that sixty-four bits stand for. -/
def Magnitude.ofBits (bits : Nat) : Magnitude :=
  let negative := bits / Nat.pow 2 63 % 2 == 1
  let exponent : Nat := bits / Nat.pow 2 52 % 2048
  let fraction := bits % Nat.pow 2 52
  if exponent = 2047 then if fraction = 0 then .infinite negative else .nan
  else if exponent = 0 then .finite negative fraction (-1074)
  else .finite negative (fraction + Nat.pow 2 52) ((exponent : Int) - 1075)

/-- The magnitude of a floating-point number. -/
def magnitude (x : Float) : Magnitude := .ofBits x.toBits.toNat

/-! ### From a decimal to the nearest number -/

/-- A quotient rounded to the nearest integer, a half going to the even one. -/
def roundQuotient (num den : Nat) : Nat :=
  let quotient := num / den
  let twice := 2 * (num % den)
  if twice < den then quotient
  else if den < twice then quotient + 1
  else quotient + quotient % 2

/-- The quotient of `num / den` by `2 ^ q`, as a quotient of natural numbers. -/
def scaleDown (num den : Nat) (q : Int) : Nat × Nat :=
  if 0 ≤ q then (num, den * Nat.pow 2 q.toNat) else (num * Nat.pow 2 (-q).toNat, den)

/-- The exponent at which the mantissa of `num / den` has fifty-three bits, or the least exponent
there is. -/
def exponentOf (num den : Nat) : Int :=
  let q : Int := (num.log2 : Int) - den.log2 - 52
  let (n, d) := scaleDown num den q
  max (if n / d < Nat.pow 2 52 then q - 1 else q) (-1074)

/-- The bits of the number nearest to `num / den`, without a sign. -/
def nearestBits (num den : Nat) : Nat :=
  if num = 0 then 0
  else
    let q := exponentOf num den
    let (n, d) := scaleDown num den q
    let m := roundQuotient n d
    -- A mantissa rounded up to the next power of two carries into the exponent field.
    let bits := if m < Nat.pow 2 52 then m else (q + 1074).toNat * Nat.pow 2 52 + m
    min bits (2047 * Nat.pow 2 52)

/-- The number nearest to `m · 10 ^ e`, or its negative. -/
def nearest (negative : Bool) (m : Nat) (e : Int) : Float :=
  let bits :=
    if m = 0 || e + (m.log2 / 3 + 1 : Nat) < -400 then 0
    else if 400 < e then 2047 * Nat.pow 2 52
    else if 0 ≤ e then nearestBits (m * Nat.pow 10 e.toNat) 1
    else nearestBits m (Nat.pow 10 (-e).toNat)
  Float.ofBits ((if negative then Nat.pow 2 63 else 0) + bits).toUInt64

/-- The number nearest to an integer. -/
def ofInteger (n : Int) : Float := nearest (n < 0) n.natAbs 0

/-- A number that is neither infinite nor undefined. -/
def isFinite (x : Float) : Bool :=
  match magnitude x with
  | .finite .. => true
  | _ => false

/-- A number that is not a number. -/
def isNan (x : Float) : Bool :=
  match magnitude x with
  | .nan => true
  | _ => false

end TileSchema.Decimal
