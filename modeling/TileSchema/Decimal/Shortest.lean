import TileSchema.Decimal.Binary64

/-!
# The shortest decimal

Every floating-point number stands for an interval of reals, those that round to it.  Its shortest
decimal is the one with the fewest digits in that interval, and of several the one nearest to the
number itself.  This file finds it by trying the grids of the powers of ten from coarse to fine:
on each grid only the two neighbours of the number have to be looked at.
-/

namespace TileSchema.Decimal

/-- Which of two decimals equally near to a number is taken. -/
inductive Tie where
  /-- The one with the even last digit. -/
  | toEven
  /-- The larger one. -/
  | up
  deriving Repr, DecidableEq

/-- A positive decimal `digits · 10 ^ exponent`. -/
structure Digits where
  digits : Nat
  exponent : Int
  deriving Repr, DecidableEq

/-- The interval of a number and the number itself, all in quarters of `2 ^ q`. -/
structure Interval where
  low : Nat
  mid : Nat
  high : Nat
  /-- Whether the two ends round to the number. -/
  closed : Bool

/-- The interval of `m · 2 ^ q`: half way to either neighbour, the lower one being twice as near
below a power of two, and the ends included when `m` is even. -/
def Interval.around (m : Nat) (q : Int) : Interval where
  low := if m = Nat.pow 2 52 && q ≠ -1074 then 4 * m - 1 else 4 * m - 2
  mid := 4 * m
  high := 4 * m + 2
  closed := m % 2 = 0

/-- Whether `c · b` lies in the interval scaled by `a`. -/
def Interval.holds (i : Interval) (a b c : Nat) : Bool :=
  if i.closed then i.low * a ≤ c * b && c * b ≤ i.high * a
  else i.low * a < c * b && c * b < i.high * a

/-- The multiple of `10 ^ k` to take for an interval in quarters of `2 ^ q`, if one lies in it. -/
def pointOnGrid (tie : Tie) (i : Interval) (q k : Int) : Option Nat :=
  let r := q - 2
  let a := Nat.pow 2 r.toNat * Nat.pow 10 (-k).toNat
  let b := Nat.pow 2 (-r).toNat * Nat.pow 10 k.toNat
  let c := i.mid * a / b
  match i.holds a b c, i.holds a b (c + 1) with
  | false, false => none
  | true, false => some c
  | false, true => some (c + 1)
  | true, true =>
    let below := i.mid * a - c * b
    let above := (c + 1) * b - i.mid * a
    if below < above then some c
    else if above < below then some (c + 1)
    else match tie with
      | .toEven => some (c + c % 2)
      | .up => some (c + 1)

/-- The first hit on the grids `10 ^ k`, `10 ^ (k - 1)` and so on, as many as the fuel allows. -/
def firstPoint (tie : Tie) (i : Interval) (q : Int) : Nat → Int → Digits
  | 0, k => ⟨0, k⟩
  | fuel + 1, k =>
    match pointOnGrid tie i q k with
    | some c => ⟨c, k⟩
    | none => firstPoint tie i q fuel (k - 1)

/-- A power of ten above `2 ^ b`. -/
def gridAbove (b : Int) : Int :=
  if 0 ≤ b then b * 30103 / 100000 + 1 else -((-b) * 30102 / 100000) + 1

/-- The shortest decimal of `m · 2 ^ q`, for `0 < m`.  Seventeen digits always suffice, and the
first grid is at most three too coarse. -/
def shortest (tie : Tie) (m : Nat) (q : Int) : Digits :=
  firstPoint tie (Interval.around m q) q 24 (gridAbove (m.log2 + q + 1))

end TileSchema.Decimal
