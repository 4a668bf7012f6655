import Mathlib.Algebra.Order.Field.Power
import Mathlib.Tactic.FieldSimp
import Mathlib.Tactic.Linarith
import Mathlib.Tactic.NormNum
import Mathlib.Tactic.Positivity
import Mathlib.Tactic.Ring
import TileSchema.Decimal.Shortest

/-!
# Rounding to the nearest number

A decimal is read as the number in whose interval it lies.  The exponent is found first, by the
size of the decimal (`exponentOf_spec`), and then the mantissa (`roundQuotient_eq`).  A decimal just
below a power of two gets the exponent of the numbers below; its mantissa is then rounded up to the
power of two, and carries into the exponent (`nearestBits_eq`).

Powers stay symbolic: they are compared by their exponents, and never computed.
-/

namespace TileSchema.Decimal

variable {m n d num den : ℕ} {q e : ℤ} {v : ℚ}

/-! ### Intervals -/

/-- A mantissa and an exponent as they are in a positive number: all bits of the mantissa are used,
unless the exponent is the least one. -/
structure IsNumber (m : ℕ) (q : ℤ) : Prop where
  pos : 0 < m
  lt : m < 2 ^ 53
  least : -1074 ≤ q
  greatest : q ≤ 971
  full : q = -1074 ∨ 2 ^ 52 ≤ m

/-- A value lies in an interval in quarters of `2 ^ q`. -/
def Interval.Covers (i : Interval) (q : ℤ) (v : ℚ) : Prop :=
  if i.closed then i.low * 2 ^ (q - 2) ≤ v ∧ v ≤ i.high * 2 ^ (q - 2)
  else i.low * 2 ^ (q - 2) < v ∧ v < i.high * 2 ^ (q - 2)

theorem Interval.Covers.le {i : Interval} (h : i.Covers q v) :
    i.low * 2 ^ (q - 2) ≤ v ∧ v ≤ i.high * 2 ^ (q - 2) := by
  unfold Interval.Covers at h
  split at h
  · exact h
  · exact ⟨h.1.le, h.2.le⟩

theorem two_zpow_sub_two (q : ℤ) : (2 : ℚ) ^ (q - 2) = 2 ^ q / 4 := by
  rw [zpow_sub₀ two_ne_zero]
  norm_num

/-- The interval of a number begins half a step below it, and a quarter below a power of two. -/
theorem low_around (hm : 0 < m) (q : ℤ) :
    4 * (m : ℚ) - 2 ≤ (Interval.around m q).low ∧
      (m = 2 ^ 52 → q ≠ -1074 → ((Interval.around m q).low : ℚ) = 4 * m - 1) := by
  have hone : ((4 * m - 1 : ℕ) : ℚ) = 4 * m - 1 := by
    rw [Nat.cast_sub (by omega)]
    push_cast
    ring
  have htwo : ((4 * m - 2 : ℕ) : ℚ) = 4 * m - 2 := by
    rw [Nat.cast_sub (by omega)]
    push_cast
    ring
  constructor
  · simp only [Interval.around]
    split
    · rw [hone]
      linarith
    · rw [htwo]
  · intro hm52 hq
    have hcondition : (decide (m = Nat.pow 2 52) && decide (q ≠ -1074)) = true := by
      simp [hm52, hq]
    simp only [Interval.around, hcondition, if_true, hone]

/-- The decimals that are read as a number are at most half a step away from it, and at most a
quarter below a power of two. -/
theorem Interval.Covers.bounds (hm : 0 < m) (h : (Interval.around m q).Covers q v) :
    ((m : ℚ) - 1 / 2) * 2 ^ q ≤ v ∧ v ≤ (m + 1 / 2) * 2 ^ q ∧
      (m % 2 = 1 → ((m : ℚ) - 1 / 2) * 2 ^ q < v ∧ v < (m + 1 / 2) * 2 ^ q) ∧
      (m = 2 ^ 52 → q ≠ -1074 → ((m : ℚ) - 1 / 4) * 2 ^ q ≤ v) := by
  have hpos : (0 : ℚ) < 2 ^ q := by positivity
  have hhigh : ((Interval.around m q).high : ℚ) = 4 * m + 2 := by simp [Interval.around]
  have hlow := low_around hm q
  have hodd : m % 2 = 1 → (Interval.around m q).closed = false := by
    intro h
    simp [Interval.around, h]
  have hle := h.le
  rw [two_zpow_sub_two, hhigh] at hle
  refine ⟨?_, ?_, ?_, ?_⟩
  · nlinarith
  · nlinarith
  · intro hm
    rw [Interval.Covers, hodd hm, if_neg Bool.false_ne_true, two_zpow_sub_two, hhigh] at h
    constructor <;> nlinarith
  · intro hm hq
    rw [hlow.2 hm hq] at hle
    linarith

/-! ### Powers of two and of ten -/

/-- A power of ten is below a power of two if its exponent is small enough: ten is between
`2 ^ (33 / 10)` and `2 ^ (10 / 3)`. -/
theorem ten_zpow_le_two_zpow {k t : ℤ} (hpos : 0 ≤ k → 10 * k ≤ 3 * t)
    (hneg : k < 0 → 33 * k ≤ 10 * t) : (10 : ℚ) ^ k ≤ 2 ^ t := by
  rcases le_or_gt 0 k with hk | hk
  · refine (pow_le_pow_iff_left₀ (by positivity) (by positivity) (n := 3) (by norm_num)).mp ?_
    calc ((10 : ℚ) ^ k) ^ 3 = (10 ^ 3) ^ k := by
          rw [← zpow_natCast, ← zpow_mul, mul_comm, zpow_mul]
          norm_num
      _ ≤ (2 ^ 10) ^ k := zpow_le_zpow_left₀ hk (by norm_num) (by norm_num)
      _ = 2 ^ (10 * k) := by rw [zpow_mul]; norm_num
      _ ≤ 2 ^ (t * 3) := zpow_le_zpow_right₀ (by norm_num) (by have := hpos hk; omega)
      _ = ((2 : ℚ) ^ t) ^ 3 := by rw [zpow_mul]; norm_cast
  · refine (pow_le_pow_iff_left₀ (by positivity) (by positivity) (n := 10) (by norm_num)).mp ?_
    obtain ⟨j, rfl⟩ := Int.exists_eq_neg_ofNat hk.le
    calc ((10 : ℚ) ^ (-(j : ℤ))) ^ 10 = ((10 ^ 10) ^ j)⁻¹ := by
          rw [zpow_neg, zpow_natCast, inv_pow, ← pow_mul, ← pow_mul, mul_comm]
      _ ≤ ((2 ^ 33) ^ j)⁻¹ :=
          inv_anti₀ (by positivity) (pow_le_pow_left₀ (by norm_num) (by norm_num) j)
      _ = 2 ^ (33 * -(j : ℤ)) := by
          rw [← pow_mul, ← zpow_natCast, ← zpow_neg]
          push_cast
          ring_nf
      _ ≤ 2 ^ (t * 10) := zpow_le_zpow_right₀ (by norm_num) (by have := hneg hk; omega)
      _ = ((2 : ℚ) ^ t) ^ 10 := by rw [zpow_mul]; norm_cast

/-- What rounds to a number is neither too small nor too large. -/
theorem Interval.Covers.between (h : IsNumber m q) (hcovers : (Interval.around m q).Covers q v) :
    (2 : ℚ) ^ (-1075 : ℤ) ≤ v ∧ v < 2 ^ (1024 : ℤ) := by
  obtain ⟨hlow, hhigh, -, -⟩ := hcovers.bounds h.pos
  have hm : (1 : ℚ) ≤ m ∧ (m : ℚ) + 1 ≤ 2 ^ 53 :=
    ⟨by exact_mod_cast h.pos, by exact_mod_cast h.lt⟩
  have hpos : (0 : ℚ) < 2 ^ q := by positivity
  constructor
  · calc (2 : ℚ) ^ (-1075 : ℤ) ≤ 2 ^ (q - 1) :=
          zpow_le_zpow_right₀ (by norm_num) (by have := h.least; omega)
      _ = 1 / 2 * 2 ^ q := by rw [zpow_sub_one₀ two_ne_zero]; ring
      _ ≤ v := by nlinarith
  · calc v < 2 ^ (53 : ℤ) * 2 ^ q := by norm_num at hm ⊢; nlinarith
      _ = 2 ^ (q + 53) := by rw [← zpow_add₀ two_ne_zero]; congr 1; ring
      _ ≤ 2 ^ (1024 : ℤ) := zpow_le_zpow_right₀ (by norm_num) (by have := h.greatest; omega)

/-! ### The mantissa -/

/-- A quotient is rounded to the integer at a distance of at most half the divisor, and at this
distance to the even one. -/
theorem roundQuotient_eq_of_le (hd : 0 < d) (hlow : 2 * (m * d) ≤ 2 * n + d)
    (hhigh : 2 * n ≤ 2 * (m * d) + d)
    (hodd : m % 2 = 1 → 2 * (m * d) < 2 * n + d ∧ 2 * n < 2 * (m * d) + d) :
    roundQuotient n d = m := by
  have hdiv : n = n / d * d + n % d := by rw [Nat.mul_comm]; exact (Nat.div_add_mod n d).symm
  have hmod := Nat.mod_lt n hd
  unfold roundQuotient
  generalize n / d = t at *
  generalize n % d = r at *
  subst hdiv
  obtain rfl | rfl : m = t ∨ m = t + 1 := by
    have h₁ : m < t + 2 := by
      by_contra h
      have := Nat.mul_le_mul_right d (not_lt.mp h)
      rw [Nat.add_mul] at this
      omega
    have h₂ : t < m + 1 := by
      by_contra h
      have := Nat.mul_le_mul_right d (not_lt.mp h)
      rw [Nat.add_mul] at this
      omega
    omega
  · dsimp only
    split_ifs <;> omega
  · dsimp only
    rw [Nat.add_mul] at *
    split_ifs <;> omega

/-- A quotient is rounded to the integer at a distance of at most a half, and at a distance of a
half to the even one. -/
theorem roundQuotient_eq (hd : 0 < d) (hlow : (m : ℚ) - 1 / 2 ≤ n / d)
    (hhigh : (n : ℚ) / d ≤ m + 1 / 2)
    (hodd : m % 2 = 1 → (m : ℚ) - 1 / 2 < n / d ∧ (n : ℚ) / d < m + 1 / 2) :
    roundQuotient n d = m := by
  have hd' : (0 : ℚ) < d := by exact_mod_cast hd
  rw [le_div_iff₀ hd'] at hlow
  rw [div_le_iff₀ hd'] at hhigh
  rw [lt_div_iff₀ hd', div_lt_iff₀ hd'] at hodd
  have hlow : (2 : ℚ) * (m * d) ≤ 2 * n + d := by linarith
  have hhigh : (2 : ℚ) * n ≤ 2 * (m * d) + d := by linarith
  have hodd : m % 2 = 1 → (2 : ℚ) * (m * d) < 2 * n + d ∧ (2 : ℚ) * n < 2 * (m * d) + d := by
    intro h
    obtain ⟨h₁, h₂⟩ := hodd h
    constructor <;> linarith
  exact roundQuotient_eq_of_le hd (by exact_mod_cast hlow) (by exact_mod_cast hhigh)
    (by exact_mod_cast hodd)

/-! ### The exponent -/

/-- Scaled by a power of two, a quotient stays one of natural numbers. -/
theorem scaleDown_spec (num : ℕ) (hden : 0 < den) (q : ℤ) :
    0 < (scaleDown num den q).2 ∧
      ((scaleDown num den q).1 : ℚ) / (scaleDown num den q).2 = num / den / 2 ^ q := by
  have hden' : (den : ℚ) ≠ 0 := by exact_mod_cast hden.ne'
  unfold scaleDown
  split
  · next hq =>
    obtain ⟨k, rfl⟩ := Int.eq_ofNat_of_zero_le hq
    refine ⟨by simp [hden], ?_⟩
    simp only [Int.toNat_natCast, Nat.pow_eq, Nat.cast_mul, Nat.cast_pow, Nat.cast_ofNat,
      zpow_natCast, div_div]
  · next hq =>
    obtain ⟨k, rfl⟩ := Int.exists_eq_neg_ofNat (not_le.mp hq).le
    refine ⟨hden, ?_⟩
    simp only [neg_neg, Int.toNat_natCast, Nat.pow_eq, Nat.cast_mul, Nat.cast_pow, Nat.cast_ofNat,
      zpow_neg, zpow_natCast, div_inv_eq_mul]
    ring

/-- The integer part of a quotient is below a bound exactly if the quotient is. -/
theorem div_lt_iff_cast (hd : 0 < d) (b : ℕ) : n / d < b ↔ (n : ℚ) / d < b := by
  have hd' : (0 : ℚ) < d := by exact_mod_cast hd
  rw [Nat.div_lt_iff_lt_mul hd, div_lt_iff₀ hd']
  exact_mod_cast Iff.rfl

/-- A quotient lies between two powers of two. -/
theorem log2_bounds (hnum : 0 < num) (hden : 0 < den) :
    (2 : ℚ) ^ ((num.log2 : ℤ) - den.log2 - 1) < num / den ∧
      (num : ℚ) / den < 2 ^ ((num.log2 : ℤ) - den.log2 + 1) := by
  have hden' : (0 : ℚ) < den := by exact_mod_cast hden
  have hnlow : (2 : ℚ) ^ (num.log2 : ℤ) ≤ num := by exact_mod_cast Nat.log2_self_le hnum.ne'
  have hnhigh : (num : ℚ) < 2 ^ ((num.log2 : ℤ) + 1) := by
    exact_mod_cast Nat.lt_log2_self (n := num)
  have hdlow : (2 : ℚ) ^ (den.log2 : ℤ) ≤ den := by exact_mod_cast Nat.log2_self_le hden.ne'
  have hdhigh : (den : ℚ) < 2 ^ ((den.log2 : ℤ) + 1) := by
    exact_mod_cast Nat.lt_log2_self (n := den)
  constructor
  · rw [lt_div_iff₀ hden']
    calc (2 : ℚ) ^ ((num.log2 : ℤ) - den.log2 - 1) * den
        < 2 ^ ((num.log2 : ℤ) - den.log2 - 1) * 2 ^ ((den.log2 : ℤ) + 1) :=
          mul_lt_mul_of_pos_left hdhigh (by positivity)
      _ = 2 ^ (num.log2 : ℤ) := by rw [← zpow_add₀ two_ne_zero]; congr 1; ring
      _ ≤ num := hnlow
  · rw [div_lt_iff₀ hden']
    calc (num : ℚ) < 2 ^ ((num.log2 : ℤ) + 1) := hnhigh
      _ = 2 ^ ((num.log2 : ℤ) - den.log2 + 1) * 2 ^ (den.log2 : ℤ) := by
          rw [← zpow_add₀ two_ne_zero]; congr 1; ring
      _ ≤ 2 ^ ((num.log2 : ℤ) - den.log2 + 1) * den :=
          mul_le_mul_of_nonneg_left hdlow (by positivity)

/-- In front of its limit, the exponent of a quotient gives the mantissa fifty-three bits. -/
theorem exists_exponentOf_eq_max (hnum : 0 < num) (hden : 0 < den) :
    ∃ e, exponentOf num den = max e (-1074) ∧
      (num : ℚ) / den < 2 ^ 53 * 2 ^ e ∧ 2 ^ 52 * 2 ^ e ≤ (num : ℚ) / den := by
  obtain ⟨hlow, hhigh⟩ := log2_bounds hnum hden
  obtain ⟨e, he⟩ : ∃ e, e = (num.log2 : ℤ) - den.log2 - 52 := ⟨_, rfl⟩
  obtain ⟨hd, hquotient⟩ := scaleDown_spec num hden e
  have hpow : ∀ (k : ℕ) (e e' : ℤ), k + e = e' → (2 : ℚ) ^ k * 2 ^ e = 2 ^ e' := by
    rintro k e e' rfl
    rw [zpow_add₀ two_ne_zero, zpow_natCast]
  have hbits : (scaleDown num den e).1 / (scaleDown num den e).2 < 2 ^ 52 ↔
      (num : ℚ) / den < 2 ^ 52 * 2 ^ e := by
    rw [div_lt_iff_cast hd, hquotient, div_lt_iff₀ (by positivity)]
    norm_num
  refine ⟨_, by rw [exponentOf, ← he], ?_⟩
  split
  · next hless =>
    have hhalf : (2 : ℚ) ^ 53 * 2 ^ (e - 1) = 2 ^ 52 * 2 ^ e := by
      rw [hpow 53 (e - 1) (e + 52) (by omega), hpow 52 e (e + 52) (by omega)]
    have hleast := hpow 52 (e - 1) ((num.log2 : ℤ) - den.log2 - 1) (by omega)
    rw [hhalf, hleast]
    exact ⟨hbits.mp hless, hlow.le⟩
  · next hless =>
    have hgreatest := hpow 53 e ((num.log2 : ℤ) - den.log2 + 1) (by omega)
    rw [hgreatest]
    exact ⟨hhigh, not_lt.mp (hbits.not.mp hless)⟩

/-- At the exponent of a quotient the mantissa has fifty-three bits, or the exponent is the least
one. -/
theorem exponentOf_spec (hnum : 0 < num) (hden : 0 < den) :
    -1074 ≤ exponentOf num den ∧ (num : ℚ) / den < 2 ^ 53 * 2 ^ exponentOf num den ∧
      (exponentOf num den = -1074 ∨ 2 ^ 52 * 2 ^ exponentOf num den ≤ (num : ℚ) / den) := by
  obtain ⟨e, hexponent, hbelow, habove⟩ := exists_exponentOf_eq_max hnum hden
  rw [hexponent]
  refine ⟨le_max_right _ _, ?_, ?_⟩
  · refine hbelow.trans_le (mul_le_mul_of_nonneg_left ?_ (by positivity))
    exact zpow_le_zpow_right₀ (by norm_num) (le_max_left _ _)
  · rcases le_total e (-1074) with h | h
    · exact .inl (max_eq_right h)
    · exact .inr (by rwa [max_eq_left h])

/-! ### The bits -/

/-- The bits of a positive number. -/
def bitsOf (m : ℕ) (q : ℤ) : ℕ := if m < 2 ^ 52 then m else (q + 1074).toNat * 2 ^ 52 + m

theorem bitsOf_lt (h : IsNumber m q) : bitsOf m q < 2047 * 2 ^ 52 := by
  have hm := h.lt
  have hq := h.greatest
  unfold bitsOf
  split <;> omega

/-- The bits are those of the rounded mantissa at the exponent. -/
theorem nearestBits_eq_min (hnum : 0 < num)
    (hm : roundQuotient (scaleDown num den q).1 (scaleDown num den q).2 = m)
    (hq : exponentOf num den = q) :
    nearestBits num den = min (bitsOf m q) (2047 * 2 ^ 52) := by
  rw [nearestBits, if_neg hnum.ne', hq, bitsOf, ← hm]
  rfl

/-- A quotient in the interval of a number has the same exponent, or the one before it if it lies
below a power of two. -/
theorem exponentOf_eq_of_covers (h : IsNumber m q) (hnum : 0 < num) (hden : 0 < den)
    (hcovers : (Interval.around m q).Covers q (num / den)) :
    exponentOf num den = q ∨
      exponentOf num den = q - 1 ∧ m = 2 ^ 52 ∧ q ≠ -1074 ∧
        (num : ℚ) / den < 2 ^ 52 * 2 ^ q := by
  obtain ⟨hleast, hbelow, habove⟩ := exponentOf_spec hnum hden
  obtain ⟨hlow, hhigh, -, hpower⟩ := hcovers.bounds h.pos
  generalize exponentOf num den = e at *
  generalize (num : ℚ) / den = v at *
  have hm : (m : ℚ) + 1 ≤ 2 ^ 53 := by exact_mod_cast h.lt
  have hpos : (0 : ℚ) < 2 ^ q := by positivity
  have hle : e ≤ q := by
    by_contra hgt
    have hstep : (2 : ℚ) ^ (q + 1) ≤ 2 ^ e := zpow_le_zpow_right₀ (by norm_num) (by omega)
    rw [zpow_add_one₀ two_ne_zero] at hstep
    have hq := h.least
    have habove := habove.resolve_left (by omega)
    nlinarith
  rcases hle.eq_or_lt with heq | hlt
  · exact .inl heq
  right
  have hstep : (2 : ℚ) ^ e ≤ 2 ^ (q - 1) := zpow_le_zpow_right₀ (by norm_num) (by omega)
  have hhalf : (2 : ℚ) ^ (q - 1) = 2 ^ q / 2 := by rw [zpow_sub_one₀ two_ne_zero]; ring
  have hless : v < 2 ^ 52 * 2 ^ q := by
    rw [hhalf] at hstep
    linarith
  have hfull : 2 ^ 52 ≤ m := h.full.resolve_left (by omega)
  have hm52 : m = 2 ^ 52 := by
    have hlt : (m : ℚ) < 2 ^ 52 + 1 := by nlinarith
    have hlt : m < 2 ^ 52 + 1 := by exact_mod_cast hlt
    omega
  have hpower := hpower hm52 (by omega)
  refine ⟨?_, hm52, by omega, hless⟩
  by_contra hne
  have hstep : (2 : ℚ) ^ e ≤ 2 ^ (q - 2) := zpow_le_zpow_right₀ (by norm_num) (by omega)
  rw [two_zpow_sub_two] at hstep
  rw [hm52] at hpower
  push_cast at hpower
  nlinarith

/-- The quotients in the interval of a number have its bits. -/
theorem nearestBits_eq (h : IsNumber m q) (hnum : 0 < num) (hden : 0 < den)
    (hcovers : (Interval.around m q).Covers q (num / den)) : nearestBits num den = bitsOf m q := by
  have hbits := bitsOf_lt h
  obtain ⟨hlow, hhigh, hodd, hpower⟩ := hcovers.bounds h.pos
  rcases exponentOf_eq_of_covers h hnum hden hcovers with he | ⟨he, hm, hq, hless⟩
  · obtain ⟨hd, hquotient⟩ := scaleDown_spec num hden q
    have hpos : (0 : ℚ) < 2 ^ q := by positivity
    have hmantissa : roundQuotient (scaleDown num den q).1 (scaleDown num den q).2 = m := by
      refine roundQuotient_eq hd ?_ ?_ ?_ <;> rw [hquotient]
      · rwa [le_div_iff₀ hpos]
      · rwa [div_le_iff₀ hpos]
      · rwa [lt_div_iff₀ hpos, div_lt_iff₀ hpos]
    rw [nearestBits_eq_min hnum hmantissa he, min_eq_left hbits.le]
  · obtain ⟨hd, hquotient⟩ := scaleDown_spec num hden (q - 1)
    have hpos : (0 : ℚ) < 2 ^ (q - 1) := by positivity
    have hhalf : (2 : ℚ) ^ q = 2 * 2 ^ (q - 1) := by rw [zpow_sub_one₀ two_ne_zero]; ring
    have hpower := hpower hm hq
    rw [hhalf, hm] at hpower
    rw [hhalf] at hless
    have hmantissa : roundQuotient (scaleDown num den (q - 1)).1 (scaleDown num den (q - 1)).2 =
        2 ^ 53 := by
      refine roundQuotient_eq hd ?_ ?_ ?_ <;> rw [hquotient]
      · rw [le_div_iff₀ hpos]
        push_cast at hpower ⊢
        linarith
      · rw [div_le_iff₀ hpos]
        push_cast
        linarith
      · norm_num
    have hcarry : bitsOf (2 ^ 53) (q - 1) = bitsOf m q := by
      have := h.least
      rw [hm]
      simp only [bitsOf]
      norm_num
      omega
    rw [nearestBits_eq_min hnum hmantissa he, hcarry, min_eq_left hbits.le]

/-! ### Numbers -/

/-- A number is below the power of ten that its bits are counted with. -/
theorem lt_ten_pow (n : ℕ) : (n : ℚ) < 10 ^ ((n.log2 / 3 + 1 : ℕ) : ℤ) := by
  have hlt : n < 10 ^ (n.log2 / 3 + 1) :=
    calc n < 2 ^ (n.log2 + 1) := Nat.lt_log2_self
      _ ≤ 2 ^ (3 * (n.log2 / 3 + 1)) := Nat.pow_le_pow_right (by norm_num) (by omega)
      _ = 8 ^ (n.log2 / 3 + 1) := by rw [pow_mul]; norm_num
      _ ≤ 10 ^ (n.log2 / 3 + 1) := Nat.pow_le_pow_left (by norm_num) _
  rw [zpow_natCast]
  exact_mod_cast hlt

/-- A decimal with too small an exponent rounds to zero. -/
theorem not_log_lt_of_le (h : (2 : ℚ) ^ (-1075 : ℤ) ≤ n * 10 ^ e) :
    ¬ e + (n.log2 / 3 + 1 : ℕ) < -400 := by
  intro hless
  refine absurd h (not_le.mpr ?_)
  calc (n : ℚ) * 10 ^ e < 10 ^ ((n.log2 / 3 + 1 : ℕ) : ℤ) * 10 ^ e :=
        mul_lt_mul_of_pos_right (lt_ten_pow n) (by positivity)
    _ = 10 ^ (e + (n.log2 / 3 + 1 : ℕ)) := by rw [← zpow_add₀ (by norm_num), add_comm]
    _ ≤ 10 ^ (-400 : ℤ) := zpow_le_zpow_right₀ (by norm_num) hless.le
    _ ≤ 2 ^ (-1075 : ℤ) := ten_zpow_le_two_zpow (by norm_num) (by norm_num)

/-- A decimal with too large an exponent is infinite. -/
theorem not_exponent_lt_of_lt (hn : 0 < n) (h : (n : ℚ) * 10 ^ e < 2 ^ (1024 : ℤ)) : ¬ 400 < e := by
  intro hmore
  have hone : (1 : ℚ) ≤ n := by exact_mod_cast hn
  refine absurd h (not_lt.mpr ?_)
  calc (2 : ℚ) ^ (1024 : ℤ) ≤ 10 ^ (400 : ℤ) := by
        rw [← inv_le_inv₀ (by positivity) (by positivity), ← zpow_neg, ← zpow_neg]
        exact ten_zpow_le_two_zpow (by norm_num) (by norm_num)
    _ ≤ 10 ^ e := zpow_le_zpow_right₀ (by norm_num) hmore.le
    _ ≤ n * 10 ^ e := le_mul_of_one_le_left (by positivity) hone

/-- A decimal that rounds to a number is read as this number. -/
theorem nearest_eq_of_covers (h : IsNumber m q)
    (hcovers : (Interval.around m q).Covers q (n * 10 ^ e)) (negative : Bool) :
    nearest negative n e =
      Float.ofBits ((if negative then Nat.pow 2 63 else 0) + bitsOf m q).toUInt64 := by
  obtain ⟨hsmall, hlarge⟩ := hcovers.between h
  have hn : 0 < n := by
    rcases Nat.eq_zero_or_pos n with rfl | hpos
    · rw [Nat.cast_zero, zero_mul] at hsmall
      exact absurd hsmall (not_le.mpr (by positivity))
    · exact hpos
  have hbits : (if 0 ≤ e then nearestBits (n * Nat.pow 10 e.toNat) 1
      else nearestBits n (Nat.pow 10 (-e).toNat)) = bitsOf m q := by
    split
    · next he =>
      obtain ⟨k, rfl⟩ := Int.eq_ofNat_of_zero_le he
      refine nearestBits_eq h (Nat.mul_pos hn (Nat.pow_pos (by norm_num))) one_pos ?_
      simpa using hcovers
    · next he =>
      obtain ⟨k, rfl⟩ := Int.exists_eq_neg_ofNat (not_le.mp he).le
      refine nearestBits_eq h hn (Nat.pow_pos (by norm_num)) ?_
      simpa [div_eq_mul_inv] using hcovers
  have hzero : (decide (n = 0) || decide (e + (n.log2 / 3 + 1 : ℕ) < -400)) = false := by
    rw [decide_eq_false hn.ne', decide_eq_false (not_log_lt_of_le hsmall), Bool.or_false]
  rw [nearest, hzero, if_neg Bool.false_ne_true, if_neg (not_exponent_lt_of_lt hn hlarge), hbits]

end TileSchema.Decimal
