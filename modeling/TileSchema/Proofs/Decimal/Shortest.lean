import TileSchema.Proofs.Decimal.Rounding

/-!
# The shortest decimal reads back

A grid of decimals that is finer than an interval has a point in it, and the point that is taken is
in the interval (`covers_of_pointOnGrid`, `exists_pointOnGrid`).  The search starts on a coarse grid
and goes on for as long as it takes: after twenty-three steps the grid is finer than the interval of
any number (`gridAbove_le`).  So the shortest decimal of a number lies in its interval, and is read
as the number.
-/

namespace TileSchema.Decimal

variable {m c fuel : ℕ} {q k : ℤ} {i : Interval} {tie : Tie}

/-- The value of a decimal. -/
def Digits.value (d : Digits) : ℚ := d.digits * 10 ^ d.exponent

/-! ### Points on a grid -/

/-- The factor of the bounds of an interval. -/
def boundFactor (q k : ℤ) : ℕ := Nat.pow 2 (q - 2).toNat * Nat.pow 10 (-k).toNat

/-- The factor of the points on a grid. -/
def pointFactor (q k : ℤ) : ℕ := Nat.pow 2 (-(q - 2)).toNat * Nat.pow 10 k.toNat

theorem pointFactor_pos (q k : ℤ) : 0 < pointFactor q k :=
  Nat.mul_pos (Nat.pow_pos (by norm_num)) (Nat.pow_pos (by norm_num))

/-- An integer power is a quotient of two natural ones. -/
theorem zpow_mul_pow_toNat {x : ℚ} (hx : x ≠ 0) (k : ℤ) : x ^ k * x ^ (-k).toNat = x ^ k.toNat := by
  rw [← zpow_natCast, ← zpow_natCast, ← zpow_add₀ hx]
  congr 1
  omega

/-- The two factors put an interval and a grid on one scale. -/
theorem boundFactor_mul (q k : ℤ) :
    (boundFactor q k : ℚ) * 10 ^ k = pointFactor q k * 2 ^ (q - 2) := by
  have htwo := zpow_mul_pow_toNat (x := 2) two_ne_zero (q - 2)
  have hten := zpow_mul_pow_toNat (x := 10) (by norm_num) k
  simp only [boundFactor, pointFactor, Nat.pow_eq, Nat.cast_mul, Nat.cast_pow, Nat.cast_ofNat,
    ← htwo, ← hten]
  ring

/-- A bound and a point compare on that scale as they do as rationals. -/
theorem bound_le_point_iff (q k : ℤ) (n c : ℕ) :
    (n * boundFactor q k ≤ c * pointFactor q k ↔ (n : ℚ) * 2 ^ (q - 2) ≤ c * 10 ^ k) ∧
      (c * pointFactor q k ≤ n * boundFactor q k ↔ (c : ℚ) * 10 ^ k ≤ n * 2 ^ (q - 2)) := by
  have hb : (0 : ℚ) < pointFactor q k := by exact_mod_cast pointFactor_pos q k
  have hten : (0 : ℚ) < 10 ^ k := by positivity
  have hbound : (n : ℚ) * 2 ^ (q - 2) * pointFactor q k = (n * boundFactor q k : ℕ) * 10 ^ k := by
    rw [Nat.cast_mul, mul_assoc, mul_assoc, boundFactor_mul, mul_comm (2 ^ (q - 2) : ℚ)]
  have hpoint : (c : ℚ) * 10 ^ k * pointFactor q k = (c * pointFactor q k : ℕ) * 10 ^ k := by
    rw [Nat.cast_mul, mul_right_comm]
  rw [← mul_le_mul_iff_left₀ hb, hbound, hpoint, mul_le_mul_iff_left₀ hten, Nat.cast_le,
    ← mul_le_mul_iff_left₀ hb, hbound, hpoint, mul_le_mul_iff_left₀ hten, Nat.cast_le]
  exact ⟨Iff.rfl, Iff.rfl⟩

/-- Whether a point lies in an interval is decided on that scale. -/
theorem holds_iff (i : Interval) (q k : ℤ) (c : ℕ) :
    i.holds (boundFactor q k) (pointFactor q k) c = true ↔ i.Covers q (c * 10 ^ k) := by
  have hlow := bound_le_point_iff q k i.low c
  have hhigh := bound_le_point_iff q k i.high c
  unfold Interval.holds Interval.Covers
  split
  · rw [Bool.and_eq_true, decide_eq_true_iff, decide_eq_true_iff, hlow.1, hhigh.2]
  · rw [Bool.and_eq_true, decide_eq_true_iff, decide_eq_true_iff, ← not_le, ← not_le, hlow.2,
      hhigh.1, not_le, not_le]

theorem Interval.Covers.of_lt {v : ℚ} (hlow : i.low * 2 ^ (q - 2) < v)
    (hhigh : v < i.high * 2 ^ (q - 2)) : i.Covers q v := by
  unfold Interval.Covers
  split
  · exact ⟨hlow.le, hhigh.le⟩
  · exact ⟨hlow, hhigh⟩

/-- The point that is taken on a grid lies in the interval. -/
theorem covers_of_pointOnGrid (h : pointOnGrid tie i q k = some c) : i.Covers q (c * 10 ^ k) := by
  rw [← holds_iff]
  unfold boundFactor pointFactor
  unfold pointOnGrid at h
  dsimp only at h
  split at h
  · cases h
  · next hfirst _ =>
    cases h
    exact hfirst
  · next _ hsecond =>
    cases h
    exact hsecond
  · next hfirst hsecond =>
    split at h
    · cases h
      exact hfirst
    split at h
    · cases h
      exact hsecond
    cases tie with
    | toEven =>
      cases h
      generalize i.mid * _ / _ = c at hfirst hsecond ⊢
      rcases Nat.mod_two_eq_zero_or_one c with heven | hodd
      · rwa [heven]
      · rwa [hodd]
    | up =>
      cases h
      exact hsecond

/-- Where no point is taken, neither neighbour of the number lies in the interval. -/
theorem not_covers_of_pointOnGrid (h : pointOnGrid tie i q k = none) :
    ¬ i.Covers q ((i.mid * boundFactor q k / pointFactor q k : ℕ) * 10 ^ k) ∧
      ¬ i.Covers q ((i.mid * boundFactor q k / pointFactor q k + 1 : ℕ) * 10 ^ k) := by
  rw [← holds_iff, ← holds_iff, Bool.not_eq_true, Bool.not_eq_true]
  unfold boundFactor pointFactor
  unfold pointOnGrid at h
  dsimp only at h
  split at h
  · next hfirst hsecond => exact ⟨hfirst, hsecond⟩
  · cases h
  · cases h
  · split at h
    · cases h
    split at h
    · cases h
    cases tie <;> cases h

/-- A grid that is finer than an interval has a point in it. -/
theorem exists_pointOnGrid (tie : Tie) (hlow : i.low < i.mid) (hhigh : i.mid < i.high)
    (hfine : (10 : ℚ) ^ k < (i.high - i.low) * 2 ^ (q - 2)) :
    ∃ c, pointOnGrid tie i q k = some c := by
  by_contra hnone
  rw [← Option.ne_none_iff_exists', not_not] at hnone
  obtain ⟨hfirst, hsecond⟩ := not_covers_of_pointOnGrid hnone
  obtain ⟨c, hc⟩ : ∃ c, c = i.mid * boundFactor q k / pointFactor q k := ⟨_, rfl⟩
  have hpos : (0 : ℚ) < 2 ^ (q - 2) := by positivity
  have hbelow : (c : ℚ) * 10 ^ k ≤ i.mid * 2 ^ (q - 2) := by
    rw [← (bound_le_point_iff q k i.mid c).2, hc]
    exact Nat.div_mul_le_self _ _
  have habove : (i.mid : ℚ) * 2 ^ (q - 2) < (c + 1 : ℕ) * 10 ^ k := by
    rw [← not_le, ← (bound_le_point_iff q k i.mid (c + 1)).2, not_le, hc]
    exact Nat.lt_mul_of_div_lt (Nat.lt_succ_self _) (pointFactor_pos q k)
  have hlow : (i.low : ℚ) * 2 ^ (q - 2) < i.mid * 2 ^ (q - 2) :=
    mul_lt_mul_of_pos_right (by exact_mod_cast hlow) hpos
  have hhigh : (i.mid : ℚ) * 2 ^ (q - 2) < i.high * 2 ^ (q - 2) :=
    mul_lt_mul_of_pos_right (by exact_mod_cast hhigh) hpos
  rw [← hc] at hfirst hsecond
  have hfirst : (c : ℚ) * 10 ^ k ≤ i.low * 2 ^ (q - 2) :=
    not_lt.mp fun h => hfirst (.of_lt h (hbelow.trans_lt hhigh))
  have hsecond : (i.high : ℚ) * 2 ^ (q - 2) ≤ (c + 1 : ℕ) * 10 ^ k :=
    not_lt.mp fun h => hsecond (.of_lt (hlow.trans habove) h)
  push_cast at hsecond
  linarith

/-! ### The search -/

/-- The search ends with a point in the interval, if the last grid is fine enough. -/
theorem covers_firstPoint (hlow : i.low < i.mid) (hhigh : i.mid < i.high)
    (hfine : (10 : ℚ) ^ (k - fuel) < (i.high - i.low) * 2 ^ (q - 2)) :
    i.Covers q (firstPoint tie i q (fuel + 1) k).value := by
  induction fuel generalizing k with
  | zero =>
    have hfine : (10 : ℚ) ^ k < (i.high - i.low) * 2 ^ (q - 2) := by simpa using hfine
    obtain ⟨c, hc⟩ := exists_pointOnGrid tie hlow hhigh hfine
    rw [firstPoint, hc]
    exact covers_of_pointOnGrid hc
  | succ fuel ih =>
    rw [firstPoint]
    split
    · next c hc => exact covers_of_pointOnGrid hc
    · have hnext : k - 1 - (fuel : ℤ) = k - (fuel + 1 : ℕ) := by push_cast; ring
      exact ih (by rwa [hnext])

/-- Twenty-three grids further the steps are shorter than half the distance to the next number. -/
theorem gridAbove_le {b : ℤ} (hb : b ≤ q + 53) (hleast : -1074 ≤ b) (hgreatest : q ≤ 971) :
    (10 : ℚ) ^ (gridAbove b - 23) ≤ 2 ^ (q - 1) := by
  apply ten_zpow_le_two_zpow <;> unfold gridAbove <;> split <;> omega

/-- The shortest decimal of a number lies in its interval. -/
theorem covers_shortest (h : IsNumber m q) (tie : Tie) :
    (Interval.around m q).Covers q (shortest tie m q).value := by
  have hm := h.pos
  have hwidth : (Interval.around m q).low < (Interval.around m q).mid ∧
      (Interval.around m q).mid < (Interval.around m q).high ∧
      (Interval.around m q).low + 3 ≤ (Interval.around m q).high := by
    simp only [Interval.around]
    split <;> omega
  obtain ⟨hlow, hhigh, hwidth⟩ := hwidth
  refine covers_firstPoint hlow hhigh ?_
  have hlog : m.log2 ≤ 52 := by
    have hlt : m.log2 < 53 := (Nat.log2_lt hm.ne').mpr h.lt
    omega
  have hgrid : (10 : ℚ) ^ (gridAbove (m.log2 + q + 1) - 23) ≤ 2 ^ (q - 1) := by
    have hleast := h.least
    exact gridAbove_le (by omega) (by omega) h.greatest
  have hwidth : (3 : ℚ) ≤ (Interval.around m q).high - (Interval.around m q).low := by
    rw [le_sub_iff_add_le, add_comm]
    exact_mod_cast hwidth
  have hpos : (0 : ℚ) < 2 ^ q := by positivity
  calc (10 : ℚ) ^ (gridAbove (m.log2 + q + 1) - 23) ≤ 2 ^ (q - 1) := hgrid
    _ = 2 * (2 ^ q / 4) := by rw [zpow_sub_one₀ two_ne_zero]; ring
    _ < 3 * (2 ^ q / 4) := by linarith
    _ ≤ _ := by
      rw [two_zpow_sub_two]
      exact mul_le_mul_of_nonneg_right hwidth (by positivity)

end TileSchema.Decimal
