import TileSchema.Proofs.Decimal.Reading

/-!
# Texts tell numbers apart

Floating-point numbers with one text are one number, or none of them is a number.  For finite numbers
this is so because their texts read back; the other texts do not read as numbers at all
(`readNumber?_toList_text`).  A text is never that of an integer, as it has a point or an exponent in it
(`exists_mark_mem_text`).
-/

namespace TileSchema.Decimal

variable {x y : Float} {negative : Bool}

/-! ### Numbers that are not finite -/

/-- A number equals itself, unless it is not a number. -/
theorem beq_self_of_isNan_eq_false (h : isNan x = false) : (x == x) = true := by
  have hnan : isNan Float.nan = true := rfl
  rw [Float.beq_self_iff]
  rintro rfl
  rw [hnan] at h
  cases h

/-- There is one infinite number of each sign. -/
theorem eq_ofBits_of_infinite (h : magnitude x = .infinite negative) :
    x = Float.ofBits ((if negative then Nat.pow 2 63 else 0) + 2047 * 2 ^ 52).toUInt64 := by
  have hx : x = Float.ofBits x.toBits.toNat.toUInt64 := by
    rw [Nat.toUInt64, UInt64.ofNat_toNat, Float.ofBits_toBits]
  have hlt := x.toBits.toNat_lt
  rw [magnitude] at h
  generalize x.toBits.toNat = bits at *
  rw [hx]
  simp only [Magnitude.ofBits, Nat.pow_eq] at h
  split at h
  · next hexponent =>
    split at h
    · next hfraction =>
      have hsign := Magnitude.infinite.inj h
      have hsum : (if negative then Nat.pow 2 63 else 0) + 2047 * 2 ^ 52 = bits := by
        rw [← hsign]
        simp only [Nat.pow_eq, beq_iff_eq]
        split <;> omega
      rw [hsum]
    · cases h
  · split at h <;> cases h

/-- A number that is not finite is not a number, or it is infinite, and its text says which. -/
theorem text_of_isFinite_eq_false (h : isFinite x = false) :
    isNan x = true ∧ text scalarStyle x = ".nan" ∨
      ∃ negative, magnitude x = .infinite negative ∧
        text scalarStyle x = if negative then "-.inf" else ".inf" := by
  unfold isFinite at h
  unfold isNan text
  cases hx : magnitude x with
  | finite => simp [hx] at h
  | nan => exact .inl ⟨rfl, rfl⟩
  | infinite negative => exact .inr ⟨negative, rfl, by cases negative <;> rfl⟩

/-! ### Numbers of one text -/

/-- A text reads as a number exactly if it is that of a finite one. -/
theorem readNumber?_toList_text (x : Float) :
    readNumber? (text scalarStyle x).toList = if isFinite x then some (x, []) else none := by
  cases hx : isFinite x with
  | true =>
    have hrest : EndsNumber [] := nofun
    have hread := readNumber?_text hx (.inl rfl : scalarStyle.exponentSign = "" ∨ _) hrest
    rwa [List.append_nil] at hread
  | false =>
    rw [if_neg Bool.false_ne_true]
    rcases text_of_isFinite_eq_false hx with ⟨-, htext⟩ | ⟨negative, -, htext⟩
    · rw [htext]
      decide
    · rw [htext]
      cases negative <;> decide

/-- Numbers of one text are one number, or not numbers. -/
theorem eq_or_isNan_of_text_eq (h : text scalarStyle x = text scalarStyle y) :
    x = y ∨ isNan x = true ∧ isNan y = true := by
  have hread := readNumber?_toList_text x
  rw [h, readNumber?_toList_text y] at hread
  cases hx : isFinite x with
  | true =>
    cases hy : isFinite y <;> simp [hx, hy] at hread
    exact .inl hread.symm
  | false =>
    have hy : isFinite y = false := by
      cases hy : isFinite y
      · rfl
      · simp [hx, hy] at hread
    rcases text_of_isFinite_eq_false hx with ⟨hx, hxtext⟩ | ⟨negative, hx, hxtext⟩ <;>
      rcases text_of_isFinite_eq_false hy with ⟨hy, hytext⟩ | ⟨negative', hy, hytext⟩ <;>
      rw [hxtext, hytext] at h
    · exact .inr ⟨hx, hy⟩
    · cases negative' <;> simp at h
    · cases negative <;> simp at h
    · have hsign : negative = negative' := by
        cases negative <;> cases negative' <;> simp at h <;> rfl
      rw [eq_ofBits_of_infinite hx, eq_ofBits_of_infinite hy, hsign]
      exact .inl rfl

/-! ### Integers -/

/-- The text of an integer consists of digits behind a minus. -/
theorem isDigit_or_eq_minus_of_mem_toString (n : ℤ) :
    ∀ c ∈ (toString n).toList, c.isDigit = true ∨ c = '-' := by
  have hnat : ∀ m : ℕ, ∀ c ∈ m.repr.toList, c.isDigit = true := by
    intro m c hc
    rw [Nat.toList_repr] at hc
    exact isDigit_of_mem_toDigits c hc
  rw [Int.toString_eq_repr, Int.repr_eq_if]
  split
  · exact fun c hc => .inl (hnat _ c hc)
  · intro c hc
    rw [String.toList_append, List.mem_append] at hc
    rcases hc with hc | hc
    · exact .inr (by simpa using hc)
    · exact .inl (hnat _ c hc)

/-- A point or the letter of an exponent. -/
def isMark (c : Char) : Bool := c = '.' || c = 'e'

/-- The digits of a number are written with a point or with an exponent. -/
theorem exists_mark_mem_digitsText (style : NumberStyle) (d : Digits) :
    ∃ c ∈ (d.text style).toList, isMark c = true := by
  unfold Digits.text
  dsimp only
  split
  · refine ⟨'.', ?_, rfl⟩
    unfold positional
    dsimp only
    split
    · simp
    · split <;> simp
  · refine ⟨'e', ?_, rfl⟩
    unfold scientific
    simp

/-- The text of a floating-point number has a point or an exponent in it. -/
theorem exists_mark_mem_text (x : Float) : ∃ c ∈ (text scalarStyle x).toList, isMark c = true := by
  unfold text
  cases magnitude x with
  | nan => exact ⟨'.', by simp [scalarStyle], rfl⟩
  | infinite negative =>
    refine ⟨'.', ?_, rfl⟩
    cases negative <;> simp [scalarStyle]
  | finite negative m q =>
    dsimp only
    split
    · exact ⟨'.', by simp, rfl⟩
    · obtain ⟨c, hc, hmark⟩ := exists_mark_mem_digitsText scalarStyle (shortest scalarStyle.tie m q)
      refine ⟨c, ?_, hmark⟩
      rw [String.toList_append]
      exact List.mem_append_right _ hc

/-- A floating-point number is never written as an integer. -/
theorem text_ne_toString (x : Float) (n : ℤ) : text scalarStyle x ≠ toString n := by
  intro h
  obtain ⟨c, hc, hmark⟩ := exists_mark_mem_text x
  rw [h] at hc
  rcases isDigit_or_eq_minus_of_mem_toString n c hc with hdigit | rfl
  · rw [isMark, Bool.or_eq_true, decide_eq_true_eq, decide_eq_true_eq] at hmark
    rcases hmark with rfl | rfl <;> simp at hdigit
  · cases hmark

end TileSchema.Decimal
