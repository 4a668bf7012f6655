import Mathlib
import TileSchema.Decimal.Notation
import TileSchema.Proofs.Decimal.Shortest
import TileSchema.Proofs.Text.Quoted

/-!
# Number text reads back

A number is read as digits with a point and an exponent among them, each optional, and the decimal
that they make is rounded to the nearest number.  How a text is laid out changes the decimal, but
not its value (`readDecimal?_text`): zeros may stand at its end, and be counted in the exponent.  As
the decimal of a number lies in its interval, the number is read (`readNumber?_text`).
-/

namespace TileSchema.Decimal

variable {ds cs rest : List Char} {style : NumberStyle} {x : Float}

/-! ### Reading numbers -/

/-- The digits at the start of a text, of which there has to be one. -/
def readDigits? (cs : List Char) : Option (List Char × List Char) :=
  if (cs.takeWhile Char.isDigit).isEmpty then none
  else some (cs.takeWhile Char.isDigit, cs.dropWhile Char.isDigit)

/-- The digits behind a point, if there is one. -/
def readFraction? : List Char → Option (List Char × List Char)
  | '.' :: cs => readDigits? cs
  | cs => some ([], cs)

/-- Whether a minus stands at the start of a text, and what follows a sign. -/
def readSign : List Char → Bool × List Char
  | '-' :: cs => (true, cs)
  | '+' :: cs => (false, cs)
  | cs => (false, cs)

/-- The number that digits stand for. -/
def digitsValue (ds : List Char) : ℕ := Nat.ofDigitChars 10 ds 0

/-- An exponent, if there is one. -/
def readExponent? : List Char → Option (ℤ × List Char)
  | [] => some (0, [])
  | c :: cs =>
    if c = 'e' ∨ c = 'E' then
      (readDigits? (readSign cs).2).map fun found =>
        (if (readSign cs).1 then -(digitsValue found.1 : ℤ) else digitsValue found.1, found.2)
    else some (0, c :: cs)

/-- The decimal at the start of a text. -/
def readDecimal? (cs : List Char) : Option (Digits × List Char) := do
  let (whole, cs) ← readDigits? cs
  let (fraction, cs) ← readFraction? cs
  let (exponent, cs) ← readExponent? cs
  return (⟨digitsValue (whole ++ fraction), exponent - fraction.length⟩, cs)

/-- The number at the start of a text. -/
def readNumber? : List Char → Option (Float × List Char)
  | '-' :: cs => (readDecimal? cs).map fun found =>
      (nearest true found.1.digits found.1.exponent, found.2)
  | cs => (readDecimal? cs).map fun found =>
      (nearest false found.1.digits found.1.exponent, found.2)

/-- A number does not go on in a text. -/
def EndsNumber (rest : List Char) : Prop :=
  ∀ c ∈ rest.head?, c.isDigit = false ∧ c ≠ '.' ∧ c ≠ 'e' ∧ c ≠ 'E'

/-! ### Parts of a number -/

theorem readDigits?_append (hds : ds ≠ []) (hdigits : ∀ c ∈ ds, c.isDigit = true)
    (hrest : ∀ c ∈ rest.head?, c.isDigit = false) : readDigits? (ds ++ rest) = some (ds, rest) := by
  have hempty : ds.isEmpty = false := by simpa using hds
  rw [readDigits?, Text.takeWhile_run hdigits hrest, Text.dropWhile_run hdigits hrest, hempty,
    if_neg Bool.false_ne_true]

theorem readFraction?_of_ne (h : ∀ c ∈ cs.head?, c ≠ '.') : readFraction? cs = some ([], cs) := by
  unfold readFraction?
  split
  · exact absurd rfl (h '.' (by simp))
  · rfl

theorem readExponent?_of_ne (h : ∀ c ∈ cs.head?, c ≠ 'e' ∧ c ≠ 'E') :
    readExponent? cs = some (0, cs) := by
  cases cs with
  | nil => rfl
  | cons c cs =>
    have hc := h c (by simp)
    rw [readExponent?, if_neg (by simp [hc])]

theorem readSign_append (hds : ds ≠ []) (hdigits : ∀ c ∈ ds, c.isDigit = true) :
    readSign (ds ++ rest) = (false, ds ++ rest) := by
  obtain ⟨c, ds, rfl⟩ := List.exists_cons_of_ne_nil hds
  have hc : c.isDigit = true := hdigits c List.mem_cons_self
  rw [List.cons_append]
  unfold readSign
  split
  · next heq =>
    obtain ⟨rfl, -⟩ := List.cons.inj heq
    exact absurd hc (by decide)
  · next heq =>
    obtain ⟨rfl, -⟩ := List.cons.inj heq
    exact absurd hc (by decide)
  · rfl

theorem isDigit_of_mem_toDigits {n : ℕ} : ∀ c ∈ Nat.toDigits 10 n, c.isDigit = true :=
  fun _ hc => Nat.isDigit_of_mem_toDigits (by norm_num) (by norm_num) hc

/-- The exponent of a text is read, whatever sign a number that is not negative has. -/
theorem readExponent?_append (k : ℤ) {sign : String} (hsign : sign = "" ∨ sign = "+")
    (hrest : ∀ c ∈ rest.head?, c.isDigit = false) :
    readExponent? ('e' :: ((if k < 0 then "-" else sign).toList ++
      (Nat.toDigits 10 k.natAbs ++ rest))) = some (k, rest) := by
  have hdigits : readDigits? (Nat.toDigits 10 k.natAbs ++ rest) =
      some (Nat.toDigits 10 k.natAbs, rest) :=
    readDigits?_append Nat.toDigits_ne_nil isDigit_of_mem_toDigits hrest
  have hvalue : digitsValue (Nat.toDigits 10 k.natAbs) = k.natAbs := Nat.ofDigitChars_ten_toDigits
  have hsigned : readSign ((if k < 0 then "-" else sign).toList ++
      (Nat.toDigits 10 k.natAbs ++ rest)) = (decide (k < 0), Nat.toDigits 10 k.natAbs ++ rest) := by
    split
    · next hk => simp [readSign, hk]
    · next hk =>
      rcases hsign with rfl | rfl
      · simp [readSign_append Nat.toDigits_ne_nil isDigit_of_mem_toDigits, hk]
      · simp [readSign, hk]
  rw [readExponent?, if_pos (.inl rfl), hsigned, hdigits, Option.map_some, hvalue]
  congr 2
  by_cases hk : k < 0
  · rw [decide_eq_true hk, if_pos rfl]
    omega
  · rw [decide_eq_false hk, if_neg Bool.false_ne_true]
    omega

/-! ### Decimals -/

/-- Zeros at the end of the digits do not count. -/
theorem value_dropZeros (fuel n : ℕ) (e : ℤ) :
    (dropZeros fuel n e).value = (⟨n, e⟩ : Digits).value := by
  fun_induction dropZeros fuel n e with
  | case1 n e => rfl
  | case2 fuel n e hzero ih =>
    have hn : (n : ℚ) = (n / 10 : ℕ) * 10 := by
      exact_mod_cast (Nat.div_mul_cancel (Nat.dvd_of_mod_eq_zero hzero)).symm
    rw [ih, Digits.value, Digits.value, hn, zpow_add_one₀ (by norm_num)]
    ring
  | case3 n e fuel hzero => rfl

/-- Digits with a point are read, without an exponent. -/
theorem readDecimal?_point {whole fraction : List Char} (hwhole : whole ≠ [])
    (hfraction : fraction ≠ []) (hwholeDigits : ∀ c ∈ whole, c.isDigit = true)
    (hfractionDigits : ∀ c ∈ fraction, c.isDigit = true) (hrest : EndsNumber rest) :
    readDecimal? (whole ++ '.' :: (fraction ++ rest)) =
      some (⟨digitsValue (whole ++ fraction), -fraction.length⟩, rest) := by
  have hfirst : readDigits? (whole ++ '.' :: (fraction ++ rest)) =
      some (whole, '.' :: (fraction ++ rest)) := readDigits?_append hwhole hwholeDigits (by simp)
  have hsecond : readFraction? ('.' :: (fraction ++ rest)) = some (fraction, rest) :=
    readDigits?_append hfraction hfractionDigits fun c hc => (hrest c hc).1
  have hthird := readExponent?_of_ne fun c hc => (hrest c hc).2.2
  simp only [readDecimal?, hfirst, hsecond, hthird, Option.bind_eq_bind, Option.bind_some, zero_sub]
  rfl

/-- Digits with an exponent are read, whether there is a point among them or not. -/
theorem readDecimal?_exponent {c : Char} {fraction : List Char} (k : ℤ) {sign : String}
    (hdigits : ∀ d ∈ c :: fraction, d.isDigit = true) (hsign : sign = "" ∨ sign = "+")
    (hrest : EndsNumber rest) :
    readDecimal? (c :: ((if fraction.isEmpty then [] else '.' :: fraction) ++
      'e' :: ((if k < 0 then "-" else sign).toList ++ (Nat.toDigits 10 k.natAbs ++ rest)))) =
        some (⟨digitsValue (c :: fraction), k - fraction.length⟩, rest) := by
  obtain ⟨hc, hfractionDigits⟩ := List.forall_mem_cons.mp hdigits
  have hexponent := readExponent?_append k hsign fun c hc => (hrest c hc).1
  obtain ⟨behind, hbehind⟩ : ∃ behind, behind = 'e' :: ((if k < 0 then "-" else sign).toList ++
      (Nat.toDigits 10 k.natAbs ++ rest)) := ⟨_, rfl⟩
  have hhead : ∀ d ∈ behind.head?, d.isDigit = false ∧ d ≠ '.' := by simp [hbehind]
  rw [← hbehind] at hexponent ⊢
  have hfirst : readDigits? (c :: ((if fraction.isEmpty then [] else '.' :: fraction) ++ behind)) =
      some ([c], (if fraction.isEmpty then [] else '.' :: fraction) ++ behind) := by
    refine readDigits?_append (List.cons_ne_nil c []) (by simpa using hc) ?_
    split
    · exact fun d hd => (hhead d hd).1
    · simp
  have hsecond : readFraction? ((if fraction.isEmpty then [] else '.' :: fraction) ++ behind) =
      some (fraction, behind) := by
    split
    · next hempty =>
      rw [List.isEmpty_iff.mp hempty, List.nil_append]
      exact readFraction?_of_ne fun d hd => (hhead d hd).2
    · next hempty =>
      exact readDigits?_append (by simpa using hempty) hfractionDigits fun d hd => (hhead d hd).1
  simp only [readDecimal?, hfirst, hsecond, hexponent, Option.bind_eq_bind, Option.bind_some,
    List.singleton_append]
  rfl

theorem isDigit_of_mem_zeros (k : ℕ) : ∀ c ∈ List.replicate k '0', c.isDigit = true := by
  intro c hc
  rw [List.eq_of_mem_replicate hc]
  decide

theorem digitsValue_zeros_append (k : ℕ) (ds : List Char) :
    digitsValue (List.replicate k '0' ++ ds) = digitsValue ds := by
  rw [digitsValue, Nat.ofDigitChars_append, Nat.ofDigitChars_replicate_zero, mul_zero, digitsValue]

theorem digitsValue_append_zeros (ds : List Char) (k : ℕ) :
    digitsValue (ds ++ List.replicate k '0') = digitsValue ds * 10 ^ k := by
  rw [digitsValue, Nat.ofDigitChars_append, Nat.ofDigitChars_replicate_zero, mul_comm, digitsValue]

/-- Digits behind a point are read, whatever zeros stand in front of them. -/
theorem readDecimal?_zeros_point (hds : ds ≠ []) (hdigits : ∀ c ∈ ds, c.isDigit = true) (k : ℕ)
    (hrest : EndsNumber rest) :
    readDecimal? (['0'] ++ '.' :: ((List.replicate k '0' ++ ds) ++ rest)) =
      some (⟨digitsValue ds, -(k + ds.length : ℕ)⟩, rest) := by
  have hread := readDecimal?_point (List.cons_ne_nil '0' [])
    (List.append_ne_nil_of_right_ne_nil (List.replicate k '0') hds) (isDigit_of_mem_zeros 1)
    (List.forall_mem_append.mpr ⟨isDigit_of_mem_zeros k, hdigits⟩) hrest
  have hvalue : digitsValue (['0'] ++ (List.replicate k '0' ++ ds)) = digitsValue ds :=
    (digitsValue_zeros_append 1 _).trans (digitsValue_zeros_append k ds)
  rwa [hvalue, List.length_append, List.length_replicate] at hread

/-- Digits in front of a point are read with the zeros that stand between. -/
theorem readDecimal?_zeros_zero (hds : ds ≠ []) (hdigits : ∀ c ∈ ds, c.isDigit = true) (k : ℕ)
    (hrest : EndsNumber rest) :
    readDecimal? ((ds ++ List.replicate k '0') ++ '.' :: (['0'] ++ rest)) =
      some (⟨digitsValue ds * 10 ^ k * 10, -(1 : ℕ)⟩, rest) := by
  have hread := readDecimal?_point (List.append_ne_nil_of_left_ne_nil hds (List.replicate k '0'))
    (List.cons_ne_nil '0' []) (List.forall_mem_append.mpr ⟨hdigits, isDigit_of_mem_zeros k⟩)
    (isDigit_of_mem_zeros 1) hrest
  have hvalue : digitsValue ((ds ++ List.replicate k '0') ++ ['0']) =
      digitsValue ds * 10 ^ k * 10 :=
    (digitsValue_append_zeros _ 1).trans (by rw [digitsValue_append_zeros, pow_one])
  rwa [hvalue] at hread

/-- Digits are read with a point among them. -/
theorem readDecimal?_take_drop {k : ℕ} (hpos : 0 < k) (hlt : k < ds.length)
    (hdigits : ∀ c ∈ ds, c.isDigit = true) (hrest : EndsNumber rest) :
    readDecimal? (ds.take k ++ '.' :: (ds.drop k ++ rest)) =
      some (⟨digitsValue ds, -(ds.length - k : ℕ)⟩, rest) := by
  have htake : ds.take k ≠ [] := List.ne_nil_of_length_pos (by rw [List.length_take]; omega)
  have hdrop : ds.drop k ≠ [] := List.ne_nil_of_length_pos (by rw [List.length_drop]; omega)
  have hread := readDecimal?_point htake hdrop (fun c hc => hdigits c (List.mem_of_mem_take hc))
    (fun c hc => hdigits c (List.mem_of_mem_drop hc)) hrest
  rwa [List.take_append_drop, List.length_drop] at hread

/-- A positional text is read as the value of its digits, wherever the point stands. -/
theorem readDecimal?_positional (hds : ds ≠ []) (hdigits : ∀ c ∈ ds, c.isDigit = true) (e : ℤ)
    (hrest : EndsNumber rest) :
    ∃ d, readDecimal? ((positional ds (ds.length + e)).toList ++ rest) = some (d, rest) ∧
      d.value = (⟨digitsValue ds, e⟩ : Digits).value := by
  unfold positional zeros
  dsimp only
  split
  · -- All digits stand behind the point, after zeros.
    next hpoint =>
    obtain ⟨k, hk⟩ : ∃ k : ℕ, k = (-(ds.length + e)).toNat := ⟨_, rfl⟩
    have hread := readDecimal?_zeros_point hds hdigits k hrest
    have hexponent : (-(k + ds.length : ℕ) : ℤ) = e := by omega
    rw [hexponent] at hread
    refine ⟨_, ?_, rfl⟩
    rw [← hk]
    simpa using hread
  split
  · -- All digits stand in front of the point, with zeros between.
    next hpoint hlength =>
    obtain ⟨k, rfl⟩ : ∃ k : ℕ, e = k := Int.eq_ofNat_of_zero_le (by omega)
    have hk : (ds.length + (k : ℤ)).toNat - ds.length = k := by omega
    have hread := readDecimal?_zeros_zero hds hdigits k hrest
    refine ⟨⟨digitsValue ds * 10 ^ k * 10, -(1 : ℕ)⟩, ?_, ?_⟩
    · rw [hk]
      simpa using hread
    · rw [Digits.value, Digits.value, zpow_neg, zpow_natCast, zpow_natCast, pow_one]
      push_cast
      ring
  · -- The point stands among the digits.
    next hpoint hlength =>
    obtain ⟨k, hk⟩ : ∃ k : ℕ, k = (ds.length + e).toNat := ⟨_, rfl⟩
    have hread := readDecimal?_take_drop (by omega : 0 < k) (by omega) hdigits hrest
    have hexponent : (-(ds.length - k : ℕ) : ℤ) = e := by omega
    rw [hexponent] at hread
    refine ⟨_, ?_, rfl⟩
    rw [← hk]
    simpa using hread

/-- A text with an exponent is read as the value of its digits. -/
theorem readDecimal?_scientific (hds : ds ≠ []) (hdigits : ∀ c ∈ ds, c.isDigit = true) (e : ℤ)
    (hsign : style.exponentSign = "" ∨ style.exponentSign = "+") (hrest : EndsNumber rest) :
    readDecimal? ((scientific style ds (ds.length + e - 1)).toList ++ rest) =
      some (⟨digitsValue ds, e⟩, rest) := by
  obtain ⟨c, fraction, rfl⟩ := List.exists_cons_of_ne_nil hds
  have hread := readDecimal?_exponent ((c :: fraction).length + e - 1) hdigits hsign hrest
  have hexponent : ((c :: fraction).length + e - 1 - fraction.length : ℤ) = e := by
    rw [List.length_cons]
    omega
  rw [hexponent] at hread
  rw [← hread]
  congr 1
  cases fraction <;> simp [scientific, apply_ite String.toList]

/-- The text of a decimal is read as a decimal of the same value. -/
theorem readDecimal?_text (d : Digits) (hsign : style.exponentSign = "" ∨ style.exponentSign = "+")
    (hrest : EndsNumber rest) :
    ∃ d', readDecimal? ((d.text style).toList ++ rest) = some (d', rest) ∧ d'.value = d.value := by
  obtain ⟨n, e, hd⟩ : ∃ n e, dropZeros 20 d.digits d.exponent = ⟨n, e⟩ := ⟨_, _, rfl⟩
  have hvalue : digitsValue (Nat.toDigits 10 n) = n := Nat.ofDigitChars_ten_toDigits
  have hsame : (⟨n, e⟩ : Digits).value = d.value := hd ▸ value_dropZeros 20 d.digits d.exponent
  have hne : Nat.toDigits 10 n ≠ [] := Nat.toDigits_ne_nil
  have hdigits : ∀ c ∈ Nat.toDigits 10 n, c.isDigit = true := isDigit_of_mem_toDigits
  simp only [Digits.text, hd]
  split
  · have hread := readDecimal?_positional hne hdigits e hrest
    rwa [hvalue, hsame] at hread
  · have hread := readDecimal?_scientific hne hdigits e hsign hrest
    rw [hvalue] at hread
    exact ⟨_, hread, hsame⟩

/-! ### Numbers -/

/-- A finite number is made from its sign, its mantissa and its exponent. -/
theorem eq_ofBits_of_magnitude {negative : Bool} {m : ℕ} {q : ℤ}
    (h : magnitude x = .finite negative m q) :
    (m = 0 ∨ IsNumber m q) ∧
      x = Float.ofBits ((if negative then Nat.pow 2 63 else 0) + bitsOf m q).toUInt64 := by
  have hx : x = Float.ofBits x.toBits.toNat.toUInt64 := by
    rw [Nat.toUInt64, UInt64.ofNat_toNat, Float.ofBits_toBits]
  have hlt := x.toBits.toNat_lt
  rw [magnitude] at h
  generalize x.toBits.toNat = bits at *
  rw [hx]
  simp only [Magnitude.ofBits, Nat.pow_eq] at h
  split at h
  · split at h <;> cases h
  · next hexponent =>
    have hsign : (if (bits / 2 ^ 63 % 2 == 1) = true then Nat.pow 2 63 else 0) =
        bits / 2 ^ 63 * 2 ^ 63 := by
      simp only [Nat.pow_eq, beq_iff_eq]
      split <;> omega
    split at h
    · next hzero =>
      obtain ⟨rfl, rfl, rfl⟩ := Magnitude.finite.inj h
      have hbits : bitsOf (bits % 2 ^ 52) (-1074) = bits % 2 ^ 52 := by
        rw [bitsOf, if_pos (by omega)]
      have hsum : bits / 2 ^ 63 * 2 ^ 63 + bits % 2 ^ 52 = bits := by omega
      rw [hsign, hbits, hsum]
      refine ⟨?_, rfl⟩
      rcases Nat.eq_zero_or_pos (bits % 2 ^ 52) with hm | hm
      · exact .inl hm
      · exact .inr ⟨hm, by omega, by omega, by omega, .inl rfl⟩
    · next hzero =>
      obtain ⟨rfl, rfl, rfl⟩ := Magnitude.finite.inj h
      have hbits : bitsOf (bits % 2 ^ 52 + 2 ^ 52) ((bits / 2 ^ 52 % 2048 : ℕ) - 1075) =
          bits / 2 ^ 52 % 2048 * 2 ^ 52 + bits % 2 ^ 52 := by
        rw [bitsOf, if_neg (by omega)]
        omega
      have hsum : bits / 2 ^ 63 * 2 ^ 63 +
          (bits / 2 ^ 52 % 2048 * 2 ^ 52 + bits % 2 ^ 52) = bits := by omega
      rw [hsign, hbits, hsum]
      exact ⟨.inr ⟨by omega, by omega, by omega, by omega, .inr (by omega)⟩, rfl⟩

/-- A decimal that is read is a number, and with a minus in front of it a negative one. -/
theorem readNumber?_of_decimal {d : Digits} (h : readDecimal? cs = some (d, rest))
    (negative : Bool) :
    readNumber? ((if negative then "-" else "").toList ++ cs) =
      some (nearest negative d.digits d.exponent, rest) := by
  cases negative with
  | true => simp [readNumber?, h]
  | false =>
    have hsign : ∀ cs', cs ≠ '-' :: cs' := by
      rintro cs' rfl
      simp [readDecimal?, readDigits?] at h
    rw [if_neg Bool.false_ne_true, String.toList_empty, List.nil_append]
    unfold readNumber?
    split
    · exact absurd rfl (hsign _)
    · rw [h, Option.map_some]

/-- A number starts with a minus or a digit. -/
theorem exists_cons_of_readNumber? (h : readNumber? cs = some (x, rest)) :
    ∃ c cs', cs = c :: cs' ∧ (c = '-' ∨ c.isDigit = true) := by
  unfold readNumber? at h
  split at h
  · exact ⟨_, _, rfl, .inl rfl⟩
  · cases cs with
    | nil => simp [readDecimal?, readDigits?] at h
    | cons c cs =>
      refine ⟨c, cs, rfl, .inr ?_⟩
      by_contra hc
      simp [readDecimal?, readDigits?, List.takeWhile_cons_of_neg hc] at h

/-- The text of a finite number is read as this number. -/
theorem readNumber?_text (hx : isFinite x = true)
    (hsign : style.exponentSign = "" ∨ style.exponentSign = "+") (hrest : EndsNumber rest) :
    readNumber? ((text style x).toList ++ rest) = some (x, rest) := by
  unfold isFinite at hx
  unfold text
  cases hmagnitude : magnitude x with
  | nan => simp [hmagnitude] at hx
  | infinite negative => simp [hmagnitude] at hx
  | finite negative m q =>
    obtain ⟨hnumber, hbits⟩ := eq_ofBits_of_magnitude hmagnitude
    dsimp only
    split
    · next hm =>
      have hzero : readDecimal? ("0.0".toList ++ rest) = some (⟨0, -1⟩, rest) := by
        have hread := readDecimal?_point (List.cons_ne_nil '0' []) (List.cons_ne_nil '0' [])
          (isDigit_of_mem_zeros 1) (isDigit_of_mem_zeros 1) hrest
        exact hread
      have hread := readNumber?_of_decimal hzero negative
      rw [String.toList_append, List.append_assoc, hread, hbits, hm]
      rfl
    · next hm =>
      have hnumber := hnumber.resolve_left hm
      obtain ⟨d, hd, hvalue⟩ := readDecimal?_text (shortest style.tie m q) hsign hrest
      have hcovers := covers_shortest hnumber style.tie
      rw [← hvalue] at hcovers
      rw [String.toList_append, List.append_assoc, readNumber?_of_decimal hd negative,
        nearest_eq_of_covers hnumber hcovers negative, ← hbits]

end TileSchema.Decimal
