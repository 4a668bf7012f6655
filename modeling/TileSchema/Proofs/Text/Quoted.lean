import TileSchema.Text.Quoted

/-!
# Reading quoted text

A quoted text is read from its first quote to its last, and what follows is left alone.  Inside, a
backslash opens an escape: a letter or a mark for one character, or a code point in hexadecimal
digits between braces.  The reader goes through the characters one by one and remembers where in an
escape it is.

`readQuoted_quoteChars` says that reading gives back what was quoted, whatever the text, the style
and the characters behind it.  So quoted texts can stand in a row or in a list, and may hold the
marks that separate them.
-/

namespace TileSchema.Text

variable {style : QuoteStyle} {c : Char} {n : Nat} {rest : List Char}

/-! ### Runs of characters -/

section
variable {p : Char → Bool} {run : List Char}

/-- Characters of a kind are taken as far as they go. -/
theorem takeWhile_run (hrun : ∀ c ∈ run, p c = true) (hrest : ∀ c ∈ rest.head?, p c = false) :
    (run ++ rest).takeWhile p = run := by
  have hnone : rest.takeWhile p = [] := by
    cases rest with
    | nil => rfl
    | cons c rest => exact List.takeWhile_cons_of_neg (Bool.eq_false_iff.mp (hrest c rfl))
  rw [List.takeWhile_append_of_pos hrun, hnone, List.append_nil]

/-- What is left behind characters of a kind is what follows them. -/
theorem dropWhile_run (hrun : ∀ c ∈ run, p c = true) (hrest : ∀ c ∈ rest.head?, p c = false) :
    (run ++ rest).dropWhile p = rest := by
  rw [List.dropWhile_append_of_pos hrun]
  cases rest with
  | nil => rfl
  | cons c rest => exact List.dropWhile_cons_of_neg (Bool.eq_false_iff.mp (hrest c rfl))

end

/-! ### The reader -/

/-- The value of a hexadecimal digit. -/
def hexValue? (c : Char) : Option Nat :=
  if '0' ≤ c ∧ c ≤ '9' then some (c.toNat - 48)
  else if 'a' ≤ c ∧ c ≤ 'f' then some (c.toNat - 87)
  else if 'A' ≤ c ∧ c ≤ 'F' then some (c.toNat - 55)
  else none

/-- The character that a letter or a mark stands for behind a backslash. -/
def unescape? (c : Char) : Option Char :=
  if c = '0' then some '\x00'
  else if c = 't' then some '\t'
  else if c = 'r' then some '\r'
  else if c = 'n' then some '\n'
  else if c = '\\' ∨ c = '"' ∨ c = '\'' then some c
  else none

/-- Where the reader of a quoted text is. -/
inductive Place where
  /-- Between two characters. -/
  | between
  /-- Behind a backslash. -/
  | escape
  /-- Before the brace that opens a code point. -/
  | opening
  /-- Among the digits of a code point, those read so far giving a number. -/
  | code (n : Nat)

/-- The characters up to the last quote, and those behind it. -/
def readBody : Place → List Char → Option (List Char × List Char)
  | _, [] => none
  | .between, c :: cs =>
    if c = '"' then some ([], cs)
    else if c = '\\' then readBody .escape cs
    else (readBody .between cs).map (Prod.map (c :: ·) id)
  | .escape, c :: cs =>
    if c = 'u' then readBody .opening cs
    else match unescape? c with
      | some d => (readBody .between cs).map (Prod.map (d :: ·) id)
      | none => none
  | .opening, c :: cs => if c = '\x7b' then readBody (.code 0) cs else none
  | .code n, c :: cs =>
    if c = '\x7d' then
      if n.isValidChar then (readBody .between cs).map (Prod.map (Char.ofNat n :: ·) id) else none
    else match hexValue? c with
      | some d => readBody (.code (n * 16 + d)) cs
      | none => none

/-- The text in the quotes at the front of characters, and the characters behind it. -/
def readQuoted : List Char → Option (List Char × List Char)
  | '"' :: cs => readBody .between cs
  | _ => none

/-! ### Code points -/

/-- A digit has the value that it was written for. -/
theorem hexValue?_hexDigit : ∀ n < 16, hexValue? (hexDigit n) = some n := by decide

/-- A digit is read as the last one of a number. -/
theorem readBody_hexDigit (a : Nat) (hn : n < 16) :
    readBody (.code a) (hexDigit n :: rest) = readBody (.code (a * 16 + n)) rest := by
  have hvalue : hexValue? (hexDigit n) = some n := hexValue?_hexDigit n hn
  have hbrace : hexDigit n ≠ '\x7d' := by
    intro h
    have hnone : hexValue? '\x7d' = none := by decide
    rw [h, hnone] at hvalue
    cases hvalue
  rw [readBody, if_neg hbrace, hvalue]

/-- The digits of a number are read as this number. -/
theorem readBody_hexDigits (n : Nat) :
    readBody (.code 0) (hexDigits n ++ rest) = readBody (.code n) rest := by
  induction n using hexDigits.induct generalizing rest with
  | case1 n hn =>
    rw [hexDigits, dif_pos hn, List.singleton_append, readBody_hexDigit 0 hn, Nat.zero_mul,
      Nat.zero_add]
  | case2 n hn ih =>
    have hdigit : n % 16 < 16 := Nat.mod_lt n (by decide)
    rw [hexDigits, dif_neg hn, List.append_assoc, ih, List.singleton_append,
      readBody_hexDigit _ hdigit, Nat.div_add_mod']

/-- A character written by its code point is read as this character. -/
theorem readBody_escapeCode (c : Char) :
    readBody .between (escapeCode c ++ rest) =
      (readBody .between rest).map (Prod.map (c :: ·) id) := by
  have hopen : readBody .between (escapeCode c ++ rest) =
      readBody (.code 0) (hexDigits c.toNat ++ '\x7d' :: rest) := by
    simp [escapeCode, readBody]
  have hvalid : c.toNat.isValidChar := c.valid
  rw [hopen, readBody_hexDigits, readBody, if_pos rfl, if_pos hvalid, Char.ofNat_toNat]

/-! ### Quoted texts -/

/-- A character is written behind a backslash as a letter or a mark that stands for it, by its code
point, or as it is. -/
theorem escape_cases (style : QuoteStyle) (c : Char) :
    (∃ m, m ≠ 'u' ∧ unescape? m = some c ∧ escape style c = ['\\', m]) ∨
      escape style c = escapeCode c ∨ (c ≠ '"' ∧ c ≠ '\\' ∧ escape style c = [c]) := by
  fun_cases escape style c with
  | case1 hc => exact Or.inl ⟨'0', by decide, congrArg some hc.symm, rfl⟩
  | case2 _ hc => exact Or.inl ⟨'t', by decide, congrArg some hc.symm, rfl⟩
  | case3 _ _ hc => exact Or.inl ⟨'r', by decide, congrArg some hc.symm, rfl⟩
  | case4 _ _ _ hc => exact Or.inl ⟨'n', by decide, congrArg some hc.symm, rfl⟩
  | case5 _ _ _ _ hc => exact Or.inl ⟨'\\', by decide, congrArg some hc.symm, rfl⟩
  | case6 _ _ _ _ _ hc => exact Or.inl ⟨'"', by decide, congrArg some hc.symm, rfl⟩
  | case7 _ _ _ _ _ _ h =>
    obtain ⟨hc, -⟩ : c = '\'' ∧ style.escapesSingleQuote = true := by simpa using h
    exact Or.inl ⟨'\'', by decide, congrArg some hc.symm, rfl⟩
  | case8 => exact Or.inr (Or.inl rfl)
  | case9 _ _ _ _ hbackslash hquote => exact Or.inr (Or.inr ⟨hquote, hbackslash, rfl⟩)
  | case10 => exact Or.inr (Or.inl rfl)

/-- A character between the quotes is read as this character. -/
theorem readBody_escape (style : QuoteStyle) (c : Char) :
    readBody .between (escape style c ++ rest) =
      (readBody .between rest).map (Prod.map (c :: ·) id) := by
  obtain ⟨m, hm, hc, heq⟩ | heq | ⟨hquote, hbackslash, heq⟩ := escape_cases style c
  · simp [heq, readBody, hm, hc]
  · rw [heq, readBody_escapeCode]
  · rw [heq, List.singleton_append, readBody, if_neg hquote, if_neg hbackslash]

/-- Reading a quoted text gives back the text, and leaves what stands behind it. -/
theorem readQuoted_quoteChars (style : QuoteStyle) (cs rest : List Char) :
    readQuoted (quoteChars style cs ++ rest) = some (cs, rest) := by
  have hbody : readBody .between (cs.flatMap (escape style) ++ '"' :: rest) = some (cs, rest) := by
    induction cs with
    | nil => rfl
    | cons c cs ih =>
      rw [List.flatMap_cons, List.append_assoc, readBody_escape, ih]
      rfl
  simpa [quoteChars, readQuoted] using hbody

end TileSchema.Text
