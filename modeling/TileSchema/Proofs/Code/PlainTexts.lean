import TileSchema.Code.RowsText
import TileSchema.Decimal.Notation
import TileSchema.Proofs.Code.Items
import TileSchema.Proofs.Filter.Reading

/-!
# Plain texts

A text is plain if the space is the only blank in it.  Whatever breaks lines is another blank, so a
plain text stands on one line wherever it is written.

Nearly everything that is put together in the generated files is plain: names, quoted texts, whose
escapes leave no other blank (`isPlain_of_mem_escape`), the texts of expressions and of numbers, and
descriptions that were put on one line.  What is not is a text of a schema that is written as it is.
-/

namespace TileSchema.Code

open Text (isBlank isNameChar isWordChar)
open TileSchema.Filter (Expression)

variable {cs ds : List Char} {ls : List String} {s t name : String}

/-! ### Plain characters -/

/-- A plain character is no blank other than the space. -/
def isPlain (c : Char) : Bool := !isBlank c || c == ' '

/-- A character of a declared name is no blank. -/
theorem not_isBlank_of_isNameChar {c : Char} (h : isNameChar c = true) : isBlank c = false := by
  have hword : isWordChar c = true → isBlank c = false := by
    intro hc
    have hrange : 48 ≤ c.toNat ∧ c.toNat ≤ 122 := by
      simp only [isWordChar, Char.isAlphanum, Char.isAlpha, Char.isUpper, Char.isLower,
        Char.isDigit, Bool.or_eq_true, Bool.and_eq_true, decide_eq_true_eq,
        UInt32.le_iff_toNat_le, ge_iff_le] at hc
      change ((65 ≤ c.toNat ∧ c.toNat ≤ 90) ∨ 97 ≤ c.toNat ∧ c.toNat ≤ 122) ∨
        48 ≤ c.toNat ∧ c.toNat ≤ 57 at hc
      omega
    simp only [isBlank, Text.inRanges, Text.blankRanges, List.any_cons, List.any_nil,
      Bool.or_false, Bool.or_eq_false_iff, Bool.and_eq_false_iff, decide_eq_false_iff_not]
    omega
  simp only [isNameChar, Bool.or_eq_true, beq_iff_eq] at h
  rcases h with (hc | rfl) | rfl
  · exact hword hc
  · decide
  · decide

theorem isPlain_of_isNameChar {c : Char} (h : isNameChar c = true) : isPlain c = true := by
  rw [isPlain, not_isBlank_of_isNameChar h]
  rfl

theorem isPlain_of_isDigit {c : Char} (h : c.isDigit = true) : isPlain c = true := by
  apply isPlain_of_isNameChar
  apply Text.isNameChar_of_isWordChar
  simp [isWordChar, Char.isAlphanum, h]

/-- A number in one of several ranges is one of finitely many. -/
theorem mem_flatMap_range'_of_inRanges {ranges : List (Nat × Nat)} {n : Nat}
    (h : Text.inRanges ranges n = true) :
    n ∈ ranges.flatMap fun r => List.range' r.1 (r.2 + 1 - r.1) := by
  obtain ⟨r, hr, hn⟩ := List.any_eq_true.mp h
  simp only [Bool.and_eq_true, decide_eq_true_eq] at hn
  refine List.mem_flatMap.mpr ⟨r, hr, List.mem_range'_1.mpr ?_⟩
  omega

/-- Of the blanks, only the space is printable. -/
theorem isPlain_of_isPrintable {c : Char} (h : Text.isPrintable c = true) : isPlain c = true := by
  have hblanks : ∀ n ∈ Text.blankRanges.flatMap fun r => List.range' r.1 (r.2 + 1 - r.1),
      Text.isPrintable (Char.ofNat n) = true → Char.ofNat n = ' ' := by decide +kernel
  rw [isPlain]
  cases hblank : isBlank c with
  | false => rfl
  | true =>
    have hspace := hblanks c.toNat (mem_flatMap_range'_of_inRanges hblank)
    rw [Char.ofNat_toNat] at hspace
    simp [hspace h]

/-- Hexadecimal digits are plain. -/
theorem isPlain_of_mem_hexDigits (n : Nat) : ∀ c ∈ Text.hexDigits n, isPlain c = true := by
  have hdigit : ∀ n < 16, isPlain (Text.hexDigit n) = true := by decide
  induction n using Text.hexDigits.induct with
  | case1 n hn =>
    rw [Text.hexDigits, dif_pos hn, List.forall_mem_singleton]
    exact hdigit n hn
  | case2 n hn ih =>
    rw [Text.hexDigits, dif_neg hn, List.forall_mem_append, List.forall_mem_singleton]
    exact ⟨ih, hdigit _ (Nat.mod_lt n (by decide))⟩

/-- A character by its code point is plain. -/
theorem isPlain_of_mem_escapeCode (c : Char) : ∀ d ∈ Text.escapeCode c, isPlain d = true := by
  rw [Text.escapeCode, List.forall_mem_append, List.forall_mem_singleton]
  simp only [List.forall_mem_cons]
  exact ⟨⟨by decide, by decide, by decide, isPlain_of_mem_hexDigits _⟩, by decide⟩

/-- What a character is written as between quotes is plain: it has a mark, it is written by its code
point, or it is printable. -/
theorem isPlain_of_mem_escape (style : Text.QuoteStyle) (c : Char) :
    ∀ d ∈ Text.escape style c, isPlain d = true := by
  have hmark : ∀ m, isPlain m = true → ∀ d ∈ ['\\', m], isPlain d = true := by
    intro m hm
    rw [List.forall_mem_cons, List.forall_mem_singleton]
    exact ⟨by decide, hm⟩
  fun_cases Text.escape style c with
  | case8 => exact isPlain_of_mem_escapeCode c
  | case9 _ _ _ _ _ _ _ _ hprintable =>
    exact List.forall_mem_singleton.mpr (isPlain_of_isPrintable hprintable)
  | case10 => exact isPlain_of_mem_escapeCode c
  | _ => exact hmark _ (by decide)

/-! ### Plain texts -/

/-- A text is plain if its characters are. -/
def IsPlainText (s : String) : Prop := ∀ c ∈ s.toList, isPlain c = true

theorem isPlainText_ofList (h : cs.all isPlain = true) : IsPlainText (String.ofList cs) := by
  rw [IsPlainText, String.toList_ofList]
  exact List.all_eq_true.mp h

theorem isPlainText_empty : IsPlainText "" := by simp [IsPlainText]

theorem IsPlainText.append (hs : IsPlainText s) (ht : IsPlainText t) : IsPlainText (s ++ t) := by
  rw [IsPlainText, String.toList_append, List.forall_mem_append]
  exact ⟨hs, ht⟩

/-- A plain text may stand between fixed characters. -/
theorem IsPlainText.between (h : IsPlainText s) (hcs : cs.all isPlain = true)
    (hds : ds.all isPlain = true) : IsPlainText (String.ofList cs ++ s ++ String.ofList ds) :=
  ((isPlainText_ofList hcs).append h).append (isPlainText_ofList hds)

/-- A plain text may stand between a plain text and fixed characters. -/
theorem IsPlainText.append_between (hs : IsPlainText s) (ht : IsPlainText t)
    (hds : ds.all isPlain = true) : IsPlainText (s ++ t ++ String.ofList ds) :=
  (hs.append ht).append (isPlainText_ofList hds)

/-- A fixed line in front of others. -/
theorem isPlainText_cons (h : cs.all isPlain = true) (hls : ∀ line ∈ ls, IsPlainText line) :
    ∀ line ∈ String.ofList cs :: ls, IsPlainText line :=
  List.forall_mem_cons.mpr ⟨isPlainText_ofList h, hls⟩

/-- A line with a plain text in it, in front of others. -/
theorem isPlainText_cons_between (h : IsPlainText s) (hcs : cs.all isPlain = true)
    (hds : ds.all isPlain = true) (hls : ∀ line ∈ ls, IsPlainText line) :
    ∀ line ∈ (String.ofList cs ++ s ++ String.ofList ds) :: ls, IsPlainText line :=
  List.forall_mem_cons.mpr ⟨h.between hcs hds, hls⟩

theorem IsName.isPlainText (h : IsName name) : IsPlainText name :=
  fun c hc => isPlain_of_isNameChar (h c hc)

/-- A text is plain between quotes, whatever it holds. -/
theorem isPlain_of_mem_quotedChars (s : String) :
    ∀ c ∈ Expression.quotedChars s, isPlain c = true := by
  have hbody : ∀ d ∈ s.toList.flatMap (Text.escape Text.textStyle), isPlain d = true :=
    List.forall_mem_flatMap.mpr fun c _ => isPlain_of_mem_escape Text.textStyle c
  rw [Expression.quotedChars, Text.quoteChars, List.cons_append, List.forall_mem_cons,
    List.forall_mem_append, List.forall_mem_singleton]
  exact ⟨by decide, hbody, by decide⟩

theorem isPlainText_quote (s : String) : IsPlainText (Text.quote s) := by
  rw [IsPlainText, Expression.toList_quote]
  exact isPlain_of_mem_quotedChars s

/-- Plain texts stay plain in a list. -/
theorem isPlain_of_mem_listChars {ts : List (List Char)} (h : ∀ t ∈ ts, ∀ c ∈ t, isPlain c = true) :
    ∀ c ∈ Expression.listChars ts, isPlain c = true := by
  have hjoined : ∀ c ∈ Expression.commaJoin ts, isPlain c = true := by
    fun_induction Expression.commaJoin ts with
    | case1 => exact List.forall_mem_nil _
    | case2 t => exact List.forall_mem_singleton.mp h
    | case3 t ts _ ih =>
      obtain ⟨ht, hts⟩ := List.forall_mem_cons.mp h
      rw [List.forall_mem_append, List.forall_mem_cons, List.forall_mem_cons]
      exact ⟨ht, by decide, by decide, ih hts⟩
  rw [Expression.listChars, List.forall_mem_cons, List.forall_mem_append, List.forall_mem_singleton]
  exact ⟨by decide, hjoined, by decide⟩

theorem isPlainText_quoteList (texts : List String) : IsPlainText (Text.quoteList texts) := by
  have hlist : Text.quoteList texts = Expression.listText (texts.map Text.quote) := rfl
  rw [IsPlainText, hlist, Expression.toList_listText, List.map_map]
  apply isPlain_of_mem_listChars
  exact List.forall_mem_map.mpr fun s _ => isPlainText_quote s

/-- A call is plain if its word and its arguments are. -/
theorem isPlain_of_mem_callChars {word : String} (hword : IsPlainText word)
    (hcs : ∀ c ∈ cs, isPlain c = true) : ∀ c ∈ Expression.callChars word cs, isPlain c = true := by
  rw [Expression.callChars, List.forall_mem_append, List.forall_mem_cons, List.forall_mem_append,
    List.forall_mem_singleton]
  exact ⟨hword, by decide, hcs, by decide⟩

/-- The text of an expression is plain: it is made of words, brackets and quoted texts. -/
theorem isPlainText_text (e : Expression) : IsPlainText e.text := by
  rw [IsPlainText, Expression.toList_text]
  induction e with
  | group op es ih =>
    have hword : IsPlainText op.word := by
      cases op
      · exact isPlainText_ofList (by decide)
      · exact isPlainText_ofList (by decide)
    rw [Expression.chars, Expression.membersChars_eq_map]
    apply isPlain_of_mem_callChars hword
    apply isPlain_of_mem_listChars
    exact List.forall_mem_map.mpr ih
  | not e ih => exact isPlain_of_mem_callChars (isPlainText_ofList (by decide)) ih
  | matchField key =>
    exact isPlain_of_mem_callChars (isPlainText_ofList (by decide)) (isPlain_of_mem_quotedChars key)
  | matchAny key values =>
    have hvalues : ∀ c ∈ Expression.listChars (values.toList.map Expression.quotedChars),
        isPlain c = true :=
      isPlain_of_mem_listChars (List.forall_mem_map.mpr fun v _ => isPlain_of_mem_quotedChars v)
    apply isPlain_of_mem_callChars (isPlainText_ofList (by decide))
    rw [List.forall_mem_append, List.forall_mem_cons, List.forall_mem_cons]
    exact ⟨isPlain_of_mem_quotedChars key, by decide, by decide, hvalues⟩
  | matchType kind =>
    exact isPlain_of_mem_callChars (isPlainText_ofList (by decide)) (isPlain_of_mem_quotedChars kind)

/-! ### Texts on one line -/

/-- Words hold no blanks. -/
theorem not_isBlank_of_mem_wordsOf {word w : List Char} (hword : ∀ c ∈ word, isBlank c = false)
    (hw : w ∈ Text.wordsOf word cs) : ∀ c ∈ w, isBlank c = false := by
  have hreverse : ∀ c ∈ word.reverse, isBlank c = false :=
    fun c hc => hword c (List.mem_reverse.mp hc)
  induction cs generalizing word with
  | nil =>
    rw [Text.wordsOf] at hw
    split at hw
    · cases hw
    · rwa [List.mem_singleton.mp hw]
  | cons c cs ih =>
    rw [Text.wordsOf] at hw
    split at hw
    · -- a blank ends the word
      split at hw
      · exact ih (List.forall_mem_nil _) hw (List.forall_mem_nil _)
      · rcases List.mem_cons.mp hw with rfl | hmem
        · exact hreverse
        · exact ih (List.forall_mem_nil _) hmem (List.forall_mem_nil _)
    · next hc =>
      have hlonger : ∀ d ∈ c :: word, isBlank d = false :=
        List.forall_mem_cons.mpr ⟨Bool.eq_false_iff.mpr hc, hword⟩
      exact ih hlonger hw fun d hd => hlonger d (List.mem_reverse.mp hd)

/-- A text on one line is plain, as its words are joined by spaces. -/
theorem isPlainText_oneLine (s : String) : IsPlainText (Text.oneLine s) := by
  have hwords : ∀ w ∈ Text.words s, IsPlainText w := by
    intro w hw
    obtain ⟨cs, hcs, rfl⟩ := List.mem_map.mp hw
    rw [IsPlainText, String.toList_ofList]
    intro c hc
    rw [isPlain, not_isBlank_of_mem_wordsOf (List.forall_mem_nil _) hcs c hc]
    rfl
  unfold Text.oneLine
  generalize Text.words s = ws at hwords ⊢
  induction ws with
  | nil => exact isPlainText_empty
  | cons w ws ih =>
    obtain ⟨hw, hws⟩ := List.forall_mem_cons.mp hwords
    cases ws with
    | nil => rwa [String.intercalate_singleton]
    | cons w' ws =>
      rw [String.intercalate_cons_cons]
      exact (hw.append (isPlainText_ofList (by decide))).append (ih hws)

/-! ### Numbers -/

/-- Digits, a point and an exponent are plain. -/
theorem isPlainText_digits {style : Decimal.NumberStyle} (hsign : IsPlainText style.exponentSign)
    (d : Decimal.Digits) : IsPlainText (d.text style) := by
  have hdigits : ∀ n, ∀ c ∈ Nat.toDigits 10 n, isPlain c = true :=
    fun n c hc => isPlain_of_isDigit (Nat.isDigit_of_mem_toDigits (by decide) (by decide) hc)
  have hzeros : ∀ n, IsPlainText (Decimal.zeros n) := by
    intro n
    refine isPlainText_ofList (List.all_eq_true.mpr fun c hc => ?_)
    rw [List.eq_of_mem_replicate hc]
    decide
  have hrun : ∀ {ds : List Char}, (∀ c ∈ ds, isPlain c = true) → IsPlainText (String.ofList ds) :=
    fun h => isPlainText_ofList (List.all_eq_true.mpr h)
  unfold Decimal.Digits.text
  generalize Decimal.dropZeros 20 d.digits d.exponent = d
  have hds := hdigits d.digits
  dsimp only
  generalize Nat.toDigits 10 d.digits = ds at hds ⊢
  have htake : ∀ n, ∀ c ∈ ds.take n, isPlain c = true := fun n c hc => hds c (List.mem_of_mem_take hc)
  have hdrop : ∀ n, ∀ c ∈ ds.drop n, isPlain c = true := fun n c hc => hds c (List.mem_of_mem_drop hc)
  have hpoint : IsPlainText "." := isPlainText_ofList (by decide)
  split
  · unfold Decimal.positional
    dsimp only
    split
    · exact ((isPlainText_ofList (by decide)).append (hzeros _)).append (hrun hds)
    · split
      · exact ((hrun hds).append (hzeros _)).append (isPlainText_ofList (by decide))
      · exact ((hrun (htake _)).append hpoint).append (hrun (hdrop _))
  · unfold Decimal.scientific
    dsimp only
    have hexponent : ∀ k : Nat, IsPlainText (toString k) := by
      intro k
      have hrepr : toString k = String.ofList (Nat.toDigits 10 k) := rfl
      rw [hrepr]
      exact hrun (hdigits k)
    refine ((((hrun (htake 1)).append ?_).append (isPlainText_ofList (by decide))).append
      ?_).append (hexponent _)
    · split
      · exact isPlainText_empty
      · exact hpoint.append (hrun (hdrop 1))
    · split
      · exact isPlainText_ofList (by decide)
      · exact hsign

/-- A number is plain as generated code has it. -/
theorem isPlainText_number (x : Float) : IsPlainText (Decimal.text Decimal.codeStyle x) := by
  have hminus : ∀ b : Bool, IsPlainText (if b then "-" else "") := by
    intro b
    cases b
    · exact isPlainText_empty
    · exact isPlainText_ofList (by decide)
  unfold Decimal.text
  split
  · exact isPlainText_ofList (by decide)
  · split
    · exact (isPlainText_ofList (by decide)).append (isPlainText_ofList (by decide))
    · exact isPlainText_ofList (by decide)
  · dsimp only
    split
    · exact (hminus _).append (isPlainText_ofList (by decide))
    · exact (hminus _).append (isPlainText_digits isPlainText_empty _)

end TileSchema.Code
