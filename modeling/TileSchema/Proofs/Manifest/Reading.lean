import TileSchema.Manifest.Json
import TileSchema.Proofs.Decimal.Reading

/-!
# JSON documents read back

A document is read from its text by recursive descent, with blanks allowed between all its parts.
Every call reads at least one character, so the length of the text bounds the depth of the calls.

The text of a document is read as this document, whatever follows it (`reads_textAt`).  Arrays
and objects are one case there, a series between brackets (`readBracketed?_bracketed`).  The numbers
in a document have to be finite, as others have no text of their own.
-/

namespace TileSchema.Manifest.Json

open Decimal (EndsNumber exists_cons_of_readNumber? isFinite readNumber?)

variable {α : Type} {bs cs rest : List Char} {level fuel : ℕ}

/-! ### Strings -/

/-- The value of a hexadecimal digit. -/
def hexValue? (c : Char) : Option ℕ :=
  if c.isDigit then some (c.toNat - 48)
  else if 'a' ≤ c ∧ c ≤ 'f' then some (c.toNat - 87)
  else if 'A' ≤ c ∧ c ≤ 'F' then some (c.toNat - 55)
  else none

/-- The character with four hexadecimal digits. -/
def codeEscape? (c₁ c₂ c₃ c₄ : Char) : Option Char := do
  let n₁ ← hexValue? c₁
  let n₂ ← hexValue? c₂
  let n₃ ← hexValue? c₃
  let n₄ ← hexValue? c₄
  let n := ((n₁ * 16 + n₂) * 16 + n₃) * 16 + n₄
  if n.isValidChar then some (Char.ofNat n) else none

/-- The character that is written as another one behind a backslash. -/
def namedEscape? : Char → Option Char
  | '"' => some '"'
  | '\\' => some '\\'
  | '/' => some '/'
  | 'b' => some '\x08'
  | 'f' => some '\x0c'
  | 'n' => some '\n'
  | 'r' => some '\r'
  | 't' => some '\t'
  | _ => none

/-- The characters of a string behind its first quote, and what follows its last one. -/
def readChars? : List Char → Option (List Char × List Char)
  | [] => none
  | '\\' :: 'u' :: c₁ :: c₂ :: c₃ :: c₄ :: cs => do
    let c ← codeEscape? c₁ c₂ c₃ c₄
    (readChars? cs).map (Prod.map (c :: ·) id)
  | '\\' :: e :: cs => do
    let c ← namedEscape? e
    (readChars? cs).map (Prod.map (c :: ·) id)
  | c :: cs =>
    if c = '"' then some ([], cs)
    else if c = '\\' ∨ c.toNat < 0x20 then none
    else (readChars? cs).map (Prod.map (c :: ·) id)

theorem readChars?_named {e c : Char} (he : e ≠ 'u') (hc : namedEscape? e = some c)
    (rest : List Char) :
    readChars? ('\\' :: e :: rest) = (readChars? rest).map (Prod.map (c :: ·) id) := by
  rw [readChars?, hc]
  · rfl
  · rintro - - - - - rfl
    exact absurd rfl he

/-- A character is written behind a backslash by the letter or mark that names it, by its code if it
is a control character, or as it is. -/
theorem escape_cases (c : Char) :
    (∃ e, e ≠ 'u' ∧ namedEscape? e = some c ∧ escape c = ['\\', e]) ∨
      (c.toNat < 0x20 ∧ escape c =
        ['\\', 'u', '0', '0', hexDigit (c.toNat / 16), hexDigit (c.toNat % 16)]) ∨
      (c ≠ '"' ∧ c ≠ '\\' ∧ ¬ c.toNat < 0x20 ∧ escape c = [c]) := by
  fun_cases escape c with
  | case1 hc => exact Or.inl ⟨'"', by decide, congrArg some hc.symm, rfl⟩
  | case2 _ hc => exact Or.inl ⟨'\\', by decide, congrArg some hc.symm, rfl⟩
  | case3 _ _ hc => exact Or.inl ⟨'b', by decide, congrArg some hc.symm, rfl⟩
  | case4 _ _ _ hc => exact Or.inl ⟨'f', by decide, congrArg some hc.symm, rfl⟩
  | case5 _ _ _ _ hc => exact Or.inl ⟨'n', by decide, congrArg some hc.symm, rfl⟩
  | case6 _ _ _ _ _ hc => exact Or.inl ⟨'r', by decide, congrArg some hc.symm, rfl⟩
  | case7 _ _ _ _ _ _ hc => exact Or.inl ⟨'t', by decide, congrArg some hc.symm, rfl⟩
  | case8 _ _ _ _ _ _ _ hcontrol => exact Or.inr (Or.inl ⟨hcontrol, rfl⟩)
  | case9 hquote hbackslash _ _ _ _ _ hcontrol =>
    exact Or.inr (Or.inr ⟨hquote, hbackslash, hcontrol, rfl⟩)

/-- The code of a control character stands for it. -/
theorem codeEscape?_control {c : Char} (h : c.toNat < 0x20) :
    codeEscape? '0' '0' (hexDigit (c.toNat / 16)) (hexDigit (c.toNat % 16)) = some c := by
  have hcode : ∀ n < 32, codeEscape? '0' '0' (hexDigit (n / 16)) (hexDigit (n % 16)) =
      some (Char.ofNat n) := by decide
  rw [hcode c.toNat h, Char.ofNat_toNat]

/-- A character is read as it stands in a string. -/
theorem readChars?_escape (c : Char) (rest : List Char) :
    readChars? (escape c ++ rest) = (readChars? rest).map (Prod.map (c :: ·) id) := by
  obtain ⟨e, he, hc, heq⟩ | ⟨hcontrol, heq⟩ | ⟨hquote, hbackslash, hcontrol, heq⟩ := escape_cases c
  · rw [heq]
    exact readChars?_named he hc rest
  · simp [heq, readChars?, codeEscape?_control hcontrol]
  · rw [heq, List.singleton_append, readChars?, if_neg hquote,
      if_neg (by simp [hbackslash, hcontrol])]
    all_goals simp [hbackslash]

/-- The string that a document quotes is read. -/
theorem readChars?_flatMap_escape (cs rest : List Char) :
    readChars? (cs.flatMap escape ++ '"' :: rest) = some (cs, rest) := by
  induction cs with
  | nil => simp [readChars?]
  | cons c cs ih =>
    rw [List.flatMap_cons, List.append_assoc, readChars?_escape, ih]
    rfl

theorem toList_quote (s : String) :
    (quote s).toList = '"' :: (s.toList.flatMap escape ++ ['"']) := by
  simp [quote]

/-! ### Documents -/

/-- A character that may stand between the parts of a document. -/
def isBlank (c : Char) : Bool := c = ' ' || c = '\n' || c = '\r' || c = '\t'

/-- A text without the blanks at its start. -/
def skipBlanks (cs : List Char) : List Char := cs.dropWhile isBlank

/-- The elements of an array or an object, up to its closing bracket. -/
def readSeries? (close : Char) (readOne : List Char → Option (α × List Char)) :
    ℕ → List Char → Option (List α × List Char)
  | 0, _ => none
  | fuel + 1, cs => do
    let (x, cs) ← readOne cs
    match skipBlanks cs with
    | [] => none
    | c :: cs =>
      if c = ',' then (readSeries? close readOne fuel cs).map (Prod.map (x :: ·) id)
      else if c = close then some ([x], cs)
      else none

/-- An array or an object behind its opening bracket: nothing at all, or its elements. -/
def readBracketed? (close : Char) (readOne : List Char → Option (α × List Char)) (fuel : ℕ)
    (cs : List Char) : Option (List α × List Char) :=
  match skipBlanks cs with
  | [] => none
  | c :: cs => if c = close then some ([], cs) else readSeries? close readOne fuel (c :: cs)

/-- The name of a member with the colon behind it. -/
def readName? (cs : List Char) : Option (String × List Char) :=
  match skipBlanks cs with
  | '"' :: cs => do
    let (name, cs) ← readChars? cs
    match skipBlanks cs with
    | ':' :: cs => some (String.ofList name, cs)
    | _ => none
  | _ => none

/-- The member of an object at the start of a text. -/
def readMember? (readOne : List Char → Option (Json × List Char)) (cs : List Char) :
    Option ((String × Json) × List Char) := do
  let (name, cs) ← readName? cs
  let (value, cs) ← readOne cs
  some ((name, value), cs)

/-- The document at the start of a text that has no blanks there. -/
def readForm? (readOne : List Char → Option (Json × List Char)) (fuel : ℕ) :
    List Char → Option (Json × List Char)
  | '"' :: cs => (readChars? cs).map (Prod.map (fun s => .string (String.ofList s)) id)
  | '[' :: cs => (readBracketed? ']' readOne fuel cs).map (Prod.map .array id)
  | '\x7b' :: cs => (readBracketed? '\x7d' (readMember? readOne) fuel cs).map (Prod.map .object id)
  | 'n' :: 'u' :: 'l' :: 'l' :: cs => some (.null, cs)
  | cs => (readNumber? cs).map (Prod.map .number id)

/-- The document at the start of a text, and what follows it. -/
def readValue? : ℕ → List Char → Option (Json × List Char)
  | 0, _ => none
  | fuel + 1, cs => readForm? (readValue? fuel) fuel (skipBlanks cs)

/-- The document that a text is, with nothing but blanks behind it. -/
def read? (s : String) : Option Json := do
  let (j, cs) ← readValue? s.toList.length s.toList
  if (skipBlanks cs).isEmpty then some j else none

/-- All numbers in a document are finite. -/
inductive HasNumbers : Json → Prop
  | null : HasNumbers .null
  | number {x : Float} (h : isFinite x = true) : HasNumbers (.number x)
  | string (s : String) : HasNumbers (.string s)
  | array {items : List Json} (h : ∀ j ∈ items, HasNumbers j) : HasNumbers (.array items)
  | object {members : List (String × Json)} (h : ∀ m ∈ members, HasNumbers m.2) :
    HasNumbers (.object members)

attribute [simp] HasNumbers.null HasNumbers.string

@[simp] theorem hasNumbers_array {items : List Json} :
    (Json.array items).HasNumbers ↔ ∀ j ∈ items, j.HasNumbers :=
  ⟨fun | .array h => h, .array⟩

@[simp] theorem hasNumbers_object {members : List (String × Json)} :
    (Json.object members).HasNumbers ↔ ∀ m ∈ members, m.2.HasNumbers :=
  ⟨fun | .object h => h, .object⟩

/-! ### Texts of documents -/

theorem isBlank_of_mem_newline (level : ℕ) : ∀ c ∈ (newline level).toList, isBlank c = true := by
  have hspaces : ∀ c ∈ List.replicate (2 * level) ' ', isBlank c = true := by
    intro c hc
    rw [List.eq_of_mem_replicate hc]
    decide
  rw [newline, String.toList_ofList, List.forall_mem_cons]
  exact ⟨by decide, hspaces⟩

theorem isBlank_of_isDigit {c : Char} (h : c.isDigit = true) : isBlank c = false := by
  refine Bool.eq_false_iff.mpr fun hblank => ?_
  simp only [isBlank, Bool.or_eq_true, decide_eq_true_eq] at hblank
  rcases hblank with ((rfl | rfl) | rfl) | rfl <;> exact absurd h (by decide)

theorem skipBlanks_cons {c : Char} (hc : isBlank c = false) (cs : List Char) :
    skipBlanks (c :: cs) = c :: cs :=
  List.dropWhile_cons_of_neg (by simp [hc])

theorem skipBlanks_append (h : ∀ c ∈ bs, isBlank c = true) (cs : List Char) :
    skipBlanks (bs ++ cs) = skipBlanks cs :=
  List.dropWhile_append_of_pos h

theorem endsNumber_newline (level : ℕ) (cs : List Char) :
    EndsNumber ((newline level).toList ++ cs) := by
  simp [EndsNumber, newline]

theorem endsNumber_comma (cs : List Char) : EndsNumber (',' :: cs) := by simp [EndsNumber]

/-- The text of a member. -/
def memberText (level : ℕ) (m : String × Json) : String :=
  quote m.1 ++ ": " ++ textAt level m.2

theorem itemTexts_eq_map (level : ℕ) (items : List Json) :
    itemTexts level items = items.map (textAt level) := by
  induction items with
  | nil => rw [itemTexts, List.map_nil]
  | cons item items ih => rw [itemTexts, ih, List.map_cons]

theorem memberTexts_eq_map (level : ℕ) (members : List (String × Json)) :
    memberTexts level members = members.map (memberText level) := by
  induction members with
  | nil => rw [memberTexts, List.map_nil]
  | cons m members ih => rw [memberTexts, ih, List.map_cons, memberText]

/-- The elements of a series, one on each line. -/
def joined (level : ℕ) (texts : List String) : List Char :=
  (("," ++ newline level).intercalate texts).toList

theorem joined_singleton (level : ℕ) (t : String) : joined level [t] = t.toList := by
  rw [joined, String.intercalate_singleton]

theorem joined_cons (level : ℕ) (t : String) {texts : List String} (h : texts ≠ []) :
    joined level (t :: texts) =
      t.toList ++ ',' :: ((newline level).toList ++ joined level texts) := by
  rw [joined, String.intercalate_cons_of_ne_nil h]
  simp [joined]

theorem length_add_length_le_joined (level : ℕ) {texts : List String} :
    ∀ t ∈ texts, t.toList.length + texts.length ≤ (joined level texts).length + 1 := by
  induction texts with
  | nil => simp
  | cons t texts ih =>
    by_cases htexts : texts = []
    · simp [htexts, joined_singleton]
    · rw [joined_cons level t htexts, List.forall_mem_cons]
      simp only [List.length_append, List.length_cons]
      obtain ⟨u, hu⟩ := List.exists_mem_of_ne_nil texts htexts
      have hlast := ih u hu
      exact ⟨by omega, fun u hu => by have := ih u hu; omega⟩

/-- A series between brackets, with blanks around its elements. -/
theorem toList_bracketed (level : ℕ) (left close : Char) {texts : List String} (h : texts ≠ []) :
    (bracketed level (String.singleton left) (String.singleton close) texts).toList =
      left :: ((newline (level + 1)).toList ++
        (joined (level + 1) texts ++ ((newline level).toList ++ [close]))) := by
  have hempty : texts.isEmpty = false := by simpa using h
  simp [bracketed, hempty, joined]

/-- The elements of a series are shorter than the whole, and there are not more of them. -/
theorem length_le_of_bracketed {left close : Char} {text : α → String} {xs : List α}
    (h : (bracketed level (String.singleton left) (String.singleton close)
      (xs.map text)).toList.length ≤ fuel + 1) :
    xs.length ≤ fuel ∧ ∀ x ∈ xs, (text x).toList.length ≤ fuel := by
  have hsum : ∀ x ∈ xs, (text x).toList.length + xs.length ≤ fuel := by
    intro x hx
    have hmem := List.mem_map_of_mem (f := text) hx
    have hjoined := length_add_length_le_joined (level + 1) _ hmem
    rw [toList_bracketed level left close (List.ne_nil_of_mem hmem)] at h
    simp only [List.length_cons, List.length_append, List.length_nil, List.length_map] at h hjoined
    omega
  refine ⟨?_, fun x hx => (Nat.le_add_right _ _).trans (hsum x hx)⟩
  by_cases hxs : xs = []
  · simp [hxs]
  · obtain ⟨x, hx⟩ := List.exists_mem_of_ne_nil xs hxs
    exact (Nat.le_add_left _ _).trans (hsum x hx)

theorem textAt_array (level : ℕ) (items : List Json) :
    textAt level (.array items) = bracketed level (String.singleton '[') (String.singleton ']')
      (items.map (textAt (level + 1))) := by
  rw [textAt, itemTexts_eq_map]
  rfl

theorem textAt_object (level : ℕ) (members : List (String × Json)) :
    textAt level (.object members) = bracketed level (String.singleton '\x7b')
      (String.singleton '\x7d') (members.map (memberText (level + 1))) := by
  rw [textAt, memberTexts_eq_map]
  rfl

/-! ### Reading a series -/

/-- A reader reads a text as `x`, with blanks in front of it, and anything behind it that does not
go on with a number. -/
def Reads (readOne : List Char → Option (α × List Char)) (text : String) (x : α) : Prop :=
  ∀ bs, (∀ c ∈ bs, isBlank c = true) → ∀ rest, EndsNumber rest →
    readOne (bs ++ (text.toList ++ rest)) = some (x, rest)

theorem readSeries?_last {close : Char} {readOne : List Char → Option (α × List Char)} {x : α}
    {cs₁ : List Char} (h : readOne cs = some (x, cs₁)) (hskip : skipBlanks cs₁ = close :: rest)
    (hclose : close ≠ ',') : readSeries? close readOne (fuel + 1) cs = some ([x], rest) := by
  rw [readSeries?, h, Option.bind_eq_bind, Option.bind_some]
  simp only [hskip, if_neg hclose, if_true]

theorem readSeries?_more {close : Char} {readOne : List Char → Option (α × List Char)} {x : α}
    {xs : List α} {cs₁ cs₂ : List Char} (h : readOne cs = some (x, cs₁))
    (hskip : skipBlanks cs₁ = ',' :: cs₂)
    (hmore : readSeries? close readOne fuel cs₂ = some (xs, rest)) :
    readSeries? close readOne (fuel + 1) cs = some (x :: xs, rest) := by
  rw [readSeries?, h, Option.bind_eq_bind, Option.bind_some]
  simp only [hskip, if_true, hmore]
  rfl

section

variable {close : Char} {readOne : List Char → Option (α × List Char)} {text : α → String}
  {xs : List α}

/-- A series is read if all its elements are. -/
theorem readSeries?_joined (hblank : isBlank close = false) (hcomma : close ≠ ',')
    (hread : ∀ x ∈ xs, Reads readOne (text x) x) (hne : xs ≠ []) (hfuel : xs.length ≤ fuel)
    (hbs : ∀ c ∈ bs, isBlank c = true) (level outer : ℕ) (rest : List Char) :
    readSeries? close readOne fuel (bs ++ (joined level (xs.map text) ++
      ((newline outer).toList ++ close :: rest))) = some (xs, rest) := by
  induction xs generalizing bs fuel with
  | nil => exact absurd rfl hne
  | cons x xs ih =>
    obtain ⟨fuel, rfl⟩ : ∃ n, fuel = n + 1 := ⟨fuel - 1, by simp at hfuel; omega⟩
    rw [List.forall_mem_cons] at hread
    by_cases hxs : xs = []
    · subst hxs
      rw [List.map_singleton, joined_singleton]
      refine readSeries?_last (hread.1 bs hbs _ (endsNumber_newline outer _)) ?_ hcomma
      rw [skipBlanks_append (isBlank_of_mem_newline outer), skipBlanks_cons hblank]
    · have htexts : xs.map text ≠ [] := by simpa using hxs
      rw [List.map_cons, joined_cons level _ htexts, List.append_assoc, List.cons_append,
        List.append_assoc]
      refine readSeries?_more (hread.1 bs hbs _ (endsNumber_comma _))
        (skipBlanks_cons (by decide) _) ?_
      exact ih hread.2 hxs (by simp at hfuel; omega) (isBlank_of_mem_newline level)

/-- A series starts as its first element does. -/
theorem exists_joined_eq (hne : xs ≠ [])
    (hhead : ∀ x ∈ xs, ∃ c cs, (text x).toList = c :: cs ∧ isBlank c = false ∧ c ≠ close)
    (level : ℕ) :
    ∃ c cs, joined level (xs.map text) = c :: cs ∧ isBlank c = false ∧ c ≠ close := by
  obtain ⟨x, xs, rfl⟩ := List.exists_cons_of_ne_nil hne
  obtain ⟨c, cs, htext, hc⟩ := hhead x List.mem_cons_self
  by_cases hxs : xs.map text = []
  · exact ⟨c, cs, by rw [List.map_cons, hxs, joined_singleton, htext], hc⟩
  · exact ⟨c, _, by rw [List.map_cons, joined_cons level _ hxs, htext, List.cons_append], hc⟩

/-- What stands between brackets is read, be it empty or not. -/
theorem readBracketed?_bracketed (hblank : isBlank close = false) (hcomma : close ≠ ',')
    (hhead : ∀ x ∈ xs, ∃ c cs, (text x).toList = c :: cs ∧ isBlank c = false ∧ c ≠ close)
    (hread : ∀ x ∈ xs, Reads readOne (text x) x) (hfuel : xs.length ≤ fuel) (level : ℕ)
    (left : Char) (rest : List Char) :
    ∃ cs, (bracketed level (String.singleton left) (String.singleton close)
        (xs.map text)).toList ++ rest = left :: cs ∧
      readBracketed? close readOne fuel cs = some (xs, rest) := by
  by_cases hxs : xs = []
  · subst hxs
    refine ⟨close :: rest, by simp [bracketed], ?_⟩
    rw [readBracketed?, skipBlanks_cons hblank]
    simp only [if_true]
  · have htexts : xs.map text ≠ [] := by simpa using hxs
    have hseries : readSeries? close readOne fuel ([] ++ (joined (level + 1) (xs.map text) ++
        ((newline level).toList ++ close :: rest))) = some (xs, rest) :=
      readSeries?_joined hblank hcomma hread hxs hfuel (by simp) (level + 1) level rest
    obtain ⟨c, cs, hjoined, hc, hne⟩ := exists_joined_eq hxs hhead (level + 1)
    refine ⟨(newline (level + 1)).toList ++ (joined (level + 1) (xs.map text) ++
      ((newline level).toList ++ close :: rest)), ?_, ?_⟩
    · rw [toList_bracketed level left close htexts]
      simp
    · rw [readBracketed?, skipBlanks_append (isBlank_of_mem_newline _), hjoined, List.cons_append,
        skipBlanks_cons hc]
      rw [List.nil_append, hjoined, List.cons_append] at hseries
      simp only [if_neg hne, hseries]

end

/-! ### Reading a document -/

theorem readValue?_succ (fuel : ℕ) (cs : List Char) :
    readValue? (fuel + 1) cs = readForm? (readValue? fuel) fuel (skipBlanks cs) := rfl

theorem readForm?_number {x : Float} (h : readNumber? cs = some (x, rest))
    (readOne : List Char → Option (Json × List Char)) (fuel : ℕ) :
    readForm? readOne fuel cs = some (.number x, rest) := by
  obtain ⟨c, cs, rfl, hc⟩ := exists_cons_of_readNumber? h
  have hne : ∀ d : Char, d ≠ '-' → d.isDigit = false → c ≠ d := by
    rintro d hminus hdigit rfl
    simp [hminus, hdigit] at hc
  unfold readForm?
  split
  · next heq => exact absurd (List.cons.inj heq).1 (hne _ (by decide) (by decide))
  · next heq => exact absurd (List.cons.inj heq).1 (hne _ (by decide) (by decide))
  · next heq => exact absurd (List.cons.inj heq).1 (hne _ (by decide) (by decide))
  · next heq => exact absurd (List.cons.inj heq).1 (hne _ (by decide) (by decide))
  · rw [h]
    rfl

/-- The name of a member is read, with the colon behind it. -/
theorem readName?_quote (name : String) (hbs : ∀ c ∈ bs, isBlank c = true) (cs : List Char) :
    readName? (bs ++ ((quote name).toList ++ ':' :: cs)) = some (name, cs) := by
  have hskip : skipBlanks (bs ++ ((quote name).toList ++ ':' :: cs)) =
      '"' :: (name.toList.flatMap escape ++ '"' :: ':' :: cs) := by
    rw [skipBlanks_append hbs, toList_quote, List.cons_append, skipBlanks_cons (by decide),
      List.append_assoc, List.singleton_append]
  have hcolon : skipBlanks (':' :: cs) = ':' :: cs := skipBlanks_cons (by decide) cs
  rw [readName?, hskip]
  simp [readChars?_flatMap_escape, hcolon]

/-- A member is read, its name first and then its value. -/
theorem reads_memberText {readOne : List Char → Option (Json × List Char)} {m : String × Json}
    (h : Reads readOne (textAt level m.2) m.2) :
    Reads (readMember? readOne) (memberText level m) m := by
  intro bs hbs rest hrest
  have htext : (memberText level m).toList ++ rest =
      (quote m.1).toList ++ ':' :: ([' '] ++ ((textAt level m.2).toList ++ rest)) := by
    simp [memberText]
  have hvalue := h [' '] (by simp [isBlank]) rest hrest
  rw [htext, readMember?, readName?_quote m.1 hbs, Option.bind_eq_bind, Option.bind_some]
  simp only [hvalue, Option.bind_eq_bind, Option.bind_some]

/-- A text between brackets starts with the first of them. -/
theorem exists_bracketed_eq (level : ℕ) (left close : Char) (texts : List String) :
    ∃ cs, (bracketed level (String.singleton left) (String.singleton close) texts).toList =
      left :: cs := by
  by_cases htexts : texts = []
  · exact ⟨[close], by simp [bracketed, htexts]⟩
  · exact ⟨_, toList_bracketed level left close htexts⟩

/-- The text of a document starts with a character that is neither blank nor closes an array. -/
theorem exists_textAt_eq {j : Json} (h : j.HasNumbers) (level : ℕ) :
    ∃ c cs, (textAt level j).toList = c :: cs ∧ isBlank c = false ∧ c ≠ ']' := by
  cases h with
  | null => exact ⟨'n', ['u', 'l', 'l'], by simp [textAt], by decide, by decide⟩
  | @number x hx =>
    have hread : readNumber? ((Decimal.text Decimal.manifestStyle x).toList ++ []) = some (x, []) :=
      Decimal.readNumber?_text hx (.inr rfl) (by simp [EndsNumber])
    obtain ⟨c, cs, hcs, hc⟩ := exists_cons_of_readNumber? hread
    refine ⟨c, cs, by rw [textAt, ← hcs, List.append_nil], ?_⟩
    rcases hc with rfl | hc
    · decide
    · refine ⟨isBlank_of_isDigit hc, ?_⟩
      rintro rfl
      exact absurd hc (by decide)
  | string s => exact ⟨'"', _, by rw [textAt, toList_quote], by decide, by decide⟩
  | array _ =>
    rw [textAt_array]
    obtain ⟨cs, htext⟩ := exists_bracketed_eq level '[' ']' _
    exact ⟨'[', cs, htext, by decide, by decide⟩
  | object _ =>
    rw [textAt_object]
    obtain ⟨cs, htext⟩ := exists_bracketed_eq level '\x7b' '\x7d' _
    exact ⟨'\x7b', cs, htext, by decide, by decide⟩

/-- The text of a member starts with a character that is neither blank nor closes an object. -/
theorem exists_memberText_eq (level : ℕ) (m : String × Json) :
    ∃ c cs, (memberText level m).toList = c :: cs ∧ isBlank c = false ∧ c ≠ '\x7d' :=
  ⟨'"', _, by rw [memberText, String.toList_append, String.toList_append, toList_quote]; rfl,
    by decide, by decide⟩

theorem length_textAt_le (level : ℕ) (m : String × Json) :
    (textAt level m.2).toList.length ≤ (memberText level m).toList.length := by
  simp only [memberText, String.toList_append, List.length_append]
  omega

/-- The text of a document is read as this document, whatever follows it. -/
theorem reads_textAt {j : Json} (h : j.HasNumbers) (level : ℕ)
    (hfuel : (textAt level j).toList.length ≤ fuel) :
    Reads (readValue? fuel) (textAt level j) j := by
  induction fuel generalizing j level with
  | zero =>
    obtain ⟨c, cs, htext, -⟩ := exists_textAt_eq h level
    simp [htext] at hfuel
  | succ fuel ih =>
    intro bs hbs rest hrest
    have hskip : skipBlanks ((textAt level j).toList ++ rest) =
        (textAt level j).toList ++ rest := by
      obtain ⟨c, cs, htext, hc, -⟩ := exists_textAt_eq h level
      rw [htext, List.cons_append, skipBlanks_cons hc]
    rw [readValue?_succ, skipBlanks_append hbs, hskip]
    cases h with
    | null =>
      rw [textAt]
      rfl
    | number hx =>
      rw [textAt]
      exact readForm?_number (Decimal.readNumber?_text hx (.inr rfl) hrest) _ _
    | string s =>
      rw [textAt, toList_quote, List.cons_append, List.append_assoc, List.singleton_append,
        readForm?, readChars?_flatMap_escape]
      simp
    | @array items hitems =>
      rw [textAt_array] at hfuel ⊢
      obtain ⟨hcount, hlength⟩ := length_le_of_bracketed hfuel
      obtain ⟨cs, htext, hread⟩ := readBracketed?_bracketed (by decide) (by decide)
        (fun j hj => exists_textAt_eq (hitems j hj) (level + 1))
        (fun j hj => ih (hitems j hj) (level + 1) (hlength j hj)) hcount level '[' rest
      rw [htext, readForm?, hread]
      rfl
    | @object members hmembers =>
      rw [textAt_object] at hfuel ⊢
      obtain ⟨hcount, hlength⟩ := length_le_of_bracketed hfuel
      have hvalue : ∀ m ∈ members, (textAt (level + 1) m.2).toList.length ≤ fuel :=
        fun m hm => (length_textAt_le (level + 1) m).trans (hlength m hm)
      obtain ⟨cs, htext, hread⟩ := readBracketed?_bracketed (by decide) (by decide)
        (fun m _ => exists_memberText_eq (level + 1) m)
        (fun m hm => reads_memberText (ih (hmembers m hm) (level + 1) (hvalue m hm))) hcount level
        '\x7b' rest
      rw [htext, readForm?, hread]
      rfl

/-- The text of a document is read as this document, with a line break behind it. -/
theorem read?_text {j : Json} (h : j.HasNumbers) : read? (j.text ++ "\n") = some j := by
  have hsplit : (j.text ++ "\n").toList = [] ++ ((textAt 0 j).toList ++ ['\n']) := by simp [text]
  have hread : readValue? (j.text ++ "\n").toList.length ([] ++ ((textAt 0 j).toList ++ ['\n'])) =
      some (j, ['\n']) :=
    reads_textAt h 0 (by simp [text]) [] (by simp) ['\n'] (by simp [EndsNumber])
  have hskip : skipBlanks ['\n'] = [] := by simp [skipBlanks, isBlank]
  rw [← hsplit] at hread
  rw [read?, hread, Option.bind_eq_bind, Option.bind_some]
  simp only [hskip, List.isEmpty_nil, if_true]

end TileSchema.Manifest.Json
