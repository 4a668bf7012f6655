import Mathlib
import TileSchema.Text.Identifier

/-!
# Spellings of one name

A name is declared in several spellings, and each of them forgets something of it.  The joined
spelling forgets the case of all letters and every separator; the spelling in lower case keeps where
the separators are.  Apart from the mark of a raw name, the latter therefore determines the former
(`upperCamel_unmark_snakeIdent`): names that are spelled alike in lower case are joined alike
(`upperCamel_eq_of_snakeIdent_eq`), and where the joined spellings are known to differ, the others
need no check of their own.

A prefix that ends with a separator stays apart from what follows it (`upperCamel_append`), so this
holds of prefixed names, too.
-/

namespace TileSchema.Text

variable {c : Char} {cs : List Char} {name : String}

/-! ### Characters -/

/-- A character as the spelling in lower case has it. -/
def foldChar (c : Char) : Char := (sanitizeChar c).toLower

/-- Characters that may stand in a declared name, the mark of raw names included. -/
def isNameChar (c : Char) : Bool := isWordChar c || c == '_' || c == '#'

theorem isNameChar_of_isWordChar (h : isWordChar c = true) : isNameChar c = true := by
  simp [isNameChar, h]

@[simp] theorem isDigit_toLower (c : Char) : c.toLower.isDigit = c.isDigit := by
  by_cases h : c.isUpper
  · have hletter : 65 ≤ c.toNat ∧ c.toNat ≤ 90 := by
      simpa [Char.isUpper, UInt32.le_iff_toNat_le] using h
    have hvalid : (c.toNat + 32).isValidChar := Or.inl (by omega)
    rw [Char.toLower_eq_of_isUpper h, Bool.eq_iff_iff]
    simp only [Char.isDigit, Bool.and_eq_true, decide_eq_true_eq, UInt32.le_iff_toNat_le, ge_iff_le]
    change 48 ≤ (Char.ofNat (c.toNat + 32)).toNat ∧ (Char.ofNat (c.toNat + 32)).toNat ≤ 57 ↔
      48 ≤ c.toNat ∧ c.toNat ≤ 57
    rw [Char.toNat_ofNat, if_pos hvalid]
    omega
  · rw [Char.toLower_eq_of_not_isUpper h]

@[simp] theorem isWordChar_toLower (c : Char) : isWordChar c.toLower = isWordChar c := by
  simp [isWordChar, Char.isAlphanum]

@[simp] theorem isWordChar_toUpper (c : Char) : isWordChar c.toUpper = isWordChar c := by
  rw [← isWordChar_toLower c.toUpper, Char.toLower_toUpper_eq_toLower, isWordChar_toLower]

theorem foldChar_of_isWordChar (h : isWordChar c = true) : foldChar c = c.toLower := by
  simp [foldChar, sanitizeChar, h]

theorem foldChar_of_not_isWordChar (h : isWordChar c = false) : foldChar c = '_' := by
  simp [foldChar, sanitizeChar, h]

/-- Folding keeps letters and digits apart from separators. -/
@[simp] theorem isWordChar_foldChar (c : Char) : isWordChar (foldChar c) = isWordChar c := by
  cases h : isWordChar c with
  | true => rw [foldChar_of_isWordChar h, isWordChar_toLower, h]
  | false =>
    rw [foldChar_of_not_isWordChar h]
    decide

/-- A folded character may stand in a declared name. -/
theorem isNameChar_foldChar (c : Char) : isNameChar (foldChar c) = true := by
  cases h : isWordChar c with
  | true => exact isNameChar_of_isWordChar (by simpa using h)
  | false =>
    rw [foldChar_of_not_isWordChar h]
    decide

/-! ### Words -/

/-- The words of a name consist of letters and digits. -/
theorem isWordChar_of_mem_wordRuns {run word : List Char} (hrun : ∀ c ∈ run, isWordChar c = true)
    (hword : word ∈ wordRuns run cs) : ∀ c ∈ word, isWordChar c = true := by
  induction cs generalizing run with
  | nil =>
    rw [wordRuns] at hword
    split at hword
    · simp at hword
    · simpa [List.mem_singleton.mp hword] using hrun
  | cons c cs ih =>
    rw [wordRuns] at hword
    split at hword
    · next hc => exact ih (by simpa [hc] using hrun) hword
    · split at hword
      · exact ih (by simp) hword
      · rcases List.mem_cons.mp hword with rfl | hrest
        · simpa using hrun
        · exact ih (by simp) hrest

/-- Folding a name folds its words. -/
theorem wordRuns_map_foldChar (run cs : List Char) :
    wordRuns (run.map foldChar) (cs.map foldChar) = (wordRuns run cs).map (List.map foldChar) := by
  induction cs generalizing run with
  | nil =>
    rw [List.map_nil, wordRuns, wordRuns]
    cases run <;> simp
  | cons c cs ih =>
    have hnil := ih []
    have hcons := ih (c :: run)
    rw [List.map_nil] at hnil
    rw [List.map_cons] at hcons
    rw [List.map_cons, wordRuns, wordRuns, isWordChar_foldChar, hcons, hnil]
    cases isWordChar c <;> cases run <;> simp

/-- A separator ends a word. -/
theorem wordRuns_append_separator (hc : isWordChar c = false) (run cs rest : List Char) :
    wordRuns run (cs ++ c :: rest) = wordRuns run cs ++ wordRuns [] rest := by
  induction cs generalizing run with
  | nil =>
    rw [List.nil_append, wordRuns, wordRuns, hc]
    cases run <;> simp
  | cons d cs ih =>
    rw [List.cons_append, wordRuns, wordRuns, ih, ih]
    cases isWordChar d <;> cases run <;> simp

/-- Capitalising does not look at the case of letters. -/
theorem capitalize_map_foldChar {word : List Char} (hword : ∀ c ∈ word, isWordChar c = true) :
    capitalize (word.map foldChar) = capitalize word := by
  cases word with
  | nil => rfl
  | cons c cs =>
    obtain ⟨hc, hcs⟩ := List.forall_mem_cons.mp hword
    have hrest : cs.map (Char.toLower ∘ foldChar) = cs.map Char.toLower := by
      refine List.map_congr_left fun d hd => ?_
      rw [Function.comp_apply, foldChar_of_isWordChar (hcs d hd), Char.toLower_toLower_eq_toLower]
    rw [List.map_cons, capitalize, capitalize, List.map_map, hrest, foldChar_of_isWordChar hc,
      Char.toUpper_toLower_eq_toUpper]

/-- A capitalised word consists of letters and digits. -/
theorem isWordChar_of_mem_capitalize {word : List Char} (hword : ∀ c ∈ word, isWordChar c = true) :
    ∀ c ∈ capitalize word, isWordChar c = true := by
  cases word with
  | nil => simp [capitalize]
  | cons c cs => simpa [capitalize] using hword

/-! ### The joined spelling -/

/-- The capitalised words of characters, joined. -/
def joinedWords (cs : List Char) : List Char := (wordRuns [] cs).flatMap capitalize

@[simp] theorem toList_upperCamel (name : String) :
    (upperCamel name).toList = joinedWords name.toList := String.toList_ofList

/-- Words are joined without what stands between them. -/
theorem joinedWords_append_separator (hc : isWordChar c = false) (cs rest : List Char) :
    joinedWords (cs ++ c :: rest) = joinedWords cs ++ joinedWords rest := by
  rw [joinedWords, wordRuns_append_separator hc, List.flatMap_append]
  rfl

/-- The joined spelling does not depend on what folding changes. -/
theorem joinedWords_map_foldChar (cs : List Char) : joinedWords (cs.map foldChar) = joinedWords cs := by
  have hwords : wordRuns [] (cs.map foldChar) = (wordRuns [] cs).map (List.map foldChar) :=
    wordRuns_map_foldChar [] cs
  rw [joinedWords, hwords, List.flatMap_map]
  refine List.flatMap_congr fun word hword => ?_
  exact capitalize_map_foldChar (isWordChar_of_mem_wordRuns (by simp) hword)

/-- An underscore in front is no part of a word. -/
theorem joinedWords_guardStart (cs : List Char) : joinedWords (guardStart cs) = joinedWords cs := by
  have hfront : ∀ ds, joinedWords ('_' :: ds) = joinedWords ds :=
    joinedWords_append_separator (by decide) []
  cases cs with
  | nil => exact hfront []
  | cons c cs =>
    rw [guardStart]
    split
    · exact hfront _
    · rfl

/-- The joined spelling consists of letters and digits. -/
theorem isWordChar_of_mem_upperCamel : ∀ c ∈ (upperCamel name).toList, isWordChar c = true := by
  intro c hc
  rw [toList_upperCamel, joinedWords, List.mem_flatMap] at hc
  obtain ⟨word, hword, hc⟩ := hc
  exact isWordChar_of_mem_capitalize (isWordChar_of_mem_wordRuns (by simp) hword) c hc

/-- A prefix that ends with a separator and the name behind it are spelled one after the other. -/
theorem upperCamel_append {start : String} (hstart : start.toList = cs ++ [c])
    (hc : isWordChar c = false) (name : String) :
    upperCamel (start ++ name) = upperCamel start ++ upperCamel name := by
  rw [← String.toList_inj, String.toList_append, toList_upperCamel, toList_upperCamel,
    toList_upperCamel, String.toList_append, hstart, List.append_assoc, List.singleton_append,
    joinedWords_append_separator hc, joinedWords_append_separator hc]
  simp [joinedWords, wordRuns]

/-- Nothing but an underscore comes in front of what is not the start of a name. -/
theorem forall_mem_guardStart {p : Char → Prop} (hunderscore : p '_') (hcs : ∀ c ∈ cs, p c) :
    ∀ c ∈ guardStart cs, p c := by
  cases cs with
  | nil => simpa [guardStart] using hunderscore
  | cons c cs =>
    rw [guardStart]
    split
    · exact List.forall_mem_cons.mpr ⟨hunderscore, hcs⟩
    · exact hcs

/-! ### The spelling in upper case -/

/-- A name in upper case can be declared. -/
theorem isNameChar_of_mem_constantCase : ∀ c ∈ (constantCase name).toList, isNameChar c = true := by
  rw [constantCase, String.toList_ofList]
  refine forall_mem_guardStart (by decide) (List.forall_mem_map.mpr fun c _ => ?_)
  cases h : isWordChar c with
  | true => exact isNameChar_of_isWordChar (by simp [sanitizeChar, h])
  | false =>
    have hupper : (sanitizeChar c).toUpper = '_' := by
      rw [sanitizeChar, h]
      rfl
    rw [hupper]
    decide

/-! ### The spelling in lower case -/

theorem toList_snakeCase (name : String) :
    (snakeCase name).toList = guardStart (name.toList.map foldChar) := String.toList_ofList

/-- A name in lower case is joined as the name itself. -/
theorem upperCamel_snakeCase (name : String) : upperCamel (snakeCase name) = upperCamel name := by
  rw [← String.toList_inj, toList_upperCamel, toList_upperCamel, toList_snakeCase,
    joinedWords_guardStart, joinedWords_map_foldChar]

/-- A name in lower case consists of letters, digits and underscores. -/
theorem forall_mem_snakeCase {p : Char → Prop} (hunderscore : p '_') (hfold : ∀ c, p (foldChar c)) :
    ∀ c ∈ (snakeCase name).toList, p c := by
  rw [toList_snakeCase]
  exact forall_mem_guardStart hunderscore (List.forall_mem_map.mpr fun c _ => hfold c)

/-- An identifier without the mark of a raw name. -/
def unmark (ident : String) : String :=
  match ident.toList with
  | 'r' :: '#' :: cs => String.ofList cs
  | _ => ident

theorem unmark_marked (ident : String) : unmark ("r#" ++ ident) = ident := by
  have hmarked : ("r#" ++ ident).toList = 'r' :: '#' :: ident.toList := by simp
  rw [unmark, hmarked]
  exact String.ofList_toList

theorem unmark_of_notMem {ident : String} (h : '#' ∉ ident.toList) : unmark ident = ident := by
  unfold unmark
  split
  · next cs hcs => simp [hcs] at h
  · rfl

/-- An identifier determines the joined spelling of the name it was made from. -/
theorem upperCamel_unmark_snakeIdent (name : String) :
    upperCamel (unmark (snakeIdent name)) = upperCamel name := by
  have hplain : '#' ∉ (snakeCase name).toList := by
    have hne : ∀ c ∈ (snakeCase name).toList, c ≠ '#' := by
      refine forall_mem_snakeCase (by decide) fun c => ?_
      cases h : isWordChar c with
      | true => exact fun heq => absurd (heq ▸ (isWordChar_foldChar c).trans h) (by decide)
      | false =>
        rw [foldChar_of_not_isWordChar h]
        decide
    exact fun hmem => hne '#' hmem rfl
  unfold snakeIdent
  dsimp only
  split
  · have hend : (snakeCase name ++ "_").toList = (snakeCase name).toList ++ '_' :: [] := by simp
    have hunderscored : '#' ∉ (snakeCase name ++ "_").toList := by simp [hplain]
    rw [unmark_of_notMem hunderscored, ← upperCamel_snakeCase name, ← String.toList_inj,
      toList_upperCamel, toList_upperCamel, hend, joinedWords_append_separator (by decide)]
    exact List.append_nil _
  · split
    · rw [unmark_marked, upperCamel_snakeCase]
    · rw [unmark_of_notMem hplain, upperCamel_snakeCase]

/-- Names that are declared alike are joined alike. -/
theorem upperCamel_eq_of_snakeIdent_eq {a b : String} (h : snakeIdent a = snakeIdent b) :
    upperCamel a = upperCamel b := by
  rw [← upperCamel_unmark_snakeIdent a, h, upperCamel_unmark_snakeIdent]

/-- An identifier consists of characters of declared names. -/
theorem isNameChar_of_mem_snakeIdent : ∀ c ∈ (snakeIdent name).toList, isNameChar c = true := by
  have hplain : ∀ c ∈ (snakeCase name).toList, isNameChar c = true :=
    forall_mem_snakeCase (by decide) isNameChar_foldChar
  have hunderscore : isNameChar '_' = true := by decide
  have hmark : ∀ c ∈ "r#".toList, isNameChar c = true := by simp [isNameChar, isWordChar]
  unfold snakeIdent
  dsimp only
  split
  · rw [String.toList_append, List.forall_mem_append]
    exact ⟨hplain, by simpa using hunderscore⟩
  · split
    · rw [String.toList_append, List.forall_mem_append]
      exact ⟨hmark, hplain⟩
    · exact hplain

end TileSchema.Text
