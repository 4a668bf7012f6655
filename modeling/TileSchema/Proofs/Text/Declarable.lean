import TileSchema.Proofs.Text.Identifier

/-!
# Names that can be declared

What may be declared is a matter of the language of the generated code, and is said here without
the functions that make identifiers.  A name is a word of ASCII letters, digits and underscores that
does not start with a digit, is more than an underscore and is none of the words that the language
keeps for itself.  With the mark of a raw name it may be one of those, but for five.

An identifier is made in two steps.  The characters of a name are folded one by one, into lower or
into upper case, and something is put in front where the result could not start a word.  That gives
a word in every case (`isWord_guardStart`), and one that is more than an underscore just if the name
is not empty and no lone separator (`guardStart_map_eq_iff`).  In lower case, the words that the
language keeps are then taken care of, one of two ways; in upper case there are none.

`declarable_iff_isNameable` says which names have identifiers that can be declared.
-/

namespace TileSchema.Text

variable {c : Char} {cs : List Char} {fold : Char → Char} {name s : String}

/-! ### The language of the generated code -/

/-- The keywords in use. -/
def strictKeywords : List String :=
  ["as", "async", "await", "break", "const", "continue", "crate", "dyn", "else", "enum", "extern",
    "false", "fn", "for", "if", "impl", "in", "let", "loop", "match", "mod", "move", "mut", "pub",
    "ref", "return", "self", "Self", "static", "struct", "super", "trait", "true", "type", "unsafe",
    "use", "where", "while"]

/-- The keywords held back for later use. -/
def futureKeywords : List String :=
  ["abstract", "become", "box", "do", "final", "gen", "macro", "override", "priv", "try", "typeof",
    "unsized", "virtual", "yield"]

/-- The words that the language keeps for itself. -/
def keywords : List String := strictKeywords ++ futureKeywords

/-- The words that may not have the mark of a raw name. -/
def unmarkable : List String := ["self", "Self", "super", "crate", "_"]

/-- A character that a word may start with. -/
def isWordStart (c : Char) : Bool := c.isAlpha || c == '_'

/-- A character that a word may go on with. -/
def isWordPart (c : Char) : Bool := isWordChar c || c == '_'

/-- Characters of a word: a letter or an underscore, followed by letters, digits and underscores. -/
def IsWord (cs : List Char) : Prop :=
  ∃ c rest, cs = c :: rest ∧ isWordStart c = true ∧ ∀ d ∈ rest, isWordPart d = true

/-- A text that can be declared as the name of a module, a function, a method or a field. -/
inductive IsDeclarable : String → Prop where
  | plain {s : String} : IsWord s.toList → s ≠ "_" → s ∉ keywords → IsDeclarable s
  | raw {s : String} : IsWord s.toList → s ∉ unmarkable → IsDeclarable ("r#" ++ s)

/-- A text without letters in upper case. -/
def IsLowerCase (s : String) : Prop := ∀ c ∈ s.toList, c.isUpper = false

/-- A text without letters in lower case. -/
def IsUpperCase (s : String) : Prop := ∀ c ∈ s.toList, c.isLower = false

/-- A name that is neither empty nor a lone separator. -/
def IsNameable (name : String) : Prop :=
  (∃ c ∈ name.toList, isWordChar c = true) ∨ 2 ≤ name.toList.length

/-- A word goes on with an underscore. -/
theorem IsWord.append_underscore (h : IsWord cs) : IsWord (cs ++ ['_']) := by
  obtain ⟨c, rest, rfl, hstart, hrest⟩ := h
  refine ⟨c, rest ++ ['_'], List.cons_append, hstart, ?_⟩
  rw [List.forall_mem_append, List.forall_mem_singleton]
  exact ⟨hrest, by decide⟩

theorem toList_underscore : "_".toList = ['_'] := by simp

/-- The bare underscore can neither be declared nor marked. -/
theorem not_isDeclarable_underscore : ¬ IsDeclarable "_" := by
  generalize hs : "_" = s
  rintro (⟨-, hne, -⟩ | ⟨-, -⟩)
  · exact hne hs.symm
  · have hcs := congrArg String.toList hs
    simp at hcs

/-! ### Folding a name to a word -/

/-- A way to write characters that keeps letters and digits apart from separators, of which there
is one left. -/
structure IsFold (fold : Char → Char) : Prop where
  isWordChar_fold : ∀ c, isWordChar (fold c) = isWordChar c
  fold_separator : ∀ c, isWordChar c = false → fold c = '_'

theorem isFold_foldChar : IsFold foldChar :=
  ⟨isWordChar_foldChar, fun _ hc => foldChar_of_not_isWordChar hc⟩

/-- A character as the spelling in upper case has it. -/
def raiseChar (c : Char) : Char := (sanitizeChar c).toUpper

theorem isFold_raiseChar : IsFold raiseChar := by
  have hseparator : ∀ c, isWordChar c = false → raiseChar c = '_' := by
    intro c hc
    rw [raiseChar, sanitizeChar, hc]
    rfl
  refine ⟨fun c => ?_, hseparator⟩
  cases hc : isWordChar c with
  | true => rw [raiseChar, isWordChar_toUpper, sanitizeChar, if_pos hc, hc]
  | false =>
    rw [hseparator c hc]
    decide

namespace IsFold

/-- Nothing but a separator becomes an underscore. -/
theorem fold_eq_underscore_iff (h : IsFold fold) : fold c = '_' ↔ isWordChar c = false := by
  refine ⟨fun hc => ?_, h.fold_separator c⟩
  rw [← h.isWordChar_fold c, hc]
  decide

/-- A folded character may stand in a word. -/
theorem isWordPart_fold (h : IsFold fold) (c : Char) : isWordPart (fold c) = true := by
  cases hc : isWordChar c with
  | true => simp [isWordPart, h.isWordChar_fold, hc]
  | false =>
    rw [h.fold_separator c hc]
    decide

/-- A folded character that is no digit may start a word. -/
theorem isWordStart_fold (h : IsFold fold) (hdigit : (fold c).isDigit = false) :
    isWordStart (fold c) = true := by
  have hpart := h.isWordPart_fold c
  simp only [isWordPart, isWordChar, Char.isAlphanum, hdigit, Bool.or_false] at hpart
  exact hpart

/-- Folded characters make up a word, once something is in front of an empty start. -/
theorem isWord_guardStart (h : IsFold fold) (cs : List Char) :
    IsWord (guardStart (cs.map fold)) := by
  have hparts : ∀ ds : List Char, ∀ d ∈ ds.map fold, isWordPart d = true :=
    fun ds => List.forall_mem_map.mpr fun c _ => h.isWordPart_fold c
  cases cs with
  | nil => exact ⟨'_', [], rfl, by decide, nofun⟩
  | cons c cs =>
    rw [List.map_cons, guardStart]
    cases hdigit : (fold c).isDigit with
    | true => exact ⟨'_', _, rfl, by decide, hparts (c :: cs)⟩
    | false => exact ⟨fold c, _, rfl, h.isWordStart_fold hdigit, hparts cs⟩

/-- Nothing but an underscore is left just of the empty name and of a lone separator. -/
theorem guardStart_map_eq_iff (h : IsFold fold) (name : String) :
    guardStart (name.toList.map fold) = ['_'] ↔ ¬ IsNameable name := by
  unfold IsNameable
  rcases name.toList with _ | ⟨c, _ | ⟨d, cs⟩⟩
  · simp [guardStart]
  · have hguard : guardStart ([c].map fold) = ['_'] ↔ fold c = '_' := by
      rw [List.map_singleton, guardStart]
      cases hdigit : (fold c).isDigit with
      | true =>
        have hne : fold c ≠ '_' := by
          rintro heq
          rw [heq] at hdigit
          exact absurd hdigit (by decide)
        simpa using hne
      | false => simp
    rw [hguard, h.fold_eq_underscore_iff]
    simp
  · rw [List.map_cons, List.map_cons, guardStart]
    cases (fold c).isDigit <;> simp

end IsFold

/-! ### The spelling in upper case -/

theorem toList_constantCase (name : String) :
    (constantCase name).toList = guardStart (name.toList.map raiseChar) := String.toList_ofList

theorem constantCase_eq_underscore_iff (name : String) :
    constantCase name = "_" ↔ ¬ IsNameable name := by
  rw [← String.toList_inj, toList_constantCase, toList_underscore]
  exact isFold_raiseChar.guardStart_map_eq_iff name

theorem isUpperCase_constantCase (name : String) : IsUpperCase (constantCase name) := by
  rw [IsUpperCase, toList_constantCase]
  refine forall_mem_guardStart (by decide) (List.forall_mem_map.mpr fun c _ => ?_)
  exact Char.isLower_toUpper_eq_false _

/-- No keyword is written in upper case. -/
theorem IsUpperCase.notMem_keywords (h : IsUpperCase s) : s ∉ keywords := by
  have hkeywords : keywords.all (fun word => word.toList.any Char.isLower) = true := by cbv
  intro hmem
  obtain ⟨c, hc, hlow⟩ := List.any_eq_true.mp (List.all_eq_true.mp hkeywords s hmem)
  exact absurd (h c hc) (by simp [hlow])

/-- A name in upper case can be declared, if it is more than an underscore. -/
theorem isDeclarable_constantCase (h : IsNameable name) : IsDeclarable (constantCase name) := by
  refine .plain ?_ ?_ (isUpperCase_constantCase name).notMem_keywords
  · rw [toList_constantCase]
    exact isFold_raiseChar.isWord_guardStart _
  · exact fun heq => (constantCase_eq_underscore_iff name).mp heq h

/-! ### The spelling in lower case -/

theorem isWord_snakeCase (name : String) : IsWord (snakeCase name).toList := by
  rw [toList_snakeCase]
  exact isFold_foldChar.isWord_guardStart _

theorem snakeCase_eq_underscore_iff (name : String) :
    snakeCase name = "_" ↔ ¬ IsNameable name := by
  rw [← String.toList_inj, toList_snakeCase, toList_underscore]
  exact isFold_foldChar.guardStart_map_eq_iff name

theorem isLowerCase_snakeCase (name : String) : IsLowerCase (snakeCase name) :=
  forall_mem_snakeCase (by decide) fun _ => Char.isUpper_toLower_eq_false _

/-- An identifier in lower case is the folded name, but for the words that the language keeps. -/
theorem snakeIdent_cases (name : String) :
    (snakeCase name ∈ unrawableWords ∧ snakeIdent name = snakeCase name ++ "_") ∨
      (snakeCase name ∉ unrawableWords ∧ snakeCase name ∈ reservedWords ∧
        snakeIdent name = "r#" ++ snakeCase name) ∨
      snakeCase name ∉ unrawableWords ∧ snakeCase name ∉ reservedWords ∧
        snakeIdent name = snakeCase name := by
  unfold snakeIdent
  dsimp only
  split
  · next hunrawable => exact Or.inl ⟨hunrawable, rfl⟩
  · next hunrawable =>
    split
    · next hreserved => exact Or.inr (Or.inl ⟨hunrawable, hreserved, rfl⟩)
    · next hreserved => exact Or.inr (Or.inr ⟨hunrawable, hreserved, rfl⟩)

theorem isLowerCase_snakeIdent (name : String) : IsLowerCase (snakeIdent name) := by
  have hplain := isLowerCase_snakeCase name
  have hmark : ∀ c ∈ "r#".toList, c.isUpper = false := by simp
  have hend : ∀ c ∈ "_".toList, c.isUpper = false := by simp
  rcases snakeIdent_cases name with ⟨-, heq⟩ | ⟨-, -, heq⟩ | ⟨-, -, heq⟩
  · rw [heq, IsLowerCase, String.toList_append, List.forall_mem_append]
    exact ⟨hplain, hend⟩
  · rw [heq, IsLowerCase, String.toList_append, List.forall_mem_append]
    exact ⟨hmark, hplain⟩
  · rw [heq]
    exact hplain

/-- A keyword in lower case is one of the words that are taken care of. -/
theorem IsLowerCase.notMem_keywords (h : IsLowerCase s) (hunrawable : s ∉ unrawableWords)
    (hreserved : s ∉ reservedWords) : s ∉ keywords := by
  have hkeywords : ∀ word ∈ keywords,
      word ∈ unrawableWords ∨ word ∈ reservedWords ∨ word = "Self" := by
    decide
  intro hmem
  rcases hkeywords s hmem with hword | hword | rfl
  · exact hunrawable hword
  · exact hreserved hword
  · exact absurd (h 'S' (by simp)) (by decide)

/-- A word with an underscore behind it is no keyword. -/
theorem append_underscore_notMem_keywords (s : String) : s ++ "_" ∉ keywords := by
  have hkeywords : keywords.all (fun word => word.toList.getLast? ≠ some '_') = true := by cbv
  intro hmem
  have hlast := of_decide_eq_true (List.all_eq_true.mp hkeywords _ hmem)
  exact hlast (by simp)

/-- An identifier in lower case can be declared, if the name folds to more than an underscore. -/
theorem isDeclarable_snakeIdent (h : IsNameable name) : IsDeclarable (snakeIdent name) := by
  have hword := isWord_snakeCase name
  rcases snakeIdent_cases name with ⟨hmem, heq⟩ | ⟨hunrawable, hreserved, heq⟩ |
    ⟨hunrawable, hreserved, heq⟩
  · rw [heq]
    refine .plain ?_ ?_ (append_underscore_notMem_keywords _)
    · rw [String.toList_append, toList_underscore]
      exact hword.append_underscore
    · have hne : ∀ word ∈ unrawableWords, word ++ "_" ≠ "_" := by decide
      exact hne _ hmem
  · rw [heq]
    have hmarkable : ∀ word ∈ reservedWords, word ∈ unmarkable → word ∈ unrawableWords := by
      decide
    exact .raw hword fun hmem => hunrawable (hmarkable _ hreserved hmem)
  · rw [heq]
    refine .plain hword ?_ ((isLowerCase_snakeCase name).notMem_keywords hunrawable hreserved)
    exact fun hbare => (snakeCase_eq_underscore_iff name).mp hbare h

/-- The identifier in lower case is the bare underscore for the same names as the folded name. -/
theorem snakeIdent_eq_underscore_iff (name : String) :
    snakeIdent name = "_" ↔ ¬ IsNameable name := by
  constructor
  · intro hbare hname
    have hdeclarable := isDeclarable_snakeIdent hname
    rw [hbare] at hdeclarable
    exact not_isDeclarable_underscore hdeclarable
  · intro hname
    have hbare := (snakeCase_eq_underscore_iff name).mpr hname
    rw [snakeIdent, hbare]
    decide

/-! ### Main result -/

/-- The identifier made of a name in lower case has no letter in upper case, that in upper case none
in lower case.  Both can be declared just if the name is neither empty nor a lone separator, and the
only other thing that they ever are is the bare underscore. -/
theorem declarable_iff_isNameable (name : String) :
    (IsLowerCase (snakeIdent name) ∧ (IsDeclarable (snakeIdent name) ↔ IsNameable name) ∧
      (snakeIdent name = "_" ↔ ¬ IsNameable name)) ∧
    (IsUpperCase (constantCase name) ∧ (IsDeclarable (constantCase name) ↔ IsNameable name) ∧
      (constantCase name = "_" ↔ ¬ IsNameable name)) := by
  have hsnake := snakeIdent_eq_underscore_iff name
  have hconstant := constantCase_eq_underscore_iff name
  have hbare : ∀ {s : String}, (s = "_" ↔ ¬ IsNameable name) → IsDeclarable s → IsNameable name := by
    intro s hs hdeclarable
    by_contra hname
    rw [hs.mpr hname] at hdeclarable
    exact not_isDeclarable_underscore hdeclarable
  refine ⟨⟨isLowerCase_snakeIdent name, ⟨hbare hsnake, isDeclarable_snakeIdent⟩, hsnake⟩,
    isUpperCase_constantCase name, ⟨hbare hconstant, isDeclarable_constantCase⟩, hconstant⟩

/-- The empty name, and a name of one letter beyond ASCII, have identifiers that cannot be
declared. -/
theorem not_isDeclarable_of_lone_separator :
    ¬ IsDeclarable (snakeIdent "") ∧ ¬ IsDeclarable (snakeIdent "名") ∧
      ¬ IsDeclarable (constantCase "名") := by
  have hempty : snakeIdent "" = "_" := by decide
  have hsnake : snakeIdent "名" = "_" := by decide
  have hconstant : constantCase "名" = "_" := by decide
  rw [hempty, hsnake, hconstant]
  exact ⟨not_isDeclarable_underscore, not_isDeclarable_underscore, not_isDeclarable_underscore⟩

end TileSchema.Text
