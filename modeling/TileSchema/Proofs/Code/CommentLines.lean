import Mathlib.Data.List.TakeWhile
import TileSchema.Code.LayersText
import TileSchema.Proofs.Code.PlainTexts

/-!
# Comments that end with their line

Generated code is written line by line, and some of the lines are comments on what follows.  A text
inside a line can hold characters that break it.  Then a line of the code comes to several, and a
comment stays one only if all of these are comments again (`StaysComment`).

A text of a schema stands between a start that makes a comment and an end that makes none.  So the
first of its lines does not matter, and the others have to be comments of their own
(`staysComment_text_iff`).  All other lines are plain and do not break (`IsPlainText.staysComment`).

Which characters break lines is left open, but for that they are blank and not the space.
-/

namespace TileSchema.Code

open Text (isBlank)

variable {isBreak : Char → Bool} {cs rest : List Char} {ls : List String} {s s' : String}

/-! ### Lines and comments -/

/-- What can break lines: blanks that are not the space. -/
structure BreaksLines (isBreak : Char → Bool) : Prop where
  isBlank_of_isBreak : ∀ c, isBreak c = true → isBlank c = true
  not_isBreak_space : isBreak ' ' = false

/-- The lines that a text comes to. -/
def brokenLines (isBreak : Char → Bool) (s : String) : List (List Char) := s.toList.splitOnP isBreak

/-- A line is a comment on what follows if it starts with the mark of one, after its indentation. -/
def IsComment (cs : List Char) : Prop := ['/', '/', '/'] <+: cs.dropWhile isBlank

instance : DecidablePred IsComment := fun cs =>
  inferInstanceAs (Decidable (['/', '/', '/'] <+: cs.dropWhile isBlank))

/-- What starts as a comment stays one if all the lines that it comes to are comments. -/
def StaysComment (isBreak : Char → Bool) (s : String) : Prop :=
  IsComment s.toList → ∀ line ∈ brokenLines isBreak s, IsComment line

/-- A text continues a comment if all its lines but the first are comments. -/
def ContinuesComment (isBreak : Char → Bool) (s : String) : Prop :=
  ∀ line ∈ (brokenLines isBreak s).tail, IsComment line

/-- Whether what starts with these characters is no comment, whatever comes behind them. -/
def startsOther (cs : List Char) : Bool := ((cs.dropWhile isBlank).take 3).any (· ≠ '/')

/-- Whether characters are a comment that a text can stand in. -/
def startsComment (cs : List Char) : Bool := decide (IsComment cs) && cs.all isPlain

/-- Whether characters can stand behind a text in a comment: no mark is made at their start. -/
def endsComment (cs : List Char) : Bool :=
  cs.head?.any (· ≠ '/') && (cs.dropWhile isBlank).head?.any (· ≠ '/') && cs.all isPlain

/-! ### Starts and ends -/

theorem isComment_cons_iff {c : Char} (h : isBlank c = true) :
    IsComment (c :: cs) ↔ IsComment cs := by
  unfold IsComment
  rw [List.dropWhile_cons_of_pos h]

/-- A comment stays one when it goes on. -/
theorem IsComment.append (h : IsComment cs) (rest : List Char) : IsComment (cs ++ rest) := by
  unfold IsComment at h ⊢
  rw [List.dropWhile_append]
  split
  · next hempty =>
    rw [List.isEmpty_iff.mp hempty] at h
    exact absurd h (by decide)
  · exact h.trans (List.prefix_append _ _)

/-- Behind characters that are no comment, none begins. -/
theorem not_isComment_append (h : startsOther cs = true) (rest : List Char) :
    ¬ IsComment (cs ++ rest) := by
  obtain ⟨c, hc, hne⟩ := List.any_eq_true.mp h
  have hempty : (cs.dropWhile isBlank).isEmpty = false := by
    cases hstart : cs.dropWhile isBlank with
    | nil => simp [hstart] at hc
    | cons a as => rfl
  unfold IsComment
  rw [List.dropWhile_append, hempty, List.prefix_iff_eq_take]
  intro hmark
  have hmem : c ∈ (cs.dropWhile isBlank ++ rest).take 3 := by
    rw [List.take_append]
    exact List.mem_append_left _ hc
  rw [← show _ = (cs.dropWhile isBlank ++ rest).take 3 from hmark] at hmem
  have hslash : c = '/' := by simpa using hmem
  exact of_decide_eq_true hne hslash

/-- An end that has no mark does not make a comment of what it stands behind. -/
theorem isComment_append_iff (hhead : rest.head?.any (· ≠ '/') = true)
    (hstart : (rest.dropWhile isBlank).head?.any (· ≠ '/') = true) :
    IsComment (cs ++ rest) ↔ IsComment cs := by
  refine ⟨fun h => ?_, fun h => h.append rest⟩
  unfold IsComment at h ⊢
  rw [List.dropWhile_append] at h
  split at h
  · -- only the end is not blank
    cases hrest : rest.dropWhile isBlank with
    | nil => simp [hrest] at hstart
    | cons c more =>
      rw [hrest] at h hstart
      have hc : c = '/' := (List.cons_prefix_cons.mp h).1.symm
      simp [hc] at hstart
  · cases rest with
    | nil => cases hhead
    | cons d more =>
      have hd : d ≠ '/' := by simpa using hhead
      revert h
      -- the mark does not reach the end
      rcases cs.dropWhile isBlank with _ | ⟨a, _ | ⟨b, _ | ⟨c, rest⟩⟩⟩ <;>
        simp [List.cons_prefix_cons, hd.symm]

/-- What starts with characters that do not break has the lines of the rest, the first of them
behind these characters. -/
theorem splitOnP_append_left (h : ∀ c ∈ cs, isBreak c = false) (rest : List Char) :
    (cs ++ rest).splitOnP isBreak = (rest.splitOnP isBreak).modifyHead (cs ++ ·) := by
  induction cs with
  | nil =>
    rw [List.nil_append]
    cases rest.splitOnP isBreak <;> rfl
  | cons c cs ih =>
    obtain ⟨hc, hcs⟩ := List.forall_mem_cons.mp h
    rw [List.cons_append, List.splitOnP_cons_eq_if_modifyHead, hc, ih hcs]
    cases rest.splitOnP isBreak <;> rfl

/-- Characters that do not break go on with the last line of what they stand behind. -/
theorem exists_splitOnP_append_right (h : ∀ c ∈ rest, isBreak c = false) (cs : List Char) :
    ∃ front last, cs.splitOnP isBreak = front ++ [last] ∧
      (cs ++ rest).splitOnP isBreak = front ++ [last ++ rest] := by
  induction cs with
  | nil => exact ⟨[], [], List.splitOnP_nil, List.splitOnP_eq_singleton h⟩
  | cons c cs ih =>
    obtain ⟨front, last, hcs, hrest⟩ := ih
    rw [List.cons_append, List.splitOnP_cons_eq_if_modifyHead, List.splitOnP_cons_eq_if_modifyHead,
      hcs, hrest]
    cases isBreak c with
    | true => exact ⟨[] :: front, last, rfl, rfl⟩
    | false =>
      cases front with
      | nil => exact ⟨[], c :: last, rfl, rfl⟩
      | cons first front => exact ⟨(c :: first) :: front, last, rfl, rfl⟩

/-! ### Lines of a file -/

/-- Plain characters do not break lines. -/
theorem BreaksLines.not_isBreak (hbreak : BreaksLines isBreak) (h : ∀ c ∈ cs, isPlain c = true) :
    ∀ c ∈ cs, isBreak c = false := by
  intro c hc
  have hplain := h c hc
  rw [isPlain, Bool.or_eq_true, Bool.not_eq_true', beq_iff_eq] at hplain
  rcases hplain with hblank | rfl
  · cases hc : isBreak c with
    | false => rfl
    | true =>
      rw [hbreak.isBlank_of_isBreak c hc] at hblank
      cases hblank
  · exact hbreak.not_isBreak_space

/-- A plain text is one line. -/
theorem IsPlainText.brokenLines_eq (h : IsPlainText s) (hbreak : BreaksLines isBreak) :
    brokenLines isBreak s = [s.toList] :=
  List.splitOnP_eq_singleton (hbreak.not_isBreak h)

/-- A plain comment stays one. -/
theorem IsPlainText.staysComment (h : IsPlainText s) (hbreak : BreaksLines isBreak) :
    StaysComment isBreak s := by
  intro hcomment
  rw [h.brokenLines_eq hbreak]
  exact List.forall_mem_singleton.mpr hcomment

/-- A plain text continues a comment. -/
theorem IsPlainText.continuesComment (h : IsPlainText s) (hbreak : BreaksLines isBreak) :
    ContinuesComment isBreak s := by
  rw [ContinuesComment, h.brokenLines_eq hbreak]
  exact List.forall_mem_nil _

/-- A text in a comment does no harm exactly if it continues the comment. -/
theorem staysComment_text_iff (hbreak : BreaksLines isBreak) (hstart : startsComment cs = true)
    (hend : endsComment rest = true) (s : String) :
    StaysComment isBreak (String.ofList cs ++ s ++ String.ofList rest) ↔
      ContinuesComment isBreak s := by
  simp only [startsComment, Bool.and_eq_true, decide_eq_true_eq] at hstart
  simp only [endsComment, Bool.and_eq_true] at hend
  obtain ⟨hcomment, hplain⟩ := hstart
  obtain ⟨⟨hhead, hmark⟩, hplain'⟩ := hend
  obtain ⟨front, last, hlines, hlines'⟩ :=
    exists_splitOnP_append_right (hbreak.not_isBreak (List.all_eq_true.mp hplain')) s.toList
  unfold StaysComment ContinuesComment brokenLines
  simp only [String.toList_append, String.toList_ofList, List.append_assoc]
  rw [splitOnP_append_left (hbreak.not_isBreak (List.all_eq_true.mp hplain)), hlines, hlines',
    imp_iff_right (hcomment.append _)]
  cases front with
  | nil =>
    refine iff_of_true ?_ (List.forall_mem_nil _)
    exact List.forall_mem_singleton.mpr (hcomment.append _)
  | cons first front =>
    rw [List.cons_append, List.cons_append, List.modifyHead_cons, List.tail_cons,
      List.forall_mem_cons, List.forall_mem_append, List.forall_mem_append,
      List.forall_mem_singleton, List.forall_mem_singleton, isComment_append_iff hhead hmark]
    exact and_iff_right (hcomment.append first)

/-- Spaces in front of a line do not matter. -/
theorem isComment_replicate_append_iff (n : Nat) (cs : List Char) :
    IsComment (List.replicate n ' ' ++ cs) ↔ IsComment cs := by
  induction n with
  | zero => rfl
  | succ n ih => rw [List.replicate_succ, List.cons_append, isComment_cons_iff (by decide), ih]

/-- Indentation does not matter. -/
theorem staysComment_indent_iff (hbreak : BreaksLines isBreak) (level : Nat) (s : String) :
    StaysComment isBreak (indent level s) ↔ StaysComment isBreak s := by
  have hspaces : ∀ c ∈ List.replicate (4 * level) ' ', isBreak c = false := by
    intro c hc
    rw [List.eq_of_mem_replicate hc]
    exact hbreak.not_isBreak_space
  unfold StaysComment brokenLines indent
  rw [String.toList_append, String.toList_ofList, isComment_replicate_append_iff,
    splitOnP_append_left hspaces]
  cases s.toList.splitOnP isBreak with
  | nil => rfl
  | cons first lines =>
    rw [List.modifyHead_cons, List.forall_mem_cons, List.forall_mem_cons,
      isComment_replicate_append_iff]

/-! ### Written lines -/

/-- A line as the files have it: a plain text, or a comment that starts with a plain mark. -/
def IsWritten (s : String) : Prop :=
  IsPlainText s ∨ ∃ cs rest, s = String.ofList cs ++ rest ∧ startsComment cs = true

theorem IsPlainText.isWritten (h : IsPlainText s) : IsWritten s := Or.inl h

/-- A comment may hold any text behind its mark. -/
theorem isWritten_comment (h : startsComment cs = true) (s s' : String) :
    IsWritten (String.ofList cs ++ s ++ s') :=
  Or.inr ⟨cs, s ++ s', String.append_assoc, h⟩

theorem IsWritten.indent (h : IsWritten s) (level : Nat) : IsWritten (indent level s) := by
  have hspaces : (List.replicate (4 * level) ' ').all isPlain = true := by
    rw [List.all_replicate]
    simp [isPlain]
  rcases h with hplain | ⟨cs, rest, rfl, hstart⟩
  · exact Or.inl ((isPlainText_ofList hspaces).append hplain)
  · simp only [startsComment, Bool.and_eq_true, decide_eq_true_eq] at hstart
    refine Or.inr ⟨List.replicate (4 * level) ' ' ++ cs, rest, ?_, ?_⟩
    · rw [← String.toList_inj]
      simp [Code.indent]
    · simp only [startsComment, Bool.and_eq_true, decide_eq_true_eq, List.all_append,
        isComment_replicate_append_iff]
      exact ⟨hstart.1, hspaces, hstart.2⟩

/-- A written line that is not plain is a comment. -/
theorem IsWritten.isPlainText_or_isComment (h : IsWritten s) :
    IsPlainText s ∨ IsComment s.toList := by
  refine h.imp_right ?_
  rintro ⟨cs, rest, rfl, hstart⟩
  simp only [startsComment, Bool.and_eq_true, decide_eq_true_eq] at hstart
  rw [String.toList_append, String.toList_ofList]
  exact hstart.1.append _

/-- A comment starts with a blank or with its mark. -/
theorem IsComment.head (h : IsComment cs) : ∃ c ∈ cs.head?, isBlank c = true ∨ c = '/' := by
  unfold IsComment at h
  cases cs with
  | nil => cases List.prefix_nil.mp h
  | cons c cs =>
    refine ⟨c, rfl, ?_⟩
    cases hblank : isBlank c with
    | true => exact Or.inl rfl
    | false =>
      rw [List.dropWhile_cons_of_neg (by simp [hblank])] at h
      exact Or.inr (List.cons_prefix_cons.mp h).1.symm

/-- A written comment starts with a space or with its mark. -/
theorem IsWritten.head_of_isComment (h : IsWritten s) (hcomment : IsComment s.toList) :
    ∃ c ∈ s.toList.head?, c = ' ' ∨ c = '/' := by
  obtain ⟨c, hc, hmark⟩ := hcomment.head
  have hplain : isPlain c = true := by
    rcases h with hplain | ⟨cs, rest, rfl, hstart⟩
    · exact hplain c (List.mem_of_mem_head? hc)
    · simp only [startsComment, Bool.and_eq_true, decide_eq_true_eq] at hstart
      obtain ⟨d, hd, -⟩ := hstart.1.head
      rw [String.toList_append, String.toList_ofList, List.head?_append, hd, Option.some_or] at hc
      rw [← Option.some.inj hc]
      exact List.all_eq_true.mp hstart.2 d (List.mem_of_mem_head? hd)
  refine ⟨c, hc, hmark.imp_left fun hblank => ?_⟩
  rw [isPlain, hblank] at hplain
  simpa using hplain

end TileSchema.Code
