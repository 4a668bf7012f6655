import TileSchema.Proofs.Code.Comments

/-!
# The code in the text of a file

What a generated file declares is read off the strings that are written as its lines.  Whoever reads
the file has its text instead.  The text comes to lines wherever one breaks, also inside of what was
one string; of these lines, comments and empty lines are no code (`codeLines`).

None of the readers takes notice of lines that are no code, as each of them looks for a line that
starts with other characters than a comment.  And where no text of the schema leaves its comment, the
code in the text is that in the written strings (`codeLines_unlines`).  So if no text of the schema
does, the readers give for the text what they give for the strings: `items_codeLines` and
`declarations_codeLines` say so of the file of the rows, `filterMap_constant?_codeLines` and
`ruleFunctions_codeLines` of the modules in the module of a layer, whose text stands in the file of
the layers (`exists_layerFile_eq_append`).
-/

namespace TileSchema.Code

open Artifact (ArtifactSet LayerArtifact RenderedFile)
open Text (isBlank isNameChar)

variable {isBreak : Char → Bool} {schema : Schema} {source name line : String} {a : ArtifactSet}
  {files : List RenderedFile} {m : RowModule} {l : LayerArtifact} {cs : List Char}
  {ls : List String} {n : Nat}

/-! ### Lines of a text -/

/-- The lines that a text comes to. -/
def textLines (isBreak : Char → Bool) (text : String) : List String :=
  (brokenLines isBreak text).map String.ofList

/-- A line is code if it is neither empty nor a comment. -/
def isCode (line : String) : Bool := line != "" && !decide (IsComment line.toList)

/-- The lines of a text that are code. -/
def codeLines (isBreak : Char → Bool) (text : String) : List String :=
  (textLines isBreak text).filter isCode

theorem isCode_eq_false_iff : isCode line = false ↔ line = "" ∨ IsComment line.toList := by
  rw [isCode, Bool.and_eq_false_iff, bne_eq_false_iff_eq, Bool.not_eq_false', decide_eq_true_iff]

theorem unlines_cons (line : String) (ls : List String) :
    unlines (line :: ls) = line ++ "\n" ++ unlines ls := by
  rw [unlines, List.map_cons, String.join_cons, unlines]

theorem unlines_append (ls ls' : List String) : unlines (ls ++ ls') = unlines ls ++ unlines ls' := by
  induction ls with
  | nil => exact String.empty_append.symm
  | cons line ls ih =>
    rw [List.cons_append, unlines_cons, unlines_cons, ih, ← String.append_assoc]

/-- The text of lines comes to what each of them comes to. -/
theorem textLines_unlines (hend : isBreak '\n' = true) (ls : List String) :
    textLines isBreak (unlines ls) = ls.flatMap (textLines isBreak) ++ [""] := by
  induction ls with
  | nil => simp [textLines, brokenLines, unlines]
  | cons line ls ih =>
    have hcs : (unlines (line :: ls)).toList = line.toList ++ '\n' :: (unlines ls).toList := by
      rw [unlines_cons]
      simp
    rw [List.flatMap_cons, List.append_assoc, ← ih, textLines, brokenLines, hcs,
      List.splitOnP_append_cons _ _ hend, List.map_append]
    rfl

/-- The code in the text of lines is what each of them comes to. -/
theorem codeLines_unlines_eq_flatMap (hend : isBreak '\n' = true) (ls : List String) :
    codeLines isBreak (unlines ls) = ls.flatMap (codeLines isBreak) := by
  have hempty : [""].filter isCode = [] := rfl
  rw [codeLines, textLines_unlines hend, List.filter_append, hempty, List.append_nil,
    List.filter_flatMap]
  rfl

/-- The code in a written line that stays a comment if it is one. -/
theorem codeLines_eq (hbreak : BreaksLines isBreak) (hwritten : IsWritten line)
    (hstays : StaysComment isBreak line) : codeLines isBreak line = [line].filter isCode := by
  rcases hwritten.isPlainText_or_isComment with hplain | hcomment
  · rw [codeLines, textLines, hplain.brokenLines_eq hbreak, List.map_singleton, String.ofList_toList]
  · -- none of the lines that it comes to is code
    have hnone : ∀ part ∈ textLines isBreak line, ¬ isCode part = true := by
      rw [textLines, List.forall_mem_map]
      intro part hpart
      rw [Bool.not_eq_true, isCode_eq_false_iff, String.toList_ofList]
      exact Or.inr (hstays hcomment part hpart)
    have hline : ∀ part ∈ [line], ¬ isCode part = true := by
      rw [List.forall_mem_singleton, Bool.not_eq_true, isCode_eq_false_iff]
      exact Or.inr hcomment
    rw [codeLines, List.filter_eq_nil_iff.mpr hnone, List.filter_eq_nil_iff.mpr hline]

/-- The code in the text of lines, if comments stay comments. -/
theorem flatMap_codeLines (hbreak : BreaksLines isBreak) (hwritten : ∀ line ∈ ls, IsWritten line)
    (hstays : ∀ line ∈ ls, StaysComment isBreak line) :
    ls.flatMap (codeLines isBreak) = ls.filter isCode := by
  have hlines : ls.flatMap (codeLines isBreak) = ls.flatMap fun line => [line].filter isCode :=
    List.flatMap_congr fun line hline =>
      codeLines_eq hbreak (hwritten line hline) (hstays line hline)
  rw [hlines, ← List.filter_flatMap, List.flatMap_singleton']

/-- The code in the text of lines is that in the lines, if comments stay comments. -/
theorem codeLines_unlines (hbreak : BreaksLines isBreak) (hend : isBreak '\n' = true)
    (hwritten : ∀ line ∈ ls, IsWritten line) (hstays : ∀ line ∈ ls, StaysComment isBreak line) :
    codeLines isBreak (unlines ls) = ls.filter isCode := by
  rw [codeLines_unlines_eq_flatMap hend, flatMap_codeLines hbreak hwritten hstays]

/-! ### What is no code -/

/-- What starts with the characters of code is no comment, and not empty. -/
theorem isPrefixOf?_eq_none_of_not_isCode (h : startsOther cs = true) (hline : isCode line = false) :
    cs.isPrefixOf? line.toList = none := by
  refine Option.eq_none_iff_forall_ne_some.mpr fun rest hrest => ?_
  rw [List.isPrefixOf?_eq_some_iff_append_eq] at hrest
  rcases isCode_eq_false_iff.mp hline with rfl | hcomment
  · rw [String.toList_empty, List.append_eq_nil_iff] at hrest
    rw [hrest.1] at h
    cases h
  · rw [← hrest] at hcomment
    exact not_isComment_append h rest hcomment

theorem nameBehind?_of_not_isCode (h : startsOther cs = true) (hline : isCode line = false) :
    nameBehind? (String.ofList cs) line.toList = none := by
  rw [nameBehind?, String.toList_ofList, isPrefixOf?_eq_none_of_not_isCode h hline, Option.map_none]

theorem nameBetween?_of_not_isCode (h : startsOther cs = true) (hline : isCode line = false)
    (stop : String) : nameBetween? (String.ofList cs) stop line = none := by
  rw [nameBetween?, nameBehind?_of_not_isCode h hline, Option.bind_none]

/-- Behind the spaces of a line that is no code stands the rest of a comment. -/
theorem head_behind_spaces (hn : 0 < n) (hline : isCode line = false) {rest : List Char}
    (hrest : List.replicate n ' ' ++ rest = line.toList) :
    ∃ c ∈ rest.head?, isBlank c = true ∨ c = '/' := by
  rcases isCode_eq_false_iff.mp hline with rfl | hcomment
  · rw [String.toList_empty, List.append_eq_nil_iff, List.replicate_eq_nil_iff] at hrest
    omega
  · rw [← hrest, isComment_replicate_append_iff] at hcomment
    exact hcomment.head

/-- Spaces in front of a line that is no code have no name behind them. -/
theorem nameBehind?_spaces_of_not_isCode (hn : 0 < n) (hline : isCode line = false)
    {found : String × List Char}
    (hfound : nameBehind? (String.ofList (List.replicate n ' ')) line.toList = some found) :
    ∃ c ∈ found.2.head?, isBlank c = true ∨ c = '/' := by
  rw [nameBehind?, String.toList_ofList, Option.map_eq_some_iff] at hfound
  obtain ⟨rest, hrest, rfl⟩ := hfound
  obtain ⟨c, hc, hmark⟩ :=
    head_behind_spaces hn hline (List.isPrefixOf?_eq_some_iff_append_eq.mp hrest)
  have hname : isNameChar c = false := by
    rw [Bool.eq_false_iff]
    intro hname
    rcases hmark with hblank | rfl
    · rw [not_isBlank_of_isNameChar hname] at hblank
      cases hblank
    · exact absurd hname (by decide)
  obtain ⟨cs, rfl⟩ := List.head?_eq_some_iff.mp hc
  refine ⟨c, ?_, hmark⟩
  rw [List.dropWhile_cons_of_neg (by simp [hname])]
  rfl

/-- Behind the spaces of a line that is no code stands neither a rule nor an expression. -/
theorem head_behindBlanks? (hn : 0 < n) (hline : isCode line = false)
    (hcs : behindBlanks? n line = some cs) : ∃ c ∈ cs.head?, isBlank c = true ∨ c = '/' := by
  rw [behindBlanks?, Option.ite_none_right_eq_some] at hcs
  obtain ⟨hcount, hcs⟩ := hcs
  have hspaces : line.toList.takeWhile (· = ' ') = List.replicate n ' ' := by
    rw [List.eq_replicate_iff]
    exact ⟨hcount, fun c hc => by simpa using List.mem_takeWhile_imp hc⟩
  refine head_behind_spaces hn hline ?_
  rw [← hspaces, ← Option.some.inj hcs, List.takeWhile_append_dropWhile]

/-! ### Readers of lines -/

theorem constant?_of_not_isCode (h : isCode line = false) : constant? line = none := by
  have hstart : indent 2 "pub const " = String.ofList "        pub const ".toList := rfl
  rw [constant?, hstart, nameBehind?_of_not_isCode (by decide) h, Option.bind_none]

theorem functionName?_of_not_isCode (h : isCode line = false) : functionName? line = none := by
  have hstart : indent 2 "pub fn " = String.ofList "        pub fn ".toList := rfl
  rw [functionName?, hstart]
  exact nameBetween?_of_not_isCode (by decide) h _

theorem readRule?_of_not_isCode (h : isCode line = false) : readRule? line = none := by
  rw [readRule?]
  cases hcs : behindBlanks? 16 line with
  | none => rfl
  | some cs =>
    obtain ⟨c, hc, hmark⟩ := head_behindBlanks? (by decide) h hcs
    obtain ⟨rest, rfl⟩ := List.head?_eq_some_iff.mp hc
    have hne : ('(' == c) = false := by
      rw [beq_eq_false_iff_ne]
      rintro rfl
      exact absurd hmark (by decide)
    simp [List.isPrefixOf?, hne]

theorem readMapping?_of_not_isCode (h : isCode line = false) : readMapping? line = none := by
  rw [readMapping?]
  cases hcs : behindBlanks? 8 line with
  | none => rfl
  | some cs =>
    obtain ⟨c, hc, hmark⟩ := head_behindBlanks? (by decide) h hcs
    refine Filter.Expression.ofText?_eq_none ?_
    rw [String.toList_ofList]
    intro d hd hletter
    rw [Option.some.inj (hc.symm.trans hd)] at hmark
    simp only [Filter.Expression.firstLetters, List.mem_cons, List.not_mem_nil, or_false] at hletter
    rcases hletter with rfl | rfl | rfl | rfl <;> exact absurd hmark (by decide)

theorem signature?_of_not_isCode (h : isCode line = false) : signature? line = none := by
  have hname : nameBehind? "    fn " line.toList = none := nameBehind?_of_not_isCode (by decide) h
  rw [signature?, hname]
  rfl

theorem labelBehind?_of_not_isCode (hcs : startsOther cs = true) (h : isCode line = false) :
    labelBehind? (String.ofList cs) line = none := by
  rw [labelBehind?, nameBehind?_of_not_isCode hcs h]

theorem labelBehind?_spaces_of_not_isCode (h : isCode line = false) :
    labelBehind? "            " line = none := by
  rw [labelBehind?]
  split
  · next name rest hfound =>
    obtain ⟨c, hc, hmark⟩ := nameBehind?_spaces_of_not_isCode (n := 12) (by decide) h hfound
    rw [← Option.some.inj hc] at hmark
    exact absurd hmark (by decide)
  · rfl

/-- The expression of an entry of the index stands behind nothing but spaces. -/
theorem nameBetween?_spaces_of_not_isCode (h : isCode line = false) :
    nameBetween? "            " "::mapping()," line = none := by
  rw [nameBetween?]
  cases hfound : nameBehind? "            " line.toList with
  | none => rfl
  | some found =>
    obtain ⟨c, hc, hmark⟩ := nameBehind?_spaces_of_not_isCode (n := 12) (by decide) h hfound
    have hstop : found.2 ≠ "::mapping(),".toList := by
      intro hstop
      rw [hstop] at hc
      rw [← Option.some.inj hc] at hmark
      exact absurd hmark (by decide)
    rw [Option.bind_some, if_neg hstop]

/-! ### Readers of many lines -/

/-- A reader of lines that takes no notice of what is no code. -/
theorem filterMap_filter_isCode {β : Type} {read : String → Option β}
    (h : ∀ line, isCode line = false → read line = none) (ls : List String) :
    (ls.filter isCode).filterMap read = ls.filterMap read := by
  rw [List.filterMap_filter]
  refine List.filterMap_congr fun line _ => ?_
  cases hline : isCode line with
  | true => rfl
  | false => exact (h line hline).symm

/-- Up to a line of code, the code of lines is that of the lines up to there. -/
theorem takeWhile_ne_filter_isCode {stop : String} (h : isCode stop = true) (ls : List String) :
    (ls.filter isCode).takeWhile (· ≠ stop) = (ls.takeWhile (· ≠ stop)).filter isCode := by
  rw [List.takeWhile_filter]
  congr 2
  funext line
  by_cases hline : line = stop
  · simp [hline, h]
  · simp [hline]

theorem dropWhile_ne_filter_isCode {stop : String} (h : isCode stop = true) (ls : List String) :
    (ls.filter isCode).dropWhile (· ≠ stop) = (ls.dropWhile (· ≠ stop)).filter isCode := by
  rw [List.dropWhile_filter]
  congr 2
  funext line
  by_cases hline : line = stop
  · simp [hline, h]
  · simp [hline]

/-- The code of the module of a name is what the module has in the code. -/
theorem innerLines_filter_isCode (hopening : isCode (innerOpening name) = true) (ls : List String) :
    innerLines name (ls.filter isCode) = (innerLines name ls).filter isCode := by
  have hdrop : ((ls.dropWhile (· ≠ innerOpening name)).filter isCode).drop 1 =
      ((ls.dropWhile (· ≠ innerOpening name)).drop 1).filter isCode := by
    cases hlines : ls.dropWhile (· ≠ innerOpening name) with
    | nil => rfl
    | cons line rest =>
      -- the first of the lines that are left is the one that opens the module
      have hline : line = innerOpening name := by
        have hhead := List.head?_dropWhile_not (fun line => decide (line ≠ innerOpening name)) ls
        rw [hlines] at hhead
        simpa using hhead
      rw [hline, List.filter_cons_of_pos hopening]
      rfl
  rw [innerLines, dropWhile_ne_filter_isCode hopening, hdrop,
    takeWhile_ne_filter_isCode (by decide), innerLines]

/-- The functions with rules are read off the code. -/
theorem ruleFunctions_filter_isCode (ls : List String) :
    ruleFunctions (ls.filter isCode) = ruleFunctions ls := by
  induction ls with
  | nil => rfl
  | cons line ls ih =>
    cases hline : isCode line with
    | false =>
      rw [List.filter_cons_of_neg (by simp [hline]), ih, ruleFunctions,
        functionName?_of_not_isCode hline]
    | true =>
      rw [List.filter_cons_of_pos hline, ruleFunctions, ruleFunctions, ih,
        takeWhile_ne_filter_isCode (by decide),
        filterMap_filter_isCode fun _ => readRule?_of_not_isCode]

/-- An item without the lines that are no code. -/
def Item.code (i : Item) : Item := ⟨i.header, i.body.filter isCode⟩

/-- The items of the code are those of the lines, without the lines inside them that are no code. -/
theorem items_filter_isCode (h : ∀ line ∈ ls, isCode line = false → opensItem line = false) :
    items (ls.filter isCode) = (items ls).map Item.code := by
  induction ls with
  | nil => rfl
  | cons line ls ih =>
    obtain ⟨hline, hls⟩ := List.forall_mem_cons.mp h
    rw [items]
    cases hcode : isCode line with
    | false =>
      rw [List.filter_cons_of_neg (by simp [hcode]), hline hcode, if_neg Bool.false_ne_true, ih hls]
    | true =>
      rw [List.filter_cons_of_pos hcode, items, takeWhile_ne_filter_isCode (by decide), ih hls]
      cases opensItem line <;> rfl

/-- An item declares what its code declares. -/
theorem declared_code (i : Item) : i.code.declared = i.declared := by
  have hbetween : ∀ {cs : List Char} (stop : String), startsOther cs = true →
      (i.body.filter isCode).filterMap (nameBetween? (String.ofList cs) stop) =
        i.body.filterMap (nameBetween? (String.ofList cs) stop) := fun stop hcs =>
    filterMap_filter_isCode (fun _ hline => nameBetween?_of_not_isCode hcs hline stop) i.body
  have hindex : indexNames (i.body.filter isCode) = indexNames i.body := by
    rw [indexNames, indexNames, filterMap_filter_isCode fun _ => nameBetween?_spaces_of_not_isCode]
    congr 1
    · exact hbetween _ (by decide)
    · exact hbetween _ (by decide)
  have hdispatch : dispatchNames (i.body.filter isCode) = dispatchNames i.body := by
    rw [dispatchNames, dispatchNames]
    congr 1
    · exact hbetween _ (by decide)
    · exact hbetween _ (by decide)
    · exact hbetween _ (by decide)
  have hmembers : (i.body.filter isCode).filterMap (labelBehind? "    pub ") =
      i.body.filterMap (labelBehind? "    pub ") :=
    filterMap_filter_isCode (fun _ => labelBehind?_of_not_isCode (by decide)) i.body
  rw [Item.declared, Item.declared, Item.code]
  simp only [hindex, hdispatch, hmembers, filterMap_filter_isCode fun _ => signature?_of_not_isCode,
    filterMap_filter_isCode fun _ => readMapping?_of_not_isCode,
    filterMap_filter_isCode fun _ => labelBehind?_spaces_of_not_isCode]

/-- Written lines that are no code open no item. -/
theorem IsWritten.not_opensItem (h : IsWritten line) (hcode : isCode line = false) :
    opensItem line = false := by
  rcases isCode_eq_false_iff.mp hcode with rfl | hcomment
  · rfl
  · obtain ⟨c, hc, hmark⟩ := h.head_of_isComment hcomment
    rw [opensItem, hc]
    rcases hmark with rfl | rfl <;> simp

/-! ### The file of the rows -/

/-- The items of the text of the file of the rows are those of its written lines, without the lines
inside them that are no code, where no text of the schema leaves its comment. -/
theorem items_codeLines (hbreak : BreaksLines isBreak) (hend : isBreak '\n' = true)
    (hbuild : (Artifact.build schema source).result = .ok a) (hm : rowModule a = .ok m)
    (htexts : ∀ text ∈ commentTexts a, ContinuesComment isBreak text) :
    items (codeLines isBreak (unlines (rowFileLines a.source m))) =
      (items (rowFileLines a.source m)).map Item.code := by
  have hb : IsBuilt schema a := isBuilt_of_build hbuild
  have h : IsRowModule a m := isRowModule_of_rowModule hm
  have hwritten := isWritten_rowFileLines hb h
  have hstays : ∀ line ∈ rowFileLines a.source m, StaysComment isBreak line := by
    simp only [commentTexts, List.forall_mem_append, List.forall_mem_map] at htexts
    exact (staysComment_rowFileLines_iff hbreak hb h).mpr ⟨htexts.1.2, htexts.2⟩
  rw [codeLines_unlines hbreak hend hwritten hstays]
  exact items_filter_isCode fun line hline => (hwritten line hline).not_opensItem

/-- The text of the file of the rows declares what is read off its written lines. -/
theorem declarations_codeLines (hbreak : BreaksLines isBreak) (hend : isBreak '\n' = true)
    (hbuild : (Artifact.build schema source).result = .ok a) (hm : rowModule a = .ok m)
    (htexts : ∀ text ∈ commentTexts a, ContinuesComment isBreak text) :
    declarations (codeLines isBreak (unlines (rowFileLines a.source m))) =
      declarations (rowFileLines a.source m) := by
  rw [declarations, declarations, items_codeLines hbreak hend hbuild hm htexts, List.map_map]
  exact List.map_congr_left fun i _ => declared_code i

/-! ### The module of a layer -/

/-- The code in the text of the module of a layer is that in its written lines, where no text of the
layer leaves its comment. -/
theorem codeLines_layerModule (hbreak : BreaksLines isBreak) (hend : isBreak '\n' = true)
    (htexts : ∀ text ∈ layerTexts l, ContinuesComment isBreak text) :
    codeLines isBreak (unlines (layerModule l).lines) = (layerModule l).lines.filter isCode :=
  codeLines_unlines hbreak hend (isWritten_layerLines (hasNames_layerModule l))
    ((staysComment_layerLines_iff hbreak l).mpr htexts)

/-- The text of a module inside declares the constants that are read off its written lines. -/
theorem filterMap_constant?_codeLines (hbreak : BreaksLines isBreak) (hend : isBreak '\n' = true)
    (htexts : ∀ text ∈ layerTexts l, ContinuesComment isBreak text)
    (hopening : isCode (innerOpening name) = true) :
    (innerLines name (codeLines isBreak (unlines (layerModule l).lines))).filterMap constant? =
      (innerLines name (layerModule l).lines).filterMap constant? := by
  rw [codeLines_layerModule hbreak hend htexts, innerLines_filter_isCode hopening,
    filterMap_filter_isCode fun _ => constant?_of_not_isCode]

/-- The text of a module inside declares the functions that are read off its written lines. -/
theorem ruleFunctions_codeLines (hbreak : BreaksLines isBreak) (hend : isBreak '\n' = true)
    (htexts : ∀ text ∈ layerTexts l, ContinuesComment isBreak text)
    (hopening : isCode (innerOpening name) = true) :
    ruleFunctions (innerLines name (codeLines isBreak (unlines (layerModule l).lines))) =
      ruleFunctions (innerLines name (layerModule l).lines) := by
  rw [codeLines_layerModule hbreak hend htexts, innerLines_filter_isCode hopening,
    ruleFunctions_filter_isCode]

/-- Whatever the values of the fields hold, the code of the first module inside is what their comments
and constants come to, up to a line that closes it. -/
theorem exists_innerLines_fields_eq (hbreak : BreaksLines isBreak) (hend : isBreak '\n' = true)
    (hid : ContinuesComment isBreak l.id) :
    ∃ rest, innerLines "fields" (codeLines isBreak (unlines (layerModule l).lines)) =
      ((((layerModule l).fields.flatMap fieldLines).map (indent 2)).flatMap (codeLines isBreak) ++
        innerClosing :: rest).takeWhile (· ≠ innerClosing) := by
  have hident : IsName (layerModule l).ident := (hasNames_layerModule l).ident
  have hfront : (layerFront (layerModule l)).flatMap (codeLines isBreak) =
      (layerFront (layerModule l)).filter isCode := by
    apply flatMap_codeLines hbreak
    · exact (forall_layerFront_iff (fun _ hs => hs.isWritten) hident).mpr
        ((isWritten_comment (by decide) _ _).indent 1)
    · rw [forall_layerFront_iff (fun _ hs => hs.staysComment hbreak) hident,
        staysComment_indent_iff hbreak]
      exact (staysComment_text_iff hbreak (by decide) (by decide) l.id).mpr hid
  have hplain : ∀ {s}, IsPlainText s → codeLines isBreak s = [s].filter isCode := fun hs =>
    codeLines_eq hbreak hs.isWritten (hs.staysComment hbreak)
  have hopening : codeLines isBreak (innerOpening "fields") = [innerOpening "fields"] :=
    hplain (IsPlainText.indent ((isPlainText_ofList (by decide)).between (by decide) (by decide)) 1)
  have hclosing : codeLines isBreak innerClosing = [innerClosing] :=
    hplain (IsPlainText.indent (isPlainText_ofList (by decide)) 1)
  have hne : ∀ line ∈ (layerFront (layerModule l)).filter isCode, line ≠ innerOpening "fields" :=
    fun line hline => ne_innerOpening_of_mem_layerFront _ _ line (List.mem_of_mem_filter hline)
  rw [codeLines_unlines_eq_flatMap hend, lines_eq, List.flatMap_append, List.flatMap_cons,
    List.flatMap_append, List.flatMap_cons, hfront, hopening, hclosing, innerLines_append hne,
    innerLines, List.singleton_append, List.dropWhile_cons_of_neg (by simp), List.drop_one,
    List.tail_cons, List.singleton_append]
  exact ⟨_, rfl⟩

/-- The text of the module of each layer stands in the file of the layers. -/
theorem exists_layerFile_eq_append (hrender : (Artifact.render .code a).result = .ok files)
    (hl : l ∈ a.layers) :
    ∃ before after, ⟨"schema.rs", before ++ unlines (layerModule l).lines ++ after⟩ ∈ files := by
  obtain ⟨m, -, rfl⟩ := exists_lines_of_render hrender
  obtain ⟨front, back, hlines⟩ :
      (layerModule l).lines <:+: layerFileLines a (a.layers.map layerModule) := by
    have hmem : "" :: (layerModule l).lines ∈ (a.layers.map layerModule).map fun m => "" :: m.lines :=
      List.mem_map_of_mem (List.mem_map_of_mem hl)
    have hmodules := (List.suffix_cons _ _).isInfix.trans (List.infix_of_mem_flatten hmem)
    rw [layerFileLines, List.flatMap_def]
    exact hmodules.trans (List.suffix_append _ _).isInfix
  refine ⟨unlines front, unlines back, ?_⟩
  rw [← hlines, unlines_append, unlines_append]
  exact List.mem_cons_self

end TileSchema.Code
