import TileSchema.Code.RowsText
import TileSchema.Proofs.Text.Identifier
import TileSchema.Proofs.Text.Quoted

/-!
# Items of a generated file

What a generated file declares is read off the strings that are written as its lines.  A text of the
schema can break such a string, but only inside of a comment, and what its text declares then is told
apart from this (`items_codeLines`).

An item is opened by a line that ends in an opening brace and starts with no space, and goes to the
next line that is nothing but a closing brace; the lines inside it are shifted.  Comments and
attributes open nothing.  What an item declares is told by its first line (`headingOf`), and its
members and methods by the lines inside it.

Names are read as far as their characters go, so a declaration of a name is read back whatever
stands behind the name (`nameBehind?_eq`).  An item in front of other lines is the first item read
(`items_lines_append`), and lines that open nothing do not matter (`items_append_of_not_opensItem`).
-/

namespace TileSchema.Code

open Text (isNameChar)

variable {header line start name : String} {ls rest : List String}

/-! ### Reading items -/

/-- An item: the line that opens it and the lines inside it. -/
structure Item where
  header : String
  body : List String
  deriving Repr, DecidableEq

/-- Whether a line opens an item. -/
def opensItem (line : String) : Bool :=
  line.toList.getLast? == some '\x7b' && !line.toList.head?.any (· ∈ [' ', '/', '#'])

/-- The items that lines hold. -/
def items : List String → List Item
  | [] => []
  | line :: lines =>
    if opensItem line then ⟨line, lines.takeWhile (· ≠ "\x7d")⟩ :: items lines else items lines

/-- The lines of an item, the last of which closes it. -/
def Item.lines (i : Item) : List String := i.header :: (i.body ++ ["\x7d"])

/-- A line inside an item is empty or shifted. -/
def IsInner (line : String) : Prop := ∀ c ∈ line.toList.head?, c = ' '

/-- An item can be read if its first line opens it and the other ones are inside. -/
structure Item.IsReadable (i : Item) : Prop where
  opens : opensItem i.header = true
  inner : ∀ line ∈ i.body, IsInner line

theorem IsInner.not_opensItem (h : IsInner line) : opensItem line = false := by
  unfold opensItem
  cases hcs : line.toList with
  | nil => rfl
  | cons c cs =>
    have hc : c = ' ' := h c (by simp [hcs])
    simp [hc]

theorem IsInner.ne_closing (h : IsInner line) : line ≠ "\x7d" := by
  rintro rfl
  exact absurd (h '\x7d' (by simp)) (by decide)

/-- A line is shifted if it starts with a space. -/
def IsShifted (line : String) : Prop := line.toList.head? = some ' '

theorem isShifted_ofList {cs : List Char} : IsShifted (String.ofList (' ' :: cs)) := by
  rw [IsShifted, String.toList_ofList, List.head?_cons]

/-- A shifted line may go on with anything. -/
theorem IsShifted.append (h : IsShifted line) (tail : String) : IsShifted (line ++ tail) := by
  rw [IsShifted, String.toList_append, List.head?_append, h, Option.some_or]

theorem IsShifted.isInner (h : IsShifted line) : IsInner line := by
  intro c hc
  rw [h] at hc
  exact (Option.some.inj hc).symm

theorem isInner_empty : IsInner "" := by simp [IsInner]

theorem isInner_cons (h : IsShifted line) (hls : ∀ line ∈ ls, IsInner line) :
    ∀ line' ∈ line :: ls, IsInner line' :=
  List.forall_mem_cons.mpr ⟨h.isInner, hls⟩

/-- A line that starts well and ends in a brace opens an item. -/
theorem opensItem_append (h : ∃ c ∈ line.toList.head?, c ∉ [' ', '/', '#']) :
    opensItem (line ++ " \x7b") = true := by
  obtain ⟨c, hc, hmark⟩ := h
  have hhead : (line ++ " \x7b").toList.head? = some c := by
    rw [String.toList_append, List.head?_append, hc, Option.some_or]
  have hlast : (line ++ " \x7b").toList.getLast? = some '\x7b' := by simp
  rw [opensItem, hhead, hlast]
  simpa using hmark

/-- A line without names in it opens an item if its characters say so. -/
theorem opensItem_ofList {cs : List Char}
    (h : (cs.getLast? == some '\x7b' && !cs.head?.any (· ∈ [' ', '/', '#'])) = true) :
    opensItem (String.ofList cs) = true := by
  rw [opensItem, String.toList_ofList, h]

/-- A line that ends in another character than a brace opens nothing. -/
theorem not_opensItem_append {cs : List Char} (start : String)
    (h : cs.getLast?.any (· ≠ '\x7b') = true) : opensItem (start ++ String.ofList cs) = false := by
  obtain ⟨c, hc, hbrace⟩ := (Option.any_eq_true _ _).mp h
  have hlast : (start ++ String.ofList cs).toList.getLast? = some c := by
    rw [String.toList_append, String.toList_ofList, List.getLast?_append, hc, Option.some_or]
  have hne : (some c == some '\x7b') = false := by simpa using hbrace
  rw [opensItem, hlast, hne, Bool.false_and]

/-- A line that does not end in a brace opens nothing. -/
theorem not_opensItem_cons {cs : List Char} (h : (cs.getLast? == some '\x7b') = false)
    (hls : ∀ line ∈ ls, opensItem line = false) :
    ∀ line ∈ String.ofList cs :: ls, opensItem line = false := by
  have hline : opensItem (String.ofList cs) = false := by
    rw [opensItem, String.toList_ofList, h, Bool.false_and]
  exact List.forall_mem_cons.mpr ⟨hline, hls⟩

/-- Lines that open nothing do not matter. -/
theorem items_append_of_not_opensItem (h : ∀ line ∈ ls, opensItem line = false) (rest : List String) :
    items (ls ++ rest) = items rest := by
  induction ls with
  | nil => rfl
  | cons line ls ih =>
    obtain ⟨hline, hls⟩ := List.forall_mem_cons.mp h
    rw [List.cons_append, items, hline, if_neg Bool.false_ne_true, ih hls]

/-- An empty line does not matter. -/
theorem items_cons_empty (rest : List String) : items ("" :: rest) = items rest := by
  have hempty : ∀ line ∈ [""], opensItem line = false := by simp [opensItem]
  exact items_append_of_not_opensItem hempty rest

/-- The lines of an item in front of others are read as this item. -/
theorem items_lines_append {i : Item} (h : i.IsReadable) (rest : List String) :
    items (i.lines ++ rest) = i :: items rest := by
  have hbody : ∀ line ∈ i.body, decide (line ≠ "\x7d") = true :=
    fun line hline => decide_eq_true (h.inner line hline).ne_closing
  have hnothing : ∀ line ∈ i.body ++ ["\x7d"], opensItem line = false := by
    rw [List.forall_mem_append, List.forall_mem_singleton]
    exact ⟨fun line hline => (h.inner line hline).not_opensItem, by decide⟩
  rw [Item.lines, List.cons_append, items, if_pos h.opens, items_append_of_not_opensItem hnothing,
    List.append_assoc, List.takeWhile_append_of_pos hbody]
  simp

/-- Items that follow each other are read one after the other. -/
theorem items_flatMap_append {α : Type} {f : α → List String} {g : α → List Item}
    (h : ∀ x, ∀ rest, items (f x ++ rest) = g x ++ items rest) (xs : List α) (rest : List String) :
    items (xs.flatMap f ++ rest) = xs.flatMap g ++ items rest := by
  induction xs with
  | nil => rfl
  | cons x xs ih => rw [List.flatMap_cons, List.flatMap_cons, List.append_assoc, h, ih, List.append_assoc]

/-! ### Reading names -/

@[simp] theorem isNameChar_space : isNameChar ' ' = false := by decide

/-- A text is a name if it consists of characters of declared names. -/
def IsName (s : String) : Prop := ∀ c ∈ s.toList, isNameChar c = true

/-- Fixed characters of names make a name. -/
theorem isName_ofList {cs : List Char} (h : cs.all isNameChar = true) : IsName (String.ofList cs) := by
  rw [IsName, String.toList_ofList]
  exact List.all_eq_true.mp h

theorem isName_upperCamel (name : String) : IsName (Text.upperCamel name) :=
  fun c hc => Text.isNameChar_of_isWordChar (Text.isWordChar_of_mem_upperCamel c hc)

theorem isName_snakeIdent (name : String) : IsName (Text.snakeIdent name) :=
  Text.isNameChar_of_mem_snakeIdent

theorem isName_constantCase (name : String) : IsName (Text.constantCase name) :=
  Text.isNameChar_of_mem_constantCase

theorem IsName.append {s t : String} (hs : IsName s) (ht : IsName t) : IsName (s ++ t) := by
  rw [IsName, String.toList_append, List.forall_mem_append]
  exact ⟨hs, ht⟩

/-- The name that stands behind a text, and what follows it. -/
def nameBehind? (start : String) (cs : List Char) : Option (String × List Char) :=
  (start.toList.isPrefixOf? cs).map fun cs =>
    (String.ofList (cs.takeWhile isNameChar), cs.dropWhile isNameChar)

/-- The name that stands between two texts. -/
def nameBetween? (start stop line : String) : Option String :=
  (nameBehind? start line.toList).bind fun found =>
    if found.2 = stop.toList then some found.1 else none

theorem isPrefixOf?_append (xs ys : List Char) : xs.isPrefixOf? (xs ++ ys) = some ys :=
  List.isPrefixOf?_eq_some_iff_append_eq.mpr rfl

/-- A name is read as far as its characters go. -/
theorem nameBehind?_eq {cs rest : List Char} (hcs : cs = start.toList ++ (name.toList ++ rest))
    (hname : IsName name) (hrest : ∀ c ∈ rest.head?, ¬ isNameChar c = true) :
    nameBehind? start cs = some (name, rest) := by
  have hbehind : ∀ c ∈ rest.head?, isNameChar c = false :=
    fun c hc => Bool.eq_false_iff.mpr (hrest c hc)
  rw [nameBehind?, hcs, isPrefixOf?_append, Option.map_some, Text.takeWhile_run hname hbehind,
    Text.dropWhile_run hname hbehind, String.ofList_toList]

/-- A name between two texts is read, if the second one does not go on with it. -/
theorem nameBetween?_eq {stop : String} (hline : line = start ++ name ++ stop) (hname : IsName name)
    (hstop : ∀ c ∈ stop.toList.head?, ¬ isNameChar c = true) :
    nameBetween? start stop line = some name := by
  have hcs : line.toList = start.toList ++ (name.toList ++ stop.toList) := by simp [hline]
  rw [nameBetween?, nameBehind?_eq hcs hname hstop, Option.bind_some, if_pos rfl]

/-- A text is not in front of a line that goes another way. -/
theorem isPrefixOf?_eq_none {cs ds : List Char} {tail : String}
    (hline : line = String.ofList ds ++ tail) (h : ¬ cs <+: ds ∧ ¬ ds <+: cs) :
    cs.isPrefixOf? line.toList = none := by
  refine Option.eq_none_iff_forall_ne_some.mpr fun rest hrest => ?_
  have hcs : cs <+: ds ++ tail.toList := by
    rw [List.isPrefixOf?_eq_some_iff_append_eq, hline, String.toList_append,
      String.toList_ofList] at hrest
    exact ⟨rest, hrest⟩
  rcases List.prefix_or_prefix_of_prefix hcs (List.prefix_append ds tail.toList) with hcs | hds
  · exact h.1 hcs
  · exact h.2 hds

/-- A line that goes another way than a text has no name behind it. -/
theorem nameBehind?_eq_none {cs ds : List Char} {tail : String}
    (hline : line = String.ofList ds ++ tail) (h : ¬ cs <+: ds ∧ ¬ ds <+: cs) :
    nameBehind? (String.ofList cs) line.toList = none := by
  rw [nameBehind?, String.toList_ofList, isPrefixOf?_eq_none hline h, Option.map_none]

theorem nameBetween?_eq_none {cs ds : List Char} {stop tail : String}
    (hline : line = String.ofList ds ++ tail) (h : ¬ cs <+: ds ∧ ¬ ds <+: cs) :
    nameBetween? (String.ofList cs) stop line = none := by
  rw [nameBetween?, nameBehind?_eq_none hline h, Option.bind_none]

theorem nameBetween?_ofList {cs ds : List Char} {stop : String} (h : ¬ cs <+: ds ∧ ¬ ds <+: cs) :
    nameBetween? (String.ofList cs) stop (String.ofList ds) = none :=
  nameBetween?_eq_none String.append_empty.symm h

/-- Reading names behind a text skips a line that goes another way. -/
theorem filterMap_skip {cs ds : List Char} {stop : String} (h : ¬ cs <+: ds ∧ ¬ ds <+: cs) :
    (String.ofList ds :: ls).filterMap (nameBetween? (String.ofList cs) stop) =
      ls.filterMap (nameBetween? (String.ofList cs) stop) :=
  List.filterMap_cons_none (nameBetween?_ofList h)

/-- Reading names behind a text skips a line that starts another way. -/
theorem filterMap_skip_append {cs ds : List Char} {stop : String} (h : ¬ cs <+: ds ∧ ¬ ds <+: cs)
    (s t : String) :
    ((String.ofList ds ++ s ++ t) :: ls).filterMap (nameBetween? (String.ofList cs) stop) =
      ls.filterMap (nameBetween? (String.ofList cs) stop) :=
  List.filterMap_cons_none (nameBetween?_eq_none String.append_assoc h)

/-- A line that goes on with neither a name nor the second text has no name between them. -/
theorem nameBetween?_eq_none_of_head {stop tail : String} {c : Char}
    (hline : line = start ++ tail) (hc : tail.toList.head? = some c)
    (hname : isNameChar c = false) (hstop : stop.toList.head? ≠ some c) :
    nameBetween? start stop line = none := by
  have hcs : line.toList = start.toList ++ ("".toList ++ tail.toList) := by simp [hline]
  have hempty : IsName "" := isName_ofList rfl
  have hbehind := nameBehind?_eq hcs hempty (by simp [hc, hname])
  have htail : tail.toList ≠ stop.toList := by
    intro heq
    exact hstop (heq ▸ hc)
  rw [nameBetween?, hbehind, Option.bind_some, if_neg htail]

/-! ### What an item declares -/

/-- What the first line of an item declares. -/
inductive Heading where
  | structure_ (name : String)
  | trait (name : String)
  | function (name : String)
  /-- The functions of a type. -/
  | functions (type : String)
  /-- The implementation of a trait by a type. -/
  | implementation (trait type : String)
  /-- A function whose signature takes several lines is opened by the last of them. -/
  | other
  deriving Repr, DecidableEq

/-- The declaration in the first line of an item. -/
def headingOf (header : String) : Heading :=
  let cs := header.toList
  match nameBehind? "pub struct " cs, nameBehind? "pub trait " cs, nameBehind? "pub fn " cs,
      nameBehind? "impl " cs with
  | some (name, _), _, _, _ => .structure_ name
  | none, some (name, _), _, _ => .trait name
  | none, none, some (name, _), _ => .function name
  | none, none, none, some (name, rest) =>
    match nameBehind? " for " rest with
    | some (type, _) => .implementation name type
    | none => .functions name
  | none, none, none, none => .other

theorem headingOf_structure (h : IsName name) :
    headingOf ("pub struct " ++ name ++ " \x7b") = .structure_ name := by
  have hname : nameBehind? "pub struct " ("pub struct " ++ name ++ " \x7b").toList =
      some (name, [' ', '\x7b']) := nameBehind?_eq (by simp) h (by simp)
  rw [headingOf, hname]

theorem headingOf_trait (h : IsName name) :
    headingOf ("pub trait " ++ name ++ " \x7b") = .trait name := by
  have hname : nameBehind? "pub trait " ("pub trait " ++ name ++ " \x7b").toList =
      some (name, [' ', '\x7b']) := nameBehind?_eq (by simp) h (by simp)
  have hstructure : nameBehind? "pub struct " ("pub trait " ++ name ++ " \x7b").toList = none :=
    nameBehind?_eq_none String.append_assoc (by decide)
  rw [headingOf, hstructure, hname]

/-- The header of an implementation starts with none of the other words. -/
theorem nameBehind?_impl (rest : String) :
    nameBehind? "pub struct " ("impl " ++ rest).toList = none ∧
      nameBehind? "pub trait " ("impl " ++ rest).toList = none ∧
      nameBehind? "pub fn " ("impl " ++ rest).toList = none :=
  ⟨nameBehind?_eq_none rfl (by decide), nameBehind?_eq_none rfl (by decide),
    nameBehind?_eq_none rfl (by decide)⟩

theorem headingOf_functions (h : IsName name) :
    headingOf ("impl " ++ name ++ " \x7b") = .functions name := by
  obtain ⟨hstructure, htrait, hfunction⟩ := nameBehind?_impl (name ++ " \x7b")
  have hname : nameBehind? "impl " ("impl " ++ (name ++ " \x7b")).toList =
      some (name, [' ', '\x7b']) := nameBehind?_eq (by simp) h (by simp)
  have hfor : nameBehind? " for " [' ', '\x7b'] = none := by decide
  rw [headingOf, String.append_assoc, hstructure, htrait, hfunction, hname]
  simp only [hfor]

theorem headingOf_implementation {trait type : String} (htrait : IsName trait) (htype : IsName type) :
    headingOf ("impl " ++ trait ++ " for " ++ type ++ " \x7b") = .implementation trait type := by
  obtain ⟨hstructure, htraits, hfunction⟩ :=
    nameBehind?_impl (trait ++ (" for " ++ (type ++ " \x7b")))
  have hname : nameBehind? "impl " ("impl " ++ (trait ++ (" for " ++ (type ++ " \x7b")))).toList =
      some (trait, " for ".toList ++ (type.toList ++ [' ', '\x7b'])) :=
    nameBehind?_eq (by simp) htrait (by simp)
  have hfor : nameBehind? " for " (" for ".toList ++ (type.toList ++ [' ', '\x7b'])) =
      some (type, [' ', '\x7b']) := nameBehind?_eq rfl htype (by simp)
  rw [headingOf, String.append_assoc, String.append_assoc, String.append_assoc, hstructure, htraits,
    hfunction, hname]
  simp only [hfor]

end TileSchema.Code
