import TileSchema.Proofs.Code.RowItems

/-!
# The items of the file of the rows

The file of the rows is read back item by item: first what all rows share, then the row types, the
accessor traits, the index of rows, the trait of subscribers and the dispatch
(`items_rowFileLines`).  What is read off these items is what the module of rows holds
(`declared_rowFileLines`).  From here on the written lines do not matter any more, and
`declarations_codeLines` says when the text of the file declares the same.
-/

namespace TileSchema.Code

open Text (isNameChar)

variable {m : RowModule}

/-! ### What all rows share -/

/-- The row trait. -/
def rowTraitItem : Item where
  header := "pub trait Row: WithSource \x7b"
  body := ["    fn as_any(&self) -> &dyn Any;"]

/-- The entry of the index of rows. -/
def constructorItem : Item where
  header := "pub struct RowConstructor \x7b"
  body := ["    pub table: &'static str,", "    pub create: Constructor,"]

theorem declared_rowTraitItem :
    rowTraitItem.declared = .trait "Row" [⟨"as_any", "&dyn Any"⟩] := by
  rfl

theorem declared_constructorItem :
    constructorItem.declared = .structure_ "RowConstructor" ["table", "create"] := by
  rfl

/-- The notice of the schema holds no items. -/
theorem items_preamble_append (rest : List String) : items (preamble ++ rest) = items rest := by
  have hnotice : ∀ line ∈ preamble, opensItem line = false := by
    unfold preamble noticeLines warningLine
    simp only [List.cons_append, List.nil_append]
    repeat refine not_opensItem_cons (by decide) ?_
    exact List.forall_mem_nil _
  exact items_append_of_not_opensItem hnotice rest

/-- The comments and imports in front of the row trait open nothing. -/
theorem not_opensItem_sharedLines (source : String) :
    ∀ line ∈ (sharedLines source).take 17, opensItem line = false := by
  have hsource : opensItem ("//! OpenMapTiles schema " ++ Text.oneLine source ++ ".") = false :=
    not_opensItem_append _ (by decide)
  have himports : opensItem expressionImports = false := not_opensItem_append _ (by decide)
  simp only [sharedLines, lintLine, List.take_succ_cons, List.take_zero]
  refine not_opensItem_cons (by decide) ?_
  refine List.forall_mem_cons.mpr ⟨hsource, ?_⟩
  iterate 11 refine not_opensItem_cons (by decide) ?_
  refine List.forall_mem_cons.mpr ⟨himports, ?_⟩
  repeat refine not_opensItem_cons (by decide) ?_
  exact List.forall_mem_nil _

/-- What all rows share are two items. -/
theorem items_sharedLines_append (source : String) (rest : List String) :
    items (sharedLines source ++ rest) = [rowTraitItem, constructorItem] ++ items rest := by
  have hsplit : sharedLines source ++ rest = (sharedLines source).take 17 ++
      (rowTraitItem.lines ++ (((sharedLines source).drop 20).take 5 ++
        (constructorItem.lines ++ ((sharedLines source).drop 29 ++ rest)))) := rfl
  have hrow : rowTraitItem.IsReadable :=
    ⟨opensItem_ofList (by decide), isInner_cons isShifted_ofList (List.forall_mem_nil _)⟩
  have hconstructor : constructorItem.IsReadable :=
    ⟨opensItem_ofList (by decide),
      isInner_cons isShifted_ofList (isInner_cons isShifted_ofList (List.forall_mem_nil _))⟩
  have hbetween : ∀ line ∈ ((sharedLines source).drop 20).take 5, opensItem line = false := by
    simp only [sharedLines, List.drop_succ_cons, List.drop_zero, List.take_succ_cons, List.take_zero]
    repeat refine not_opensItem_cons (by decide) ?_
    exact List.forall_mem_nil _
  have hbehind : ∀ line ∈ (sharedLines source).drop 29, opensItem line = false := by
    simp only [sharedLines, List.drop_succ_cons, List.drop_zero]
    repeat refine not_opensItem_cons (by decide) ?_
    exact List.forall_mem_nil _
  rw [hsplit, items_append_of_not_opensItem (not_opensItem_sharedLines source),
    items_lines_append hrow, items_append_of_not_opensItem hbetween,
    items_lines_append hconstructor, items_append_of_not_opensItem hbehind]
  rfl

/-! ### Accessor traits -/

/-- An accessor trait. -/
def accessorItem (d : AccessorDeclaration) : Item where
  header := "pub trait " ++ d.trait ++ " \x7b"
  body := ["    fn " ++ d.method ++ "(&self) -> " ++ d.type ++ ";"]

theorem isReadable_accessorItem (d : AccessorDeclaration) : (accessorItem d).IsReadable where
  opens := opensItem_append (by simp)
  inner := by
    have hmethod : IsShifted ("    fn " ++ d.method) := isShifted_ofList.append d.method
    exact isInner_cons (((hmethod.append _).append d.type).append _) (List.forall_mem_nil _)

theorem items_accessorLines_append (d : AccessorDeclaration) (rest : List String) :
    items (d.lines ++ rest) = [accessorItem d] ++ items rest := by
  have hsplit : d.lines ++ rest = ["", accessorDoc d] ++ ((accessorItem d).lines ++ rest) := by
    simp [AccessorDeclaration.lines, accessorItem, Item.lines]
  have hdoc : ∀ line ∈ ["", accessorDoc d], opensItem line = false := by
    have hfield : opensItem (accessorDoc d) = false := by
      unfold accessorDoc
      exact not_opensItem_append _ (by decide)
    rw [List.forall_mem_cons, List.forall_mem_singleton]
    exact ⟨by decide, hfield⟩
  rw [hsplit, items_append_of_not_opensItem hdoc, items_lines_append (isReadable_accessorItem d),
    List.singleton_append]

theorem declared_accessorItem {d : AccessorDeclaration} (h : IsName d.trait ∧ IsName d.method) :
    (accessorItem d).declared = .trait d.trait [⟨d.method, d.type⟩] := by
  have hmethods : (accessorItem d).body.filterMap signature? = [⟨d.method, d.type⟩] := by
    have hmethod := signature?_eq h.2 (Or.inl rfl)
      (rfl : "    fn " ++ d.method ++ "(&self) -> " ++ d.type ++ ";" = _)
    simp only [accessorItem, List.filterMap_cons, hmethod, List.filterMap_nil]
  have hheading : headingOf (accessorItem d).header = .trait d.trait := headingOf_trait h.1
  simp only [Item.declared, hheading, hmethods]

/-! ### The index of rows -/

/-- The index of rows. -/
def indexItem (entries : List String) : Item where
  header := "pub fn mappings() -> MultiExpression<RowConstructor> \x7b"
  body := "    MultiExpression::of(vec![" :: entries.flatMap entryLines ++ ["    ])"]

theorem isReadable_indexItem (entries : List String) : (indexItem entries).IsReadable where
  opens := opensItem_ofList (by decide)
  inner := by
    have hentry : ∀ n, ∀ line ∈ entryLines n, IsInner line := by
      intro n
      iterate 2 refine isInner_cons isShifted_ofList ?_
      iterate 2 refine isInner_cons ((isShifted_ofList.append n).append _) ?_
      refine isInner_cons isShifted_ofList (isInner_cons ((isShifted_ofList.append n).append _) ?_)
      exact isInner_cons isShifted_ofList (List.forall_mem_nil _)
    rw [indexItem, List.cons_append]
    refine isInner_cons isShifted_ofList (List.forall_mem_append.mpr ⟨?_, ?_⟩)
    · exact List.forall_mem_flatMap.mpr fun n _ => hentry n
    · exact isInner_cons isShifted_ofList (List.forall_mem_nil _)

theorem items_indexLines_append (entries rest : List String) :
    items (indexLines entries ++ rest) = [indexItem entries] ++ items rest := by
  have hsplit : indexLines entries ++ rest =
      ["", "/// Index choosing the tables an element belongs to from its tags. All matching",
        "/// entries apply."] ++ ((indexItem entries).lines ++ rest) := by
    simp [indexLines, indexItem, Item.lines]
  have hdoc : ∀ line ∈
      ["", "/// Index choosing the tables an element belongs to from its tags. All matching",
        "/// entries apply."], opensItem line = false := by
    repeat refine not_opensItem_cons (by decide) ?_
    exact List.forall_mem_nil _
  rw [hsplit, items_append_of_not_opensItem hdoc, items_lines_append (isReadable_indexItem entries),
    List.singleton_append]

theorem headingOf_indexItem (entries : List String) :
    headingOf (indexItem entries).header = .function "mappings" := by
  simp only [indexItem]
  decide

/-- Where one thing is read off each member, the things are in the order of the members. -/
theorem filterMap_flatMap_eq_map {α β γ : Type} {f : α → List γ} {read : γ → Option β}
    {g : α → β} {xs : List α} (h : ∀ x ∈ xs, (f x).filterMap read = [g x]) :
    (xs.flatMap f).filterMap read = xs.map g := by
  rw [List.filterMap_flatMap, List.map_eq_flatMap]
  exact List.flatMap_congr h

/-- The line with the expression of an entry is not shifted by more than its blanks. -/
theorem exists_mappingLine_eq {n : String} (h : IsName n) :
    ∃ c rest, c ≠ ' ' ∧ "            " ++ n ++ "::mapping()," =
      String.ofList (List.replicate 12 ' ' ++ [c]) ++ rest := by
  obtain ⟨c, cs, hcs, hne⟩ : ∃ c cs, n.toList ++ "::mapping(),".toList = c :: cs ∧ c ≠ ' ' := by
    cases hname : n.toList with
    | nil => exact ⟨':', ":mapping(),".toList, by simp, by decide⟩
    | cons c cs =>
      refine ⟨c, cs ++ "::mapping(),".toList, List.cons_append, ?_⟩
      rintro rfl
      have hspace : isNameChar ' ' = true := h ' ' (by simp [hname])
      simp at hspace
  refine ⟨c, String.ofList cs, hne, ?_⟩
  rw [← String.toList_inj, String.append_assoc, String.toList_append, String.toList_append, hcs]
  simp

/-- The first place of an entry names its row type. -/
theorem filterMap_table_entryLines {n : String} (h : IsName n) :
    (entryLines n).filterMap (nameBetween? "                table: " "::TABLE,") = [n] := by
  obtain ⟨c, rest, hne, hmapping⟩ := exists_mappingLine_eq h
  have htable : nameBetween? "                table: " "::TABLE,"
      ("                table: " ++ n ++ "::TABLE,") = some n :=
    nameBetween?_eq rfl h (by simp [isNameChar, Text.isWordChar])
  rw [entryLines, filterMap_skip (by decide), filterMap_skip (by decide),
    List.filterMap_cons_some htable, filterMap_skip_append (by decide), filterMap_skip (by decide),
    List.filterMap_cons_none (nameBetween?_eq_none hmapping (by simp [List.replicate, hne, hne.symm])),
    filterMap_skip (by decide), List.filterMap_nil]

/-- The second place of an entry names its row type. -/
theorem filterMap_create_entryLines {n : String} (h : IsName n) :
    (entryLines n).filterMap (nameBetween? "                create: |source, key| Box::new("
      "::new(source, key)),") = [n] := by
  obtain ⟨c, rest, hne, hmapping⟩ := exists_mappingLine_eq h
  have hcreate : nameBetween? "                create: |source, key| Box::new("
      "::new(source, key)),"
        ("                create: |source, key| Box::new(" ++ n ++ "::new(source, key)),") = some n :=
    nameBetween?_eq rfl h (by simp [isNameChar, Text.isWordChar])
  rw [entryLines, filterMap_skip (by decide), filterMap_skip (by decide),
    filterMap_skip_append (by decide), List.filterMap_cons_some hcreate,
    filterMap_skip (by decide),
    List.filterMap_cons_none (nameBetween?_eq_none hmapping (by simp [List.replicate, hne, hne.symm])),
    filterMap_skip (by decide), List.filterMap_nil]

/-- The third place of an entry names its row type. -/
theorem filterMap_mapping_entryLines {n : String} (h : IsName n) :
    (entryLines n).filterMap (nameBetween? "            " "::mapping(),") = [n] := by
  have hconstructor : nameBetween? "            " "::mapping()," "            RowConstructor \x7b" =
      none := by
    rfl
  have htable : nameBetween? "            " "::mapping(),"
      ("                table: " ++ n ++ "::TABLE,") = none := by
    have hline : "                table: " ++ n ++ "::TABLE," =
        "            " ++ ("    table: " ++ (n ++ "::TABLE,")) := by simp [← String.append_assoc]
    exact nameBetween?_eq_none_of_head hline (by simp) isNameChar_space (by simp)
  have hcreate : nameBetween? "            " "::mapping(),"
      ("                create: |source, key| Box::new(" ++ n ++ "::new(source, key)),") = none := by
    have hline : "                create: |source, key| Box::new(" ++ n ++ "::new(source, key))," =
        "            " ++ ("    create: |source, key| Box::new(" ++ (n ++ "::new(source, key)),")) := by
      simp [← String.append_assoc]
    exact nameBetween?_eq_none_of_head hline (by simp) isNameChar_space (by simp)
  have hclosing : nameBetween? "            " "::mapping()," "            \x7d," = none := by
    rfl
  have hmapping : nameBetween? "            " "::mapping()," ("            " ++ n ++ "::mapping(),") =
      some n :=
    nameBetween?_eq rfl h (by simp [isNameChar, Text.isWordChar])
  rw [entryLines, filterMap_skip (by decide), List.filterMap_cons_none hconstructor,
    List.filterMap_cons_none htable, List.filterMap_cons_none hcreate,
    List.filterMap_cons_none hclosing, List.filterMap_cons_some hmapping,
    filterMap_skip (by decide), List.filterMap_nil]

/-- What is read off the lines of entries, one name each, is read off the index. -/
theorem filterMap_indexItem {start stop : String} {entries : List String}
    (hentry : ∀ n ∈ entries, (entryLines n).filterMap (nameBetween? start stop) = [n])
    (hfirst : nameBetween? start stop "    MultiExpression::of(vec![" = none)
    (hlast : nameBetween? start stop "    ])" = none) :
    (indexItem entries).body.filterMap (nameBetween? start stop) = entries := by
  rw [indexItem, List.cons_append, List.filterMap_cons_none hfirst, List.filterMap_append,
    filterMap_flatMap_eq_map hentry, List.filterMap_cons_none hlast, List.filterMap_nil,
    List.append_nil, List.map_id']

/-- The index names the row types of its entries in each of three places. -/
theorem declared_indexItem {entries : List String} (h : ∀ n ∈ entries, IsName n) :
    (indexItem entries).declared = .function "mappings" ⟨entries, entries, entries⟩ := by
  have htables := filterMap_indexItem (fun n hn => filterMap_table_entryLines (h n hn))
    (nameBetween?_ofList (by decide))
    (nameBetween?_ofList (by decide))
  have hconstructors := filterMap_indexItem (fun n hn => filterMap_create_entryLines (h n hn))
    (nameBetween?_ofList (by decide))
    (nameBetween?_ofList (by decide))
  have hexpressions := filterMap_indexItem (fun n hn => filterMap_mapping_entryLines (h n hn))
    (nameBetween?_ofList (by decide))
    (nameBetween?_ofList (by decide))
  simp only [Item.declared, headingOf_indexItem, indexNames, htables, hconstructors, hexpressions]

/-! ### Subscribers -/

/-- The trait of subscribers. -/
def subscriberItem (methods : List SubscriberMethod) : Item where
  header := "pub trait " ++ "TableSubscriber" ++ " \x7b"
  body := spaced (methods.map SubscriberMethod.lines)

/-- The lines of groups with empty lines between them are empty or in a group. -/
theorem eq_empty_or_mem_of_mem_spaced {line : String} {groups : List (List String)}
    (h : line ∈ spaced groups) : line = "" ∨ ∃ g ∈ groups, line ∈ g := by
  fun_induction spaced groups with
  | case1 => simp at h
  | case2 g => exact Or.inr ⟨g, by simp, h⟩
  | case3 g gs _ ih =>
    rcases List.mem_append.mp h with hg | hrest
    · exact Or.inr ⟨g, by simp, hg⟩
    · rcases List.mem_cons.mp hrest with rfl | hgs
      · exact Or.inl rfl
      · rcases ih hgs with hempty | ⟨g', hg', hline⟩
        · exact Or.inl hempty
        · exact Or.inr ⟨g', List.mem_cons_of_mem g hg', hline⟩

/-- What is read off groups of lines does not depend on the empty lines between them. -/
theorem filterMap_spaced {α : Type} {read : String → Option α} (h : read "" = none)
    (groups : List (List String)) : (spaced groups).filterMap read = groups.flatten.filterMap read := by
  fun_induction spaced groups with
  | case1 => rfl
  | case2 g => simp
  | case3 g gs _ ih =>
    rw [List.filterMap_append, List.filterMap_cons_none h, ih, List.flatten_cons,
      List.filterMap_append]

theorem isReadable_subscriberItem (methods : List SubscriberMethod) :
    (subscriberItem methods).IsReadable where
  opens := opensItem_append (by simp)
  inner := by
    intro line hline
    have hmethod : ∀ m : SubscriberMethod, ∀ line ∈ m.lines, IsInner line := by
      intro m
      have hfirst : IsShifted ("    fn " ++ m.method) := isShifted_ofList.append m.method
      refine isInner_cons (((hfirst.append _).append m.handler).append _) ?_
      exact isInner_cons isShifted_ofList (isInner_cons isShifted_ofList (List.forall_mem_nil _))
    rcases eq_empty_or_mem_of_mem_spaced hline with rfl | ⟨g, hg, hline⟩
    · exact isInner_empty
    · obtain ⟨m, -, rfl⟩ := List.mem_map.mp hg
      exact hmethod m line hline

theorem items_subscriberLines_append (methods : List SubscriberMethod) (rest : List String) :
    items (subscriberLines methods ++ rest) = [subscriberItem methods] ++ items rest := by
  have hsplit : subscriberLines methods ++ rest =
      ["", "/// Implemented by layers to subscribe to the tables they render. Each method",
        "/// returns the layer's handler for one table, or \x60None\x60 to skip that table."] ++
      ((subscriberItem methods).lines ++ rest) := by
    simp [subscriberLines, subscriberItem, Item.lines]
  have hdoc : ∀ line ∈
      ["", "/// Implemented by layers to subscribe to the tables they render. Each method",
        "/// returns the layer's handler for one table, or \x60None\x60 to skip that table."],
      opensItem line = false := by
    repeat refine not_opensItem_cons (by decide) ?_
    exact List.forall_mem_nil _
  rw [hsplit, items_append_of_not_opensItem hdoc,
    items_lines_append (isReadable_subscriberItem methods), List.singleton_append]

/-- The method of a subscriber, as it is declared. -/
def SubscriberMethod.signature (m : SubscriberMethod) : Signature :=
  ⟨m.method, "Option<&dyn " ++ m.handler ++ ">"⟩

theorem headingOf_subscriberItem (methods : List SubscriberMethod) :
    headingOf (subscriberItem methods).header = .trait "TableSubscriber" := by
  have hname : IsName "TableSubscriber" := isName_ofList (by decide)
  exact headingOf_trait hname

theorem declared_subscriberItem {methods : List SubscriberMethod}
    (h : ∀ m ∈ methods, IsName m.method) :
    (subscriberItem methods).declared =
      .trait "TableSubscriber" (methods.map SubscriberMethod.signature) := by
  have hlines : ∀ m ∈ methods, m.lines.filterMap signature? = [m.signature] := by
    intro m hm
    have hfirst : signature? ("    fn " ++ m.method ++ "(&self) -> Option<&dyn " ++ m.handler ++ "> \x7b") =
        some m.signature := by
      refine signature?_eq (h m hm) (Or.inr rfl) ?_
      rw [← String.toList_inj]
      simp
    have hnone : signature? "        None" = none := by rfl
    have hclosing : signature? "    \x7d" = none := by rfl
    rw [SubscriberMethod.lines, List.filterMap_cons_some hfirst, List.filterMap_cons_none hnone,
      List.filterMap_cons_none hclosing, List.filterMap_nil]
  have hmethods : (subscriberItem methods).body.filterMap signature? =
      methods.map SubscriberMethod.signature := by
    have hempty : signature? "" = none := by rfl
    rw [subscriberItem, filterMap_spaced hempty, ← List.flatMap_def,
      filterMap_flatMap_eq_map hlines]
  simp only [Item.declared, headingOf_subscriberItem, hmethods]

/-! ### The dispatch -/

/-- The dispatch to subscribers, opened by the last line of its signature. -/
def dispatchItem (branches : List DispatchBranch) : Item where
  header := ") -> HashMap<&'static str, Vec<RowHandler<'a>>> \x7b"
  body :=
    ["    let mut result: HashMap<&'static str, Vec<RowHandler<'a>>> = HashMap::new();",
      "    for &subscriber in subscribers \x7b"] ++
    branches.flatMap DispatchBranch.lines ++ ["    \x7d", "    result"]

theorem isReadable_dispatchItem (branches : List DispatchBranch) :
    (dispatchItem branches).IsReadable where
  opens := opensItem_ofList (by decide)
  inner := by
    have hbranch : ∀ b : DispatchBranch, ∀ line ∈ b.lines, IsInner line := by
      intro b
      iterate 2 refine isInner_cons ((isShifted_ofList.append _).append _) ?_
      refine isInner_cons isShifted_ofList (isInner_cons ((isShifted_ofList.append _).append _) ?_)
      repeat refine isInner_cons isShifted_ofList ?_
      exact List.forall_mem_nil _
    rw [dispatchItem, List.append_assoc, List.forall_mem_append, List.forall_mem_append,
      List.forall_mem_flatMap]
    refine ⟨?_, fun b _ => hbranch b, ?_⟩
    · exact isInner_cons isShifted_ofList (isInner_cons isShifted_ofList (List.forall_mem_nil _))
    · exact isInner_cons isShifted_ofList (isInner_cons isShifted_ofList (List.forall_mem_nil _))

theorem items_dispatchLines (branches : List DispatchBranch) :
    items (dispatchLines branches) = [dispatchItem branches] := by
  have hsplit : dispatchLines branches =
      ["", "/// Map from table name to the handlers subscribed to it, in subscriber order.",
        "pub fn dispatch_map<'a>(", "    subscribers: &[&'a dyn TableSubscriber],"] ++
      ((dispatchItem branches).lines ++ []) := by
    simp [dispatchLines, dispatchItem, Item.lines]
  have hsignature : ∀ line ∈
      ["", "/// Map from table name to the handlers subscribed to it, in subscriber order.",
        "pub fn dispatch_map<'a>(", "    subscribers: &[&'a dyn TableSubscriber],"],
      opensItem line = false := by
    repeat refine not_opensItem_cons (by decide) ?_
    exact List.forall_mem_nil _
  rw [hsplit, items_append_of_not_opensItem hsignature,
    items_lines_append (isReadable_dispatchItem branches), items]

theorem headingOf_dispatchItem (branches : List DispatchBranch) :
    headingOf (dispatchItem branches).header = .other := by
  simp only [dispatchItem]
  decide

/-- The first place of a branch names its method. -/
theorem filterMap_method_branchLines {b : DispatchBranch} (h : IsName b.method) :
    b.lines.filterMap (nameBetween? "        if let Some(handler) = subscriber." "() \x7b") =
      [b.method] := by
  have hmethod : nameBetween? "        if let Some(handler) = subscriber." "() \x7b"
      ("        if let Some(handler) = subscriber." ++ b.method ++ "() \x7b") = some b.method :=
    nameBetween?_eq rfl h (by simp [isNameChar, Text.isWordChar])
  rw [DispatchBranch.lines, List.filterMap_cons_some hmethod, filterMap_skip_append (by decide),
    filterMap_skip (by decide), filterMap_skip_append (by decide), filterMap_skip (by decide),
    filterMap_skip (by decide), filterMap_skip (by decide), filterMap_skip (by decide),
    filterMap_skip (by decide), List.filterMap_nil]

/-- The second place of a branch names its row type. -/
theorem filterMap_table_branchLines {b : DispatchBranch} (h : IsName b.rowType) :
    b.lines.filterMap
      (nameBetween? "            result.entry(" "::TABLE).or_default().push(Box::new(") =
        [b.rowType] := by
  have htable : nameBetween? "            result.entry(" "::TABLE).or_default().push(Box::new("
      ("            result.entry(" ++ b.rowType ++ "::TABLE).or_default().push(Box::new(") =
        some b.rowType :=
    nameBetween?_eq rfl h (by simp [isNameChar, Text.isWordChar])
  rw [DispatchBranch.lines, filterMap_skip_append (by decide), List.filterMap_cons_some htable,
    filterMap_skip (by decide), filterMap_skip_append (by decide), filterMap_skip (by decide),
    filterMap_skip (by decide), filterMap_skip (by decide), filterMap_skip (by decide),
    filterMap_skip (by decide), List.filterMap_nil]

/-- The third place of a branch names its row type. -/
theorem filterMap_row_branchLines {b : DispatchBranch} (h : IsName b.rowType) :
    b.lines.filterMap (nameBetween?
      "                    if let Some(row) = row.as_any().downcast_ref::<" ">() \x7b") =
        [b.rowType] := by
  have hrow : nameBetween? "                    if let Some(row) = row.as_any().downcast_ref::<"
      ">() \x7b" ("                    if let Some(row) = row.as_any().downcast_ref::<" ++ b.rowType ++
        ">() \x7b") = some b.rowType :=
    nameBetween?_eq rfl h (by simp [isNameChar, Text.isWordChar])
  rw [DispatchBranch.lines, filterMap_skip_append (by decide), filterMap_skip_append (by decide),
    filterMap_skip (by decide), List.filterMap_cons_some hrow, filterMap_skip (by decide),
    filterMap_skip (by decide), filterMap_skip (by decide), filterMap_skip (by decide),
    filterMap_skip (by decide), List.filterMap_nil]

/-- What is read off the lines of branches, one name each, is read off the dispatch. -/
theorem filterMap_dispatchItem {start stop : String} {branches : List DispatchBranch}
    {name : DispatchBranch → String}
    (hbranch : ∀ b ∈ branches, b.lines.filterMap (nameBetween? start stop) = [name b])
    (hfirst : nameBetween? start stop
      "    let mut result: HashMap<&'static str, Vec<RowHandler<'a>>> = HashMap::new();" = none)
    (hloop : nameBetween? start stop "    for &subscriber in subscribers \x7b" = none)
    (hclosing : nameBetween? start stop "    \x7d" = none)
    (hlast : nameBetween? start stop "    result" = none) :
    (dispatchItem branches).body.filterMap (nameBetween? start stop) = branches.map name := by
  rw [dispatchItem, List.filterMap_append, List.filterMap_append, List.filterMap_cons_none hfirst,
    List.filterMap_cons_none hloop, filterMap_flatMap_eq_map hbranch,
    List.filterMap_cons_none hclosing, List.filterMap_cons_none hlast]
  simp

/-- The dispatch names the methods and the row types of its branches. -/
theorem declared_dispatchItem {branches : List DispatchBranch}
    (h : ∀ b ∈ branches, IsName b.method ∧ IsName b.rowType) :
    (dispatchItem branches).declared = .other ⟨branches.map (·.method), branches.map (·.rowType),
      branches.map (·.rowType)⟩ := by
  have hmethods := filterMap_dispatchItem
    (fun b hb => filterMap_method_branchLines (h b hb).1)
    (nameBetween?_ofList (by decide))
    (nameBetween?_ofList (by decide))
    (nameBetween?_ofList (by decide))
    (nameBetween?_ofList (by decide))
  have htables := filterMap_dispatchItem
    (fun b hb => filterMap_table_branchLines (h b hb).2)
    (nameBetween?_ofList (by decide))
    (nameBetween?_ofList (by decide))
    (nameBetween?_ofList (by decide))
    (nameBetween?_ofList (by decide))
  have hrows := filterMap_dispatchItem
    (fun b hb => filterMap_row_branchLines (h b hb).2)
    (nameBetween?_ofList (by decide))
    (nameBetween?_ofList (by decide))
    (nameBetween?_ofList (by decide))
    (nameBetween?_ofList (by decide))
  simp only [Item.declared, headingOf_dispatchItem, dispatchNames, hmethods, htables, hrows]

/-! ### The file -/

/-- What a module of rows declares has names that can be read. -/
structure RowModule.HasNames (m : RowModule) : Prop where
  rows : ∀ r ∈ m.rows, r.HasNames
  accessors : ∀ d ∈ m.accessors, IsName d.trait ∧ IsName d.method
  entries : ∀ n ∈ m.entries, IsName n
  methods : ∀ x ∈ m.methods, IsName x.method
  branches : ∀ b ∈ m.branches, IsName b.method ∧ IsName b.rowType

/-- What a module of rows declares. -/
def RowModule.declared (m : RowModule) : List Declared :=
  [.trait "Row" [⟨"as_any", "&dyn Any"⟩], .structure_ "RowConstructor" ["table", "create"]] ++
    (m.rows.flatMap RowDeclaration.declared ++
      (m.accessors.map (fun d => .trait d.trait [⟨d.method, d.type⟩]) ++
        [.function "mappings" ⟨m.entries, m.entries, m.entries⟩,
          .trait "TableSubscriber" (m.methods.map SubscriberMethod.signature),
          .other ⟨m.branches.map (·.method), m.branches.map (·.rowType), m.branches.map (·.rowType)⟩]))

/-- The items of the file are read off its lines. -/
theorem items_rowFileLines (source : String) (m : RowModule) :
    items (rowFileLines source m) = [rowTraitItem, constructorItem] ++ (m.rows.flatMap rowItems ++
      (m.accessors.map accessorItem ++
        [indexItem m.entries, subscriberItem m.methods, dispatchItem m.branches])) := by
  have hrows : ∀ r : RowDeclaration, ∀ rest, items (r.lines ++ rest) = rowItems r ++ items rest :=
    items_rowLines_append
  have haccessors : ∀ d : AccessorDeclaration, ∀ rest,
      items (d.lines ++ rest) = [accessorItem d] ++ items rest := items_accessorLines_append
  rw [rowFileLines]
  simp only [List.append_assoc]
  rw [items_preamble_append, items_sharedLines_append, items_flatMap_append hrows,
    items_flatMap_append haccessors, items_indexLines_append, items_subscriberLines_append,
    items_dispatchLines, List.map_eq_flatMap]
  rfl

/-- What is read off the items of the file is what the module of rows declares. -/
theorem declared_rowFileLines (source : String) (h : m.HasNames) :
    (items (rowFileLines source m)).map Item.declared = m.declared := by
  have hrows : (m.rows.flatMap rowItems).map Item.declared =
      m.rows.flatMap RowDeclaration.declared := by
    rw [List.map_flatMap]
    exact List.flatMap_congr fun r hr => map_declared_rowItems (h.rows r hr)
  have haccessors : (m.accessors.map accessorItem).map Item.declared =
      m.accessors.map fun d => .trait d.trait [⟨d.method, d.type⟩] := by
    rw [List.map_map]
    exact List.map_congr_left fun d hd => declared_accessorItem (h.accessors d hd)
  rw [items_rowFileLines, List.map_append, List.map_append, List.map_append, hrows, haccessors,
    RowModule.declared]
  simp only [List.map_cons, List.map_nil, declared_rowTraitItem, declared_constructorItem,
    declared_indexItem h.entries, declared_subscriberItem h.methods, declared_dispatchItem h.branches]

end TileSchema.Code
