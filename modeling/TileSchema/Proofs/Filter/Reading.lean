import TileSchema.Proofs.Filter.Meaning
import TileSchema.Proofs.Ordered.FirstPlace
import TileSchema.Proofs.Text.Quoted

/-!
# Reading expressions

The text of an expression is the calls that build it (`text_eq_written`).  It is read from the front:
the word in front of a bracket says what kind of expression comes, hence how its arguments are read,
and the brackets and the commas say where a list ends.  No text is the beginning of another one, so
the reader need not look at what follows.

`readFront_chars` says that the reader gives back the expression of a text and leaves what stands
behind it; its proof is an induction on the expression in which the rest is arbitrary.  Therefore
the text of an expression determines it (`ofText?_text`, `text_injective`).
-/

namespace TileSchema.Filter.Expression

variable {α : Type} {es : List Expression} {e : Expression} {n : Nat} {rest : List Char}

/-! ### The reader -/

/-- A reader of something at the front of characters, which leaves those behind it. -/
abbrev FrontReader (α : Type) := List Char → Option (α × List Char)

/-- At most so many items with a comma and a space between them, up to the bracket behind them. -/
def readItems (item : FrontReader α) : Nat → FrontReader (List α)
  | 0, _ => none
  | n + 1, cs => do
    let (x, cs) ← item cs
    match cs with
    | ']' :: cs => return ([x], cs)
    | ',' :: ' ' :: cs => do
      let (xs, cs) ← readItems item n cs
      return (x :: xs, cs)
    | _ => none

/-- A list of at most so many items in brackets. -/
def readList (item : FrontReader α) (n : Nat) : FrontReader (List α)
  | '[' :: ']' :: cs => some ([], cs)
  | '[' :: cs => readItems item n cs
  | _ => none

/-- The kinds of expressions, as the words for them tell them apart. -/
inductive Kind where
  | group (op : Connective)
  | not
  | matchField
  | matchAny
  | matchType
  deriving DecidableEq

/-- The word for a kind. -/
def Kind.word : Kind → String
  | .group op => op.word
  | .not => "not"
  | .matchField => "match_field"
  | .matchAny => "match_any"
  | .matchType => "match_type"

/-- The kind that a word is for. -/
def kind? (word : List Char) : Option Kind :=
  [.group .and, .group .or, .not, .matchField, .matchAny, .matchType].find? fun k : Kind =>
    k.word.toList == word

/-- The kind whose word is at the front of characters, and those behind the bracket after it. -/
def readKind : FrontReader Kind := fun cs => do
  let kind ← kind? (cs.takeWhile (· ≠ '('))
  return (kind, (cs.dropWhile (· ≠ '(')).drop 1)

/-- A text between quotes. -/
def readText : FrontReader String := fun cs => (Text.readQuoted cs).map (Prod.map .ofList id)

/-- The arguments of an expression of a kind, given a reader for the expressions among them. -/
def readArguments (member : FrontReader Expression) (n : Nat) : Kind → FrontReader Expression
  | .group op, cs => (readList member n cs).map (Prod.map (.group op) id)
  | .not, cs => (member cs).map (Prod.map .not id)
  | .matchField, cs => (readText cs).map (Prod.map .matchField id)
  | .matchAny, cs => do
    let (key, cs) ← readText cs
    let cs ← [',', ' '].isPrefixOf? cs
    let (values, cs) ← readList readText n cs
    return (anyOf key values, cs)
  | .matchType, cs => (readText cs).map (Prod.map .matchType id)

/-- The expression at the front of characters.  The number bounds how deep it is, and how long its
lists are. -/
def readFront : Nat → FrontReader Expression
  | 0, _ => none
  | n + 1, cs => do
    let (kind, cs) ← readKind cs
    let (e, cs) ← readArguments (readFront n) n kind cs
    match cs with
    | ')' :: cs => return (e, cs)
    | _ => none

/-- The expression of a text. -/
def ofText? (s : String) : Option Expression :=
  match readFront s.toList.length s.toList with
  | some (e, []) => some e
  | _ => none

/-! ### The form of a text -/

/-- The members of a group are written one by one. -/
@[simp] theorem membersChars_eq_map (es : List Expression) : membersChars es = es.map chars := by
  induction es with
  | nil => rfl
  | cons e es ih => simp [membersChars, ih]

/-- Texts with a comma and a space between them. -/
theorem commaJoin_eq_intercalate (ts : List (List Char)) :
    commaJoin ts = [',', ' '].intercalate ts := by
  induction ts using commaJoin.induct with
  | case1 => rfl
  | case2 t => simp [commaJoin]
  | case3 t ts hne ih =>
    obtain ⟨u, us, rfl⟩ := List.exists_cons_of_ne_nil hne
    simp [commaJoin, ih, List.intercalate_cons_cons]

/-- A list as it is written. -/
def listText (items : List String) : String := "[" ++ ", ".intercalate items ++ "]"

/-- A call as it is written. -/
def callText (word : String) (arguments : List String) : String :=
  word ++ "(" ++ ", ".intercalate arguments ++ ")"

/-- An expression as it is written: a call, the arguments of which are the texts of its members,
quoted texts and lists of these. -/
def written : Expression → String
  | .group op es => callText op.word [listText (es.map text)]
  | .not e => callText "not" [e.text]
  | .matchField key => callText "match_field" [Text.quote key]
  | .matchAny key values =>
    callText "match_any" [Text.quote key, listText (values.toList.map Text.quote)]
  | .matchType kind => callText "match_type" [Text.quote kind]

@[simp] theorem toList_listText (items : List String) :
    (listText items).toList = listChars (items.map String.toList) := by
  simp [listText, listChars, commaJoin_eq_intercalate]

@[simp] theorem toList_callText (word : String) (arguments : List String) :
    (callText word arguments).toList =
      callChars word (commaJoin (arguments.map String.toList)) := by
  simp [callText, callChars, commaJoin_eq_intercalate]

@[simp] theorem toList_quote (s : String) : (Text.quote s).toList = quotedChars s :=
  String.toList_ofList

@[simp] theorem toList_text (e : Expression) : e.text.toList = e.chars := String.toList_ofList

/-- The text of an expression is the expression as it is written. -/
theorem text_eq_written (e : Expression) : e.text = e.written := by
  refine String.toList_inj.mp ?_
  rw [toList_text]
  cases e with
  | group op es =>
    have hmembers : (es.map text).map String.toList = es.map chars := by simp
    rw [chars, written, toList_callText, List.map_singleton, toList_listText, hmembers,
      membersChars_eq_map, commaJoin]
  | not e => rw [chars, written, toList_callText, List.map_singleton, toList_text, commaJoin]
  | matchField key =>
    rw [chars, written, toList_callText, List.map_singleton, toList_quote, commaJoin]
  | matchAny key values =>
    have hvalues : (values.toList.map Text.quote).map String.toList =
        values.toList.map quotedChars := by simp
    rw [chars, written, toList_callText, List.map_cons, List.map_singleton, toList_quote,
      toList_listText, hvalues]
    rfl
  | matchType kind =>
    rw [chars, written, toList_callText, List.map_singleton, toList_quote, commaJoin]

/-! ### Lists -/

/-- A text is no longer than a list it stands in. -/
theorem length_le_length_listChars {t : List Char} {ts : List (List Char)} (h : t ∈ ts) :
    t.length ≤ (listChars ts).length := by
  have hjoin : t.length ≤ (commaJoin ts).length := by
    induction ts using commaJoin.induct with
    | case1 => simp at h
    | case2 u =>
      rw [List.mem_singleton.mp h]
      simp [commaJoin]
    | case3 u ts hne ih =>
      rw [commaJoin]
      · rcases List.mem_cons.mp h with rfl | hmem
        · simp
        · have := ih hmem
          simp only [List.length_append, List.length_cons]
          omega
      · exact hne
  simp only [listChars, List.length_append, List.length_cons]
  omega

/-- A list has fewer texts than characters. -/
theorem length_lt_length_listChars (ts : List (List Char)) :
    ts.length < (listChars ts).length := by
  have hjoin : ts.length ≤ (commaJoin ts).length + 1 := by
    induction ts using commaJoin.induct with
    | case1 => simp
    | case2 t => simp
    | case3 t ts hne ih =>
      rw [commaJoin]
      · simp only [List.length_append, List.length_cons]
        omega
      · exact hne
  simp only [listChars, List.length_append, List.length_cons, List.length_nil]
  omega

/-- Items that are read back one by one are read back from their list. -/
theorem readItems_commaJoin (item : FrontReader α) (write : α → List Char) (x : α) (xs : List α)
    (hitem : ∀ y ∈ x :: xs, ∀ rest, item (write y ++ rest) = some (y, rest))
    (hn : xs.length < n) :
    readItems item n (commaJoin ((x :: xs).map write) ++ ']' :: rest) = some (x :: xs, rest) := by
  induction xs generalizing x n with
  | nil =>
    cases n with
    | zero => simp at hn
    | succ n => simp [readItems, commaJoin, hitem x (by simp)]
  | cons y xs ih =>
    cases n with
    | zero => simp at hn
    | succ n =>
      have hrest := ih (n := n) y (fun z hz => hitem z (List.mem_cons_of_mem _ hz))
        (by simpa using hn)
      simp only [List.map_cons] at hrest ⊢
      simp [readItems, commaJoin, hitem x (by simp), hrest]

/-- A list in brackets is read back if its items are, and none of them starts with the bracket that
closes the list. -/
theorem readList_listChars (item : FrontReader α) (write : α → List Char) (xs : List α)
    (hitem : ∀ x ∈ xs, ∀ rest, item (write x ++ rest) = some (x, rest))
    (hstart : ∀ x ∈ xs, ∃ c cs, write x = c :: cs ∧ c ≠ ']') (hn : xs.length ≤ n) :
    readList item n (listChars (xs.map write) ++ rest) = some (xs, rest) := by
  cases xs with
  | nil => simp [readList, listChars, commaJoin]
  | cons x xs =>
    have htext : listChars ((x :: xs).map write) ++ rest =
        '[' :: (commaJoin ((x :: xs).map write) ++ ']' :: rest) := by
      simp [listChars]
    have hitems : readItems item n (commaJoin ((x :: xs).map write) ++ ']' :: rest) =
        some (x :: xs, rest) :=
      readItems_commaJoin item write x xs hitem (Nat.lt_of_succ_le (by simpa using hn))
    obtain ⟨c, cs, hx, hc⟩ := hstart x List.mem_cons_self
    obtain ⟨ds, hds⟩ : ∃ ds, commaJoin ((x :: xs).map write) = c :: ds := by
      cases xs <;> simp [commaJoin, hx]
    rw [htext]
    rw [hds, List.cons_append] at hitems ⊢
    rw [readList]
    · exact hitems
    · intro cs' heq
      exact hc (List.cons.inj heq).1

/-- A text between quotes is read back. -/
@[simp] theorem readText_quotedChars (s : String) (rest : List Char) :
    readText (quotedChars s ++ rest) = some (s, rest) := by
  rw [readText, quotedChars, Text.readQuoted_quoteChars, Option.map_some, Prod.map_apply,
    String.ofList_toList, id_eq]

/-- A list of quoted texts is read back. -/
theorem readList_quotedChars (ts : List String) (hn : ts.length ≤ n) :
    readList readText n (listChars (ts.map quotedChars) ++ rest) = some (ts, rest) :=
  readList_listChars readText quotedChars ts (fun t _ => readText_quotedChars t)
    (fun _ _ => ⟨'"', _, rfl, by decide⟩) hn

/-! ### Expressions -/

/-- The kind of an expression. -/
def kind : Expression → Kind
  | .group op _ => .group op
  | .not _ => .not
  | .matchField _ => .matchField
  | .matchAny .. => .matchAny
  | .matchType _ => .matchType

/-- What stands between the brackets behind the word of an expression. -/
def argumentsChars : Expression → List Char
  | .group _ es => listChars (es.map chars)
  | .not e => e.chars
  | .matchField key => quotedChars key
  | .matchAny key values =>
    quotedChars key ++ ',' :: ' ' :: listChars (values.toList.map quotedChars)
  | .matchType kind => quotedChars kind

/-- The text of an expression is a call by the word of its kind. -/
theorem chars_eq (e : Expression) : e.chars = callChars e.kind.word e.argumentsChars := by
  cases e with
  | group op es => rw [chars, membersChars_eq_map]; rfl
  | _ => rw [chars]; rfl

/-- The word for a kind is read as this kind. -/
theorem kind?_word (k : Kind) : kind? k.word.toList = some k := by
  cases k with
  | group op => cases op <;> decide
  | _ => decide

/-- There is no bracket in the word for a kind. -/
theorem Kind.bracket_notMem_word (k : Kind) : '(' ∉ k.word.toList := by
  cases k with
  | group op => cases op <;> decide
  | _ => decide

/-- The letters that words for kinds start with. -/
def firstLetters : List Char := ['a', 'm', 'n', 'o']

/-- The word for a kind starts with one of these letters. -/
theorem Kind.exists_word_eq (k : Kind) : ∃ c ∈ firstLetters, ∃ cs, k.word.toList = c :: cs := by
  cases k with
  | group op => cases op <;> exact ⟨_, by decide, _, rfl⟩
  | _ => exact ⟨_, by decide, _, rfl⟩

/-- A call by the word for a kind is read as this kind. -/
theorem readKind_callChars (k : Kind) (arguments rest : List Char) :
    readKind (callChars k.word arguments ++ rest) = some (k, arguments ++ ')' :: rest) := by
  have hword : ∀ c ∈ k.word.toList, decide (c ≠ '(') = true :=
    fun c hc => decide_eq_true (ne_of_mem_of_not_mem hc k.bracket_notMem_word)
  have htext : callChars k.word arguments ++ rest =
      k.word.toList ++ '(' :: (arguments ++ ')' :: rest) := by
    simp [callChars]
  have hbracket : ∀ c ∈ ('(' :: (arguments ++ ')' :: rest)).head?, decide (c ≠ '(') = false := by
    simp
  rw [htext, readKind, Text.takeWhile_run hword hbracket, Text.dropWhile_run hword hbracket,
    kind?_word]
  rfl

/-- What starts with another letter is no call by the word for a kind. -/
theorem readKind_eq_none {c : Char} {cs : List Char} (h : c ∉ firstLetters) :
    readKind (c :: cs) = none := by
  have hkind : kind? ((c :: cs).takeWhile (· ≠ '(')) = none := by
    cases hk : kind? ((c :: cs).takeWhile (· ≠ '(')) with
    | none => rfl
    | some k =>
      have hword : k.word.toList = (c :: cs).takeWhile (· ≠ '(') := by
        simpa using List.find?_some hk
      obtain ⟨d, hd, ds, hds⟩ := k.exists_word_eq
      rw [hds, List.takeWhile_cons] at hword
      split at hword
      · rw [(List.cons.inj hword).1] at hd
        exact absurd hd h
      · cases hword
  rw [readKind, hkind]
  rfl

/-- The text of an expression starts with one of these letters. -/
theorem exists_chars_eq (e : Expression) : ∃ c ∈ firstLetters, ∃ cs, e.chars = c :: cs := by
  obtain ⟨c, hc, cs, hword⟩ := e.kind.exists_word_eq
  exact ⟨c, hc, _, by rw [chars_eq, callChars, hword, List.cons_append]⟩

/-- The arguments of an expression are read back if its members are. -/
theorem readArguments_argumentsChars (member : FrontReader Expression)
    (hmember : ∀ m : Expression, m.chars.length ≤ e.argumentsChars.length →
      ∀ rest, member (m.chars ++ rest) = some (m, rest))
    (hn : e.argumentsChars.length ≤ n) :
    readArguments member n e.kind (e.argumentsChars ++ rest) = some (e, rest) := by
  cases e with
  | group op es =>
    have hmembers : readList member n (listChars (es.map chars) ++ rest) = some (es, rest) := by
      refine readList_listChars member chars es (fun m hm => hmember m ?_) (fun m _ => ?_) ?_
      · exact length_le_length_listChars (List.mem_map_of_mem hm)
      · obtain ⟨c, hc, cs, hchars⟩ := exists_chars_eq m
        exact ⟨c, cs, hchars, ne_of_mem_of_not_mem hc (by decide)⟩
      · have := length_lt_length_listChars (es.map chars)
        rw [List.length_map] at this
        exact Nat.le_trans (Nat.le_of_lt this) hn
    simp [readArguments, kind, argumentsChars, hmembers]
  | not e => simp [readArguments, kind, argumentsChars, hmember e (Nat.le_refl _)]
  | matchField key => simp [readArguments, kind, argumentsChars]
  | matchAny key values =>
    have hvalues : readList readText n (listChars (values.toList.map quotedChars) ++ rest) =
        some (values.toList, rest) := by
      refine readList_quotedChars _ ?_
      have := length_lt_length_listChars (values.toList.map quotedChars)
      rw [List.length_map] at this
      simp only [argumentsChars, List.length_append, List.length_cons] at hn
      omega
    simp [readArguments, kind, argumentsChars, hvalues, anyOf, List.isPrefixOf?]
  | matchType kind => simp [readArguments, Expression.kind, argumentsChars]

/-- Reading the text of an expression gives back the expression, and leaves what stands behind it.
-/
theorem readFront_chars (e : Expression) (hn : e.chars.length ≤ n) (rest : List Char) :
    readFront n (e.chars ++ rest) = some (e, rest) := by
  -- The reader takes one step per level of the expression, and a level costs at least the brackets.
  induction n generalizing e rest with
  | zero =>
    obtain ⟨c, -, cs, hchars⟩ := exists_chars_eq e
    simp [hchars] at hn
  | succ n ih =>
    have hlength : e.argumentsChars.length + 2 ≤ e.chars.length := by
      rw [chars_eq]
      simp only [callChars, List.length_append, List.length_cons, List.length_nil]
      omega
    have harguments : readArguments (readFront n) n e.kind (e.argumentsChars ++ ')' :: rest) =
        some (e, ')' :: rest) :=
      readArguments_argumentsChars (readFront n) (fun m hm => ih m (by omega)) (by omega)
    rw [chars_eq, readFront, readKind_callChars]
    simp [harguments]

/-- Reading the text of an expression gives back the expression. -/
theorem ofText?_text (e : Expression) : ofText? e.text = some e := by
  have hread := readFront_chars e (Nat.le_refl _) []
  rw [List.append_nil] at hread
  rw [ofText?, text, String.toList_ofList, hread]

example : ofText? "not(or([match_field(\"a\\\"]b\"), match_any(\"k\", [\"b\", \"a, \"])]))" =
    some (.not (.or [.matchField "a\"]b", anyOf "k" ["b", "a, "]])) := by rfl

/-- A text that starts with another letter, or is empty, is no text of an expression. -/
theorem ofText?_eq_none {s : String} (h : ∀ c ∈ s.toList.head?, c ∉ firstLetters) :
    ofText? s = none := by
  have hread : readFront s.toList.length s.toList = none := by
    cases hcs : s.toList with
    | nil => rfl
    | cons c cs =>
      rw [List.length_cons, readFront, readKind_eq_none (h c (by simp [hcs]))]
      rfl
  rw [ofText?, hread]

/-- Two expressions with one text are one expression. -/
theorem text_injective : Function.Injective text := by
  intro a b h
  have hread : some a = some b := by rw [← ofText?_text a, h, ofText?_text]
  exact Option.some.inj hread

end TileSchema.Filter.Expression
