import TileSchema.Proofs.Filter.Equality
import TileSchema.Proofs.Filter.Positive
import TileSchema.Proofs.Table.Selection

/-!
# Elements that gain tags

A filter asks for tags and never against them.  An element that satisfies a filter therefore goes on
to satisfy it when it gets more tags, whatever becomes of its types, as long as the tags that it had
keep their values (`IsPositive.evaluate_of_keepsTags`).

A table asks for a type besides, and may reject elements because of their tags.  If it rejects none,
an element that it selects stays selected with more tags, as long as it stays of its types too.
-/

namespace TileSchema.Filter

/-- All tags of an element are tags of another one, with the same values. -/
def Element.KeepsTags (el el' : Element) : Prop :=
  ∀ key value, el.tag? key = some value → el'.tag? key = some value

/-- The keys that occur among the tags decide whether all tags are kept. -/
theorem Element.keepsTags_iff {el el' : Element} :
    el.KeepsTags el' ↔ ∀ key ∈ el.tags.map Prod.fst, el.tag? key = el'.tag? key := by
  have hkeys : ∀ key, el.tag? key = none ↔ key ∉ el.tags.map Prod.fst :=
    fun _ => Ordered.lookup_eq_none_iff_notMem
  constructor
  · intro h key hkey
    obtain ⟨value, hvalue⟩ := Option.ne_none_iff_exists'.mp ((hkeys key).not_left.mpr hkey)
    rw [hvalue, h key value hvalue]
  · intro h key value hvalue
    have hkey : key ∈ el.tags.map Prod.fst := by
      by_contra hkey
      rw [(hkeys key).mpr hkey] at hvalue
      cases hvalue
    rw [← h key hkey, hvalue]

instance (el el' : Element) : Decidable (el.KeepsTags el') :=
  decidable_of_iff _ Element.keepsTags_iff.symm

namespace Expression

variable {el el' : Element} {e : Expression}

/-! ### Parts of positive expressions -/

/-- A part of a positive expression is positive. -/
theorem IsPositive.of_fill {C : Context} (h : IsPositive (C.fill e)) : IsPositive e := by
  induction C with
  | hole => exact h
  | group op before inner after ih =>
    exact ih (isPositive_group_iff.mp h _ (by simp))
  | not inner ih => cases h

/-- A positive expression is no negation, asks for no type, and asks for some values if it asks for
values at all, none of them standing for any value. -/
theorem IsPositive.root (h : IsPositive e) :
    ¬ IsNegation e ∧ (∀ kind, e ≠ .matchType kind) ∧
      ∀ key values, e = .matchAny key values → values.toList ≠ [] ∧ anyValue ∉ values.toList := by
  cases h with
  | group _ => exact ⟨id, nofun, nofun⟩
  | matchField key => exact ⟨id, nofun, nofun⟩
  | matchAny key hne hany =>
    refine ⟨id, nofun, fun key' values' heq => ?_⟩
    rw [Expression.matchAny.injEq] at heq
    rw [← heq.2]
    exact ⟨hne, hany⟩

/-! ### More tags -/

/-- A positive expression that holds of an element holds of all elements that keep its tags. -/
theorem IsPositive.evaluate_of_keepsTags (h : IsPositive e) (htags : el.KeepsTags el')
    (heval : e.evaluate el = true) : e.evaluate el' = true := by
  induction h with
  | @group op es _ ih =>
    cases op with
    | and =>
      rw [evaluate_and] at heval ⊢
      exact fun e he => ih e he (heval e he)
    | or =>
      rw [evaluate_or] at heval ⊢
      obtain ⟨e, he, hholds⟩ := heval
      exact ⟨e, he, ih e he hholds⟩
  | matchField key =>
    rw [evaluate_matchField_iff] at heval ⊢
    obtain ⟨value, hvalue, hne⟩ := heval
    exact ⟨value, htags key value hvalue, hne⟩
  | matchAny key _ _ =>
    rw [evaluate_matchAny_iff] at heval ⊢
    obtain ⟨value, hvalue, hmem⟩ := heval
    exact ⟨value, htags key value hvalue, hmem⟩

end Expression

end TileSchema.Filter

namespace TileSchema.Table

open TileSchema.Filter (Element Expression IsPart anyValue isPositive_of_compile
  isPositive_of_isPart)
open TileSchema.Filter.Expression (Context IsNegation)

variable {kind : String} {mapping require : Option Filter} {e : Expression} {el el' : Element}

/-- Without anything rejected, an element that is selected stays so with more tags and types. -/
theorem evaluate_selection_of_keepsTags (h : selection kind mapping ⟨require, none⟩ = .ok e)
    (htags : el.KeepsTags el') (htypes : el.types ⊆ el'.types) (heval : e.evaluate el = true) :
    e.evaluate el' = true := by
  rw [evaluate_selection h] at heval ⊢
  obtain ⟨⟨⟨name, hname, hsingular⟩, f, hf, p, hp, hpeval⟩, hpermits⟩ := heval
  have hkeeps : ∀ {f p}, IsPart p f → p.evaluate el = true → p.evaluate el' = true :=
    fun hp hpeval => (isPositive_of_isPart hp).evaluate_of_keepsTags htags hpeval
  refine ⟨⟨⟨name, htypes hname, hsingular⟩, f, hf, p, hp, hkeeps hp hpeval⟩, ?_, nofun⟩
  exact fun f hf p hp => hkeeps hp (hpermits.required f hf p hp)

/-- A compiled filter is positive: none of its parts is a negation or a question for a type, and a
question for values has some, none of them standing for any value.  So the elements that satisfy a
filter go on to do so with more tags, whatever their types, and the elements of a type that a table
selects, without rejecting any, go on to be selected with more tags if they keep their types. -/
theorem filters_are_positive :
    (∀ (f : Filter) (e : Expression), f.compile = .ok e →
      (∀ (C : Context) (part : Expression), e = C.fill part →
        ¬ IsNegation part ∧ (∀ kind, part ≠ .matchType kind) ∧
          ∀ key values, part = .matchAny key values →
            values.toList ≠ [] ∧ anyValue ∉ values.toList) ∧
      ∀ el el' : Element, el.KeepsTags el' → e.evaluate el = true → e.evaluate el' = true) ∧
    ∀ (kind : String) (mapping require : Option Filter) (e : Expression),
      selection kind mapping ⟨require, none⟩ = .ok e →
        ∀ el el' : Element, el.KeepsTags el' → el.types ⊆ el'.types →
          e.evaluate el = true → e.evaluate el' = true := by
  refine ⟨fun f e h => ⟨?_, ?_⟩, ?_⟩
  · rintro C part rfl
    exact (isPositive_of_compile h).of_fill.root
  · intro el el' htags heval
    exact (isPositive_of_compile h).evaluate_of_keepsTags htags heval
  · intro kind mapping require e h el el' htags htypes heval
    exact evaluate_selection_of_keepsTags h htags htypes heval

/-- A road with a name that also gets a number, and besides a way is a line: it still satisfies the
filter, and the table of ways still selects it. -/
theorem filters_are_positive_named_road :
    Element.KeepsTags ⟨["way"], [("highway", "primary"), ("name", "Ring")]⟩
        ⟨["way", "linestring"], [("ref", "7"), ("name", "Ring"), ("highway", "primary")]⟩ ∧
      (Expression.or [.and [.anyOf "highway" ["primary"], .matchField "name"]]).evaluate
        ⟨["way", "linestring"], [("ref", "7"), ("name", "Ring"), ("highway", "primary")]⟩ = true ∧
      (Expression.and [.anyOf "highway" ["primary"], .matchField "name", .matchType "way"]).evaluate
        ⟨["way", "linestring"], [("ref", "7"), ("name", "Ring"), ("highway", "primary")]⟩ = true := by
  have htags : Element.KeepsTags ⟨["way"], [("highway", "primary"), ("name", "Ring")]⟩
      ⟨["way", "linestring"], [("ref", "7"), ("name", "Ring"), ("highway", "primary")]⟩ := by decide
  have hcompile : Filter.compile (.mapping [(Filter.andKey, .sequence
      [.mapping [("highway", .scalar "primary")], .mapping [("name", .sequence [])]])]) =
      .ok (.or [.and [.anyOf "highway" ["primary"], .matchField "name"]]) := by rfl
  have hselection : selection "ways" (some (.mapping [("highway", .scalar "primary")]))
      ⟨some (.mapping [("name", .sequence [])]), none⟩ =
      .ok (.and [.anyOf "highway" ["primary"], .matchField "name", .matchType "way"]) := by rfl
  refine ⟨htags, ?_, ?_⟩
  · exact (filters_are_positive.1 _ _ hcompile).2 _ _ htags (by decide)
  · exact filters_are_positive.2 _ _ _ _ hselection _ _ htags (by decide) (by decide)

end TileSchema.Table
