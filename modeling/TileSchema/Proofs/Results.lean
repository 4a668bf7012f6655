/-!
# Results that may be errors

What is known when a computation made of several steps succeeds: each of its steps did.  When it
fails, one of its steps failed and those in front of it succeeded.
-/

namespace TileSchema

variable {ε δ α β : Type} {x : Except ε α} {a : α} {b : β}

/-- A step behind a result is done with this result. -/
theorem ok_bind (a : α) (f : α → Except ε β) : (Except.ok a >>= f) = f a := rfl

/-- Two steps succeed if the first does and the second does with its result. -/
theorem bind_eq_ok_iff {f : α → Except ε β} :
    (x >>= f) = .ok b ↔ ∃ a, x = .ok a ∧ f a = .ok b := by
  cases x with
  | error e => simp [bind, Except.bind]
  | ok a => simp [bind, Except.bind]

/-- Two steps fail if the first does, or if it succeeds and the second fails with its result. -/
theorem bind_eq_error_iff {f : α → Except ε β} {e : ε} :
    (x >>= f) = .error e ↔ x = .error e ∨ ∃ a, x = .ok a ∧ f a = .error e := by
  cases x with
  | error e' => simp [bind, Except.bind]
  | ok a => simp [bind, Except.bind]

/-- A changed result is the change of a result. -/
theorem map_eq_ok_iff {f : α → β} : x.map f = .ok b ↔ ∃ a, x = .ok a ∧ f a = b := by
  cases x with
  | error e => simp [Except.map]
  | ok a => simp [Except.map]

/-- A change of the error leaves the result. -/
theorem mapError_eq_ok_iff {f : ε → δ} : x.mapError f = .ok a ↔ x = .ok a := by
  cases x with
  | error e => exact iff_of_false (fun h => nomatch h) (fun h => nomatch h)
  | ok a' =>
    have hok : (Except.ok a' : Except ε α).mapError f = .ok a' := rfl
    rw [hok, Except.ok.injEq, Except.ok.injEq]

/-- An error that is raised is not a result. -/
theorem throw_ne_ok {e : ε} : (throw e : Except ε α) ≠ .ok a := fun h => nomatch h

/-- A result that is none of an error. -/
theorem exists_eq_ok_of_isOk (h : x.isOk = true) : ∃ a, x = .ok a := by
  cases x with
  | error e => cases h
  | ok a => exact ⟨a, rfl⟩

/-- What comes of a list of steps comes of one of them. -/
theorem exists_of_mem_mapM {f : α → Except ε β} {as : List α} {bs : List β}
    (h : as.mapM f = .ok bs) : ∀ b ∈ bs, ∃ a ∈ as, f a = .ok b := by
  induction as generalizing bs with
  | nil =>
    cases h
    exact nofun
  | cons a as ih =>
    rw [List.mapM_cons] at h
    obtain ⟨b, hb, h⟩ := bind_eq_ok_iff.mp h
    obtain ⟨rest, hrest, h⟩ := bind_eq_ok_iff.mp h
    cases h
    rw [List.forall_mem_cons]
    refine ⟨⟨a, List.mem_cons_self, hb⟩, fun c hc => ?_⟩
    obtain ⟨a', ha', hc'⟩ := ih hrest c hc
    exact ⟨a', List.mem_cons_of_mem _ ha', hc'⟩

/-! ### The error of a result -/

/-- The error of a result, if it is one. -/
def error? : Except ε α → Option ε
  | .error e => some e
  | .ok _ => none

@[simp] theorem error?_error (e : ε) : error? (.error e : Except ε α) = some e := rfl

@[simp] theorem error?_ok (a : α) : error? (.ok a : Except ε α) = none := rfl

theorem error?_eq_some_iff {e : ε} : error? x = some e ↔ x = .error e := by
  cases x <;> simp

theorem error?_eq_none_iff : error? x = none ↔ ∃ a, x = .ok a := by
  cases x <;> simp

@[simp] theorem error?_map (f : α → β) : error? (x.map f) = error? x := by
  cases x <;> rfl

@[simp] theorem error?_mapError (f : ε → δ) : error? (x.mapError f) = (error? x).map f := by
  cases x <;> rfl

/-- The error of two steps is that of the first, or else that of the second. -/
theorem error?_bind {f : α → Except ε β} {o : Option ε} (h : ∀ a, x = .ok a → error? (f a) = o) :
    error? (x >>= f) = (error? x).or o := by
  cases x with
  | error e => rfl
  | ok a => exact h a rfl

/-- A second step that does not fail adds no error. -/
theorem error?_bind_of_forall {f : α → Except ε β} (h : ∀ a, error? (f a) = none) :
    error? (x >>= f) = error? x := by
  rw [error?_bind fun a _ => h a, Option.or_none]

/-- The error of steps for the items of a list is the first one. -/
theorem error?_mapM {γ : Type} {f : α → Except ε β} {sites : α → List γ} {offence : γ → Option ε}
    (h : ∀ a, error? (f a) = (sites a).findSome? offence) (as : List α) :
    error? (as.mapM f) = (as.flatMap sites).findSome? offence := by
  induction as with
  | nil => rfl
  | cons a as ih =>
    rw [List.mapM_cons, List.flatMap_cons, List.findSome?_append, ← h a, ← ih]
    refine error?_bind fun b _ => ?_
    exact error?_bind_of_forall fun _ => rfl

end TileSchema
