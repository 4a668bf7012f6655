import TileSchema.Proofs.Workspace.Operations

/-!
# Outcomes of actions

What an action brings about is said by two conditions: one on its result and the workspace then, and
one on its error and the workspace then (`Action.Ensures`).  A sequence of actions brings about what
the first one prepares for the second (`Action.ensures_bind`).

The steps of replacing an output are told in this way.  Each of them does what its operation does,
or fails and leaves everything as it was.
-/

namespace TileSchema.Workspace

namespace Action

variable {ε α β : Type} {w : Workspace} {a : Action ε α} {Q Q' : α → Workspace → Prop}
  {E E' : ε → Workspace → Prop} {here : Location}

/-- What holds after an action: a condition on its result, and another one on its error. -/
structure Ensures (a : Action ε α) (w : Workspace) (Q : α → Workspace → Prop)
    (E : ε → Workspace → Prop) : Prop where
  of_ok : ∀ {x}, (a w).2.result = .ok x → Q x (a w).1
  of_error : ∀ {e}, (a w).2.result = .error e → E e (a w).1

theorem Ensures.imp (h : a.Ensures w Q E) (hQ : ∀ x v, Q x v → Q' x v)
    (hE : ∀ e v, E e v → E' e v) : a.Ensures w Q' E' where
  of_ok hx := hQ _ _ (h.of_ok hx)
  of_error he := hE _ _ (h.of_error he)

theorem Ensures.and (h : a.Ensures w Q E) (h' : a.Ensures w Q' E') :
    a.Ensures w (fun x v => Q x v ∧ Q' x v) fun e v => E e v ∧ E' e v where
  of_ok hx := ⟨h.of_ok hx, h'.of_ok hx⟩
  of_error he := ⟨h.of_error he, h'.of_error he⟩

/-- An action ends with its result. -/
theorem ensures_self (a : Action ε α) (w : Workspace) :
    a.Ensures w (fun x v => (a w).2.result = .ok x ∧ (a w).1 = v) fun e v =>
      (a w).2.result = .error e ∧ (a w).1 = v where
  of_ok hx := ⟨hx, rfl⟩
  of_error he := ⟨he, rfl⟩

/-- Actions that do the same ensure the same. -/
theorem Ensures.congr {b : Action ε α} (h : b.Ensures w Q E) (hab : a w = b w) :
    a.Ensures w Q E where
  of_ok hx := by
    rw [hab] at hx ⊢
    exact h.of_ok hx
  of_error he := by
    rw [hab] at he ⊢
    exact h.of_error he

/-- An action with a known end. -/
theorem ensures_of_eq_ok {v : Workspace} {events : List Event} {x : α}
    (ha : a w = (v, ⟨events, .ok x⟩)) (h : Q x v) : a.Ensures w Q E where
  of_ok {y} hy := by
    rw [ha] at hy ⊢
    cases hy
    exact h
  of_error he := by
    rw [ha] at he
    cases he

theorem ensures_of_eq_error {v : Workspace} {events : List Event} {e : ε}
    (ha : a w = (v, ⟨events, .error e⟩)) (h : E e v) : a.Ensures w Q E where
  of_ok hx := by
    rw [ha] at hx
    cases hx
  of_error {e'} he := by
    rw [ha] at he ⊢
    cases he
    exact h

theorem ensures_pure {x : α} (h : Q x w) : (pure x : Action ε α).Ensures w Q E := by
  have hpure : (pure x : Action ε α) w = (w, ⟨[], .ok x⟩) := rfl
  exact ensures_of_eq_ok hpure h

theorem bind_assoc {γ : Type} (a : Action ε α) (f : α → Action ε β) (g : β → Action ε γ) :
    a >>= f >>= g = a >>= fun x => f x >>= g := by
  funext w
  change andThen (andThen a f) g w = andThen a (fun x => andThen (f x) g) w
  unfold andThen
  obtain ⟨v, ⟨events, result⟩⟩ := a w
  cases result with
  | error e => rfl
  | ok x =>
    dsimp only
    obtain ⟨u, ⟨events', result'⟩⟩ := f x v
    cases result' with
    | error e => rfl
    | ok y => simp only [List.append_assoc]

/-- The second of two actions starts where the first one ends. -/
theorem ensures_bind {f : α → Action ε β} {Q : β → Workspace → Prop}
    (h : a.Ensures w (fun x v => (f x).Ensures v Q E) E) : (a >>= f).Ensures w Q E := by
  rcases ha : a w with ⟨v, ⟨events, result⟩⟩
  cases result with
  | error e =>
    have hbind : (a >>= f) w = (v, ⟨events, .error e⟩) := by
      change andThen a f w = _
      simp only [andThen, ha]
    have herror := h.of_error (e := e) (by rw [ha])
    rw [ha] at herror
    exact ensures_of_eq_error hbind herror
  | ok x =>
    have hbind : (a >>= f) w = ((f x v).1, ⟨events ++ (f x v).2.events, (f x v).2.result⟩) := by
      change andThen a f w = _
      simp only [andThen, ha]
    have hrest := h.of_ok (x := x) (by rw [ha])
    rw [ha] at hrest
    constructor
    · intro y hy
      rw [hbind] at hy ⊢
      exact hrest.of_ok hy
    · intro e he
      rw [hbind] at he ⊢
      exact hrest.of_error he

theorem ensures_info {message : String} {Q : Unit → Workspace → Prop} (h : Q () w) :
    (info message : Action ε Unit).Ensures w Q E := ensures_of_eq_ok rfl h

/-- An action that does not change the workspace. -/
theorem ensures_look {f : Workspace → α} (h : Q (f w) w) :
    (look fun w => (pure (f w) : Traced ε α)).Ensures w Q E := ensures_of_eq_ok rfl h

theorem ensures_fail {e : ε} (h : E e w) :
    (look fun _ => (.ofExcept (.error e) : Traced ε α)).Ensures w Q E := ensures_of_eq_error rfl h

/-- An action that changes the workspace, or fails without effect. -/
theorem ensures_change {f : Workspace → Except ε Workspace} {Q : Unit → Workspace → Prop}
    (hok : ∀ v, f w = .ok v → Q () v) (herror : ∀ e, f w = .error e → E e w) :
    (change f).Ensures w Q E := by
  cases hf : f w with
  | ok v =>
    have hchange : change f w = (v, pure ()) := by simp only [change, hf]
    exact ensures_of_eq_ok hchange (hok v hf)
  | error e =>
    have hchange : change f w = (w, .ofExcept (.error e)) := by simp only [change, hf]
    exact ensures_of_eq_error hchange (herror e hf)

/-- An action that may change the workspace even if it fails. -/
theorem ensures_changeAnyway {f : Workspace → Workspace × Except ε Unit}
    {Q : Unit → Workspace → Prop} (hok : Q () (f w).1)
    (herror : ∀ e, (f w).2 = .error e → E e (f w).1) : (changeAnyway f).Ensures w Q E where
  of_ok _ := hok
  of_error {e} he := herror e he

/-- What is cleared at the end is not there afterwards. -/
theorem ensures_clearing
    (h : a.Ensures w (fun x v => Q x (v.putAt here none)) fun e v => E e (v.putAt here none)) :
    (clearing here a).Ensures w Q E where
  of_ok hx := h.of_ok hx
  of_error he := h.of_error he

theorem ensures_clearingOnError (h : a.Ensures w Q fun e v => E e (v.putAt here none)) :
    (clearingOnError here a).Ensures w Q E := by
  rcases ha : a w with ⟨v, ⟨events, result⟩⟩
  cases result with
  | ok x =>
    have hclear : clearingOnError here a w = (v, ⟨events, .ok x⟩) := by
      simp only [clearingOnError, ha]
    have hok := h.of_ok (x := x) (by rw [ha])
    rw [ha] at hok
    exact ensures_of_eq_ok hclear hok
  | error e =>
    have hclear : clearingOnError here a w = (v.putAt here none, ⟨events, .error e⟩) := by
      simp only [clearingOnError, ha]
    have herror := h.of_error (e := e) (by rw [ha])
    rw [ha] at herror
    exact ensures_of_eq_error hclear herror

end Action

/-! ### Operations -/

variable {sys : System} {step : OutputStep} {w : Workspace}

theorem attempt_eq_ok {α : Type} {n : Nat} {r : Except SystemError α} {a : α}
    (h : sys.attempt step n r = .ok a) : r = .ok a := unlessRefused_eq_ok h

/-- The error of a step names the step. -/
theorem inStep_eq_error {α : Type} {path : String} {r : Except SystemError α} {e : OutputError}
    (h : inStep step path r = .error e) : e.step = step := by
  cases r with
  | ok a => cases h
  | error cause =>
    obtain rfl : ⟨step, path, cause⟩ = e := Except.error.inj h
    rfl

/-- Something is moved, or everything is as it was. -/
theorem ensures_moveTo {about source destination : String} {Q : Unit → Workspace → Prop}
    {E : OutputError → Workspace → Prop} (hok : ∀ v, w.move source destination = .ok v → Q () v)
    (herror : ∀ e, e.step = step → E e w) :
    (moveTo sys step about source destination).Ensures w Q E := by
  apply Action.ensures_change
  · intro v hv
    exact hok v (attempt_eq_ok (mapError_eq_ok_iff.mp hv))
  · intro e he
    exact herror e (inStep_eq_error he)

/-- The new output is moved to its place; or that fails and everything is as it was, but for an old
output that is moved back, unless this fails as well. -/
theorem ensures_moveInto {staging aside output : String} {hadOutput : Bool}
    {Q : Unit → Workspace → Prop} {E : OutputError → Workspace → Prop}
    (hok : ∀ v, w.move staging output = .ok v → Q () v)
    (hnew : hadOutput = false → ∀ e, E e w)
    (hback : hadOutput = true → ∀ e v, w.move aside output = .ok v → E e v)
    (hlost : ∀ e, e.step = .restore → E e w) :
    (moveInto sys staging aside output hadOutput).Ensures w Q E := by
  cases hmove : sys.attempt .moveInto 0 (w.move staging output) with
  | ok v =>
    have hmoved : moveInto sys staging aside output hadOutput w = (v, pure ()) := by
      simp only [moveInto, hmove]
    exact Action.ensures_of_eq_ok hmoved (hok v (attempt_eq_ok hmove))
  | error cause =>
    cases hadOutput with
    | false =>
      have hmoved : moveInto sys staging aside output false w =
          (w, .ofExcept (.error ⟨.moveInto, output, cause⟩)) := by
        simp [moveInto, hmove]
      exact Action.ensures_of_eq_error hmoved (hnew rfl _)
    | true =>
      have hrestore : (moveTo sys .restore output aside output >>= fun _ =>
          (Action.look fun _ => .ofExcept (.error ⟨.moveInto, output, cause⟩) :
            Action OutputError Unit)).Ensures w Q E := by
        refine Action.ensures_bind (ensures_moveTo (fun v hv => ?_) hlost)
        exact Action.ensures_fail (hback rfl _ v hv)
      have hmoved : moveInto sys staging aside output true w =
          (moveTo sys .restore output aside output >>= fun _ =>
            (Action.look fun _ => .ofExcept (.error ⟨.moveInto, output, cause⟩) :
              Action OutputError Unit)) w := by
        simp only [moveInto, hmove]
        rfl
      exact hrestore.congr hmoved

/-- A location has the name of a temporary directory in a directory where it does not stand. -/
structure IsTemporary (w : Workspace) (d : Location) (n : String) : Prop where
  entry : Path.isEntryName n = true
  nulFree : '\x00' ∉ n.toList
  absent : w.kindAt? (n :: d) = none

/-- Letters and digits behind a dot make the name of an entry, if something stands between. -/
theorem isEntryName_temporary {stem suffix : String} (hstem : Path.isEntryName stem = true)
    (hlong : 2 < stem.length) (hsuffix : ∀ c ∈ suffix.toList, c.isAlphanum = true) :
    Path.isEntryName (stem ++ suffix) = true := by
  obtain ⟨-, -, -, hseg⟩ := Path.isEntryName_iff.mp hstem
  have hlength : 2 < (stem ++ suffix).length := by
    rw [String.length_append]
    omega
  refine Path.isEntryName_iff.mpr ⟨?_, ?_, ?_, ?_⟩
  · intro h
    simp [h] at hlength
  · intro h
    rw [h] at hlength
    exact absurd hlength (by decide)
  · intro h
    rw [h] at hlength
    exact absurd hlength (by decide)
  · rw [Path.IsSegment, String.toList_append, List.mem_append, not_or]
    exact ⟨hseg, fun hslash => absurd (hsuffix _ hslash) (by decide)⟩

/-- A temporary directory is made, or everything is as it was. -/
theorem ensures_makeTemporary {parent stem : String} {Q : Location → Workspace → Prop}
    {E : OutputError → Workspace → Prop} (hstem : Path.isEntryName stem = true)
    (hlong : 2 < stem.length) (hnul : '\x00' ∉ stem.toList)
    (hok : ∀ d n, w.locate parent = .ok d → w.kindAt? d = some .directory →
      w.IsTemporary d n → Q (n :: d) (w.putAt (n :: d) (some .empty)))
    (herror : ∀ e, e.step = step → E e w) :
    (makeTemporary sys step parent stem).Ensures w Q E := by
  cases hmade :
    inStep step parent (sys.attempt step 0 (w.addTemporary (sys.suffix stem) parent stem)) with
  | ok made =>
    obtain ⟨v, l⟩ := made
    have hmake : makeTemporary sys step parent stem w = (v, pure l) := by
      simp only [makeTemporary, hmade]
    refine Action.ensures_of_eq_ok hmake ?_
    have hadded := attempt_eq_ok (mapError_eq_ok_iff.mp hmade)
    obtain ⟨d, taken, hlocate, hd, rfl, habsent, rfl⟩ := addTemporary_eq_ok hadded
    have hentry := isEntryName_temporary hstem hlong (sys.suffix_isAlphanum stem taken)
    have hnulFree : '\x00' ∉ (stem ++ sys.suffix stem taken).toList := by
      rw [String.toList_append, List.mem_append, not_or]
      exact ⟨hnul, fun hmem => absurd (sys.suffix_isAlphanum stem taken _ hmem) (by decide)⟩
    exact hok d _ hlocate hd ⟨hentry, hnulFree, habsent⟩
  | error e =>
    have hmake : makeTemporary sys step parent stem w = (w, .ofExcept (.error e)) := by
      simp only [makeTemporary, hmade]
    exact Action.ensures_of_eq_error hmake (herror e (inStep_eq_error hmade))

/-- Reports change nothing. -/
theorem ensures_reportFiles {output : String} {files : List Artifact.RenderedFile}
    {Q : Unit → Workspace → Prop} {E : OutputError → Workspace → Prop} (h : Q () w) :
    (reportFiles output files).Ensures w Q E := by
  induction files with
  | nil => exact Action.ensures_pure h
  | cons f fs ih => exact Action.ensures_bind (Action.ensures_info ih)

end TileSchema.Workspace
