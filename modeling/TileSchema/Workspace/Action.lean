import TileSchema.Trace
import TileSchema.Workspace.Basic

/-!
# Actions on a workspace

An action changes a workspace, reports what it does and ends with a result or an error.  What was
done up to an error stays done, unless the action is told to clear something away at its end.
-/

namespace TileSchema.Workspace

/-- Work on a workspace: the workspace afterwards, and the events with the result. -/
def Action (ε α : Type) := Workspace → Workspace × Traced ε α

namespace Action

variable {ε α β : Type}

/-- An action after another one, unless that failed. -/
def andThen (a : Action ε α) (f : α → Action ε β) : Action ε β := fun w =>
  let (w, t) := a w
  match t.result with
  | .error e => (w, ⟨t.events, .error e⟩)
  | .ok x =>
    let (w, u) := f x w
    (w, ⟨t.events ++ u.events, u.result⟩)

instance : Monad (Action ε) where
  pure x := fun w => (w, pure x)
  bind := andThen

/-- An action that does not change the workspace. -/
def look (f : Workspace → Traced ε α) : Action ε α := fun w => (w, f w)

/-- A report. -/
def info (message : String) : Action ε Unit := look fun _ => Traced.info message

/-- An action that changes the workspace or fails without effect. -/
def change (f : Workspace → Except ε Workspace) : Action ε Unit := fun w =>
  match f w with
  | .ok w => (w, pure ())
  | .error e => (w, .ofExcept (.error e))

/-- An action that may change the workspace even if it fails. -/
def changeAnyway (f : Workspace → Workspace × Except ε Unit) : Action ε Unit := fun w =>
  let (w, r) := f w
  (w, .ofExcept r)

/-- The same action with another error. -/
def mapError {δ : Type} (f : ε → δ) (a : Action ε α) : Action δ α := fun w =>
  let (w, t) := a w
  (w, t.mapError f)

/-- An action at whose end nothing is left at a location, whether it failed or not. -/
def clearing (here : Location) (a : Action ε α) : Action ε α := fun w =>
  let (w, t) := a w
  (w.putAt here none, t)

/-- An action that leaves nothing at a location if it failed. -/
def clearingOnError (here : Location) (a : Action ε α) : Action ε α := fun w =>
  let (w, t) := a w
  match t.result with
  | .ok _ => (w, t)
  | .error _ => (w.putAt here none, t)

end Action

end TileSchema.Workspace
