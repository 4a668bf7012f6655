/-!
# Results with a trace

Reading and generating are watched: which documents were asked for, and what was reported on the
way.  A traced result is the list of these events and a result that may be an error; the events up
to the error are kept.

`result_bind` says that the result of a sequence of steps does not depend on the events.
-/

namespace TileSchema

/-- How important a report is. -/
inductive Level where
  | info
  | warn
  deriving Repr, DecidableEq

/-- What can be observed of a run. -/
inductive Event where
  /-- A document was asked for. -/
  | request (reference : String)
  /-- Something was reported. -/
  | report (level : Level) (message : String)
  deriving Repr, DecidableEq

/-- The events of a run and its result. -/
structure Traced (ε α : Type) where
  events : List Event
  result : Except ε α

namespace Traced

variable {ε α β : Type}

/-- A step after another one, unless that failed. -/
def andThen (a : Traced ε α) (f : α → Traced ε β) : Traced ε β :=
  match a.result with
  | .error e => ⟨a.events, .error e⟩
  | .ok x => ⟨a.events ++ (f x).events, (f x).result⟩

instance : Monad (Traced ε) where
  pure x := ⟨[], .ok x⟩
  bind := andThen

/-- A result without events. -/
def ofExcept (r : Except ε α) : Traced ε α := ⟨[], r⟩

/-- Events and nothing else. -/
def emit (events : List Event) : Traced ε Unit := ⟨events, .ok ()⟩

/-- A report. -/
def report (level : Level) (message : String) : Traced ε Unit := ⟨[.report level message], .ok ()⟩

/-- A report of ordinary progress. -/
def info (message : String) : Traced ε Unit := report .info message

/-- A report of something odd. -/
def warn (message : String) : Traced ε Unit := report .warn message

/-- The same run with another error. -/
def mapError {δ : Type} (f : ε → δ) (a : Traced ε α) : Traced δ α := ⟨a.events, a.result.mapError f⟩

@[simp] theorem result_pure (x : α) : (pure x : Traced ε α).result = .ok x := rfl

@[simp] theorem result_bind (a : Traced ε α) (f : α → Traced ε β) :
    (a >>= f).result = a.result >>= fun x => (f x).result := by
  change (andThen a f).result = _
  unfold andThen
  cases a.result <;> rfl

@[simp] theorem result_ofExcept (r : Except ε α) : (ofExcept r).result = r := rfl

@[simp] theorem result_emit (events : List Event) :
    (emit events : Traced ε Unit).result = .ok () := rfl

@[simp] theorem result_report (level : Level) (message : String) :
    (report level message : Traced ε Unit).result = .ok () := rfl

/-- The reports among the events. -/
def reports (events : List Event) : List (Level × String) :=
  events.filterMap fun
    | .report level message => some (level, message)
    | .request _ => none

/-- The documents asked for. -/
def requests (events : List Event) : List String :=
  events.filterMap fun
    | .request reference => some reference
    | .report .. => none

end Traced

end TileSchema
