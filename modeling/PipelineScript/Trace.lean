/-
  Computations that may fail and leave a trail of events
  either way.

  Key definitions include:
    * `Traced`
    * `Traced.emit`
    * `Traced.fail`
    * `Traced.ofExcept`
    * `Traced.mapError`
-/

namespace PipelineScript

/-
  The events of a computation in their order, and a value or
  the error that stopped it.
-/
structure Traced (ω ε α : Type) where
  events : List ω
  outcome : Except ε α

namespace Traced

variable {ω ε α β : Type}

/- A value without events. -/
def done (value : α) : Traced ω ε α where
  events := []
  outcome := .ok value

/- An error without events. -/
def fail (error : ε) : Traced ω ε α where
  events := []
  outcome := .error error

/- One event. -/
def emit (event : ω) : Traced ω ε Unit where
  events := [event]
  outcome := .ok ()

/- An outcome without events. -/
def ofExcept (outcome : Except ε α) : Traced ω ε α where
  events := []
  outcome := outcome

/- The computation with earlier events put in front. -/
def after
    (events : List ω)
    (x : Traced ω ε α) : Traced ω ε α where
  events := events ++ x.events
  outcome := x.outcome

/- Go on with the value of a computation. -/
def andThen
    (x : Traced ω ε α)
    (next : α → Traced ω ε β) : Traced ω ε β :=
  match x.outcome with
  | .ok value => (next value).after x.events
  | .error error => ⟨x.events, .error error⟩

instance : Monad (Traced ω ε) where
  pure := done
  bind := andThen

/- The computation with its error restated. -/
def mapError
    {ε' : Type}
    (f : ε → ε')
    (x : Traced ω ε α) : Traced ω ε' α where
  events := x.events
  outcome :=
    match x.outcome with
    | .ok value => .ok value
    | .error error => .error (f error)

/- A computation of several steps fails where a step fails. -/
theorem outcome_bind
    (x : Traced ω ε α)
    (next : α → Traced ω ε β) :
    (x >>= next).outcome =
      match x.outcome with
      | .ok value => (next value).outcome
      | .error error => .error error := by
  change (x.andThen next).outcome = _
  unfold andThen
  cases x.outcome <;> rfl

/- The events of several steps, up to the one that fails. -/
theorem events_bind
    (x : Traced ω ε α)
    (next : α → Traced ω ε β) :
    (x >>= next).events =
      match x.outcome with
      | .ok value => x.events ++ (next value).events
      | .error _ => x.events := by
  change (x.andThen next).events = _
  unfold andThen
  cases x.outcome <;> rfl

end Traced

end PipelineScript
