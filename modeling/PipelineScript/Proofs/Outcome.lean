import PipelineScript.Trace

/-
  How computations of several steps come to their outcomes.

  Key theorems include:
    * `bind_eq_ok`
    * `map_eq_map`
    * `Traced.outcome_bind_eq_ok`
    * `map_bind_of_map_eq`
-/

namespace PipelineScript

variable {ω ε α β γ δ : Type}

/- Two steps succeed if both of them do. -/
theorem bind_eq_ok
    {x : Except ε α}
    {next : α → Except ε β}
    {value : β} :
    x >>= next = .ok value ↔
      ∃ first, x = .ok first ∧ next first = .ok value := by
  cases x with
  | ok first => simp [bind, Except.bind]
  | error error => simp [bind, Except.bind]

/- A part of the value that two steps come to. -/
theorem map_bind
    (f : β → γ)
    (x : Except ε α)
    (next : α → Except ε β) :
    (x >>= next).map f = x >>= fun first => (next first).map f := by
  cases x with
  | ok first => rfl
  | error error => rfl

/- What is seen of two steps is seen of the second. -/
theorem map_bind_congr
    {g : β → γ}
    (x : Except ε α)
    {next last : α → Except ε β}
    (hNext :
      ∀ value, (next value).map g = (last value).map g) :
    (x >>= next).map g = (x >>= last).map g := by
  rw [map_bind g x next, map_bind g x last]
  exact bind_congr hNext

/-
  Two outcomes of which the same is seen are the same error,
  or values of which the same is seen.
-/
theorem map_eq_map
    {f : α → γ}
    {g : β → γ}
    {x : Except ε α}
    {y : Except ε β}
    (hSame : x.map f = y.map g) :
    (∃ error, x = .error error ∧ y = .error error) ∨
      ∃ value other,
        x = .ok value ∧ y = .ok other ∧ f value = g other := by
  cases x with
  | error error =>
      cases y with
      | error other =>
          cases hSame
          exact Or.inl ⟨error, rfl, rfl⟩
      | ok other => cases hSame
  | ok value =>
      cases y with
      | error other => cases hSame
      | ok other =>
          exact Or.inr
            ⟨value, other, rfl, rfl, Except.ok.inj hSame⟩

/-
  Where two first steps come to the same but for something
  that is left out, and the steps behind them do so whenever
  what they go on with is the same but for it, then both come
  to the same in the end.
-/
theorem map_bind_of_map_eq
    {f : α → γ}
    {g : β → δ}
    {x y : Except ε α}
    {next last : α → Except ε β}
    (hFirst : x.map f = y.map f)
    (hNext :
      ∀ value other,
        f value = f other →
          (next value).map g = (last other).map g) :
    (x >>= next).map g = (y >>= last).map g := by
  rcases map_eq_map hFirst with
    ⟨error, rfl, rfl⟩ | ⟨value, other, rfl, rfl, hSame⟩
  · rfl
  · exact hNext value other hSame

/- What is made of a value has a value behind it. -/
theorem map_eq_ok
    {f : α → β}
    {x : Except ε α}
    {value : β} :
    x.map f = .ok value ↔ ∃ first, x = .ok first ∧ f first = value := by
  cases x with
  | ok first => simp [Except.map]
  | error error => simp [Except.map]

/- An error is left as it is. -/
theorem map_eq_error
    {f : α → β}
    {x : Except ε α}
    {error : ε} :
    x.map f = .error error ↔ x = .error error := by
  cases x with
  | ok first => simp [Except.map]
  | error other => simp [Except.map]

/- Another error in place of one makes no value. -/
theorem mapError_eq_ok
    {f : ε → δ}
    {x : Except ε α}
    {value : α} :
    x.mapError f = .ok value ↔ x = .ok value := by
  constructor
  · intro hMade
    cases x with
    | ok first => exact congrArg Except.ok (Except.ok.inj hMade)
    | error error => cases hMade
  · rintro rfl
    rfl

/- Two steps fail where the first of them fails. -/
theorem bind_eq_error
    {x : Except ε α}
    {next : α → Except ε β}
    {error : ε} :
    x >>= next = .error error ↔
      x = .error error ∨
        ∃ first, x = .ok first ∧ next first = .error error := by
  cases x with
  | ok first => simp [bind, Except.bind]
  | error other => simp [bind, Except.bind]

namespace Traced

@[simp] theorem outcome_pure (value : α) :
    (pure value : Traced ω ε α).outcome = .ok value :=
  rfl

@[simp] theorem outcome_done (value : α) :
    (done value : Traced ω ε α).outcome = .ok value :=
  rfl

@[simp] theorem outcome_emit (event : ω) :
    (emit event : Traced ω ε Unit).outcome = .ok () :=
  rfl

@[simp] theorem outcome_ofExcept (outcome : Except ε α) :
    (ofExcept outcome : Traced ω ε α).outcome = outcome :=
  rfl

@[simp] theorem events_pure (value : α) :
    (pure value : Traced ω ε α).events = [] :=
  rfl

@[simp] theorem events_ofExcept (outcome : Except ε α) :
    (ofExcept outcome : Traced ω ε α).events = [] :=
  rfl

@[simp] theorem events_emit (event : ω) :
    (emit event : Traced ω ε Unit).events = [event] :=
  rfl

@[simp] theorem events_mapError
    {ε' : Type}
    (f : ε → ε')
    (x : Traced ω ε α) :
    (x.mapError f).events = x.events :=
  rfl

/- Restating errors keeps the value of a computation. -/
theorem outcome_mapError_of_ok
    {ε' : Type}
    (f : ε → ε')
    {x : Traced ω ε α}
    {value : α}
    (hOk : x.outcome = .ok value) :
    (x.mapError f).outcome = .ok value := by
  rw [mapError, hOk]

/- A step that goes through reports before what comes next. -/
theorem events_bind_of_ok
    {x : Traced ω ε α}
    {next : α → Traced ω ε β}
    {value : α}
    (hOk : x.outcome = .ok value) :
    (x >>= next).events = x.events ++ (next value).events := by
  rw [events_bind, hOk]

/- What has no events goes on as an outcome does. -/
theorem outcome_ofExcept_bind
    (first : Except ε α)
    (next : α → Traced ω ε β) :
    (ofExcept first >>= next).outcome =
      first >>= fun value => (next value).outcome := by
  cases first with
  | ok value => rfl
  | error error => rfl

/- A step that goes through hands on to what comes next. -/
theorem outcome_bind_of_ok
    {x : Traced ω ε α}
    {next : α → Traced ω ε β}
    {value : α}
    (hOk : x.outcome = .ok value) :
    (x >>= next).outcome = (next value).outcome := by
  rw [outcome_bind, hOk]

/- A step that fails has nothing come next. -/
theorem outcome_bind_of_error
    {x : Traced ω ε α}
    (next : α → Traced ω ε β)
    {error : ε}
    (hError : x.outcome = .error error) :
    (x >>= next).outcome = .error error := by
  rw [outcome_bind, hError]

/- A step that goes through is done before what comes next. -/
theorem bind_of_ok
    {x : Traced ω ε α}
    {value : α}
    (hOk : x.outcome = .ok value)
    (next : α → Traced ω ε β) :
    x >>= next = (next value).after x.events := by
  change x.andThen next = _
  rw [andThen, hOk]

/- A step that fails is all that is done. -/
theorem bind_of_error
    {x : Traced ω ε α}
    {error : ε}
    (hError : x.outcome = .error error)
    (next : α → Traced ω ε β) :
    x >>= next = ⟨x.events, .error error⟩ := by
  change x.andThen next = _
  rw [andThen, hError]

/- Two steps succeed if both of them do. -/
theorem outcome_bind_eq_ok
    {x : Traced ω ε α}
    {next : α → Traced ω ε β}
    {value : β} :
    (x >>= next).outcome = .ok value ↔
      ∃ first, x.outcome = .ok first ∧
        (next first).outcome = .ok value := by
  rw [outcome_bind]
  cases x.outcome <;> simp

/- Two steps fail where the first of them fails. -/
theorem outcome_bind_eq_error
    {x : Traced ω ε α}
    {next : α → Traced ω ε β}
    {error : ε} :
    (x >>= next).outcome = .error error ↔
      x.outcome = .error error ∨
        ∃ first, x.outcome = .ok first ∧
          (next first).outcome = .error error := by
  rw [outcome_bind]
  cases x.outcome <;> simp

/- The same for what two computations come to. -/
theorem map_outcome_bind
    {f : α → γ}
    {g : β → δ}
    {x y : Traced ω ε α}
    {next last : α → Traced ω ε β}
    (hFirst : x.outcome.map f = y.outcome.map f)
    (hNext :
      ∀ value other,
        f value = f other →
          (next value).outcome.map g =
            (last other).outcome.map g) :
    (x >>= next).outcome.map g =
      (y >>= last).outcome.map g := by
  have hOutcome
      (x : Traced ω ε α)
      (next : α → Traced ω ε β) :
      (x >>= next).outcome =
        x.outcome >>= fun value => (next value).outcome := by
    rw [outcome_bind]
    cases x.outcome <;> rfl
  rw [hOutcome, hOutcome]
  exact map_bind_of_map_eq hFirst hNext

/- The same for two computations that begin in the same way. -/
theorem map_outcome_bind_congr
    {g : β → δ}
    (x : Traced ω ε α)
    {next last : α → Traced ω ε β}
    (hNext :
      ∀ value,
        (next value).outcome.map g =
          (last value).outcome.map g) :
    (x >>= next).outcome.map g = (x >>= last).outcome.map g := by
  apply map_outcome_bind (f := fun value => value) rfl
  rintro value _ rfl
  exact hNext value

/- Restating errors does not make a computation succeed. -/
@[simp] theorem outcome_mapError_eq_ok
    {ε' : Type}
    {f : ε → ε'}
    {x : Traced ω ε α}
    {value : α} :
    (x.mapError f).outcome = .ok value ↔
      x.outcome = .ok value := by
  unfold mapError
  cases h : x.outcome <;> simp

/- A restated error was an error before. -/
theorem outcome_mapError_eq_error
    {ε' : Type}
    {f : ε → ε'}
    {x : Traced ω ε α}
    {error : ε'} :
    (x.mapError f).outcome = .error error ↔
      ∃ first, x.outcome = .error first ∧ f first = error := by
  unfold mapError
  cases h : x.outcome <;> simp

end Traced

end PipelineScript
