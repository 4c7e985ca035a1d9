import Mathlib.Data.List.Basic

namespace effect

/-- A fallible computation over a mutable state. An error keeps every effect
made before it, as an early return of an `Err` does. -/
def Action (S ε α : Type) : Type := S → Except ε α × S

namespace Action

variable {S ε ε' α β : Type}

instance : Monad (Action S ε) where
  pure value := fun s => (.ok value, s)
  bind action next := fun s =>
    match action s with
    | (.ok value, s') => next value s'
    | (.error error, s') => (.error error, s')

instance : MonadExceptOf ε (Action S ε) where
  throw error := fun s => (.error error, s)
  tryCatch action handler := fun s =>
    match action s with
    | (.ok value, s') => (.ok value, s')
    | (.error error, s') => handler error s'

/-- A pure result, with no effect. -/
def lift (result : Except ε α) : Action S ε α := fun s => (result, s)

/-- The result as a value: the caller goes on after an error. -/
def attempt (action : Action S ε α) : Action S ε' (Except ε α) := fun s =>
  (.ok (action s).1, (action s).2)

def map_err (convert : ε → ε') (action : Action S ε α) : Action S ε' α := fun s =>
  ((action s).1.mapError convert, (action s).2)

@[simp] theorem pure_apply (value : α) (s : S) : (pure value : Action S ε α) s = (.ok value, s) := rfl

@[simp] theorem throw_apply (error : ε) (s : S) : (throw error : Action S ε α) s = (.error error, s) := rfl

@[simp] theorem lift_apply (result : Except ε α) (s : S) : lift result s = (result, s) := rfl

@[simp] theorem attempt_apply (action : Action S ε α) (s : S) :
    (action.attempt : Action S ε' (Except ε α)) s = (.ok (action s).1, (action s).2) := rfl

@[simp] theorem map_err_apply (convert : ε → ε') (action : Action S ε α) (s : S) :
    action.map_err convert s = ((action s).1.mapError convert, (action s).2) := rfl

theorem bind_of_ok {action : Action S ε α} {next : α → Action S ε β} {s s' : S} {value : α}
    (haction : action s = (.ok value, s')) : (action >>= next) s = next value s' := by
  simp only [Bind.bind, haction]

theorem bind_of_error {action : Action S ε α} {next : α → Action S ε β} {s s' : S} {error : ε}
    (haction : action s = (.error error, s')) : (action >>= next) s = (.error error, s') := by
  simp only [Bind.bind, haction]

theorem bind_eq_ok_iff {action : Action S ε α} {next : α → Action S ε β} {s s' : S} {value : β} :
    (action >>= next) s = (.ok value, s') ↔
      ∃ first middle, action s = (.ok first, middle) ∧ next first middle = (.ok value, s') := by
  rcases haction : action s with ⟨error | first, middle⟩
  · simp [bind_of_error haction]
  · simp [bind_of_ok haction]

theorem bind_eq_error_iff {action : Action S ε α} {next : α → Action S ε β} {s s' : S} {error : ε} :
    (action >>= next) s = (.error error, s') ↔
      action s = (.error error, s') ∨
        ∃ first middle, action s = (.ok first, middle) ∧ next first middle = (.error error, s') := by
  rcases haction : action s with ⟨error | first, middle⟩
  · simp [bind_of_error haction]
  · simp [bind_of_ok haction]

theorem attempt_of_eq {action : Action S ε α} {s s' : S} {result : Except ε α}
    (haction : action s = (result, s')) :
    (action.attempt : Action S ε' (Except ε α)) s = (.ok result, s') := by
  rw [attempt_apply, haction]

theorem map_err_eq_ok_iff {convert : ε → ε'} {action : Action S ε α} {s s' : S} {value : α} :
    action.map_err convert s = (.ok value, s') ↔ action s = (.ok value, s') := by
  rcases haction : action s with ⟨error | first, middle⟩ <;> simp [haction, Except.mapError]

theorem map_err_eq_error_iff {convert : ε → ε'} {action : Action S ε α} {s s' : S} {error : ε'} :
    action.map_err convert s = (.error error, s') ↔
      ∃ cause, action s = (.error cause, s') ∧ convert cause = error := by
  rcases haction : action s with ⟨cause | first, middle⟩
  · simp [haction, Except.mapError]
    tauto
  · simp [haction, Except.mapError]

/-- An action is run once its result is known. -/
theorem eq_of_result {action : Action S ε α} {s : S} {result : Except ε α}
    (hresult : (action s).1 = result) : action s = (result, (action s).2) :=
  Prod.ext hresult rfl

/-- An action that cannot fail returns. -/
theorem eq_ok_of_empty (action : Action S Empty α) (s : S) : ∃ value s', action s = (.ok value, s') := by
  rcases action s with ⟨error | value, s'⟩
  · exact error.elim
  · exact ⟨value, s', rfl⟩

/-- An action that cannot fail, among actions that can. -/
def infallible (action : Action S Empty α) : Action S ε α := action.map_err Empty.elim

theorem infallible_of_ok {action : Action S Empty α} {s s' : S} {value : α}
    (haction : action s = (.ok value, s')) : (action.infallible : Action S ε α) s = (.ok value, s') :=
  map_err_eq_ok_iff.mpr haction

/-- Whatever its result, the action relates the state before it to the state after it. -/
def Relates (action : Action S ε α) (R : S → S → Prop) : Prop := ∀ s, R s (action s).2

section Relates

variable {R : S → S → Prop}

theorem Relates.of_eq {action : Action S ε α} (haction : action.Relates R) {s s' : S}
    {result : Except ε α} (hrun : action s = (result, s')) : R s s' := by
  simpa [hrun] using haction s

theorem relates_pure (hrefl : ∀ s, R s s) (value : α) : (pure value : Action S ε α).Relates R := hrefl

theorem relates_throw (hrefl : ∀ s, R s s) (error : ε) : (throw error : Action S ε α).Relates R := hrefl

theorem relates_lift (hrefl : ∀ s, R s s) (result : Except ε α) : (lift result : Action S ε α).Relates R :=
  hrefl

/-- Sequencing composes the two relations. The continuation only has to relate
states for the values the first action can really produce. -/
theorem relates_bind_of (htrans : ∀ a b c, R a b → R b c → R a c) {action : Action S ε α}
    {next : α → Action S ε β} (hfirst : action.Relates R)
    (hnext : ∀ s s' value, action s = (.ok value, s') → R s' (next value s').2) :
    (action >>= next).Relates R := by
  intro s
  have hstep := hfirst s
  rcases haction : action s with ⟨error | value, s'⟩
  · rw [bind_of_error haction]
    simpa [haction] using hstep
  · rw [bind_of_ok haction]
    exact htrans _ _ _ (by simpa [haction] using hstep) (hnext s s' value haction)

theorem relates_bind (htrans : ∀ a b c, R a b → R b c → R a c) {action : Action S ε α}
    {next : α → Action S ε β} (hfirst : action.Relates R) (hnext : ∀ value, (next value).Relates R) :
    (action >>= next).Relates R :=
  relates_bind_of htrans hfirst fun _ s' value _ => hnext value s'

theorem Relates.attempt {action : Action S ε α} (haction : action.Relates R) :
    (action.attempt : Action S ε' (Except ε α)).Relates R := haction

theorem Relates.map_err {action : Action S ε α} (haction : action.Relates R) (convert : ε → ε') :
    (action.map_err convert).Relates R := haction

theorem Relates.infallible {action : Action S Empty α} (haction : action.Relates R) :
    (action.infallible : Action S ε α).Relates R := haction

end Relates

end Action

theorem mapError_eq_ok_iff {ε ε' α : Type} {convert : ε → ε'} {result : Except ε α} {value : α} :
    result.mapError convert = .ok value ↔ result = .ok value := by
  cases result <;> simp [Except.mapError]

/-- A result is successful when it has a value. -/
theorem eq_ok_of_toOption {ε α : Type} {result : Except ε α} {value : α}
    (hresult : result.toOption = some value) : result = .ok value := by
  cases result with
  | error error => cases hresult
  | ok other =>
    cases hresult
    rfl

theorem except_bind_eq_ok_iff {ε α β : Type} {result : Except ε α} {next : α → Except ε β} {value : β} :
    result >>= next = .ok value ↔ ∃ middle, result = .ok middle ∧ next middle = .ok value := by
  cases result with
  | error error => simp [bind, Except.bind]
  | ok middle => simp [bind, Except.bind]

end effect
