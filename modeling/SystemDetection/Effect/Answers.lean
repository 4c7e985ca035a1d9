import SystemDetection.Effect.Action

namespace effect.Action

variable {S ε ε' α β : Type} {P : ε → Prop} {P' : ε' → Prop} {Q : α → Prop} {R : β → Prop}

/-- In every state, an error of the action satisfies `P` and a value `Q`. -/
structure Answers (action : Action S ε α) (P : ε → Prop) (Q : α → Prop) : Prop where
  error : ∀ s error, (action s).1 = .error error → P error
  value : ∀ s value, (action s).1 = .ok value → Q value

theorem answers_lift {result : Except ε α} (herror : ∀ error, result = .error error → P error)
    (hvalue : ∀ value, result = .ok value → Q value) : (lift result : Action S ε α).Answers P Q where
  error _ := herror
  value _ := hvalue

theorem answers_pure {value : α} (hvalue : Q value) : (pure value : Action S ε α).Answers P Q where
  error _ _ herror := by cases herror
  value _ _ hok := by
    cases hok
    exact hvalue

theorem answers_throw {error : ε} (herror : P error) : (throw error : Action S ε α).Answers P Q where
  error _ _ hthrown := by
    cases hthrown
    exact herror
  value _ _ hok := by cases hok

/-- The continuation only has to answer for the values of the first action. -/
theorem Answers.bind {action : Action S ε α} {next : α → Action S ε β} (hfirst : action.Answers P Q)
    (hnext : ∀ value, Q value → (next value).Answers P R) : (action >>= next).Answers P R where
  error s error herror := by
    rcases haction : action s with ⟨cause | value, s'⟩
    · rw [bind_of_error haction, Except.error.injEq] at herror
      exact herror ▸ hfirst.error s cause (by rw [haction])
    · rw [bind_of_ok haction] at herror
      exact (hnext value (hfirst.value s value (by rw [haction]))).error s' error herror
  value s value hvalue := by
    rcases haction : action s with ⟨cause | first, s'⟩
    · rw [bind_of_error haction] at hvalue
      cases hvalue
    · rw [bind_of_ok haction] at hvalue
      exact (hnext first (hfirst.value s first (by rw [haction]))).value s' value hvalue

/-- What an attempted action answers, as a value. -/
theorem Answers.attempt {action : Action S ε α} (haction : action.Answers P Q) :
    (action.attempt : Action S ε' (Except ε α)).Answers P' fun result =>
      (∀ error, result = .error error → P error) ∧ ∀ value, result = .ok value → Q value where
  error _ _ herror := by cases herror
  value s result hresult := by
    cases hresult
    exact ⟨haction.error s, haction.value s⟩

/-- Converting the errors converts what is known of them. -/
theorem Answers.map_err {action : Action S ε α} (haction : action.Answers P Q) {convert : ε → ε'}
    (hconvert : ∀ error, P error → P' (convert error)) : (action.map_err convert).Answers P' Q where
  error s error herror := by
    obtain ⟨cause, hcause, rfl⟩ := map_err_eq_error_iff.mp (eq_of_result herror)
    exact hconvert cause (haction.error s cause (by rw [hcause]))
  value s value hvalue := by
    have hok := map_err_eq_ok_iff.mp (eq_of_result hvalue)
    exact haction.value s value (by rw [hok])

theorem Answers.infallible {action : Action S Empty α} (haction : action.Answers (fun _ => True) Q) :
    (action.infallible : Action S ε α).Answers P Q :=
  haction.map_err fun error _ => error.elim

theorem Answers.of_ok {action : Action S ε α} (haction : action.Answers P Q) {s s' : S} {value : α}
    (hrun : action s = (.ok value, s')) : Q value :=
  haction.value s value (by rw [hrun])

theorem Answers.of_error {action : Action S ε α} (haction : action.Answers P Q) {s s' : S} {error : ε}
    (hrun : action s = (.error error, s')) : P error :=
  haction.error s error (by rw [hrun])

end effect.Action
