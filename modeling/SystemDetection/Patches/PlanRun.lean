import SystemDetection.Patches.Plan

open effect store systemdetection.patches.memory

namespace systemdetection.patches

variable {σ : Type}

/-- The first writes of a plan, all of which succeed, with those among them
that had to be applied and the world they lead to. -/
inductive Forward (os : Os σ) : World σ → List CheckedWrite → List CheckedWrite → World σ → Prop where
  | nil (world : World σ) : Forward os world [] [] world
  | applied {world next reached : World σ} {write : CheckedWrite} {writes applied : List CheckedWrite}
      (hwrite : write.apply os world = (.ok .Applied, next))
      (hrest : Forward os next writes applied reached) :
      Forward os world (write :: writes) (write :: applied) reached
  | already {world next reached : World σ} {write : CheckedWrite} {writes applied : List CheckedWrite}
      (hwrite : write.apply os world = (.ok .AlreadyApplied, next))
      (hrest : Forward os next writes applied reached) :
      Forward os world (write :: writes) applied reached

variable {os : Os σ}

/-- Not more writes are applied than there are. -/
theorem Forward.length_le {world reached : World σ} {writes applied : List CheckedWrite}
    (hforward : Forward os world writes applied reached) : applied.length ≤ writes.length := by
  induction hforward with
  | nil world => simp
  | applied _ _ ih => simpa using ih
  | already _ _ ih =>
    simp only [List.length_cons]
    omega

/-- A rollback goes through all its writes whatever fails. -/
theorem rollback_all_ok (os : Os σ) (writes : List CheckedWrite) (world : World σ) :
    ∃ rollback_errors world', rollback_all os writes world = (.ok rollback_errors, world') := by
  induction writes generalizing world with
  | nil => exact ⟨[], world, rfl⟩
  | cons write rest ih =>
    rcases hwrite : write.rollback os world with ⟨result, next⟩
    obtain ⟨errors, final, hrest⟩ := ih next
    rw [rollback_all, Action.bind_of_ok (Action.attempt_of_eq hwrite), Action.bind_of_ok hrest]
    cases result with
    | error error => exact ⟨error :: errors, final, rfl⟩
    | ok _ => exact ⟨errors, final, rfl⟩

/-- When every write succeeds the loop only counts them. -/
theorem apply_loop_of_forward {world reached : World σ} {writes now : List CheckedWrite}
    (hforward : Forward os world writes now reached) (applied already_applied : Nat)
    (applied_writes : List CheckedWrite) :
    apply_loop os applied already_applied applied_writes writes world =
      (.ok (if applied + now.length = 0 ∧ already_applied + (writes.length - now.length) ≠ 0
        then .AlreadyApplied else .Applied), reached) := by
  induction hforward generalizing applied already_applied applied_writes with
  | nil world => rfl
  | @applied world next reached write writes now hwrite _ ih =>
    rw [apply_loop, Action.bind_of_ok (Action.attempt_of_eq hwrite)]
    dsimp only
    rw [ih]
    simp [Nat.add_assoc, Nat.add_comm 1]
  | @already world next reached write writes now hwrite hrest ih =>
    have hle := hrest.length_le
    have hcount : already_applied + 1 + (writes.length - now.length) =
        already_applied + ((write :: writes).length - now.length) := by
      simp only [List.length_cons]
      omega
    rw [apply_loop, Action.bind_of_ok (Action.attempt_of_eq hwrite)]
    dsimp only
    rw [ih, hcount]

/-- The loop ends in one of two ways: every write succeeded, or a write failed
after a successful prefix and what was applied has been rolled back. -/
theorem apply_loop_cases (applied already_applied : Nat) (applied_writes writes : List CheckedWrite)
    {world world' : World σ} {result : Except PatchError WriteState}
    (hloop : apply_loop os applied already_applied applied_writes writes world = (result, world')) :
    (∃ now, Forward os world writes now world' ∧
      result = .ok (if applied + now.length = 0 ∧ already_applied + (writes.length - now.length) ≠ 0
        then .AlreadyApplied else .Applied)) ∨
    (∃ done write rest now reached failed error rollback_errors,
      writes = done ++ write :: rest ∧ Forward os world done now reached ∧
      write.apply os reached = (.error error, failed) ∧
      rollback_all os (applied_writes ++ now).reverse failed = (.ok rollback_errors, world') ∧
      result = .error (if rollback_errors.isEmpty then error
        else .PartialWrite (applied + now.length) error rollback_errors)) := by
  induction writes generalizing applied already_applied applied_writes world with
  | nil =>
    simp only [apply_loop, Action.pure_apply, Prod.mk.injEq] at hloop
    obtain ⟨rfl, rfl⟩ := hloop
    exact .inl ⟨[], .nil _, by simp⟩
  | cons write rest ih =>
    rw [apply_loop] at hloop
    rcases hwrite : write.apply os world with ⟨error | state, next⟩
    · rw [Action.bind_of_ok (Action.attempt_of_eq hwrite)] at hloop
      obtain ⟨rollback_errors, final, hrollback⟩ := rollback_all_ok os applied_writes.reverse next
      dsimp only at hloop
      rw [Action.bind_of_ok hrollback] at hloop
      refine .inr ⟨[], write, rest, [], world, next, error, rollback_errors, rfl, .nil _, hwrite, ?_⟩
      split at hloop
      · rename_i hempty
        simp only [Action.throw_apply, Prod.mk.injEq] at hloop
        obtain ⟨rfl, rfl⟩ := hloop
        exact ⟨by simpa using hrollback, by simp [hempty]⟩
      · rename_i hsome
        simp only [Action.throw_apply, Prod.mk.injEq] at hloop
        obtain ⟨rfl, rfl⟩ := hloop
        exact ⟨by simpa using hrollback, by simp [hsome]⟩
    · rw [Action.bind_of_ok (Action.attempt_of_eq hwrite)] at hloop
      cases state with
      | Applied =>
        rcases ih _ _ _ hloop with ⟨now, hforward, rfl⟩ |
          ⟨done, failing, tail, now, reached, failed, error, rollback_errors, rfl, hforward, hfail,
            hrollback, rfl⟩
        · refine .inl ⟨write :: now, .applied hwrite hforward, ?_⟩
          simp [Nat.add_assoc, Nat.add_comm 1]
        · refine .inr ⟨write :: done, failing, tail, write :: now, reached, failed, error,
            rollback_errors, rfl, .applied hwrite hforward, hfail, by simpa using hrollback, ?_⟩
          simp [Nat.add_assoc, Nat.add_comm 1]
      | AlreadyApplied =>
        rcases ih _ _ _ hloop with ⟨now, hforward, rfl⟩ |
          ⟨done, failing, tail, now, reached, failed, error, rollback_errors, rfl, hforward, hfail,
            hrollback, rfl⟩
        · refine .inl ⟨now, .already hwrite hforward, ?_⟩
          have hle := hforward.length_le
          have hcount : already_applied + 1 + (rest.length - now.length) =
              already_applied + ((write :: rest).length - now.length) := by
            simp only [List.length_cons]
            omega
          rw [hcount]
        · exact .inr ⟨write :: done, failing, tail, now, reached, failed, error, rollback_errors, rfl,
            .already hwrite hforward, hfail, hrollback, rfl⟩

end systemdetection.patches
