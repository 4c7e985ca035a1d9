import SystemDetection.Memory.Permitted
import SystemDetection.Patches.PlanRun

open effect store systemdetection.patches.memory

namespace systemdetection.patches

variable {σ : Type} {os : Os σ}

/-- An applied write found its expected bytes and left its replacement. -/
theorem CheckedWrite.apply_applied {write : CheckedWrite} {world world' : World σ}
    (hwrite : write.apply os world = (.ok .Applied, world')) :
    write.replacement ≠ [] ∧ write.replacement.length = write.expected.length ∧
      world.memory.read write.address write.expected.length = write.expected ∧
      write.expected ≠ write.replacement ∧
      world'.memory = world.memory.write write.address write.replacement := by
  rcases write_checked_cases (Action.map_err_eq_ok_iff.mp hwrite) with
    ⟨hstate, _⟩ | ⟨⟨_, herror⟩, _⟩ | ⟨_, _, hcopies, hfinish⟩
  · cases hstate
  · cases herror
  · obtain ⟨hnonempty, hlength, hheld, hdiffers⟩ := hcopies.guard
    exact ⟨hnonempty, hlength.symm, hheld, hdiffers,
      (finish_write_cases hfinish).2.trans hcopies.memory_eq⟩

/-- A write that was found applied has its replacement there, and changes nothing. -/
theorem CheckedWrite.apply_already {write : CheckedWrite} {world world' : World σ}
    (hwrite : write.apply os world = (.ok .AlreadyApplied, world')) :
    world.memory.read write.address write.replacement.length = write.replacement ∧
      world'.memory = world.memory := by
  rcases write_checked_cases (Action.map_err_eq_ok_iff.mp hwrite) with
    ⟨_, hvalid⟩ | ⟨⟨_, herror⟩, _⟩ | ⟨_, _, _, hfinish⟩
  · obtain ⟨_, _, hheld, hmemory⟩ := validate_bytes_ok hvalid
    exact ⟨hheld, hmemory⟩
  · cases herror
  · obtain hstate | ⟨_, herror⟩ := (finish_write_cases hfinish).1
    · cases hstate
    · cases herror

/-- A successful rollback leaves the expected bytes, whether it had to write them or not. -/
theorem CheckedWrite.rollback_ok {write : CheckedWrite} {world world' : World σ} {state : WriteState}
    (hrollback : write.rollback os world = (.ok state, world')) :
    world'.memory = world.memory.write write.address write.expected := by
  let undo : CheckedWrite := ⟨write.address, write.replacement, write.expected⟩
  cases state with
  | Applied =>
    have hundo : undo.apply os world = (.ok .Applied, world') := hrollback
    exact (CheckedWrite.apply_applied hundo).2.2.2.2
  | AlreadyApplied =>
    have hundo : undo.apply os world = (.ok .AlreadyApplied, world') := hrollback
    obtain ⟨hheld, hmemory⟩ := CheckedWrite.apply_already hundo
    rw [hmemory]
    exact (Store.write_of_read hheld).symm

/-- Writes none of which had to be applied leave memory alone. -/
theorem Forward.memory_of_none {world reached : World σ} {writes applied : List CheckedWrite}
    (hforward : Forward os world writes applied reached) (hnone : applied = []) :
    reached.memory = world.memory := by
  induction hforward with
  | nil world => rfl
  | applied _ _ _ => cases hnone
  | already hwrite _ ih => rw [ih hnone, (CheckedWrite.apply_already hwrite).2]

/-- The successful prefix of a plan is a chain of edits: the writes it applied. -/
theorem Forward.edits {world reached : World σ} {writes applied : List CheckedWrite}
    (hforward : Forward os world writes applied reached) :
    Applied world.memory (applied.map CheckedWrite.edit) reached.memory := by
  induction hforward with
  | nil world => exact .nil _
  | applied hwrite _ ih =>
    obtain ⟨_, hlength, hheld, _, hmemory⟩ := CheckedWrite.apply_applied hwrite
    rw [hmemory] at ih
    exact .cons hheld hlength ih
  | already hwrite _ ih =>
    rwa [(CheckedWrite.apply_already hwrite).2] at ih

/-- The applied writes can be undone as far as their bytes go. -/
theorem Forward.undoable {world reached : World σ} {writes applied : List CheckedWrite}
    (hforward : Forward os world writes applied reached) :
    ∀ write ∈ applied.reverse, write.expected ≠ [] ∧ write.replacement.length = write.expected.length := by
  simp only [List.mem_reverse]
  induction hforward with
  | nil world => exact nofun
  | applied hwrite _ ih =>
    obtain ⟨hnonempty, hlength, _⟩ := CheckedWrite.apply_applied hwrite
    refine List.forall_mem_cons.mpr ⟨⟨?_, hlength⟩, ih⟩
    rintro hempty
    exact hnonempty (List.length_eq_zero_iff.mp (by rw [hlength, hempty]; rfl))
  | already _ _ ih => exact ih

/-- A rollback without errors has put back the old bytes of every write. -/
theorem rollback_all_memory {writes : List CheckedWrite} {world world' : World σ}
    (hrollback : rollback_all os writes world = (.ok [], world')) :
    world'.memory = restore (writes.reverse.map CheckedWrite.edit) world.memory := by
  induction writes generalizing world with
  | nil =>
    cases hrollback
    rfl
  | cons write rest ih =>
    rcases hwrite : write.rollback os world with ⟨result, next⟩
    obtain ⟨errors, final, hrest⟩ := rollback_all_ok os rest next
    rw [rollback_all, Action.bind_of_ok (Action.attempt_of_eq hwrite), Action.bind_of_ok hrest]
      at hrollback
    cases result with
    | error error => simp at hrollback
    | ok state =>
      simp only [Action.pure_apply, Prod.mk.injEq, Except.ok.injEq] at hrollback
      obtain ⟨rfl, rfl⟩ := hrollback
      rw [ih hrest, CheckedWrite.rollback_ok hwrite, List.reverse_cons, List.map_append, restore_append]
      rfl

/-- Going through the writes, each of whose undos is permitted, one comes whose undo is
not: the system refuses it a call, or its target holds neither of its bytes. -/
inductive UndoRefused (os : Os σ) : List CheckedWrite → Store UInt8 → σ → Prop where
  | here {write : CheckedWrite} {rest : List CheckedWrite} {memory : Store UInt8} {state : σ}
      (hrefused : ∀ last, ¬WritePermitted os memory write.address write.replacement write.expected state last) :
      UndoRefused os (write :: rest) memory state
  | later {write : CheckedWrite} {rest : List CheckedWrite} {memory : Store UInt8} {state last : σ}
      (hpermitted : WritePermitted os memory write.address write.replacement write.expected state last)
      (hrest : UndoRefused os rest (memory.write write.address write.expected) last) :
      UndoRefused os (write :: rest) memory state

/-- A rollback reports an error exactly when an undo is refused. -/
theorem rollback_all_refused_iff {writes : List CheckedWrite}
    (hwrites : ∀ write ∈ writes, write.expected ≠ [] ∧ write.replacement.length = write.expected.length)
    (world : World σ) :
    UndoRefused os writes world.memory world.os ↔ ∃ rollback_error rollback_errors world',
      rollback_all os writes world = (.ok (rollback_error :: rollback_errors), world') := by
  induction writes generalizing world with
  | nil =>
    constructor
    · intro hrefused
      cases hrefused
    · rintro ⟨_, _, _, hrollback⟩
      cases hrollback
  | cons write rest ih =>
    obtain ⟨⟨hnonempty, hsame⟩, hrest⟩ := List.forall_mem_cons.mp hwrites
    rcases hwrite : write.rollback os world with ⟨result, next⟩
    obtain ⟨errors, final, hfinal⟩ := rollback_all_ok os rest next
    rw [rollback_all, Action.bind_of_ok (Action.attempt_of_eq hwrite), Action.bind_of_ok hfinal]
    -- A permitted undo goes through, and ends where its last call left the system.
    have hundone : ∀ last,
        WritePermitted os world.memory write.address write.replacement write.expected world.os last →
          ∃ state, result = .ok state ∧ next.os = last := by
      intro last hpermitted
      obtain ⟨state, world', hchecked, _, hlast⟩ := hpermitted.write_checked_ok hnonempty hsame
      have hok : write.rollback os world = (.ok state, world') := Action.map_err_eq_ok_iff.mpr hchecked
      rw [hwrite, Prod.mk.injEq] at hok
      exact ⟨state, hok.1, hok.2 ▸ hlast⟩
    cases result with
    | error error =>
      refine ⟨fun _ => ⟨error, errors, final, rfl⟩, fun _ => .here fun last hpermitted => ?_⟩
      obtain ⟨_, hok, _⟩ := hundone last hpermitted
      cases hok
    | ok state =>
      have hpermitted := write_checked_permitted (Action.map_err_eq_ok_iff.mp hwrite)
      have hmemory := CheckedWrite.rollback_ok hwrite
      have hnext := ih hrest next
      rw [hfinal, hmemory] at hnext
      refine Iff.trans ⟨fun hrefused => ?_, .later hpermitted⟩ hnext
      cases hrefused with
      | here hnone => exact absurd hpermitted (hnone _)
      | later hpermitted' hlater =>
        obtain ⟨_, _, rfl⟩ := hundone _ hpermitted'
        exact hlater

/-- The write fails after its bytes were copied: its restoring `VirtualProtect`,
its cache flush or the query of its read-back fails. -/
def CheckedWrite.FailsAfterCopy (os : Os σ) (write : CheckedWrite) (world failed : World σ) : Prop :=
  ∃ old_protection copied error,
    Copies os write.address write.expected write.replacement world old_protection copied ∧
    finish_write os write.address write.replacement old_protection copied = (.error error, failed)

theorem CheckedWrite.FailsAfterCopy.memory_eq {write : CheckedWrite} {world failed : World σ}
    (hfails : write.FailsAfterCopy os world failed) :
    failed.memory = world.memory.write write.address write.replacement := by
  obtain ⟨_, copied, _, hcopies, hfinish⟩ := hfails
  exact (finish_write_cases hfinish).2.trans hcopies.memory_eq

theorem CheckedWrite.FailsAfterCopy.apply_eq {write : CheckedWrite} {world failed : World σ}
    (hfails : write.FailsAfterCopy os world failed) :
    ∃ error, write.apply os world = (.error (.Memory error), failed) := by
  obtain ⟨_, copied, error, hcopies, hfinish⟩ := hfails
  refine ⟨error, Action.map_err_eq_error_iff.mpr ⟨error, ?_, rfl⟩⟩
  rw [hcopies.write_checked_eq, hfinish]

/-- A failed write either touched nothing or failed after its copy. -/
theorem CheckedWrite.apply_error {write : CheckedWrite} {world failed : World σ} {error : PatchError}
    (hwrite : write.apply os world = (.error error, failed)) :
    error.is_partial_write = false ∧
      (failed.memory = world.memory ∨ write.FailsAfterCopy os world failed) := by
  obtain ⟨cause, hchecked, rfl⟩ := Action.map_err_eq_error_iff.mp hwrite
  refine ⟨rfl, ?_⟩
  obtain ⟨hstate, _⟩ | ⟨_, huntouched, _⟩ | ⟨old, copied, hcopies, hfinish⟩ := write_checked_cases hchecked
  · cases hstate
  · exact .inl huntouched.memory_eq
  · exact .inr ⟨old, copied, cause, hcopies, hfinish⟩

/-- A write that fails after a successful prefix ends the loop, with the undo of what the prefix
has applied. -/
theorem apply_loop_of_failure {applied already_applied : Nat}
    {applied_writes done now rest : List CheckedWrite} {write : CheckedWrite}
    {world reached failed world' : World σ} {error : PatchError} {rollback_errors : List PatchError}
    (hforward : Forward os world done now reached)
    (hfail : write.apply os reached = (.error error, failed))
    (hrollback : rollback_all os (applied_writes ++ now).reverse failed = (.ok rollback_errors, world')) :
    apply_loop os applied already_applied applied_writes (done ++ write :: rest) world =
      (.error (if rollback_errors.isEmpty then error
        else .PartialWrite (applied + now.length) error rollback_errors), world') := by
  induction hforward generalizing applied already_applied applied_writes with
  | nil world =>
    rw [List.append_nil] at hrollback
    rw [List.nil_append, apply_loop, Action.bind_of_ok (Action.attempt_of_eq hfail)]
    dsimp only
    rw [Action.bind_of_ok hrollback]
    cases hempty : rollback_errors.isEmpty <;> simp
  | @applied world next reached first writes now hwrite _ ih =>
    rw [List.cons_append, apply_loop, Action.bind_of_ok (Action.attempt_of_eq hwrite)]
    dsimp only
    rw [ih hfail (by simpa using hrollback), List.length_cons, Nat.add_assoc, Nat.add_comm 1]
  | already hwrite _ ih =>
    rw [List.cons_append, apply_loop, Action.bind_of_ok (Action.attempt_of_eq hwrite)]
    exact ih hfail hrollback

end systemdetection.patches
