import SystemDetection.Patches.Rollback

open effect store systemdetection.patches.memory

namespace systemdetection.patches

variable {σ : Type}

/-- An error that does not report an incomplete rollback leaves every byte as
it was before the plan. -/
def PatchPlan.AtomicOnFailure (os : Os σ) (plan : PatchPlan) (world : World σ) : Prop :=
  ∀ error world', plan.apply os world = (.error error, world') →
    error.is_partial_write = false → world'.memory = world.memory

/-- The loop undoes the writes that returned `Applied`, never the one that
failed. A write that fails after its copy leaves no byte behind when the undo of
an earlier write is refused, which makes the failure a `PartialWrite`, or when the
earlier writes that will be undone lie over all the bytes it changed. -/
def PatchPlan.StrandsNothing (os : Os σ) (plan : PatchPlan) (world : World σ) : Prop :=
  ∀ done write rest applied reached failed, plan.writes = done ++ write :: rest →
    Forward os world done applied reached → write.FailsAfterCopy os reached failed →
    UndoRefused os applied.reverse failed.memory failed.os ∨
    ∀ position, reached.memory.write write.address write.replacement position ≠ reached.memory position →
      ∃ earlier ∈ applied, earlier.edit.Covers position

variable {os : Os σ}

/-- Undoing the applied prefix recovers the first memory exactly when nothing
else was changed outside it. -/
theorem Forward.rollback_restores_iff {world reached failed world' : World σ}
    {done applied : List CheckedWrite} (hforward : Forward os world done applied reached)
    (hrollback : rollback_all os applied.reverse failed = (.ok [], world')) :
    world'.memory = world.memory ↔
      ∀ position, failed.memory position ≠ reached.memory position →
        ∃ earlier ∈ applied, earlier.edit.Covers position := by
  have hrestored := rollback_all_memory hrollback
  rw [List.reverse_reverse] at hrestored
  rw [hrestored, hforward.edits.restore_eq_iff failed.memory]
  constructor
  · intro hagree position hchanged
    by_contra hcovered
    apply hchanged
    apply hagree
    rintro ⟨edit, hedit, hcovers⟩
    obtain ⟨earlier, hmem, rfl⟩ := List.mem_map.mp hedit
    exact hcovered ⟨earlier, hmem, hcovers⟩
  · intro hcovered position huncovered
    by_contra hchanged
    obtain ⟨earlier, hmem, hcovers⟩ := hcovered position hchanged
    exact huncovered ⟨earlier.edit, List.mem_map_of_mem hmem, hcovers⟩

/-- Exactly when a plan is atomic under failures of the system: every write
that fails after copying its bytes strands none of them. -/
theorem PatchPlan.atomic_on_failure_iff (os : Os σ) (plan : PatchPlan) (world : World σ) :
    plan.AtomicOnFailure os world ↔ plan.StrandsNothing os world := by
  constructor
  · intro hatomic done write rest applied reached failed hwrites hforward hfails
    obtain ⟨error, hwrite⟩ := hfails.apply_eq
    obtain ⟨rollback_errors, world', hrollback⟩ := rollback_all_ok os applied.reverse failed
    cases rollback_errors with
    | cons rollback_error rollback_errors =>
      exact .inl ((rollback_all_refused_iff hforward.undoable failed).mpr
        ⟨rollback_error, rollback_errors, world', hrollback⟩)
    | nil =>
      right
      have hloop : plan.apply os world = (.error (.Memory error), world') := by
        rw [PatchPlan.apply, hwrites]
        exact apply_loop_of_failure hforward hwrite (by rwa [List.nil_append])
      have hrestored := (hforward.rollback_restores_iff hrollback).mp (hatomic _ _ hloop rfl)
      rwa [hfails.memory_eq] at hrestored
  · intro hstrands error world' happly hcomplete
    rcases apply_loop_cases 0 0 [] plan.writes happly with ⟨_, _, hresult⟩ |
      ⟨done, write, rest, applied, reached, failed, cause, rollback_errors, hwrites, hforward, hwrite,
        hrollback, hresult⟩
    · cases hresult
    · rw [List.nil_append] at hrollback
      cases rollback_errors with
      | cons rollback_error rollback_errors =>
        cases hresult
        cases hcomplete
      | nil =>
        apply (hforward.rollback_restores_iff hrollback).mpr
        intro position hchanged
        obtain hsame | hfails := (CheckedWrite.apply_error hwrite).2
        · exact absurd (congrFun hsame position) hchanged
        · rw [hfails.memory_eq] at hchanged
          rcases hstrands done write rest applied reached failed hwrites hforward hfails with
            hrefused | hcovered
          · obtain ⟨_, _, _, hreported⟩ := (rollback_all_refused_iff hforward.undoable failed).mp hrefused
            rw [hrollback] at hreported
            cases hreported
          · exact hcovered position hchanged

/-- A system on which every call succeeds but the flush of the instruction cache. -/
def flushless : Os Unit where
  VirtualQuery _ state := (some ⟨0x10000, 0x1000, MEM_COMMIT, PAGE_EXECUTE_READ⟩, state)
  VirtualProtect _ _ _ state := (.ok PAGE_EXECUTE_READ, state)
  FlushInstructionCache _ _ state := (.error "flush failed", state)

def tape_plan : PatchPlan := ⟨[⟨0x10005, [0x0A], [0x14]⟩], by simp⟩

def tape_world : World Unit := ⟨fun _ => 0x0A, (), []⟩

/-- The single write of a tape patch stays in memory when the flush after it
fails, and the error is no `PartialWrite`. -/
theorem tape_write_stranded : ¬ tape_plan.AtomicOnFailure flushless tape_world := by
  intro hatomic
  have hwritten : (tape_plan.apply flushless tape_world).2.memory 0x10005 = 0x14 := by decide +kernel
  have hfailed : (match (tape_plan.apply flushless tape_world).1 with
      | .ok _ => true
      | .error error => error.is_partial_write) = false := by decide +kernel
  rcases hrun : tape_plan.apply flushless tape_world with ⟨error | state, world'⟩
  · rw [hrun] at hwritten hfailed
    have hsame := hatomic error world' hrun hfailed
    rw [hsame] at hwritten
    exact absurd hwritten (by decide)
  · simp [hrun] at hfailed

end systemdetection.patches
