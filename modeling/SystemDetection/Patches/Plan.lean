import SystemDetection.Memory.Checked
import SystemDetection.Patches.Error
import SystemDetection.Store.Undo

open effect store systemdetection.patches.memory

namespace systemdetection.patches

variable {σ : Type}

structure CheckedWrite where
  address : Nat
  expected : List UInt8
  replacement : List UInt8
  deriving DecidableEq

def CheckedWrite.validated (os : Os σ) (address : Nat) (expected replacement : List UInt8) :
    Action (World σ) PatchError CheckedWrite := do
  let _ ← (validate_bytes os address expected replacement).map_err PatchError.Memory
  pure ⟨address, expected, replacement⟩

def CheckedWrite.apply (os : Os σ) (self : CheckedWrite) : Action (World σ) PatchError WriteState :=
  (write_checked os self.address self.expected self.replacement).map_err PatchError.Memory

def CheckedWrite.rollback (os : Os σ) (self : CheckedWrite) : Action (World σ) PatchError WriteState :=
  (write_checked os self.address self.replacement self.expected).map_err PatchError.Memory

/-- The replacement a checked write makes, as an edit of memory. -/
def CheckedWrite.edit (self : CheckedWrite) : Edit UInt8 where
  address := self.address
  before := self.expected
  after := self.replacement

structure PatchPlan where
  writes : List CheckedWrite
  writes_ne_nil : writes ≠ []

def PatchPlan.new (writes : List CheckedWrite) : Except PatchError PatchPlan :=
  if h : writes = [] then .error .EmptyPlan else .ok ⟨writes, h⟩

/-- A plan keeps the writes that it was made of. -/
theorem PatchPlan.new_eq_ok_iff {writes : List CheckedWrite} {plan : PatchPlan} :
    PatchPlan.new writes = .ok plan ↔ plan.writes = writes := by
  unfold PatchPlan.new
  split
  · rename_i hempty
    simp [hempty, plan.writes_ne_nil]
  · cases plan
    simp [eq_comm]

def PatchPlan.single (os : Os σ) (address : Nat) (expected replacement : List UInt8) :
    Action (World σ) PatchError PatchPlan := do
  let write ← CheckedWrite.validated os address expected replacement
  Action.lift (PatchPlan.new [write])

/-- Rolls the given writes back in this order and collects the errors. -/
def rollback_all (os : Os σ) : List CheckedWrite → Action (World σ) PatchError (List PatchError)
  | [] => pure []
  | applied_write :: rest => do
    let result ← (applied_write.rollback os).attempt
    let rollback_errors ← rollback_all os rest
    match result with
    | .error error => pure (error :: rollback_errors)
    | .ok _ => pure rollback_errors

/-- The loop of `PatchPlan::apply`, with its two counters and the writes to undo. -/
def apply_loop (os : Os σ) (applied already_applied : Nat) (applied_writes : List CheckedWrite) :
    List CheckedWrite → Action (World σ) PatchError WriteState
  | [] => pure (if applied = 0 ∧ already_applied ≠ 0 then .AlreadyApplied else .Applied)
  | write :: rest => do
    match ← (write.apply os).attempt with
    | .ok .Applied => apply_loop os (applied + 1) already_applied (applied_writes ++ [write]) rest
    | .ok .AlreadyApplied => apply_loop os applied (already_applied + 1) applied_writes rest
    | .error error =>
      let rollback_errors ← rollback_all os applied_writes.reverse
      if rollback_errors.isEmpty then
        throw error
      else
        throw (.PartialWrite applied error rollback_errors)

def PatchPlan.apply (os : Os σ) (self : PatchPlan) : Action (World σ) PatchError WriteState :=
  apply_loop os 0 0 [] self.writes

end systemdetection.patches
