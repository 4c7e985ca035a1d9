import SystemDetection.Memory.Error
import SystemDetection.Platform.Os

open effect store

namespace systemdetection.patches.memory

variable {σ : Type}

inductive WriteState where
  | Applied
  | AlreadyApplied
  deriving DecidableEq

def is_readable_protection (protection : UInt32) : Bool :=
  let base := protection &&& 0xFF
  base == PAGE_READONLY || base == PAGE_READWRITE || base == PAGE_WRITECOPY
    || base == PAGE_EXECUTE_READ || base == PAGE_EXECUTE_READWRITE || base == PAGE_EXECUTE_WRITECOPY

/-- The checks made on the answer of one query: committed, readable, unguarded
memory whose region end is an address. Yields that end. -/
def readable_region_end (address : Nat) (information : MemoryBasicInformation) :
    Except MemoryError Nat :=
  if information.State ≠ MEM_COMMIT then
    .error (.NotCommitted address)
  else if information.Protect &&& PAGE_GUARD ≠ 0 ∨ ¬ is_readable_protection information.Protect then
    .error (.NotReadable address information.Protect)
  else
    match checked_add information.BaseAddress information.RegionSize with
    | none => .error (.AddressOverflow information.BaseAddress information.RegionSize)
    | some region_end => .ok region_end

/-- The loop of `validate_readable_range`, from `cursor` up to `stop`. -/
def validate_readable_loop (os : Os σ) (stop cursor : Nat) : Action (World σ) MemoryError Unit :=
  if _hcursor : cursor < stop then do
    match ← virtual_query os cursor with
    | none => throw (.QueryFailed cursor)
    | some information =>
      let region_end ← Action.lift (readable_region_end cursor information)
      if _hadvance : region_end ≤ cursor then
        throw (.QueryFailed cursor)
      else
        validate_readable_loop os stop (min region_end stop)
  else
    pure ()
termination_by stop - cursor

def validate_readable_range (os : Os σ) (address length : Nat) : Action (World σ) MemoryError Unit :=
  if length = 0 then
    pure ()
  else
    match checked_add address length with
    | none => throw (.AddressOverflow address length)
    | some stop => validate_readable_loop os stop address

/-- Read bytes after validating every virtual-memory region in the range. Every caller
asks for the length of bytes that it holds, or for one byte, so the buffer can be
allocated. -/
def read_bytes (os : Os σ) (address length : Nat) : Action (World σ) MemoryError (List UInt8) := do
  validate_readable_range os address length
  if length ≠ 0 then raw_read address length else pure []

def validate_lengths (expected replacement : List UInt8) : Except MemoryError Unit :=
  if replacement.isEmpty then
    .error .EmptyReplacement
  else if expected.length ≠ replacement.length then
    .error (.LengthMismatch expected.length replacement.length)
  else
    .ok ()

/-- `Applied` here means a write is required. -/
def classify_bytes (address : Nat) (expected replacement actual : List UInt8) :
    Except MemoryError WriteState :=
  if actual = replacement then .ok .AlreadyApplied
  else if actual = expected then .ok .Applied
  else .error (.UnexpectedBytes address expected replacement actual)

/-- Validate that a destination contains either its original or replacement
bytes without modifying memory. -/
def validate_bytes (os : Os σ) (address : Nat) (expected replacement : List UInt8) :
    Action (World σ) MemoryError WriteState := do
  Action.lift (validate_lengths expected replacement)
  let actual ← read_bytes os address expected.length
  Action.lift (classify_bytes address expected replacement actual)

def writable_protection_for_single_region (os : Os σ) (address length : Nat) :
    Action (World σ) MemoryError UInt32 :=
  match checked_add address length with
  | none => throw (.AddressOverflow address length)
  | some stop => do
    match ← virtual_query os address with
    | none => throw (.QueryFailed address)
    | some information =>
      let region_end ← Action.lift (readable_region_end address information)
      if region_end < stop then
        throw (.CrossesProtectionRegion address length)
      else
        let base := information.Protect &&& 0xFF
        pure (if base = PAGE_EXECUTE_READ ∨ base = PAGE_EXECUTE_READWRITE
            ∨ base = PAGE_EXECUTE_WRITECOPY then PAGE_EXECUTE_READWRITE else PAGE_READWRITE)

/-- What `write_checked` does once the replacement is in memory: it restores
the protection and flushes the instruction cache before it looks at either
result, then reads the target back. -/
def finish_write (os : Os σ) (address : Nat) (replacement : List UInt8) (old_protection : UInt32) :
    Action (World σ) MemoryError WriteState := do
  let restore_result ←
    (virtual_protect os address replacement.length old_protection).attempt
  let flush_result ← (flush_instruction_cache os address replacement.length).attempt
  match restore_result, flush_result with
  | .error error, _ => throw (.RestoreProtection address error)
  | .ok _, .error error => throw (.FlushInstructionCache address error)
  | .ok _, .ok _ =>
    let actual ← read_bytes os address replacement.length
    if actual ≠ replacement then
      throw (.WriteVerification address replacement actual)
    else
      pure .Applied

/-- Apply an idempotent, expected-byte-guarded memory write. -/
def write_checked (os : Os σ) (address : Nat) (expected replacement : List UInt8) :
    Action (World σ) MemoryError WriteState := do
  match ← validate_bytes os address expected replacement with
  | .AlreadyApplied => pure .AlreadyApplied
  | .Applied =>
    let writable_protection ←
      writable_protection_for_single_region os address replacement.length
    let old_protection ← (virtual_protect os address replacement.length
      writable_protection).map_err (MemoryError.Protect address)
    raw_write address replacement
    finish_write os address replacement old_protection

end systemdetection.patches.memory
