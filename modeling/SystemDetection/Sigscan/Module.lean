import SystemDetection.Platform.Os
import SystemDetection.Platform.Panic
import SystemDetection.Sigscan.Image

open effect store

namespace systemdetection.patches.sigscan

variable {σ : Type}

/-- `is_readable_protection` of the scanner, the same six protections. -/
def is_readable_protection (protection : UInt32) : Bool :=
  let base := protection &&& 0xFF
  base == PAGE_READONLY || base == PAGE_READWRITE || base == PAGE_WRITECOPY
    || base == PAGE_EXECUTE_READ || base == PAGE_EXECUTE_READWRITE || base == PAGE_EXECUTE_WRITECOPY

def validate_region (information : MemoryBasicInformation) : Except String Unit :=
  if information.State ≠ MEM_COMMIT then
    .error "memory is not committed"
  else if information.Protect &&& PAGE_GUARD ≠ 0 ∨ ¬ is_readable_protection information.Protect then
    .error s!"memory protection 0x{upper_hex 0 information.Protect.toNat} is not readable"
  else
    .ok ()

/-- The loop of `validate_readable_range`, from `cursor` up to `stop`. -/
def validate_readable_loop (os : Os σ) (stop cursor : Nat) : Action (World σ) String Unit :=
  if _hcursor : cursor < stop then do
    match ← virtual_query os cursor with
    | none => throw s!"VirtualQuery failed at 0x{upper_hex 8 cursor}"
    | some information =>
      Action.lift (validate_region information)
      match checked_add information.BaseAddress information.RegionSize with
      | none => throw "memory-region range overflow"
      | some region_end =>
        if _hadvance : region_end ≤ cursor then
          throw "VirtualQuery did not advance"
        else
          validate_readable_loop os stop (min region_end stop)
  else
    pure ()
termination_by stop - cursor

def validate_readable_range (os : Os σ) (address length : Nat) : Action (World σ) String Unit :=
  if length = 0 then
    pure ()
  else
    match checked_add address length with
    | none => throw "address range overflow"
    | some stop => validate_readable_loop os stop address

/-- A Portex reader that bounds every request to the loaded image and validates
the corresponding virtual-memory pages before copying. -/
structure ValidatedModuleReader where
  base : Nat
  size : Nat

/-- The bytes put into the buffer; a Portex error is given by its text. -/
def ValidatedModuleReader.read_at (os : Os σ) (self : ValidatedModuleReader) (offset buffer : Nat) :
    Action (World σ) String (List UInt8) :=
  if USIZE_LIMIT ≤ offset then
    pure []
  else
    match checked_sub self.size offset with
    | none => pure []
    | some available =>
      let length := min buffer available
      if length = 0 then
        pure []
      else
        match checked_add self.base offset with
        | none => throw "loaded-module address overflow"
        | some address => do
          (validate_readable_range os address length).map_err fun reason =>
            s!"loaded-module read at offset 0x{upper_hex 0 offset} is unsafe: {reason}"
          raw_read address length

/-- Portex's header parser: requests to a reader, each going on with its answer,
until it returns headers or an error text. Nothing else is assumed of it. -/
inductive HeaderParser where
  | done (result : Except String PEHeaders)
  | read_at (offset buffer : Nat) (next : Except String (List UInt8) → HeaderParser)

/-- `PEHeaders::read_from`, with the module behind the reader. -/
def HeaderParser.read_from (os : Os σ) (reader : ValidatedModuleReader) :
    HeaderParser → Action (World σ) String PEHeaders
  | .done result => Action.lift result
  | .read_at offset buffer next => do
    let answer ← (reader.read_at os offset buffer).attempt
    (next answer).read_from os reader

/-- What the loader and Portex tell about a loaded module: its base and
`SizeOfImage`, or the text of the last error; the header parser, given the
size of the reader; and the size of its file on disk. The loader maps no image of
more bytes than an allocation may have. -/
structure LoadedModule where
  information : Except String (Nat × Nat)
  portex : Nat → HeaderParser
  file_size : Option Nat
  size_le : ∀ base size, information = .ok (base, size) → size ≤ ISIZE_MAX

/-- The buffer is allocated first, which panics for more than `isize::MAX` bytes. -/
def copy_memory (address length : Nat) : Action (World σ) (Stop ScanError) (List UInt8) := do
  let _ ← Action.lift (vec_zeroed length)
  raw_read address length

/-- The loop of `ModuleImage::from_module` over the sections. -/
def load_sections (os : Os σ) (base : Nat) :
    List PeSection → Action (World σ) (Stop ScanError) (List LoadedSection)
  | [] => pure []
  | pe_section :: rest =>
    if pe_section.size = 0 ∨ (!pe_section.readable && !pe_section.executable) then
      load_sections os base rest
    else
      match checked_add base pe_section.rva with
      | none => throw (.error (.InvalidPe "section address overflow"))
      | some address => do
        (validate_readable_range os address pe_section.size).map_err fun reason =>
          Stop.error (.UnreadableSection pe_section.name reason)
        let bytes ← copy_memory address pe_section.size
        let loaded_sections ← load_sections os base rest
        pure (⟨pe_section, bytes⟩ :: loaded_sections)

/-- Snapshot a loaded module's validated PE sections. -/
def ModuleImage.from_module (os : Os σ) (module : LoadedModule) :
    Action (World σ) (Stop ScanError) ModuleImage :=
  match module.information with
  | .error error => throw (.error (.ModuleInformation error))
  | .ok (base, size) =>
    if base = 0 ∨ size = 0 then
      throw (.error (.InvalidPe "module information returned an empty image"))
    else do
      let headers ← ((module.portex size).read_from os ⟨base, size⟩).map_err fun error =>
        Stop.error (.InvalidPe s!"Portex rejected the loaded headers: {error}")
      let sections ← Action.lift ((validate_pe_sections headers size).mapError Stop.error)
      let loaded_sections ← load_sections os base sections
      if loaded_sections.isEmpty then
        throw (.error (.InvalidPe "PE image has no readable code or data sections"))
      else
        pure ⟨base, size, loaded_sections⟩

/-- A copy of an allowed length is the raw read alone. -/
theorem copy_memory_of_le {length : Nat} (hlength : length ≤ ISIZE_MAX) (address : Nat) (world : World σ) :
    copy_memory address length world = raw_read address length world := by
  have hallocated : (vec_zeroed length : Except (Stop ScanError) (List UInt8)) = .ok (List.replicate length 0) :=
    vec_zeroed_eq_ok_iff.mpr ⟨rfl, hlength⟩
  rw [copy_memory, hallocated, Action.bind_of_ok (Action.lift_apply _ _)]

end systemdetection.patches.sigscan
