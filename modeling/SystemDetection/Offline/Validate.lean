import SystemDetection.Patches.Run
import SystemDetection.Sigscan.File

open effect systemdetection.patches.memory systemdetection.patches.sigscan

namespace systemdetection.patches.offline

variable {σ ε : Type}

inductive OfflinePatchState where
  | AppliedToCopy
  | AlreadyPresent
  deriving DecidableEq

structure ValidatedPatch where
  name : String
  rvas : List Nat
  original_bytes : List (List UInt8)
  replacement_bytes : List (List UInt8)
  state : OfflinePatchState
  deriving DecidableEq

set_option linter.dupNamespace false in
structure DuniaFileValidation where
  build : String
  file_size : Nat
  image_size : Nat
  patches : List ValidatedPatch
  deriving DecidableEq

/-- A plan with what is to be reported of its writes. -/
structure PreparedPatch where
  name : String
  plan : PatchPlan
  rvas : List Nat
  original_bytes : List (List UInt8)
  replacement_bytes : List (List UInt8)

/-- The planners of the given patches, called in order. -/
def plan_all (os : Os σ) (image : ModuleImage) (build : DuniaBuild) :
    List Patch → Action (World σ) ε (List (String × Except PatchError PatchPlan))
  | [] => pure []
  | patch :: rest => do
    let result ← (patch.plan os image build).attempt
    let others ← plan_all os image build rest
    pure ((patch.name, result) :: others)

def make_plans (os : Os σ) (image : ModuleImage) (build : DuniaBuild) :
    Action (World σ) ε (List (String × Except PatchError PatchPlan)) :=
  plan_all os image build Patch.all

def format_rvas (rvas : List Nat) : List String := rvas.map fun rva => s!"0x{upper_hex 8 rva}"

/-- `{texts:?}` of a list of strings. -/
def debug_strs (texts : List String) : String :=
  "[" ++ ", ".intercalate (texts.map debug_str) ++ "]"

/-- The RVAs that a recognised build must resolve to, by patch. -/
def known_rvas : DuniaBuild → List (String × List Nat)
  | .Steam | .Ubisoft =>
    let (mesh, arch, save) := STEAM_NO_BLINK_RVAS
    [("jackal_tapes", [0x0074_E465]), ("predecessor_tapes", [0x002E_1D15]), ("machetes", [0x0004_8939]),
      ("no_blinking_items", [mesh, arch, save])]
  | .Retail =>
    let (mesh, arch, save) := RETAIL_NO_BLINK_RVAS
    [("jackal_tapes", [0x0074_0F55]), ("predecessor_tapes", [RETAIL_PREDECESSOR_RVA]),
      ("machetes", [0x0004_8A09]), ("no_blinking_items", [mesh, arch, save])]
  | .Unknown _ => []

/-- The loop of `validate_known_rvas`. -/
def check_known_rvas (build : DuniaBuild) (prepared : List PreparedPatch) :
    List (String × List Nat) → Except String Unit
  | [] => .ok ()
  | (name, expected) :: rest =>
    match prepared.find? fun candidate => candidate.name = name with
    | none => .error s!"{name} did not produce a patch plan"
    | some candidate =>
      if candidate.rvas ≠ expected then
        .error s!"{name} resolved to {debug_strs (format_rvas candidate.rvas)}, expected {debug_strs (format_rvas expected)} for {build.to_string}"
      else
        check_known_rvas build prepared rest

def validate_known_rvas (build : DuniaBuild) (prepared : List PreparedPatch) : Except String Unit :=
  check_known_rvas build prepared (known_rvas build)

/-- The candidates of one signature, with the byte at each target. -/
def describe_candidates (os : Os σ) (image : ModuleImage) (offset : Nat) :
    List Nat → Action (World σ) (Stop String) (List String)
  | [] => pure []
  | start :: rest =>
    match checked_add start offset with
    | none => describe_candidates os image offset rest
    | some target => do
      match ← (read_bytes os target 1).attempt with
      | .error _ => describe_candidates os image offset rest
      | .ok bytes =>
        let start_rva ← Action.lift (usize_sub start image.base)
        let target_rva ← Action.lift (usize_sub target image.base)
        let byte ← Action.lift (element bytes 0)
        let others ← describe_candidates os image offset rest
        pure (s!"start RVA 0x{upper_hex 8 start_rva} -> target RVA 0x{upper_hex 8 target_rva} ({upper_hex 2 byte.toNat})"
          :: others)

def diagnose_signatures (os : Os σ) (image : ModuleImage) :
    List (String × String × Nat) → Action (World σ) (Stop String) (List String)
  | [] => pure []
  | (name, signature, offset) :: rest => do
    let starts := match Pattern.parse signature with
      | .ok pattern => image.scan pattern .ReadOnlyData
      | .error _ => []
    let candidates ← describe_candidates os image offset starts
    let others ← diagnose_signatures os image rest
    pure ((name ++ " [" ++ ", ".intercalate candidates ++ "]") :: others)

def no_blink_diagnostics (os : Os σ) (image : ModuleImage) : Action (World σ) (Stop String) String := do
  let lines ← diagnose_signatures os image [("Mesh_Highlight", signatures.MESH_HIGHLIGHT, 4),
    ("archBlink", signatures.ARCH_BLINK, 8), ("SaveDisk", signatures.SAVE_DISK, 31)]
  pure ("; ".intercalate lines)

/-- What is added to the error of a failed planner. -/
def failure_diagnostics (os : Os σ) (image : ModuleImage) (name : String) :
    Action (World σ) (Stop String) String :=
  if name = "no_blinking_items" then do
    let candidates ← no_blink_diagnostics os image
    pure ("; candidates: " ++ candidates)
  else
    pure ""

/-- The RVA, the original bytes and the replacement of each write. -/
def describe_writes (os : Os σ) (image : ModuleImage) (name : String) :
    List CheckedWrite → Action (World σ) (Stop String) (List (Nat × List UInt8 × List UInt8))
  | [] => pure []
  | write :: rest => do
    let rva ← Action.lift (usize_sub write.address image.base)
    let original ← (read_bytes os write.address write.expected.length).map_err fun error =>
      Stop.error s!"{name}: {error.to_string}"
    let others ← describe_writes os image name rest
    pure ((rva, original, write.replacement) :: others)

/-- The first loop of `validate_dunia_file`: the failures and the prepared plans. -/
def collect_plans (os : Os σ) (image : ModuleImage) :
    List (String × Except PatchError PatchPlan) →
      Action (World σ) (Stop String) (List String × List PreparedPatch)
  | [] => pure ([], [])
  | (name, .ok plan) :: rest => do
    let described ← describe_writes os image name plan.writes
    let (failures, prepared) ← collect_plans os image rest
    pure (failures, ⟨name, plan, described.map fun row => row.1, described.map fun row => row.2.1,
      described.map fun row => row.2.2⟩ :: prepared)
  | (name, .error error) :: rest => do
    let diagnostics ← failure_diagnostics os image name
    let (failures, prepared) ← collect_plans os image rest
    pure (s!"{name}: {error.to_string}{diagnostics}" :: failures, prepared)

/-- What is reported of a plan that was applied to the copy. -/
def OfflinePatchState.of_write : WriteState → OfflinePatchState
  | .Applied => .AppliedToCopy
  | .AlreadyApplied => .AlreadyPresent

/-- The second loop: every plan is applied to the copy. -/
def apply_to_copy (os : Os σ) : List PreparedPatch → Action (World σ) (Stop String) (List ValidatedPatch)
  | [] => pure []
  | prepared :: rest => do
    let state ← (prepared.plan.apply os).map_err fun error =>
      Stop.error s!"{prepared.name} apply-to-copy failed: {error.to_string}"
    let others ← apply_to_copy os rest
    pure (⟨prepared.name, prepared.rvas, prepared.original_bytes, prepared.replacement_bytes,
      .of_write state⟩ :: others)

/-- The third loop: every plan made again is applied again. -/
def reapply_to_copy (os : Os σ) :
    List (String × Except PatchError PatchPlan) → Action (World σ) (Stop String) Unit
  | [] => pure ()
  | (name, .error error) :: _ =>
    throw (.error s!"{name} could not re-plan patched copy: {error.to_string}")
  | (name, .ok plan) :: rest => do
    let state ← (plan.apply os).map_err fun error =>
      Stop.error s!"{name} reapply-to-copy failed: {error.to_string}"
    if state ≠ .AlreadyApplied then
      throw (.error s!"{name} was not idempotent on the mapped copy")
    else
      reapply_to_copy os rest

/-- The memory at `address` is allocated and holds these bytes. -/
def allocate (address : Nat) (bytes : List UInt8) : Action (World σ) ε Unit := fun world =>
  (.ok (), { world with memory := world.memory.write address bytes })

/-- The part of `validate_dunia_file` that plans the patches and applies them to
the mapped module. -/
def patch_mapped (os : Os σ) (path : String) (build : DuniaBuild) (image : ModuleImage) :
    Action (World σ) (Stop String) (List ValidatedPatch) := do
  let plans ← make_plans os image build
  let (failures, prepared) ← collect_plans os image plans
  if ¬ failures.isEmpty then
    let reasons := "\n".intercalate failures
    throw (.error s!"static validation failed for {path} ({build.to_string}):\n{reasons}")
  else
    Action.lift ((validate_known_rvas build prepared).mapError Stop.error)
    apply_to_copy os prepared

/-- `validate_dunia_file` from the mapped module on. -/
def validate_mapped (os : Os σ) (path : String) (build : DuniaBuild) (file_size : Nat)
    (image : ModuleImage) : Action (World σ) (Stop String) DuniaFileValidation := do
  let patches ← patch_mapped os path build image
  let replanned ← make_plans os image build
  reapply_to_copy os replanned
  pure ⟨build.to_string, file_size, image.size, patches⟩

/-- Validate every patch against an on-disk PE without loading or executing it.
`read` is what `std::fs::read` returns and `base` is where the mapping is allocated. -/
def validate_dunia_file (os : Os σ) (portex : List UInt8 → Except String PEHeaders) (base : Nat)
    (path : String) (read : Except String (List UInt8)) :
    Action (World σ) (Stop String) DuniaFileValidation :=
  match read with
  | .error error => throw (.error s!"could not read {path}: {error}")
  | .ok file =>
    let build := DuniaBuild.from_file_size (some file.length)
    match ModuleImage.from_pe_file portex base file with
    | .error (.panic reason) => throw (.panic reason)
    | .error (.error error) => throw (.error s!"could not map {path}: {error.to_string}")
    | .ok mapped => do
      allocate mapped.image.base mapped.mapping
      validate_mapped os path build file.length mapped.image

end systemdetection.patches.offline
