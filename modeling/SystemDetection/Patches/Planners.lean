import SystemDetection.Patches.Plan
import SystemDetection.Patches.Target

open effect systemdetection.patches.memory systemdetection.patches.sigscan

namespace systemdetection.patches

variable {σ : Type}

def STEAM_DUNIA_FILE_SIZE : Nat := 20_183_176
def RETAIL_DUNIA_FILE_SIZE : Nat := 19_412_104
def UBISOFT_DUNIA_FILE_SIZE : Nat := 20_184_168

def RETAIL_PREDECESSOR_RVA : Nat := 0x0004_8987

def STEAM_NO_BLINK_RVAS : Nat × Nat × Nat := (0x00E4_9D08, 0x00E1_15B8, 0x00E9_33B3)
def RETAIL_NO_BLINK_RVAS : Nat × Nat × Nat := (0x00DC_1A94, 0x00D8_B3B0, 0x00E0_AFC2)

namespace signatures

def JACKAL_TAPES : String := "80 7E 74 00 75 ?? 3B CA 75"
def DEVMODE_ALWAYS_ON : String := "80 79 ?? 00 8B 54 24 ?? ??"
def PREDECESSOR_TAPES_STEAM : String := "8B 49 0C 85 C9 ?? ?? 8B 44 24"
def MACHETES : String := "83 EC ?? 53 8D 44 24 ?? 50 68"
def MESH_HIGHLIGHT : String := "4D 65 73 68 ?? 48 69 67 68 6C 69 67 68 74"
def ARCH_BLINK : String := "61 72 63 68 42 6C 69 6E ??"
def SAVE_DISK : String := "67 61 64 67 65 74 73 2E 4F 62 6A 65 63 74 69 76 65 49 63 6F 6E 73 2E 53 61 76 65 44 69 73 6B ??"

end signatures

inductive DuniaBuild where
  | Steam
  | Retail
  | Ubisoft
  | Unknown (file_size : Option Nat)
  deriving DecidableEq

def DuniaBuild.from_file_size (file_size : Option Nat) : DuniaBuild :=
  if file_size = some STEAM_DUNIA_FILE_SIZE then .Steam
  else if file_size = some RETAIL_DUNIA_FILE_SIZE then .Retail
  else if file_size = some UBISOFT_DUNIA_FILE_SIZE then .Ubisoft
  else .Unknown file_size

def DuniaBuild.to_string : DuniaBuild → String
  | .Steam => "Steam 1.03"
  | .Retail => "Retail/GOG 1.03"
  | .Ubisoft => "Ubisoft Connect 1.03"
  | .Unknown (some file_size) => s!"unknown build (file size {file_size})"
  | .Unknown none => "unknown build (file size unavailable)"

def plan_jackal_tapes (os : Os σ) (image : ModuleImage) : Action (World σ) PatchError PatchPlan := do
  let target ← find_signature_target os image signatures.JACKAL_TAPES .Code 5 [0x0A] [0x14]
  PatchPlan.single os target [0x0A] [0x14]

def plan_devmode_always_on (os : Os σ) (image : ModuleImage) : Action (World σ) PatchError PatchPlan := do
  let target ← find_signature_target os image signatures.DEVMODE_ALWAYS_ON .Code 8 [0x75] [0xEB]
  PatchPlan.single os target [0x75] [0xEB]

def plan_predecessor_tapes (os : Os σ) (image : ModuleImage) (build : DuniaBuild) :
    Action (World σ) PatchError PatchPlan :=
  match build with
  | .Retail => do
    let target ← Action.lift
      ((image.address_from_rva RETAIL_PREDECESSOR_RVA 2 .Code).mapError PatchError.Scan)
    PatchPlan.single os target [0x8A, 0xC3] [0xB0, 0x01]
  | .Steam | .Ubisoft | .Unknown _ => do
    let target ← find_signature_target os image signatures.PREDECESSOR_TAPES_STEAM .Code 5
      [0x74, 0x16] [0xEB, 0x0E]
    PatchPlan.single os target [0x74, 0x16] [0xEB, 0x0E]

def plan_machetes (os : Os σ) (image : ModuleImage) : Action (World σ) PatchError PatchPlan := do
  let target ← find_signature_target os image signatures.MACHETES .Code 0x69 [0x8A, 0xC3] [0xB0, 0x01]
  PatchPlan.single os target [0x8A, 0xC3] [0xB0, 0x01]

/-- Validate both a known-build RVA and the complete signature context around it. -/
def checked_known_signature_write (os : Os σ) (image : ModuleImage) (signature : String)
    (scope : ScanScope) (target_rva target_offset : Nat) (expected replacement : List UInt8) :
    Action (World σ) PatchError CheckedWrite := do
  let pattern ← Action.lift ((Pattern.parse signature).mapError PatchError.Scan)
  match checked_sub target_rva target_offset with
  | none =>
    throw (.NoValidatedTarget signature 0
      [s!"known target RVA 0x{upper_hex 8 target_rva} precedes offset {target_offset}"])
  | some start_rva =>
    let expected_start ← Action.lift
      ((image.address_from_rva start_rva pattern.len scope).mapError PatchError.Scan)
    let raw_matches := image.scan pattern scope
    if ¬ expected_start ∈ raw_matches then
      throw (.NoValidatedTarget signature raw_matches.length
        [s!"no matching context at known start RVA 0x{upper_hex 8 start_rva}"])
    else
      let target ← Action.lift
        ((image.address_from_rva target_rva expected.length scope).mapError PatchError.Scan)
      CheckedWrite.validated os target expected replacement

def no_blink_rvas : DuniaBuild → Option (Nat × Nat × Nat)
  | .Steam | .Ubisoft => some STEAM_NO_BLINK_RVAS
  | .Retail => some RETAIL_NO_BLINK_RVAS
  | .Unknown _ => none

def plan_no_blinking_items (os : Os σ) (image : ModuleImage) (build : DuniaBuild) :
    Action (World σ) PatchError PatchPlan :=
  match no_blink_rvas build with
  | some (mesh_rva, arch_rva, save_rva) => do
    let mesh_highlight ← checked_known_signature_write os image signatures.MESH_HIGHLIGHT .ReadOnlyData
      mesh_rva 4 [0x5F] [0x2E]
    let arch_blink ← checked_known_signature_write os image signatures.ARCH_BLINK .ReadOnlyData
      arch_rva 8 [0x6B] [0x2E]
    let save_disk ← checked_known_signature_write os image signatures.SAVE_DISK .ReadOnlyData
      save_rva 31 [0x00] [0x2E]
    Action.lift (PatchPlan.new [mesh_highlight, arch_blink, save_disk])
  | none => do
    let mesh_highlight ← find_signature_target os image signatures.MESH_HIGHLIGHT .ReadOnlyData 4
      [0x5F] [0x2E]
    let arch_blink ← find_signature_target os image signatures.ARCH_BLINK .ReadOnlyData 8 [0x6B] [0x2E]
    let save_disk ← find_signature_target os image signatures.SAVE_DISK .ReadOnlyData 31 [0x00] [0x2E]
    let first ← CheckedWrite.validated os mesh_highlight [0x5F] [0x2E]
    let second ← CheckedWrite.validated os arch_blink [0x6B] [0x2E]
    let third ← CheckedWrite.validated os save_disk [0x00] [0x2E]
    Action.lift (PatchPlan.new [first, second, third])

/-- The five patches. -/
inductive Patch where
  | jackal_tapes
  | devmode_always_on
  | predecessor_tapes
  | machetes
  | no_blinking_items
  deriving DecidableEq

def Patch.name : Patch → String
  | .jackal_tapes => "jackal_tapes"
  | .devmode_always_on => "devmode_always_on"
  | .predecessor_tapes => "predecessor_tapes"
  | .machetes => "machetes"
  | .no_blinking_items => "no_blinking_items"

theorem Patch.name_injective : Function.Injective Patch.name := by
  intro left right hname
  cases left <;> cases right <;> first | rfl | exact absurd hname (by decide)

/-- The planner of a patch. -/
def Patch.plan (os : Os σ) (image : ModuleImage) (build : DuniaBuild) :
    Patch → Action (World σ) PatchError PatchPlan
  | .jackal_tapes => plan_jackal_tapes os image
  | .devmode_always_on => plan_devmode_always_on os image
  | .predecessor_tapes => plan_predecessor_tapes os image build
  | .machetes => plan_machetes os image
  | .no_blinking_items => plan_no_blinking_items os image build

end systemdetection.patches
