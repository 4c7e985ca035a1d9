import SystemDetection.Patches.Planners
import SystemDetection.Sigscan.Module

open effect systemdetection.patches.memory systemdetection.patches.sigscan

namespace systemdetection.patches

variable {σ : Type}

/-- Runtime switches for independently applying Dunia patches. -/
structure PatchConfig where
  jackal_tapes : Bool
  devmode_always_on : Bool
  predecessor_tapes : Bool
  machetes : Bool
  no_blinking_items : Bool
  deriving DecidableEq

def PatchConfig.default : PatchConfig where
  jackal_tapes := true
  devmode_always_on := true
  predecessor_tapes := true
  machetes := true
  no_blinking_items := false

def PatchConfig.enabled (self : PatchConfig) : Patch → Bool
  | .jackal_tapes => self.jackal_tapes
  | .devmode_always_on => self.devmode_always_on
  | .predecessor_tapes => self.predecessor_tapes
  | .machetes => self.machetes
  | .no_blinking_items => self.no_blinking_items

/-- The patches in the order in which they are prepared and applied. -/
def Patch.all : List Patch :=
  [.jackal_tapes, .devmode_always_on, .predecessor_tapes, .machetes, .no_blinking_items]

inductive PatchStatus where
  | Disabled
  | Applied
  | AlreadyApplied
  | Failed (reason : String)
  deriving DecidableEq

structure PatchOutcome where
  name : String
  status : PatchStatus
  deriving DecidableEq

structure PatchReport where
  configuration : Option String
  build : Option String
  image : Option String
  outcomes : List PatchOutcome
  warnings : List String
  deriving DecidableEq

def PatchReport.new : PatchReport := ⟨none, none, none, [], []⟩

def PatchReport.fail_enabled (self : PatchReport) (config : PatchConfig) (reason : String) : PatchReport :=
  { self with outcomes := Patch.all.map fun patch =>
      ⟨patch.name, if config.enabled patch then .Failed reason else .Disabled⟩ }

inductive PreparedPatch where
  | Disabled (name : String)
  | Ready (name : String) (plan : PatchPlan)
  | Failed (name : String) (error : PatchError)

def prepare_patch (name : String) (enabled : Bool) (build : Action (World σ) PatchError PatchPlan) :
    Action (World σ) Empty PreparedPatch :=
  if enabled then do
    match ← build.attempt with
    | .ok plan => pure (.Ready name plan)
    | .error error => pure (.Failed name error)
  else
    pure (.Disabled name)

def PreparedPatch.apply (os : Os σ) : PreparedPatch → Action (World σ) Empty PatchOutcome
  | .Disabled name => pure ⟨name, .Disabled⟩
  | .Failed name error => pure ⟨name, .Failed error.to_string⟩
  | .Ready name plan => do
    match ← (plan.apply os).attempt with
    | .ok .Applied => pure ⟨name, .Applied⟩
    | .ok .AlreadyApplied => pure ⟨name, .AlreadyApplied⟩
    | .error error => pure ⟨name, .Failed error.to_string⟩

/-- Builds and validates the plans of the given patches, in order, before any is applied. -/
def prepare_patches (os : Os σ) (image : ModuleImage) (build : DuniaBuild) (config : PatchConfig) :
    List Patch → Action (World σ) Empty (List PreparedPatch)
  | [] => pure []
  | patch :: rest => do
    let prepared ← prepare_patch patch.name (config.enabled patch) (patch.plan os image build)
    let others ← prepare_patches os image build config rest
    pure (prepared :: others)

def apply_patches (os : Os σ) : List PreparedPatch → Action (World σ) Empty (List PatchOutcome)
  | [] => pure []
  | prepared :: rest => do
    let outcome ← prepared.apply os
    let others ← apply_patches os rest
    pure (outcome :: others)

/-- `run`, given the loaded `Dunia.dll` or the text of the error for which its
handle is null. -/
def run (os : Os σ) (dunia : Except String LoadedModule) (config : PatchConfig) :
    Action (World σ) (Stop Empty) PatchReport :=
  match dunia with
  | .error error => pure (PatchReport.new.fail_enabled config s!"Dunia.dll is not loaded: {error}")
  | .ok module => do
    match ← (ModuleImage.from_module os module).attempt with
    | .error (.panic reason) => throw (.panic reason)
    | .error (.error error) =>
      pure (PatchReport.new.fail_enabled config s!"could not inspect Dunia.dll: {error.to_string}")
    | .ok image =>
      let build := DuniaBuild.from_file_size module.file_size
      let prepared ← (prepare_patches os image build config Patch.all).infallible
      let outcomes ← (apply_patches os prepared).infallible
      pure { PatchReport.new with
        image := some s!"base=0x{upper_hex 8 image.base}, SizeOfImage=0x{upper_hex 0 image.size}"
        build := some build.to_string
        outcomes := outcomes }

end systemdetection.patches
