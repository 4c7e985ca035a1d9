import SystemDetection.Gear.Objects
import SystemDetection.Sync.OnceRuns

open sync

namespace systemdetection

def DLL_PROCESS_ATTACH : UInt32 := 1

/-- What the threads of the process share: the stored module handle, the state
that `initialize_patches` changes, and the boxed objects. -/
structure Runtime (ω : Type) where
  SELF_MODULE : Nat
  world : ω
  heap : gear.Heap

/-- A call of the entry point by the loader. -/
structure LoaderCall where
  hinst_dll : Nat
  fdw_reason : UInt32

variable {ω : Type}

def DllMain (call : LoaderCall) (runtime : Runtime ω) : UInt32 × Runtime ω :=
  (1, if call.fdw_reason = DLL_PROCESS_ATTACH then { runtime with SELF_MODULE := call.hinst_dll } else runtime)

/-- The statics that are set by `get_or_init`. -/
inductive Static where
  | RUNTIME_INITIALIZED
  | GEAR_HARDWARE
  | GEAR_SCORE
  deriving DecidableEq

/-- The exported functions that hand out a singleton. -/
inductive Export where
  | GetHardwareInstance
  | GetScoreInstance
  deriving DecidableEq

/-- The static whose object is returned. -/
def Export.static : Export → Static
  | .GetHardwareInstance => .GEAR_HARDWARE
  | .GetScoreInstance => .GEAR_SCORE

/-- The `get_or_init` calls of an exported function, the one of
`ensure_runtime_initialized` first. -/
def Export.statics (function : Export) : List Static := [.RUNTIME_INITIALIZED, function.static]

/-- `Box::new(GearHardware::new())` as the value of `GEAR_HARDWARE`. -/
def create_hardware (heap : gear.Heap) : Nat × gear.Heap :=
  (heap.created, { heap.create.set_fields heap.created .new with GEAR_HARDWARE := some heap.created })

/-- `Box::new(GearScore::new())` as the value of `GEAR_SCORE`. -/
def create_score (heap : gear.Heap) : Nat × gear.Heap :=
  (heap.created, { heap.create with GEAR_SCORE := some heap.created })

/-- The closures given to `get_or_init`, with `()` as `none`. Only the runtime's
uses the module handle, which it reads before it calls `initialize_patches`. -/
def get_or_init (initialize_patches : Nat → ω → ω) : Initializers Static Nat (Option Nat) (Runtime ω) where
  start _ runtime := runtime.SELF_MODULE
  finish
    | .RUNTIME_INITIALIZED, module, runtime => (none, { runtime with world := initialize_patches module runtime.world })
    | .GEAR_HARDWARE, _, runtime =>
      let (hardware, heap) := create_hardware runtime.heap
      (some hardware, { runtime with heap })
    | .GEAR_SCORE, _, runtime =>
      let (score, heap) := create_score runtime.heap
      (some score, { runtime with heap })

/-- The loader runs `DllMain` at any time. -/
def loader (call : LoaderCall) (runtime : Runtime ω) : Runtime ω := (DllMain call runtime).2

/-- The library once the loader has attached it. -/
def attached (module : Nat) (world : ω) : Runtime ω :=
  loader ⟨module, DLL_PROCESS_ATTACH⟩ ⟨0, world, .initial⟩

/-- The calls of the exported functions. -/
def exported (cells : List Static) : Prop := ∃ function : Export, cells = function.statics

/-- The threads of the game call the exported functions, in any interleaving. -/
def GameRuns (τ : Type) [DecidableEq τ] (initialize_patches : Nat → ω → ω) (module : Nat) (world : ω) :
    List (Event τ Static LoaderCall) → State τ Static Nat (Option Nat) (Runtime ω) → Prop :=
  Runs (get_or_init initialize_patches) loader (.initial τ Static Nat (Option Nat) (attached module world))

/-- An export goes through the runtime first, and then through its own static. -/
theorem exported_statics {done rest : List Static} {cell : Static} (hexported : exported (done ++ cell :: rest)) :
    (done = [] ∧ cell = .RUNTIME_INITIALIZED ∧ ∃ function : Export, rest = [function.static]) ∨
      (done = [.RUNTIME_INITIALIZED] ∧ rest = [] ∧ ∃ function : Export, cell = function.static) := by
  obtain ⟨function, hstatics⟩ := hexported
  rw [Export.statics, List.append_eq_cons_iff] at hstatics
  obtain ⟨hdone, hcells⟩ | ⟨tail, hdone, hcells⟩ := hstatics
  · cases hcells
    exact .inl ⟨hdone, rfl, function, rfl⟩
  · cases tail with
    | nil =>
      cases hcells
      exact .inr ⟨hdone, rfl, function, rfl⟩
    | cons next tail => simp at hcells

theorem Export.static_ne_runtime (function : Export) : function.static ≠ .RUNTIME_INITIALIZED := by
  cases function <;> decide

theorem Export.static_inj {left right : Export} (hstatic : left.static = right.static) : left = right := by
  cases left <;> cases right <;> first | rfl | cases hstatic

end systemdetection
