import SystemDetection.Patches.InitializeMeaning
import SystemDetection.Runtime.Startup

open effect sync

namespace systemdetection

/-- What `initialize` changes: the process as the patcher sees it, and what has left
the library. -/
structure Process (σ : Type) where
  world : World σ
  outputs : List patches.Output

variable {σ τ : Type} [DecidableEq τ]

/-- A panic would leave what has been done so far. -/
def start_patches (host : patches.Host) (os : Os σ) (self_module : Nat) (process : Process σ) : Process σ :=
  match patches.initialize_patches host os self_module process.world with
  | (.ok outputs, world) => ⟨world, process.outputs ++ outputs⟩
  | (.error (.panic _), world) => { process with world }
  | (.error (.error error), _) => nomatch error

/-- One start of the patches emits one report, and does what the configuration calls for. -/
theorem start_patches_configured (host : patches.Host) (os : Os σ) (self_module : Nat) (process : Process σ) :
    ∃ report : patches.PatchReport,
      (start_patches host os self_module process).outputs =
        process.outputs ++ patches.emit_report host self_module report.to_string ∧
      patches.Configured host os self_module process.world
        (start_patches host os self_module process).world report := by
  obtain ⟨report, world', hrun, hconfigured⟩ :=
    patches.configured_run_configured host os self_module process.world
  have hinitialize := patches.initialize_patches_of_run host os self_module process.world hrun
  refine ⟨report, ?_, ?_⟩
  · simp only [start_patches, hinitialize]
  · simp only [start_patches, hinitialize]
    exact hconfigured

/-- However the threads of the game meet in the exported functions, and whatever the
loader, the file system and the memory calls do: either nothing has happened yet, and
then no call has returned and no object exists, or the patches have been started
once, for the attached module, and nothing has happened to the process since; then one
report has been emitted, and the memory is as the configuration calls for. -/
theorem patched_before_any_instance {host : patches.Host} {os : Os σ} {module : Nat} {world : World σ}
    {trace : List (Event τ Static LoaderCall)} {state : State τ Static Nat (Option Nat) (Runtime (Process σ))}
    (hruns : GameRuns τ (start_patches host os) module ⟨world, []⟩ trace state)
    (hfollows : ∀ event ∈ trace, event.Follows exported (attaches module)) :
    (state.shared.world = start_patches host os module ⟨world, []⟩ ∧ ∃ report : patches.PatchReport,
        state.shared.world.outputs = patches.emit_report host module report.to_string ∧
        patches.Configured host os module world state.shared.world.world report) ∨
      (state.shared.world = ⟨world, []⟩ ∧ state.shared.heap = .initial ∧ state.answers = []) := by
  obtain ⟨_, hworld⟩ | ⟨_, hworld, hheap, hanswers⟩ := hruns.initialized_once hfollows
  · obtain ⟨report, houtputs, hconfigured⟩ := start_patches_configured host os module ⟨world, []⟩
    rw [← hworld] at houtputs hconfigured
    exact .inl ⟨hworld, report, by simpa using houtputs, hconfigured⟩
  · exact .inr ⟨hworld, hheap, hanswers⟩

/-- The host of a game whose `Dunia.dll` is loaded, with a configuration next to it. -/
def loaded_host : patches.Host :=
  patches.sample_host [0x61] "machetes = off".toList (.ok (7, patches.sample_module))

/-- Both threads have their object, and the tapes are patched in the memory of the game. -/
theorem patched_before_any_instance_on_sample : ∃ state,
    GameRuns Bool (start_patches loaded_host patches.memory.page_table) 5 ⟨patches.sample_world, []⟩ sample_trace
      state ∧
    state.answers.length = 2 ∧ state.shared.world.world.memory.read 0x1000_1005 1 = [0x14] ∧
    ∃ report : patches.PatchReport,
      state.shared.world.outputs = patches.emit_report loaded_host 5 report.to_string := by
  obtain ⟨state, hruns, hanswers, _⟩ :=
    sample_game_runs (start_patches loaded_host patches.memory.page_table) ⟨patches.sample_world, []⟩
  refine ⟨state, hruns, by rw [hanswers]; rfl, ?_⟩
  obtain ⟨hworld, report, houtputs, _⟩ | ⟨_, _, hnone⟩ := patched_before_any_instance hruns sample_trace_follows
  · refine ⟨?_, report, houtputs⟩
    rw [hworld]
    decide +kernel
  · rw [hanswers] at hnone
    cases hnone

end systemdetection
