import SystemDetection.Runtime.Exports

open sync

namespace systemdetection

variable {τ ω : Type} [DecidableEq τ] {initialize_patches : Nat → ω → ω} {module : Nat} {world : ω}
  {trace : List (Event τ Static LoaderCall)} {state : State τ Static Nat (Option Nat) (Runtime ω)}

/-- The loader attaches the module once: a later call of `DllMain` for it, if there
is any, has the same handle. -/
def attaches (module : Nat) (call : LoaderCall) : Prop :=
  call.fdw_reason = DLL_PROCESS_ATTACH → call.hinst_dll = module

/-- What the statics completed so far say of the world: it is as it was at first, or
as `initialize_patches` has left it. -/
structure Initialized (initialize_patches : Nat → ω → ω) (module : Nat) (world : ω)
    (completed : List (Static × Option Nat)) (runtime : Runtime ω) : Prop where
  attached : runtime.SELF_MODULE = module
  untouched : completed = [] → runtime.heap = .initial
  before : .RUNTIME_INITIALIZED ∉ completed.map Prod.fst → runtime.world = world
  after : .RUNTIME_INITIALIZED ∈ completed.map Prod.fst → runtime.world = initialize_patches module world
  unit : ∀ value, (.RUNTIME_INITIALIZED, value) ∈ completed → value = none

/-- The first initialization starts the patches; the others only note their result. -/
theorem Initialized.finish {completed : List (Static × Option Nat)} {runtime : Runtime ω} {cell : Static}
    (hholds : Initialized initialize_patches module world completed runtime)
    (hfresh : cell ∉ completed.map Prod.fst) :
    Initialized initialize_patches module world
      (completed ++ [(cell, ((get_or_init initialize_patches).finish cell module runtime).1)])
      ((get_or_init initialize_patches).finish cell module runtime).2 := by
  cases cell with
  | RUNTIME_INITIALIZED =>
    refine ⟨hholds.attached, by simp, by simp, fun _ => ?_, fun value hmem => ?_⟩
    · simp only [get_or_init, hholds.before hfresh]
    · obtain hmem | hmem := List.mem_append.mp hmem
      · exact hholds.unit value hmem
      · cases List.mem_singleton.mp hmem
        rfl
  | GEAR_HARDWARE | GEAR_SCORE =>
    refine ⟨hholds.attached, by simp, fun hbefore => hholds.before ?_, fun hafter => hholds.after ?_,
      fun value hmem => hholds.unit value ?_⟩
    · simpa using hbefore
    · simpa using hafter
    · simpa using hmem

theorem GameRuns.sound (hruns : GameRuns τ initialize_patches module world trace state)
    {allowed : LoaderCall → Prop} (hfollows : ∀ event ∈ trace, event.Follows exported allowed) :
    state.Sound exported :=
  Runs.sound hruns hfollows (State.initial_sound _ _)

/-- So in every interleaving the patches are started once, for the attached module. -/
theorem GameRuns.initialized (hruns : GameRuns τ initialize_patches module world trace state)
    (hfollows : ∀ event ∈ trace, event.Follows exported (attaches module)) :
    Initialized initialize_patches module world state.completed state.shared := by
  refine (Runs.shared_holds (Initialized initialize_patches module world) (fun _ seen => seen = module) hruns hfollows
    ?_ ?_ ?_ ?_).1
  · exact ⟨rfl, fun _ => rfl, fun _ => rfl, by simp, by simp⟩
  · exact fun completed runtime cell hholds => hholds.attached
  · rintro completed runtime cell seen hholds rfl hfresh
    exact hholds.finish hfresh
  · intro completed runtime call hattaches hholds
    simp only [loader, DllMain]
    split
    · rename_i hreason
      exact ⟨hattaches hreason, hholds.untouched, hholds.before, hholds.after, hholds.unit⟩
    · exact hholds

omit [DecidableEq τ] in
/-- A singleton is created only once the runtime is initialized. -/
theorem sound_completed (hsound : state.Sound exported)
    (hbefore : .RUNTIME_INITIALIZED ∉ state.completed.map Prod.fst) : state.completed = [] := by
  by_contra hcompleted
  obtain ⟨⟨cell, value⟩, rest, hsplit⟩ := List.exists_cons_of_ne_nil hcompleted
  have hnames : state.completed.map Prod.fst = [] ++ cell :: rest.map Prod.fst := by rw [hsplit]; rfl
  obtain ⟨done, others, hexported, hdone⟩ := hsound.ordered [] cell _ hnames
  obtain ⟨_, hcell, _⟩ | ⟨hdone', _, _⟩ := exported_statics hexported
  · exact hbefore (by rw [hnames, hcell]; simp)
  · exact absurd (hdone .RUNTIME_INITIALIZED (by simp [hdone'])) List.not_mem_nil

/-- In every interleaving, the patches are initialized at most once, with the handle
of the attached module, and before any object exists or any call returns. -/
theorem GameRuns.initialized_once (hruns : GameRuns τ initialize_patches module world trace state)
    (hfollows : ∀ event ∈ trace, event.Follows exported (attaches module)) :
    (state.cells .RUNTIME_INITIALIZED = .complete none ∧
        state.shared.world = initialize_patches module world) ∨
      ((∀ value, state.cells .RUNTIME_INITIALIZED ≠ .complete value) ∧ state.shared.world = world ∧
        state.shared.heap = .initial ∧ state.answers = []) := by
  have hsound := GameRuns.sound hruns hfollows
  have hinitialized := GameRuns.initialized hruns hfollows
  by_cases hafter : .RUNTIME_INITIALIZED ∈ state.completed.map Prod.fst
  · obtain ⟨⟨cell, value⟩, hmem, hcell⟩ := List.mem_map.mp hafter
    cases hcell
    have hvalue := hinitialized.unit value hmem
    subst hvalue
    exact .inl ⟨(hsound.completed _ _).mp hmem, hinitialized.after hafter⟩
  · have hcompleted := sound_completed hsound hafter
    refine .inr ⟨fun value hvalue => ?_, hinitialized.before hafter, hinitialized.untouched hcompleted, ?_⟩
    · exact hafter (List.mem_map_of_mem (f := Prod.fst) ((hsound.completed _ value).mpr hvalue))
    · refine List.eq_nil_iff_forall_not_mem.mpr fun answer hanswer => ?_
      have hmem := (hsound.completed _ _).mpr (hsound.answered _ _ _ hanswer)
      rw [hcompleted] at hmem
      exact List.not_mem_nil hmem

/-- Two threads that meet in the initialization of the runtime, and the loader in between. -/
def sample_trace : List (Event Bool Static LoaderCall) :=
  [.call true .RUNTIME_INITIALIZED [.GEAR_HARDWARE], .advance true, .call false .RUNTIME_INITIALIZED [.GEAR_SCORE],
    .outside ⟨7, 2⟩, .advance true, .advance false, .advance false, .advance true, .advance false, .advance true]

theorem sample_trace_follows : ∀ event ∈ sample_trace, event.Follows exported (attaches 5) := by
  simp only [sample_trace, List.forall_mem_cons, Event.Follows, attaches]
  exact ⟨⟨.GetHardwareInstance, rfl⟩, trivial, ⟨.GetScoreInstance, rfl⟩, by decide, by simp⟩

/-- The sample trace is a run, and both of its threads have returned. -/
theorem sample_game_runs (initialize_patches : Nat → ω → ω) (world : ω) :
    ∃ state, GameRuns Bool initialize_patches 5 world sample_trace state ∧
      state.answers = [(false, .GEAR_SCORE, some 0), (true, .GEAR_HARDWARE, some 1)] ∧
      ∀ thread, (state.threads thread).AtRest := by
  have start : Runs (get_or_init initialize_patches) loader
    (.initial Bool Static Nat (Option Nat) (attached 5 world)) [] _ := .nil
  have first := start.snoc (show Step _ _ (.call true _ _) _ _ from .call .RUNTIME_INITIALIZED [.GEAR_HARDWARE] trivial)
  have second := first.snoc (show Step _ _ (.advance true) _ _ from .begin rfl rfl)
  have third := second.snoc (show Step _ _ (.call false _ _) _ _ from .call .RUNTIME_INITIALIZED [.GEAR_SCORE] trivial)
  have fourth := third.snoc (.outside ⟨7, 2⟩)
  have fifth := fourth.snoc (show Step _ _ (.advance true) _ _ from .finish rfl rfl rfl)
  have sixth := fifth.snoc (show Step _ _ (.advance false) _ _ from .pass rfl rfl)
  have seventh := sixth.snoc (show Step _ _ (.advance false) _ _ from .begin rfl rfl)
  have eighth := seventh.snoc (show Step _ _ (.advance true) _ _ from .begin rfl rfl)
  have ninth := eighth.snoc (show Step _ _ (.advance false) _ _ from .finish rfl rfl rfl)
  have tenth := ninth.snoc (show Step _ _ (.advance true) _ _ from .finish rfl rfl rfl)
  exact ⟨_, tenth, rfl, fun thread => by cases thread <;> trivial⟩

end systemdetection
