import SystemDetection.Runtime.Startup

open sync

namespace systemdetection

/-- The same function called with no other thread around. -/
def Export.call : Export → gear.Call
  | .GetHardwareInstance => .GetHardwareInstance
  | .GetScoreInstance => .GetScoreInstance

/-- Calls one after another, with the pointers that they return. -/
def sequential (heap : gear.Heap) : List Export → List Nat × gear.Heap
  | [] => ([], heap)
  | function :: rest =>
    let (pointer, heap) := function.call.run heap
    let (pointers, heap) := sequential heap rest
    (pointer :: pointers, heap)

theorem sequential_snoc (heap : gear.Heap) (functions : List Export) (function : Export) :
    sequential heap (functions ++ [function]) =
      ((sequential heap functions).1 ++ [(function.call.run (sequential heap functions).2).1],
        (function.call.run (sequential heap functions).2).2) := by
  induction functions generalizing heap with
  | nil => rfl
  | cons first functions ih => simp [sequential, ih]

section Singleton

variable {heap : gear.Heap}

def Export.singleton (heap : gear.Heap) : Export → Option Nat
  | .GetHardwareInstance => heap.GEAR_HARDWARE
  | .GetScoreInstance => heap.GEAR_SCORE

def Export.create (heap : gear.Heap) : Export → Nat × gear.Heap
  | .GetHardwareInstance => create_hardware heap
  | .GetScoreInstance => create_score heap

/-- An export whose object exists returns it and changes nothing. -/
theorem Export.run_existing {function : Export} {pointer : Nat}
    (hsingleton : function.singleton heap = some pointer) : function.call.run heap = (pointer, heap) := by
  cases function with
  | GetHardwareInstance =>
    change heap.GEAR_HARDWARE = some pointer at hsingleton
    simp [call, gear.Call.run, gear.GetHardwareInstance, hsingleton]
  | GetScoreInstance =>
    change heap.GEAR_SCORE = some pointer at hsingleton
    simp [call, gear.Call.run, gear.GetScoreInstance, hsingleton]

/-- An export whose object does not exist creates it. -/
theorem Export.run_fresh {function : Export} (hsingleton : function.singleton heap = none) :
    function.call.run heap = function.create heap := by
  cases function with
  | GetHardwareInstance =>
    change heap.GEAR_HARDWARE = none at hsingleton
    simp [call, gear.Call.run, gear.GetHardwareInstance, create, create_hardware, hsingleton]
  | GetScoreInstance =>
    change heap.GEAR_SCORE = none at hsingleton
    simp [call, gear.Call.run, gear.GetScoreInstance, create, create_score, hsingleton]

theorem Export.singleton_create (function other : Export) :
    other.singleton (function.create heap).2 =
      if other = function then some (function.create heap).1 else other.singleton heap := by
  cases function <;> cases other <;> rfl

end Singleton

variable {τ ω : Type} [DecidableEq τ] {initialize_patches : Nat → ω → ω} {module : Nat} {world : ω}
  {trace : List (Event τ Static LoaderCall)} {state : State τ Static Nat (Option Nat) (Runtime ω)}
  {allowed : LoaderCall → Prop}

theorem get_or_init_object (function : Export) (seen : Nat) (runtime : Runtime ω) :
    (get_or_init initialize_patches).finish function.static seen runtime =
      (some (function.create runtime.heap).1, { runtime with heap := (function.create runtime.heap).2 }) := by
  cases function <;> rfl

/-- What the calls have returned so far is what the same calls return one after
another, in the order in which they have returned, and leaves the same objects. -/
structure Linearized (history : List (τ × Export × Nat)) (state : State τ Static Nat (Option Nat) (Runtime ω)) :
    Prop where
  answers : state.answers = history.map fun entry => (entry.1, entry.2.1.static, some entry.2.2)
  sequential : sequential .initial (history.map fun entry => entry.2.1) =
    (history.map fun entry => entry.2.2, state.shared.heap)
  singletons : ∀ (function : Export) (value : Option Nat), state.cells function.static = .complete value ↔
    ∃ pointer, value = some pointer ∧ function.singleton state.shared.heap = some pointer

omit [DecidableEq τ] in
/-- The call that returns goes last. -/
theorem Linearized.answer {history : List (τ × Export × Nat)} {before after : State τ Static Nat (Option Nat) (Runtime ω)}
    (hlinear : Linearized history before) {thread : τ} {function : Export} {pointer : Nat}
    (hanswers : after.answers = before.answers ++ [(thread, function.static, some pointer)])
    (hrun : function.call.run before.shared.heap = (pointer, after.shared.heap))
    (hsingletons : ∀ (other : Export) (value : Option Nat), after.cells other.static = .complete value ↔
      ∃ pointer, value = some pointer ∧ other.singleton after.shared.heap = some pointer) :
    Linearized (history ++ [(thread, function, pointer)]) after where
  answers := by rw [hanswers, hlinear.answers, List.map_append, List.map_singleton]
  sequential := by
    rw [List.map_append, List.map_singleton, sequential_snoc, hlinear.sequential, hrun, List.map_append,
      List.map_singleton]
  singletons := hsingletons

omit [DecidableEq τ] in
/-- A cell is not complete before and after a thread starts its initializer. -/
theorem begin_complete_iff {cell found : Static} (hcell : state.cells cell = .empty) (thread : τ) (seen : Nat)
    (value : Option Nat) :
    (state.set_cell cell (.running thread seen)).cells found = .complete value ↔
      state.cells found = .complete value := by
  simp only [State.set_cell, Function.update_apply]
  split
  · rename_i hfound
    simp [hfound, hcell]
  · exact Iff.rfl

/-- Each step keeps a sequential history, which a new answer extends at its end. -/
theorem Linearized.step {history : List (τ × Export × Nat)} {event : Event τ Static LoaderCall}
    {next : State τ Static Nat (Option Nat) (Runtime ω)}
    (hstep : Step (get_or_init initialize_patches) loader event state next) (hsound : state.Sound exported)
    (hlinear : Linearized history state) : ∃ more, Linearized (history ++ more) next := by
  cases hstep with
  | call cell rest hrest => exact ⟨[], by simpa using ⟨hlinear.answers, hlinear.sequential, hlinear.singletons⟩⟩
  | @begin _ thread cell rest hthread hcell =>
    refine ⟨[], ?_⟩
    rw [List.append_nil]
    refine ⟨hlinear.answers, hlinear.sequential, fun function value => ?_⟩
    exact (begin_complete_iff hcell thread _ value).trans (hlinear.singletons function value)
  | @pass _ thread cell rest value hthread hcell =>
    obtain ⟨done, hexported, _⟩ := hsound.passed thread cell rest (by rw [hthread]; rfl)
    obtain ⟨_, _, function, rfl⟩ | ⟨_, rfl, function, rfl⟩ := exported_statics hexported
    · exact ⟨[], by simpa using ⟨hlinear.answers, hlinear.sequential, hlinear.singletons⟩⟩
    · obtain ⟨pointer, rfl, hsingleton⟩ := (hlinear.singletons function value).mp hcell
      exact ⟨[(thread, function, pointer)],
        hlinear.answer rfl (Export.run_existing hsingleton) hlinear.singletons⟩
  | @finish _ thread cell rest seen value runtime hthread hcell hfinish =>
    obtain ⟨done, hexported, _⟩ := hsound.passed thread cell rest (by rw [hthread]; rfl)
    obtain ⟨_, rfl, function, rfl⟩ | ⟨_, rfl, function, rfl⟩ := exported_statics hexported
    · cases hfinish
      refine ⟨[], ?_⟩
      rw [List.append_nil]
      refine ⟨hlinear.answers, hlinear.sequential, fun other value => ?_⟩
      refine Iff.trans ?_ (hlinear.singletons other value)
      exact Eq.congr_left (Function.update_of_ne other.static_ne_runtime _ _)
    · have hfresh : function.singleton state.shared.heap = none := by
        rw [Option.eq_none_iff_forall_ne_some]
        intro pointer hsingleton
        have hcomplete := (hlinear.singletons function _).mpr ⟨pointer, rfl, hsingleton⟩
        rw [hcell] at hcomplete
        cases hcomplete
      rw [get_or_init_object] at hfinish
      cases hfinish
      refine ⟨[(thread, function, _)], hlinear.answer rfl (Export.run_fresh hfresh) fun other value => ?_⟩
      simp only [State.answer, State.set_thread, State.set_cell, Function.update_apply, Export.singleton_create]
      by_cases hother : other = function
      · simp [hother, eq_comm]
      · rw [if_neg hother, if_neg fun hstatic => hother (Export.static_inj hstatic)]
        exact hlinear.singletons other value
  | outside call =>
    refine ⟨[], ?_⟩
    rw [List.append_nil]
    have hheap : (loader call state.shared).heap = state.shared.heap := by
      simp only [loader, DllMain]
      split <;> rfl
    exact ⟨hlinear.answers, by rw [hheap]; exact hlinear.sequential, by rw [hheap]; exact hlinear.singletons⟩

/-- So every interleaving has a sequential history. -/
theorem GameRuns.linearized (hruns : GameRuns τ initialize_patches module world trace state)
    (hfollows : ∀ event ∈ trace, event.Follows exported allowed) : ∃ history, Linearized history state := by
  induction hruns with
  | nil =>
    refine ⟨[], rfl, rfl, fun function value => ?_⟩
    have hnone : function.singleton (attached module world).heap = none := by cases function <;> rfl
    simp [State.initial, hnone]
  | snoc hruns hstep ih =>
    rw [List.forall_mem_append, List.forall_mem_singleton] at hfollows
    obtain ⟨history, hlinear⟩ := ih hfollows.1
    obtain ⟨more, hnext⟩ := hlinear.step hstep (GameRuns.sound hruns hfollows.1)
    exact ⟨_, hnext⟩

/-- In every interleaving, the calls of the exported functions are linearizable, and
all callers of one function get the same object. -/
theorem exports_linearizable (hruns : GameRuns τ initialize_patches module world trace state)
    (hfollows : ∀ event ∈ trace, event.Follows exported allowed) :
    ∃ history, Linearized history state ∧
      ∀ thread other function pointer pointer', (thread, function, pointer) ∈ history →
        (other, function, pointer') ∈ history → pointer = pointer' := by
  obtain ⟨history, hlinear⟩ := hruns.linearized hfollows
  refine ⟨history, hlinear, ?_⟩
  have hheld : ∀ thread function pointer, (thread, function, pointer) ∈ history →
      state.cells function.static = .complete (some pointer) := by
    intro thread function pointer hmem
    refine (hruns.sound hfollows).answered thread _ _ ?_
    rw [hlinear.answers]
    exact List.mem_map.mpr ⟨_, hmem, rfl⟩
  intro thread other function pointer pointer' hmem hmem'
  have hcell := hheld thread function pointer hmem
  rw [hheld other function pointer' hmem'] at hcell
  cases hcell
  rfl

theorem exports_linearizable_on_sample : ∃ state history,
    GameRuns Bool (· + ·) 5 0 sample_trace state ∧ Linearized history state := by
  obtain ⟨state, hruns, _⟩ := sample_game_runs (· + ·) 0
  obtain ⟨history, hlinear, _⟩ := exports_linearizable hruns sample_trace_follows
  exact ⟨state, history, hruns, hlinear⟩

section Progress

omit [DecidableEq τ] in
theorem exported_rest {cell : Static} {rest : List Static} (hexported : exported (cell :: rest)) : rest.length = 1 := by
  obtain ⟨function, hstatics⟩ := hexported
  cases hstatics
  rfl

/-- Every call of an export has a budget of four steps. -/
theorem budget_of_exported (thread : τ) (hfollows : ∀ event ∈ trace, event.Follows exported allowed) :
    budget_of thread trace = 4 * calls_of thread trace := by
  induction trace with
  | nil => rfl
  | cons event trace ih =>
    rw [List.forall_mem_cons] at hfollows
    have hrest := ih hfollows.2
    simp only [calls_of, List.countP_cons] at hrest ⊢
    rw [budget_of, hrest]
    cases event with
    | advance | outside => simp [Event.budget]
    | call other cell rest =>
      have hlength := exported_rest hfollows.1
      by_cases hsame : other = thread
      · simp only [Event.budget, hsame, ↓reduceIte, hlength, decide_true]
        omega
      · simp [Event.budget, hsame]

/-- A call takes at most four steps of its own, and when no thread can go on, every
call has returned, and returned once. -/
theorem exports_return (hruns : GameRuns τ initialize_patches module world trace state)
    (hfollows : ∀ event ∈ trace, event.Follows exported allowed) :
    (∀ thread, steps_of thread trace ≤ 4 * calls_of thread trace) ∧
      ((∀ thread next, ¬ Step (get_or_init initialize_patches) loader (.advance thread) state next) →
        ∀ thread, answers_of thread state.answers = calls_of thread trace) := by
  refine ⟨fun thread => ?_, fun hstuck thread => ?_⟩
  · have hsteps := Runs.steps_le hruns thread
    rw [budget_of_exported thread hfollows] at hsteps
    omega
  · have hrest : (state.threads thread).AtRest := by
      by_contra hcall
      obtain ⟨runner, next, hstep⟩ := (hruns.sound hfollows).progress (get_or_init initialize_patches) loader hcall
      exact hstuck runner next hstep
    have hanswers := Runs.calls_answered hruns thread
    rwa [Thread.open_calls_of_rest hrest] at hanswers

/-- Both threads of the sample have returned, each from its one call. -/
theorem exports_return_on_sample : ∃ state, GameRuns Bool (· + ·) 5 0 sample_trace state ∧
    (∀ thread, steps_of thread sample_trace ≤ 4 * calls_of thread sample_trace) ∧
    ∀ thread, answers_of thread state.answers = calls_of thread sample_trace := by
  obtain ⟨state, hruns, _, hrest⟩ := sample_game_runs (· + ·) 0
  obtain ⟨hsteps, hanswers⟩ := exports_return hruns sample_trace_follows
  refine ⟨state, hruns, hsteps, hanswers fun thread next hstep => ?_⟩
  exact hstep.not_at_rest (hrest thread)

end Progress

end systemdetection
