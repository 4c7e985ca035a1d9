import SystemDetection.Sync.Once
import Mathlib.Data.List.Count

namespace sync

variable {τ ι ρ α S ε : Type} [DecidableEq τ] [DecidableEq ι] {initializers : Initializers ι ρ α S}
  {outside : ε → S → S} {programs : List ι → Prop} {allowed : ε → Prop} {state : State τ ι ρ α S} {trace : List (Event τ ι ε)}

/-- Every run keeps the state sound. -/
theorem Runs.sound {start : State τ ι ρ α S} (hruns : Runs initializers outside start trace state)
    (hfollows : ∀ event ∈ trace, event.Follows programs allowed) (hstart : start.Sound programs) :
    state.Sound programs := by
  induction hruns with
  | nil => exact hstart
  | snoc _ hstep ih =>
    rw [List.forall_mem_append, List.forall_mem_singleton] at hfollows
    exact hstep.sound hfollows.2 (ih hfollows.1)

/-- What the initializers and the outside keep of the shared state and the values
completed so far holds in every run. What a running initializer has seen may be
relied on as long as it was so when it was read. -/
theorem Runs.shared_holds {shared : S} (holds : List (ι × α) → S → Prop) (seen_holds : ι → ρ → Prop)
    (hruns : Runs initializers outside (.initial τ ι ρ α shared) trace state)
    (hfollows : ∀ event ∈ trace, event.Follows programs allowed)
    (hinitial : holds [] shared)
    (hstart : ∀ completed shared cell, holds completed shared →
      seen_holds cell (initializers.start cell shared))
    (hfinish : ∀ completed shared cell seen, holds completed shared → seen_holds cell seen →
      cell ∉ completed.map Prod.fst →
      holds (completed ++ [(cell, (initializers.finish cell seen shared).1)])
        (initializers.finish cell seen shared).2)
    (houtside : ∀ completed shared event, allowed event → holds completed shared →
      holds completed (outside event shared)) :
    holds state.completed state.shared ∧
      ∀ cell thread seen, state.cells cell = .running thread seen → seen_holds cell seen := by
  induction hruns with
  | nil => exact ⟨hinitial, by simp [State.initial]⟩
  | @snoc trace state next event hruns hstep ih =>
    rw [List.forall_mem_append, List.forall_mem_singleton] at hfollows
    obtain ⟨hholds, hseen⟩ := ih hfollows.1
    have hsound := hruns.sound hfollows.1 (State.initial_sound programs shared)
    cases hstep with
    | call => exact ⟨hholds, hseen⟩
    | pass =>
      simp only [State.answer_completed, State.answer_shared, State.answer_cells]
      exact ⟨hholds, hseen⟩
    | outside event => exact ⟨houtside _ _ event hfollows.2 hholds, hseen⟩
    | @begin _ thread cell rest hthread hcell =>
      refine ⟨hholds, fun found other seen => ?_⟩
      simp only [State.set_thread, State.set_cell, Function.update_apply]
      split
      · rename_i hfound
        intro hrunning
        cases hrunning
        rw [hfound]
        exact hstart _ _ cell hholds
      · exact hseen found other seen
    | @finish _ thread cell rest seen value shared hthread hcell hfinished =>
      have hfresh : cell ∉ state.completed.map Prod.fst := by
        intro hmem
        obtain ⟨⟨found, other⟩, hentry, hfound⟩ := List.mem_map.mp hmem
        cases hfound
        have hcomplete := (hsound.completed _ other).mp hentry
        rw [hcell] at hcomplete
        cases hcomplete
      have hnext := hfinish _ _ cell seen hholds (hseen cell thread seen hcell) hfresh
      rw [hfinished] at hnext
      simp only [State.answer_completed, State.answer_shared, State.answer_cells]
      refine ⟨hnext, fun found other seen => ?_⟩
      simp only [State.set_thread, State.set_cell, Function.update_apply]
      split
      · simp
      · exact hseen found other seen

/-- A thread in a call waits only for a thread that can go on. -/
theorem State.Sound.progress (hsound : state.Sound programs) (initializers : Initializers ι ρ α S)
    (outside : ε → S → S) {thread : τ} (hcall : ¬ (state.threads thread).AtRest) :
    ∃ runner next, Step initializers outside (.advance runner) state next := by
  have hrunning : ∀ runner cell, (state.threads runner).Runs cell →
      ∃ next, Step initializers outside (.advance runner) state next := by
    intro runner cell hruns
    obtain ⟨seen, hcell⟩ := (hsound.owned runner cell).mp hruns
    obtain ⟨rest, hthread⟩ := hruns
    exact ⟨_, .finish hthread hcell rfl⟩
  cases hthread : state.threads thread with
  | idle | returned =>
    rw [hthread] at hcall
    exact absurd trivial hcall
  | running cell rest => exact ⟨thread, hrunning thread cell ⟨rest, hthread⟩⟩
  | entering cell rest =>
    cases hcell : state.cells cell with
    | empty => exact ⟨thread, _, .begin hthread hcell⟩
    | complete value => exact ⟨thread, _, .pass hthread hcell⟩
    | running owner seen => exact ⟨owner, hrunning owner cell ((hsound.owned owner cell).mpr ⟨seen, hcell⟩)⟩

/-- Only a thread in a call can go on. -/
theorem Step.not_at_rest {initializers : Initializers ι ρ α S} {outside : ε → S → S} {thread : τ}
    {next : State τ ι ρ α S} (hstep : Step initializers outside (.advance thread) state next) :
    ¬(state.threads thread).AtRest := by
  cases hstep with
  | begin hthread | pass hthread | finish hthread =>
    rw [hthread]
    exact id

/-- The steps that a thread may still need for its call. -/
def Thread.remaining : Thread ι α → Nat
  | .idle | .returned _ _ => 0
  | .entering _ rest => 2 * rest.length + 2
  | .running _ rest => 2 * rest.length + 1

omit [DecidableEq ι] in
theorem Thread.remaining_after (cell : ι) (value : α) (rest : List ι) :
    (Thread.after cell value rest).remaining = 2 * rest.length := by
  cases rest with
  | nil => rfl
  | cons next rest => simp [after, remaining, Nat.mul_add]

/-- The steps that a thread takes in a trace. -/
def steps_of (thread : τ) (trace : List (Event τ ι ε)) : Nat :=
  trace.countP fun
    | .advance other => other = thread
    | .call _ _ _ | .outside _ => false

/-- Two steps for each cell of a call of the thread. -/
def Event.budget (thread : τ) : Event τ ι ε → Nat
  | .call other _ rest => if other = thread then 2 * rest.length + 2 else 0
  | .advance _ | .outside _ => 0

/-- Two steps for each cell of each call that a thread makes in a trace. -/
def budget_of (thread : τ) : List (Event τ ι ε) → Nat
  | [] => 0
  | event :: trace => event.budget thread + budget_of thread trace

omit [DecidableEq ι] in
theorem budget_of_snoc (thread : τ) (trace : List (Event τ ι ε)) (event : Event τ ι ε) :
    budget_of thread (trace ++ [event]) = budget_of thread trace + event.budget thread := by
  induction trace with
  | nil => exact Nat.add_comm _ _
  | cons first trace ih => rw [List.cons_append, budget_of, ih, budget_of, Nat.add_assoc]

/-- The calls that a thread makes in a trace. -/
def calls_of (thread : τ) (trace : List (Event τ ι ε)) : Nat :=
  trace.countP fun
    | .call other _ _ => other = thread
    | .advance _ | .outside _ => false

/-- The calls of a thread that have returned. -/
def answers_of (thread : τ) (answers : List (τ × ι × α)) : Nat :=
  answers.countP fun answer => answer.1 = thread

/-- A thread whose call goes on has one that has not returned. -/
def Thread.open_calls : Thread ι α → Nat
  | .idle | .returned _ _ => 0
  | .entering _ _ | .running _ _ => 1

omit [DecidableEq ι] in
theorem answers_of_answer (state : State τ ι ρ α S) (thread runner : τ) (cell : ι) (value : α) (rest : List ι) :
    answers_of thread (state.answer runner cell value rest).answers +
        (if runner = thread then (Thread.after cell value rest).open_calls else 0) =
      answers_of thread state.answers + if runner = thread then 1 else 0 := by
  cases rest with
  | nil => by_cases hsame : runner = thread <;> simp [State.answer, answers_of, Thread.after, Thread.open_calls, hsame]
  | cons next rest => rfl

omit [DecidableEq τ] [DecidableEq ι] in
theorem Thread.open_calls_of_rest {thread : Thread ι α} (hrest : thread.AtRest) : thread.open_calls = 0 := by
  cases thread with
  | idle | returned => rfl
  | entering | running => exact hrest.elim

/-- What one step does to a thread: it starts a call, runs an initializer, gets through a
cell, or is left as it was. -/
inductive Moves (thread : τ) (state next : State τ ι ρ α S) : Event τ ι ε → Prop where
  | call (cell : ι) (rest : List ι) (hrest : (state.threads thread).AtRest)
      (hnext : next.threads thread = .entering cell rest) (hanswers : next.answers = state.answers) :
      Moves thread state next (.call thread cell rest)
  | enter {cell : ι} {rest : List ι} (hthread : state.threads thread = .entering cell rest)
      (hnext : next.threads thread = .running cell rest) (hanswers : next.answers = state.answers) :
      Moves thread state next (.advance thread)
  | leave {cell : ι} {value : α} {rest : List ι}
      (hthread : state.threads thread = .entering cell rest ∨ state.threads thread = .running cell rest)
      (hnext : next.threads thread = .after cell value rest)
      (hanswers : answers_of thread next.answers + (Thread.after cell value rest).open_calls =
        answers_of thread state.answers + 1) :
      Moves thread state next (.advance thread)
  | other {event : Event τ ι ε} (hcall : ∀ cell rest, event ≠ .call thread cell rest)
      (hadvance : event ≠ .advance thread) (hnext : next.threads thread = state.threads thread)
      (hanswers : answers_of thread next.answers = answers_of thread state.answers) :
      Moves thread state next event

/-- Every step moves a thread in one of the four ways. -/
theorem Step.moves {event : Event τ ι ε} {next : State τ ι ρ α S} (hstep : Step initializers outside event state next)
    (thread : τ) : Moves thread state next event := by
  cases hstep with
  | outside event => exact .other (by simp) (by simp) rfl rfl
  | @call _ caller cell rest hrest =>
    by_cases hsame : thread = caller
    · subst hsame
      exact .call cell rest hrest (Function.update_self ..) rfl
    · exact .other (by simp [Ne.symm hsame]) (by simp) (Function.update_of_ne hsame ..) rfl
  | @begin _ runner cell rest hthread hcell =>
    by_cases hsame : thread = runner
    · subst hsame
      exact .enter hthread (Function.update_self ..) rfl
    · exact .other (by simp) (by simp [Ne.symm hsame]) (Function.update_of_ne hsame ..) rfl
  | @pass _ runner cell rest value hthread hcell =>
    have hanswer := answers_of_answer (state.set_thread runner (.after cell value rest)) thread runner cell value rest
    by_cases hsame : thread = runner
    · subst hsame
      rw [if_pos rfl, if_pos rfl] at hanswer
      refine .leave (.inl hthread) ?_ hanswer
      rw [State.answer_threads]
      exact Function.update_self ..
    · rw [if_neg (Ne.symm hsame), if_neg (Ne.symm hsame)] at hanswer
      refine .other (by simp) (by simp [Ne.symm hsame]) ?_ hanswer
      rw [State.answer_threads]
      exact Function.update_of_ne hsame ..
  | @finish _ runner cell rest seen value shared hthread hcell hfinished =>
    have hanswer := answers_of_answer { (state.set_cell cell (.complete value)).set_thread runner
      (.after cell value rest) with shared := shared, completed := state.completed ++ [(cell, value)] }
      thread runner cell value rest
    by_cases hsame : thread = runner
    · subst hsame
      rw [if_pos rfl, if_pos rfl] at hanswer
      refine .leave (.inr hthread) ?_ hanswer
      rw [State.answer_threads]
      exact Function.update_self ..
    · rw [if_neg (Ne.symm hsame), if_neg (Ne.symm hsame)] at hanswer
      refine .other (by simp) (by simp [Ne.symm hsame]) ?_ hanswer
      rw [State.answer_threads]
      exact Function.update_of_ne hsame ..

/-- A thread takes at most two steps for each cell that its calls get. -/
theorem Runs.steps_le {shared : S} (hruns : Runs initializers outside (.initial τ ι ρ α shared) trace state)
    (thread : τ) : steps_of thread trace + (state.threads thread).remaining ≤ budget_of thread trace := by
  induction hruns with
  | nil => simp [steps_of, budget_of, State.initial, Thread.remaining]
  | @snoc trace state next event _ hstep ih =>
    rw [budget_of_snoc]
    simp only [steps_of, List.countP_append, List.countP_singleton] at ih ⊢
    cases hstep.moves thread with
    | call cell rest hrest hnext _ =>
      rw [hnext]
      simp only [Thread.remaining, Event.budget, ↓reduceIte, Bool.false_eq_true]
      omega
    | enter hthread hnext _ =>
      rw [hthread] at ih
      rw [hnext]
      simp only [Thread.remaining, Event.budget, decide_true, ↓reduceIte] at ih ⊢
      omega
    | leave hthread hnext _ =>
      rw [hnext, Thread.remaining_after]
      simp only [Event.budget, decide_true, ↓reduceIte]
      obtain hthread | hthread := hthread <;> rw [hthread] at ih <;> simp only [Thread.remaining] at ih <;> omega
    | other hcall hadvance hnext _ =>
      rw [hnext]
      cases event with
      | call | outside => exact Nat.le_add_right_of_le ih
      | advance other => simpa [Event.budget, show other ≠ thread from fun h => hadvance (by rw [h])] using ih

/-- Each call returns at most once, and all but the open ones have. -/
theorem Runs.calls_answered {shared : S}
    (hruns : Runs initializers outside (.initial τ ι ρ α shared) trace state) (thread : τ) :
    answers_of thread state.answers + (state.threads thread).open_calls = calls_of thread trace := by
  induction hruns with
  | nil => rfl
  | @snoc trace state next event _ hstep ih =>
    simp only [calls_of, List.countP_append, List.countP_singleton] at ih ⊢
    cases hstep.moves thread with
    | call cell rest hrest hnext hanswers =>
      have hclosed := Thread.open_calls_of_rest hrest
      rw [hnext, hanswers]
      simp only [Thread.open_calls, decide_true, ↓reduceIte]
      omega
    | enter hthread hnext hanswers =>
      rw [hthread] at ih
      rw [hnext, hanswers]
      exact ih
    | leave hthread hnext hanswers =>
      rw [hnext, hanswers, ← ih]
      obtain hthread | hthread := hthread <;> rw [hthread] <;> rfl
    | other hcall hadvance hnext hanswers =>
      rw [hnext, hanswers]
      cases event with
      | advance | outside => exact ih
      | call other cell rest => simpa [show other ≠ thread from fun h => hcall cell rest (by rw [h])] using ih

end sync
