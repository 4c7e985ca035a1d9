import Mathlib.Data.List.Nodup
import Mathlib.Logic.Function.Basic

namespace sync

/-- A cell that is initialized by the first caller of `get_or_init`. While the
initializer runs, `seen` is what it has read so far, and other callers wait. -/
inductive OnceLock (τ ρ α : Type) where
  | empty
  | running (owner : τ) (seen : ρ)
  | complete (value : α)

/-- The initializers of a family of cells over a shared state, each in two atomic
steps: what it reads first, and then its effect and its value. -/
structure Initializers (ι ρ α S : Type) where
  start : ι → S → ρ
  finish : ι → ρ → S → α × S

/-- Where a thread is in a call that gets the values of some cells, one after
another, and returns the last one. -/
inductive Thread (ι α : Type) where
  | idle
  | entering (cell : ι) (rest : List ι)
  | running (cell : ι) (rest : List ι)
  | returned (cell : ι) (value : α)

/-- The shared state, the cells and the threads, with the values of the cells in
the order in which their initializers have finished, and what the calls have
returned, in the order in which they have. -/
structure State (τ ι ρ α S : Type) where
  shared : S
  cells : ι → OnceLock τ ρ α
  threads : τ → Thread ι α
  completed : List (ι × α)
  answers : List (τ × ι × α)

/-- A thread makes a call or takes its next step, or the shared state changes
from outside. -/
inductive Event (τ ι ε : Type) where
  | call (thread : τ) (cell : ι) (rest : List ι)
  | advance (thread : τ)
  | outside (event : ε)

variable {τ ι ρ α S ε : Type}

/-- Whether the thread is outside of any call. -/
def Thread.AtRest : Thread ι α → Prop
  | .idle | .returned _ _ => True
  | .entering _ _ | .running _ _ => False

/-- Where a thread goes on with the value of a cell. -/
def Thread.after (cell : ι) (value : α) : List ι → Thread ι α
  | [] => .returned cell value
  | next :: rest => .entering next rest

def State.initial (τ ι ρ α : Type) (shared : S) : State τ ι ρ α S where
  shared := shared
  cells _ := .empty
  threads _ := .idle
  completed := []
  answers := []

/-- Notes what a call returns, when no cell is left to get. -/
def State.answer (state : State τ ι ρ α S) (thread : τ) (cell : ι) (value : α) : List ι → State τ ι ρ α S
  | [] => { state with answers := state.answers ++ [(thread, cell, value)] }
  | _ :: _ => state

section Answer

variable (state : State τ ι ρ α S) (thread : τ) (cell : ι) (value : α) (rest : List ι)

@[simp] theorem State.answer_shared : (state.answer thread cell value rest).shared = state.shared := by
  cases rest <;> rfl

@[simp] theorem State.answer_cells : (state.answer thread cell value rest).cells = state.cells := by
  cases rest <;> rfl

@[simp] theorem State.answer_threads : (state.answer thread cell value rest).threads = state.threads := by
  cases rest <;> rfl

@[simp] theorem State.answer_completed : (state.answer thread cell value rest).completed = state.completed := by
  cases rest <;> rfl

end Answer

variable [DecidableEq τ] [DecidableEq ι]

def State.set_thread (state : State τ ι ρ α S) (thread : τ) (next : Thread ι α) : State τ ι ρ α S :=
  { state with threads := Function.update state.threads thread next }

def State.set_cell (state : State τ ι ρ α S) (cell : ι) (lock : OnceLock τ ρ α) : State τ ι ρ α S :=
  { state with cells := Function.update state.cells cell lock }

/-- One atomic step of the system. A thread that enters a running cell has none. -/
inductive Step (initializers : Initializers ι ρ α S) (outside : ε → S → S) :
    Event τ ι ε → State τ ι ρ α S → State τ ι ρ α S → Prop where
  | call {state : State τ ι ρ α S} {thread : τ} (cell : ι) (rest : List ι)
      (hrest : (state.threads thread).AtRest) :
      Step initializers outside (.call thread cell rest) state (state.set_thread thread (.entering cell rest))
  | begin {state : State τ ι ρ α S} {thread : τ} {cell : ι} {rest : List ι}
      (hthread : state.threads thread = .entering cell rest) (hcell : state.cells cell = .empty) :
      Step initializers outside (.advance thread) state
        ((state.set_cell cell (.running thread (initializers.start cell state.shared))).set_thread thread
          (.running cell rest))
  | pass {state : State τ ι ρ α S} {thread : τ} {cell : ι} {rest : List ι} {value : α}
      (hthread : state.threads thread = .entering cell rest) (hcell : state.cells cell = .complete value) :
      Step initializers outside (.advance thread) state
        ((state.set_thread thread (.after cell value rest)).answer thread cell value rest)
  | finish {state : State τ ι ρ α S} {thread : τ} {cell : ι} {rest : List ι} {seen : ρ} {value : α}
      {shared : S} (hthread : state.threads thread = .running cell rest)
      (hcell : state.cells cell = .running thread seen)
      (hfinish : initializers.finish cell seen state.shared = (value, shared)) :
      Step initializers outside (.advance thread) state
        (State.answer { (state.set_cell cell (.complete value)).set_thread thread (.after cell value rest) with
          shared := shared
          completed := state.completed ++ [(cell, value)] } thread cell value rest)
  | outside {state : State τ ι ρ α S} (event : ε) :
      Step initializers outside (.outside event) state { state with shared := outside event state.shared }

/-- Steps taken one after another, in any interleaving of the threads. -/
inductive Runs (initializers : Initializers ι ρ α S) (outside : ε → S → S) (start : State τ ι ρ α S) :
    List (Event τ ι ε) → State τ ι ρ α S → Prop where
  | nil : Runs initializers outside start [] start
  | snoc {trace : List (Event τ ι ε)} {state next : State τ ι ρ α S} {event : Event τ ι ε}
      (hruns : Runs initializers outside start trace state)
      (hstep : Step initializers outside event state next) :
      Runs initializers outside start (trace ++ [event]) next

/-- The calls go through the given lists of cells, and the changes from outside
are of a given kind. -/
def Event.Follows (programs : List ι → Prop) (allowed : ε → Prop) : Event τ ι ε → Prop
  | .call _ cell rest => programs (cell :: rest)
  | .advance _ => True
  | .outside event => allowed event

/-- The cell at which a thread is, and those that it has still to get. -/
def Thread.position : Thread ι α → Option (ι × List ι)
  | .idle => none
  | .entering cell rest | .running cell rest => some (cell, rest)
  | .returned cell _ => some (cell, [])

/-- Whether the thread runs the initializer of a cell. -/
def Thread.Runs (thread : Thread ι α) (cell : ι) : Prop := ∃ rest, thread = .running cell rest

/-- What holds in every reachable state: the running cells belong to the threads
that run them, the completed ones keep their values, and a thread has passed
completed cells only. -/
structure State.Sound (programs : List ι → Prop) (state : State τ ι ρ α S) : Prop where
  owned : ∀ thread cell, (state.threads thread).Runs cell ↔ ∃ seen, state.cells cell = .running thread seen
  completed : ∀ cell value, (cell, value) ∈ state.completed ↔ state.cells cell = .complete value
  once : (state.completed.map Prod.fst).Nodup
  returned : ∀ thread cell value, state.threads thread = .returned cell value →
    state.cells cell = .complete value
  answered : ∀ thread cell value, (thread, cell, value) ∈ state.answers → state.cells cell = .complete value
  passed : ∀ thread cell rest, (state.threads thread).position = some (cell, rest) →
    ∃ done, programs (done ++ cell :: rest) ∧ ∀ earlier ∈ done, earlier ∈ state.completed.map Prod.fst
  ordered : ∀ before cell after, state.completed.map Prod.fst = before ++ cell :: after →
    ∃ done rest, programs (done ++ cell :: rest) ∧ ∀ earlier ∈ done, earlier ∈ before

omit [DecidableEq τ] [DecidableEq ι] in
/-- Before the first call everything is at rest. -/
theorem State.initial_sound (programs : List ι → Prop) (shared : S) :
    (State.initial τ ι ρ α shared).Sound programs where
  owned thread cell := by simp [State.initial, Thread.Runs]
  completed cell value := by simp [State.initial]
  once := .nil
  returned thread cell value := by simp [State.initial]
  answered thread cell value := by simp [State.initial]
  passed thread cell rest := by simp [State.initial, Thread.position]
  ordered before cell after := by simp [State.initial]

section Step

variable {programs : List ι → Prop} {state : State τ ι ρ α S}

omit [DecidableEq τ] [DecidableEq ι] in
/-- A thread that goes on from a completed cell has passed completed cells only. -/
theorem Thread.after_passed {completed done rest : List ι} {cell : ι} {value : α}
    (hprogram : programs (done ++ cell :: rest)) (hdone : ∀ earlier ∈ done, earlier ∈ completed)
    (hcell : cell ∈ completed) : ∀ next rest', (Thread.after cell value rest).position = some (next, rest') →
      ∃ done, programs (done ++ next :: rest') ∧ ∀ earlier ∈ done, earlier ∈ completed := by
  intro next rest' hposition
  cases rest with
  | nil =>
    cases hposition
    exact ⟨done, hprogram, hdone⟩
  | cons following rest =>
    cases hposition
    refine ⟨done ++ [cell], by simpa using hprogram, ?_⟩
    rw [List.forall_mem_append, List.forall_mem_singleton]
    exact ⟨hdone, hcell⟩

omit [DecidableEq ι] in
/-- Moving a thread that runs no initializer to where it runs none. -/
theorem State.Sound.set_thread (hsound : state.Sound programs) {thread : τ} {next : Thread ι α}
    (hbefore : ∀ cell, ¬ (state.threads thread).Runs cell) (hafter : ∀ cell, ¬ next.Runs cell)
    (hreturned : ∀ cell value, next = .returned cell value → state.cells cell = .complete value)
    (hpassed : ∀ cell rest, next.position = some (cell, rest) → ∃ done, programs (done ++ cell :: rest) ∧
      ∀ earlier ∈ done, earlier ∈ state.completed.map Prod.fst) :
    (state.set_thread thread next).Sound programs := by
  have hthreads : ∀ other, (state.set_thread thread next).threads other =
      if other = thread then next else state.threads other := fun other => Function.update_apply _ _ _ _
  refine ⟨fun other cell => ?_, hsound.completed, hsound.once, fun other cell value => ?_,
    hsound.answered, fun other cell rest => ?_, hsound.ordered⟩
  · rw [hthreads]
    split
    · rename_i hsame
      refine iff_of_false (hafter cell) fun hrunning => hbefore cell ?_
      rw [← hsame]
      exact (hsound.owned other cell).mpr hrunning
    · exact hsound.owned other cell
  · rw [hthreads]
    split
    · exact hreturned cell value
    · exact hsound.returned other cell value
  · rw [hthreads]
    split
    · exact hpassed cell rest
    · exact hsound.passed other cell rest

omit [DecidableEq τ] in
/-- A completed cell stays so while another one changes. -/
theorem State.complete_kept {cell found : ι} {value : α} (hcell : ∀ value, state.cells cell ≠ .complete value)
    (hfound : state.cells found = .complete value) (lock : OnceLock τ ρ α) :
    (state.set_cell cell lock).cells found = .complete value := by
  have hother : found ≠ cell := by
    rintro rfl
    exact hcell value hfound
  exact (Function.update_of_ne hother lock state.cells).trans hfound

/-- A thread starts the initializer of an empty cell. -/
theorem State.Sound.begin (hsound : state.Sound programs) {thread : τ} {cell : ι} {rest : List ι}
    (hthread : state.threads thread = .entering cell rest) (hcell : state.cells cell = .empty) (seen : ρ) :
    ((state.set_cell cell (.running thread seen)).set_thread thread (.running cell rest)).Sound programs where
  owned other found := by
    have howned := hsound.owned other found
    simp only [State.set_thread, State.set_cell, Function.update_apply]
    by_cases hother : other = thread
    · subst hother
      rw [hthread] at howned
      by_cases hfound : found = cell
      · simp [hfound, Thread.Runs]
      · simpa [hfound, Ne.symm hfound, Thread.Runs] using howned
    · by_cases hfound : found = cell
      · subst hfound
        simpa [hother, Ne.symm hother, hcell] using howned
      · simpa [hother, hfound] using howned
  completed found value := by
    have hcompleted := hsound.completed found value
    simp only [State.set_thread, State.set_cell, Function.update_apply]
    split
    · rename_i hfound
      simpa [hfound, hcell] using hcompleted
    · exact hcompleted
  once := hsound.once
  returned other found value := by
    simp only [State.set_thread, Function.update_apply]
    split
    · simp
    · exact fun hreturned => State.complete_kept (by simp [hcell]) (hsound.returned other found value hreturned) _
  answered other found value hanswer :=
    State.complete_kept (by simp [hcell]) (hsound.answered other found value hanswer) _
  passed other found rest' := by
    simp only [State.set_thread, Function.update_apply]
    split
    · intro hposition
      exact hsound.passed thread found rest' (by rwa [hthread])
    · exact hsound.passed other found rest'
  ordered := hsound.ordered

omit [DecidableEq τ] [DecidableEq ι] in
/-- A call returns the value of a completed cell. -/
theorem State.Sound.answer (hsound : state.Sound programs) {cell : ι} {value : α}
    (hcell : state.cells cell = .complete value) (thread : τ) (rest : List ι) :
    (state.answer thread cell value rest).Sound programs := by
  cases rest with
  | cons next rest => exact hsound
  | nil =>
    refine ⟨hsound.owned, hsound.completed, hsound.once, hsound.returned, fun other found value' hanswer => ?_,
      hsound.passed, hsound.ordered⟩
    obtain hanswer | hanswer := List.mem_append.mp hanswer
    · exact hsound.answered other found value' hanswer
    · cases List.mem_singleton.mp hanswer
      exact hcell

/-- The owner of a running cell completes it. -/
theorem State.Sound.finish (hsound : state.Sound programs) {thread : τ} {cell : ι} {rest : List ι}
    {seen : ρ} (hthread : state.threads thread = .running cell rest)
    (hcell : state.cells cell = .running thread seen) (value : α) (shared : S) :
    ({ (state.set_cell cell (.complete value)).set_thread thread (.after cell value rest) with
      shared := shared
      completed := state.completed ++ [(cell, value)] } : State τ ι ρ α S).Sound programs := by
  have hfresh : ∀ value, (cell, value) ∉ state.completed := fun value hmem => by
    have hcomplete := (hsound.completed cell value).mp hmem
    rw [hcell] at hcomplete
    cases hcomplete
  have hquiet : ∀ found, ¬ (Thread.after cell value rest).Runs found := by
    cases rest <;> simp [Thread.after, Thread.Runs]
  obtain ⟨done, hprogram, hdone⟩ := hsound.passed thread cell rest (by rw [hthread]; rfl)
  have hnames : (state.completed ++ [(cell, value)]).map Prod.fst = state.completed.map Prod.fst ++ [cell] := by
    simp
  refine ⟨fun other found => ?_, fun found value' => ?_, ?_, fun other found value' => ?_,
    fun other found value' hanswer => State.complete_kept (by simp [hcell])
      (hsound.answered other found value' hanswer) _,
    fun other found rest' => ?_, fun before found after hsplit => ?_⟩
  · have howned := hsound.owned other found
    simp only [State.set_thread, State.set_cell, Function.update_apply]
    by_cases hother : other = thread
    · subst hother
      rw [if_pos rfl]
      refine iff_of_false (hquiet found) ?_
      by_cases hfound : found = cell
      · simp [hfound]
      · rw [if_neg hfound, ← howned, hthread]
        rintro ⟨_, hruns⟩
        cases hruns
        exact hfound rfl
    · by_cases hfound : found = cell
      · subst hfound
        simpa [hother, Ne.symm hother, hcell] using howned
      · simpa [hother, hfound] using howned
  · simp only [State.set_thread, State.set_cell, Function.update_apply]
    rw [List.mem_append, List.mem_singleton, Prod.mk.injEq]
    split
    · rename_i hfound
      simp [hfound, hfresh, eq_comm]
    · rename_i hfound
      simp [hfound, hsound.completed]
  · rw [hnames, List.nodup_append]
    refine ⟨hsound.once, List.nodup_singleton cell, ?_⟩
    intro found hfound other hother
    rw [List.mem_singleton] at hother
    rintro rfl
    obtain ⟨⟨_, value⟩, hmem, rfl⟩ := List.mem_map.mp hfound
    exact hfresh value (hother ▸ hmem)
  · simp only [State.set_thread, Function.update_apply]
    split
    · cases rest with
      | nil =>
        intro hreturned
        cases hreturned
        simp [State.set_cell]
      | cons next rest => simp [Thread.after]
    · exact fun hreturned => State.complete_kept (by simp [hcell]) (hsound.returned other found value' hreturned) _
  · have hlater : ∀ earlier ∈ state.completed.map Prod.fst,
        earlier ∈ (state.completed ++ [(cell, value)]).map Prod.fst := fun earlier hmem => by
      rw [hnames]
      exact List.mem_append_left _ hmem
    simp only [State.set_thread, Function.update_apply]
    split
    · exact Thread.after_passed hprogram (fun earlier hmem => hlater earlier (hdone earlier hmem))
        (by simp) found rest'
    · intro hposition
      obtain ⟨done', hprogram', hdone'⟩ := hsound.passed other found rest' hposition
      exact ⟨done', hprogram', fun earlier hmem => hlater earlier (hdone' earlier hmem)⟩
  · change (state.completed ++ [(cell, value)]).map Prod.fst = _ at hsplit
    rw [hnames] at hsplit
    obtain rfl | ⟨front, last, rfl⟩ := List.eq_nil_or_concat after
    · obtain ⟨rfl, hlast⟩ := List.append_inj' hsplit rfl
      cases hlast
      exact ⟨done, rest, hprogram, hdone⟩
    · rw [List.concat_eq_append, ← List.cons_append, ← List.append_assoc] at hsplit
      exact hsound.ordered before found front (List.append_inj' hsplit rfl).1

variable {initializers : Initializers ι ρ α S} {outside : ε → S → S}

/-- Every step of a thread that follows its program keeps the state sound. -/
theorem Step.sound {allowed : ε → Prop} {event : Event τ ι ε} {next : State τ ι ρ α S}
    (hstep : Step initializers outside event state next) (hfollows : event.Follows programs allowed)
    (hsound : state.Sound programs) : next.Sound programs := by
  cases hstep with
  | call cell rest hrest =>
    refine hsound.set_thread (fun cell hruns => ?_) (by simp [Thread.Runs]) (by simp) fun found rest' hposition => ?_
    · obtain ⟨rest', hrunning⟩ := hruns
      rw [hrunning] at hrest
      exact hrest
    · cases hposition
      exact ⟨[], hfollows, by simp⟩
  | begin hthread hcell => exact hsound.begin hthread hcell _
  | @pass _ thread cell rest value hthread hcell =>
    have hmem := List.mem_map_of_mem (f := Prod.fst) ((hsound.completed cell value).mpr hcell)
    obtain ⟨done, hprogram, hdone⟩ := hsound.passed thread cell rest (by rw [hthread]; rfl)
    refine State.Sound.answer (hsound.set_thread (by simp [hthread, Thread.Runs])
      (by cases rest <;> simp [Thread.after, Thread.Runs]) (fun found value' hreturned => ?_)
      (Thread.after_passed hprogram hdone hmem)) hcell thread rest
    cases rest with
    | nil =>
      cases hreturned
      exact hcell
    | cons next rest => cases hreturned
  | @finish _ thread cell rest _ value shared hthread hcell _ =>
    exact State.Sound.answer (hsound.finish hthread hcell value shared) (by simp [State.set_thread, State.set_cell])
      thread rest
  | outside event => exact ⟨hsound.owned, hsound.completed, hsound.once, hsound.returned, hsound.answered,
      hsound.passed, hsound.ordered⟩

end Step

end sync
