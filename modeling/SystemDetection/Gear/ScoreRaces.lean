import SystemDetection.Gear.Score

namespace systemdetection.gear

variable {τ : Type} {memory : Floats} {idx : Fin 2}

theorem default_is_computed : f32_eq DEFAULT_SCORE SCORE_UNCOMPUTED = false := by decide

theorem uncomputed_is_uncomputed : f32_eq SCORE_UNCOMPUTED SCORE_UNCOMPUTED = true := by decide

/-- A score that is set or not, with a confidence that is always the same. -/
structure GearScore.Cached (score : GearScore) : Prop where
  scores : ∀ idx, score.scores idx = SCORE_UNCOMPUTED ∨ score.scores idx = DEFAULT_SCORE
  confidence : ∀ idx, score.confidence idx = FULL_CONFIDENCE

theorem GearScore.new_cached : GearScore.new.Cached := ⟨fun _ => .inl rfl, fun _ => rfl⟩

/-- What a call returns, whoever has called before. -/
def ScoreCall.expected : ScoreCall → ScoreAnswer
  | .get_score score_type _ => .score (if (score_index score_type).isSome then DEFAULT_SCORE else 0)
  | .compute_score score_type => .score_type score_type

/-- What a call leaves in the memory of the caller. -/
def ScoreCall.expected_memory (memory : Floats) : ScoreCall → Floats
  | .get_score score_type confidence_out =>
    (score_index score_type).elim memory fun _ => write_confidence memory confidence_out FULL_CONFIDENCE
  | .compute_score _ => memory

/-- A call on a cached score returns and writes the same, set or not. -/
theorem GearScore.Cached.run {score : GearScore} (hcached : score.Cached) (call : ScoreCall)
    (memory : Floats) :
    (call.run score memory).1 = call.expected ∧ (call.run score memory).2.2 = call.expected_memory memory := by
  cases call with
  | compute_score score_type =>
    simp only [ScoreCall.run, GearScore.compute_score]
    cases score_index score_type <;> exact ⟨rfl, rfl⟩
  | get_score score_type confidence_out =>
    simp only [ScoreCall.run, GearScore.get_score, ScoreCall.expected, ScoreCall.expected_memory]
    cases hidx : score_index score_type with
    | none => exact ⟨rfl, rfl⟩
    | some idx =>
      simp only [GearScore.compute_score, hidx, Option.elim_some, Option.isSome_some, ↓reduceIte]
      rcases hcached.scores idx with hscore | hscore
      · simp [hscore, uncomputed_is_uncomputed, set_score, set_confidence]
      · simp [hscore, default_is_computed, hcached.confidence]

/-- The call is a `get_score` for the index, with the pointer. -/
def ScoreCall.Gets (idx : Fin 2) (confidence_out : Option Nat) (call : ScoreCall) : Prop :=
  ∃ score_type, score_index score_type = some idx ∧ call = .get_score score_type confidence_out

theorem ScoreCall.Gets.expected {confidence_out : Option Nat} {call : ScoreCall}
    (hgets : call.Gets idx confidence_out) : call.expected = .score DEFAULT_SCORE := by
  obtain ⟨score_type, hidx, rfl⟩ := hgets
  simp [ScoreCall.expected, hidx]

/-- `compute_score` has been called for the index, in that call or as that call. -/
def ComputeCaller.Serves (idx : Fin 2) (call : ScoreCall) : ComputeCaller → Prop
  | .game score_type => call = .compute_score score_type
  | .get_score confidence_out => call.Gets idx confidence_out

/-- What holds of a thread before its next step. Once past the comparison and the store of
the score it relies on the score of its index being set. -/
def ScorePhase.Holds (score : GearScore) (call : ScoreCall) : ScorePhase → Prop
  | .compare idx confidence_out => call.Gets idx confidence_out
  | .store_score idx caller => caller.Serves idx call
  | .store_confidence idx caller => caller.Serves idx call ∧ score.scores idx = DEFAULT_SCORE
  | .load_confidence idx confidence_out => call.Gets idx confidence_out ∧ score.scores idx = DEFAULT_SCORE
  | .copy_confidence idx pointer confidence =>
    call.Gets idx (some pointer) ∧ score.scores idx = DEFAULT_SCORE ∧ confidence = FULL_CONFIDENCE
  | .load_score idx => (∃ confidence_out, call.Gets idx confidence_out) ∧ score.scores idx = DEFAULT_SCORE

/-- A score only ever goes from unset to set, so what a thread has found set stays so. -/
theorem ScorePhase.Holds.mono {score score' : GearScore} {call : ScoreCall} {phase : ScorePhase}
    (hholds : phase.Holds score call)
    (hkept : ∀ idx, score.scores idx = DEFAULT_SCORE → score'.scores idx = DEFAULT_SCORE) :
    phase.Holds score' call := by
  cases phase with
  | compare | store_score => exact hholds
  | store_confidence | load_confidence | load_score => exact ⟨hholds.1, hkept _ hholds.2⟩
  | copy_confidence => exact ⟨hholds.1, hkept _ hholds.2.1, hholds.2.2⟩

/-- What holds in every interleaving. -/
structure ScoreState.Harmless (memory : Floats) (state : ScoreState τ) : Prop where
  cached : state.score.Cached
  calls : ∀ thread call phase, state.calls thread = some (call, phase) → phase.Holds state.score call
  answers : ∀ thread call answer, (thread, call, answer) ∈ state.answers → answer = call.expected
  memory : ∀ pointer, state.memory pointer = memory pointer ∨ state.memory pointer = FULL_CONFIDENCE

/-- Before the first call all scores are unset and nothing is written. -/
theorem ScoreState.initial_harmless (memory : Floats) : (ScoreState.initial τ memory).Harmless memory where
  cached := GearScore.new_cached
  calls _ _ _ hcall := by cases hcall
  answers _ _ _ hmem := by cases hmem
  memory _ := .inl rfl

variable [DecidableEq τ] {state : ScoreState τ} {thread : τ}

section Steps

variable (hharmless : state.Harmless memory)
include hharmless

/-- A step of a thread keeps what holds of the others, as long as no score is unset. -/
theorem ScoreState.Harmless.update {score : GearScore} {floats : Floats}
    {next : Option (ScoreCall × ScorePhase)} (hcached : score.Cached)
    (hkept : ∀ idx, state.score.scores idx = DEFAULT_SCORE → score.scores idx = DEFAULT_SCORE)
    (hnext : ∀ call phase, next = some (call, phase) → phase.Holds score call)
    (hfloats : ∀ pointer, floats pointer = memory pointer ∨ floats pointer = FULL_CONFIDENCE) :
    ScoreState.Harmless memory ⟨score, floats, Function.update state.calls thread next, state.answers⟩ := by
  refine ⟨hcached, fun other call phase hcall => ?_, hharmless.answers, hfloats⟩
  change Function.update state.calls thread next other = some (call, phase) at hcall
  rw [Function.update_apply] at hcall
  split at hcall
  · exact hnext call phase hcall
  · exact (hharmless.calls other call phase hcall).mono hkept

/-- A thread moves on without any store. -/
theorem ScoreState.Harmless.set_phase {call : ScoreCall} {phase : ScorePhase}
    (hholds : phase.Holds state.score call) : (state.set_phase thread call phase).Harmless memory := by
  refine hharmless.update hharmless.cached (fun _ => id) (fun found other hnext => ?_) hharmless.memory
  cases hnext
  exact hholds

/-- A call may be answered with what is expected of it. -/
theorem ScoreState.Harmless.answer {call : ScoreCall} {answer : ScoreAnswer}
    (hanswer : answer = call.expected) : (state.answer thread call answer).Harmless memory := by
  have hidle : ScoreState.Harmless memory ⟨state.score, state.memory, Function.update state.calls thread none,
      state.answers⟩ := hharmless.update hharmless.cached (fun _ => id) nofun hharmless.memory
  refine ⟨hidle.cached, hidle.calls, fun other found returned hmem => ?_, hidle.memory⟩
  obtain hmem | hmem := List.mem_append.mp hmem
  · exact hharmless.answers other found returned hmem
  · cases List.mem_singleton.mp hmem
    exact hanswer

/-- Making a call keeps what holds, whether it is answered at once or begun. -/
theorem ScoreState.Harmless.enter (call : ScoreCall) : (state.enter thread call).Harmless memory := by
  cases call with
  | get_score score_type confidence_out =>
    simp only [ScoreState.enter]
    cases hidx : score_index score_type with
    | none => exact hharmless.answer (by simp [ScoreCall.expected, hidx])
    | some idx => exact hharmless.set_phase ⟨score_type, hidx, rfl⟩
  | compute_score score_type =>
    simp only [ScoreState.enter]
    cases score_index score_type with
    | none => exact hharmless.answer rfl
    | some idx => exact hharmless.set_phase rfl

/-- One load or store. -/
theorem ScoreState.Harmless.advance (thread : τ) : (state.advance thread).Harmless memory := by
  have hcached := hharmless.cached
  unfold ScoreState.advance
  cases hcall : state.calls thread with
  | none => exact hharmless
  | some current =>
    obtain ⟨call, phase⟩ := current
    have hholds := hharmless.calls thread call phase hcall
    cases phase with
    | compare idx confidence_out =>
      refine hharmless.set_phase ?_
      split
      · exact hholds
      · rename_i hset
        exact ⟨hholds, (hcached.scores idx).resolve_left fun hunset => hset (by rw [hunset]; rfl)⟩
    | store_score idx caller =>
      have hset : ∀ found, (state.score.set_score idx DEFAULT_SCORE).scores found =
          if found = idx then DEFAULT_SCORE else state.score.scores found :=
        fun found => Function.update_apply _ _ _ _
      refine hharmless.update ⟨fun found => ?_, hcached.confidence⟩ (fun found hfound => ?_)
        (fun _ _ hnext => ?_) hharmless.memory
      · rw [hset]
        split
        · exact .inr rfl
        · exact hcached.scores found
      · rw [hset, hfound, ite_self]
      · cases hnext
        exact ⟨hholds, by rw [hset, if_pos rfl]⟩
    | store_confidence idx caller =>
      obtain ⟨hserves, hset⟩ := hholds
      have hcached' : (state.score.set_confidence idx FULL_CONFIDENCE).Cached := by
        refine ⟨hcached.scores, fun found => ?_⟩
        simp only [GearScore.set_confidence, Function.update_apply]
        split
        · rfl
        · exact hcached.confidence found
      cases caller with
      | game score_type =>
        have hcalled : call = .compute_score score_type := hserves
        have hanswered : (state.answer thread call (.score_type score_type)).Harmless memory :=
          hharmless.answer (by rw [hcalled]; rfl)
        exact ⟨hcached', hanswered.calls, hanswered.answers, hanswered.memory⟩
      | get_score confidence_out =>
        refine hharmless.update hcached' (fun _ => id) (fun _ _ hnext => ?_) hharmless.memory
        cases hnext
        exact ⟨hserves, hset⟩
    | load_confidence idx confidence_out =>
      obtain ⟨hgets, hset⟩ := hholds
      cases confidence_out with
      | none => exact hharmless.set_phase ⟨⟨none, hgets⟩, hset⟩
      | some pointer => exact hharmless.set_phase ⟨hgets, hset, hcached.confidence idx⟩
    | copy_confidence idx pointer confidence =>
      obtain ⟨hgets, hset, rfl⟩ := hholds
      refine hharmless.update hcached (fun _ => id) (fun _ _ hnext => ?_) fun other => ?_
      · cases hnext
        exact ⟨⟨some pointer, hgets⟩, hset⟩
      · rw [Function.update_apply]
        split
        · exact .inr rfl
        · exact hharmless.memory other
    | load_score idx =>
      obtain ⟨⟨confidence_out, hgets⟩, hset⟩ := hholds
      exact hharmless.answer (by rw [hgets.expected, hset])

end Steps

/-- What one step keeps, every interleaving keeps. -/
theorem ScoreRuns.harmless {start : ScoreState τ} {trace : List (ScoreEvent τ)}
    (hruns : ScoreRuns start trace state) (hstart : start.Harmless memory) : state.Harmless memory := by
  induction hruns with
  | nil => exact hstart
  | enter _ thread call _ ih => exact ih.enter call
  | advance _ thread ih => exact ih.advance thread

/-! ## Every call returns -/

/-- The loads and stores that a thread may still need for its call. -/
def ScorePhase.remaining : ScorePhase → Nat
  | .compare _ _ => 6
  | .store_score _ (.get_score _) => 5
  | .store_confidence _ (.get_score _) => 4
  | .load_confidence _ _ => 3
  | .copy_confidence _ _ _ | .store_score _ (.game _) => 2
  | .load_score _ | .store_confidence _ (.game _) => 1

theorem ScorePhase.remaining_pos (phase : ScorePhase) : 0 < phase.remaining := by
  rcases phase with _ | ⟨_, _ | _⟩ | ⟨_, _ | _⟩ | _ | _ | _ <;> simp [remaining]

/-- What a step of a thread does to its call: the call goes on, with that many steps left
at most, or it is answered. The calls of the others are left as they are. -/
inductive ScoreState.Moves (thread : τ) (call : ScoreCall) (left : Nat) (state : ScoreState τ) :
    ScoreState τ → Prop where
  | on (score : GearScore) (floats : Floats) (next : ScorePhase) (hle : next.remaining ≤ left) :
      Moves thread call left state
        ⟨score, floats, Function.update state.calls thread (some (call, next)), state.answers⟩
  | out (score : GearScore) (floats : Floats) (answer : ScoreAnswer) :
      Moves thread call left state
        ⟨score, floats, Function.update state.calls thread none, state.answers ++ [(thread, call, answer)]⟩

/-- A new call has six steps left at most. -/
theorem ScoreState.enter_moves (state : ScoreState τ) (thread : τ) (call : ScoreCall) :
    Moves thread call 6 state (state.enter thread call) := by
  cases call with
  | get_score score_type confidence_out =>
    simp only [enter]
    cases score_index score_type with
    | none => exact .out ..
    | some idx => exact .on _ _ _ (Nat.le_refl 6)
  | compute_score score_type =>
    simp only [enter]
    cases score_index score_type with
    | none => exact .out ..
    | some idx => exact .on _ _ _ (by simp [ScorePhase.remaining])

/-- A step of the thread itself brings its call nearer to its end. -/
theorem ScoreState.advance_moves {call : ScoreCall} {phase : ScorePhase}
    (hcall : state.calls thread = some (call, phase)) :
    Moves thread call (phase.remaining - 1) state (state.advance thread) := by
  unfold ScoreState.advance
  rw [hcall]
  cases phase with
  | compare idx confidence_out =>
    refine .on _ _ _ ?_
    split <;> simp [ScorePhase.remaining]
  | store_score idx caller => cases caller <;> exact .on _ _ _ (by simp [ScorePhase.remaining])
  | store_confidence idx caller =>
    cases caller with
    | game score_type => exact .out ..
    | get_score confidence_out => exact .on _ _ _ (Nat.le_refl _)
  | load_confidence idx confidence_out =>
    cases confidence_out <;> exact .on _ _ _ (by simp [ScorePhase.remaining])
  | copy_confidence idx pointer confidence => exact .on _ _ _ (Nat.le_refl _)
  | load_score idx => exact .out ..

/-- Where the call of a thread is later: it has been answered since, or it has that many
steps left at most. -/
def ScoreState.Nears (thread : τ) (call : ScoreCall) (left : Nat) (before after : ScoreState τ) : Prop :=
  ∃ others, after.answers = before.answers ++ others ∧
    ((∃ answer, (thread, call, answer) ∈ others) ∨
      ∃ phase, after.calls thread = some (call, phase) ∧ phase.remaining ≤ left)

/-- Nobody can hold up the call of another thread, or take an answer back. -/
theorem ScoreState.Moves.others {other : τ} {call : ScoreCall} {left : Nat} {next : ScoreState τ}
    (hmoves : Moves other call left state next) :
    (∃ more, next.answers = state.answers ++ more) ∧
      ∀ thread, thread ≠ other → next.calls thread = state.calls thread := by
  cases hmoves with
  | on => exact ⟨⟨[], (List.append_nil _).symm⟩, fun _ hother => Function.update_of_ne hother _ _⟩
  | out => exact ⟨⟨_, rfl⟩, fun _ hother => Function.update_of_ne hother _ _⟩

theorem ScoreState.Moves.nears {call : ScoreCall} {left : Nat} {next : ScoreState τ}
    (hmoves : Moves thread call left state next) : Nears thread call left state next := by
  cases hmoves with
  | on _ _ phase hle => exact ⟨[], (List.append_nil _).symm, .inr ⟨phase, Function.update_self .., hle⟩⟩
  | out _ _ answer => exact ⟨_, rfl, .inl ⟨answer, List.mem_singleton_self _⟩⟩

theorem ScoreState.advance_idle (hidle : state.calls thread = none) : state.advance thread = state := by
  simp [advance, hidle]

/-- A step of any thread keeps a call as near to its end as it was, and nearer by one if
it is a step of the thread of the call. -/
theorem ScoreState.Nears.advance {before : ScoreState τ} {call : ScoreCall} {left : Nat}
    (hnears : Nears thread call left before state) (other : τ) :
    Nears thread call (if other = thread then left - 1 else left) before (state.advance other) := by
  obtain ⟨others, hothers, hwhere⟩ := hnears
  cases hcall : state.calls other with
  | none =>
    rw [advance_idle hcall]
    refine ⟨others, hothers, hwhere.imp_right fun ⟨phase, hphase, hle⟩ => ⟨phase, hphase, ?_⟩⟩
    have hdistinct : other ≠ thread := by
      rintro rfl
      rw [hcall] at hphase
      cases hphase
    rwa [if_neg hdistinct]
  | some current =>
    obtain ⟨found, step⟩ := current
    have hmoves := advance_moves hcall
    obtain ⟨⟨more, hmore⟩, hkept⟩ := hmoves.others
    have hanswers : (state.advance other).answers = before.answers ++ (others ++ more) := by
      rw [hmore, hothers, List.append_assoc]
    obtain ⟨answer, hanswer⟩ | ⟨phase, hphase, hle⟩ := hwhere
    · exact ⟨_, hanswers, .inl ⟨answer, List.mem_append_left _ hanswer⟩⟩
    · by_cases hsame : other = thread
      · subst hsame
        rw [hphase] at hcall
        cases hcall
        rw [if_pos rfl]
        obtain ⟨news, hnews, ⟨answer, hanswer⟩ | ⟨next, hnext, hleft⟩⟩ := hmoves.nears
        · cases List.append_cancel_left (hnews.symm.trans hmore)
          exact ⟨_, hanswers, .inl ⟨answer, List.mem_append_right _ hanswer⟩⟩
        · exact ⟨_, hanswers, .inr ⟨next, hnext, Nat.le_trans hleft (Nat.sub_le_sub_right hle 1)⟩⟩
      · rw [if_neg hsame]
        exact ⟨_, hanswers, .inr ⟨phase, by rw [hkept thread (Ne.symm hsame), hphase], hle⟩⟩

/-- A call that another thread makes leaves a call as near to its end as it was. -/
theorem ScoreState.Nears.enter {before : ScoreState τ} {call : ScoreCall} {left : Nat}
    (hnears : Nears thread call left before state) (other : τ) (made : ScoreCall)
    (hidle : state.calls other = none) :
    Nears thread call left before (state.enter other made) := by
  obtain ⟨others, hothers, hwhere⟩ := hnears
  obtain ⟨⟨more, hmore⟩, hkept⟩ := (enter_moves state other made).others
  refine ⟨others ++ more, by rw [hmore, hothers, List.append_assoc], ?_⟩
  obtain ⟨answer, hanswer⟩ | ⟨phase, hphase, hle⟩ := hwhere
  · exact .inl ⟨answer, List.mem_append_left _ hanswer⟩
  · have hdistinct : thread ≠ other := by
      rintro rfl
      rw [hidle] at hphase
      cases hphase
    exact .inr ⟨phase, by rw [hkept thread hdistinct, hphase], hle⟩

/-- However the others run, a call is nearer to its end by each step of its thread. -/
theorem ScoreRuns.nears {before : ScoreState τ} {call : ScoreCall} {left : Nat} {more : List (ScoreEvent τ)}
    {later : ScoreState τ} (hruns : ScoreRuns state more later)
    (hnears : ScoreState.Nears thread call left before state) :
    ScoreState.Nears thread call (left - score_steps_of thread more) before later := by
  induction hruns with
  | nil => exact hnears
  | @enter trace middle _ other made hidle ih =>
    have hcount : score_steps_of thread (trace ++ [.enter other made]) = score_steps_of thread trace := by
      simp [score_steps_of]
    rw [hcount]
    exact ih.enter other made hidle
  | @advance trace middle _ other ih =>
    have hcount : score_steps_of thread (trace ++ [.advance other]) =
        score_steps_of thread trace + if other = thread then 1 else 0 := by
      by_cases hsame : other = thread <;> simp [score_steps_of, hsame]
    have hnext := ih.advance other
    by_cases hsame : other = thread
    · rw [if_pos hsame] at hcount hnext
      rwa [hcount, ← Nat.sub_sub]
    · rw [if_neg hsame] at hcount hnext
      rwa [hcount, Nat.add_zero]

/-- After six steps of its thread a call has returned. -/
theorem ScoreRuns.answered {call : ScoreCall} {more : List (ScoreEvent τ)} {later : ScoreState τ}
    (hruns : ScoreRuns (state.enter thread call) more later) (hsteps : 6 ≤ score_steps_of thread more) :
    ∃ others answer, later.answers = state.answers ++ others ∧ (thread, call, answer) ∈ others := by
  obtain ⟨others, hothers, ⟨answer, hanswer⟩ | ⟨phase, _, hle⟩⟩ :=
    hruns.nears (state.enter_moves thread call).nears
  · exact ⟨others, answer, hothers, hanswer⟩
  · have hpos := phase.remaining_pos
    omega

/-- Two runs, the second from where the first has ended, are one. -/
theorem ScoreRuns.trans {start middle final : ScoreState τ} {first second : List (ScoreEvent τ)}
    (hfirst : ScoreRuns start first middle) (hsecond : ScoreRuns middle second final) :
    ScoreRuns start (first ++ second) final := by
  induction hsecond with
  | nil => rwa [List.append_nil]
  | enter _ thread call hidle ih =>
    rw [← List.append_assoc]
    exact ih.enter thread call hidle
  | advance _ thread ih =>
    rw [← List.append_assoc]
    exact ih.advance thread

/-! ## A call alone -/

/-- Steps of one thread, with no other one between them. -/
def ScoreState.advance_by (state : ScoreState τ) (thread : τ) : Nat → ScoreState τ
  | 0 => state
  | steps + 1 => (state.advance thread).advance_by thread steps

theorem ScoreState.advance_by_add (state : ScoreState τ) (thread : τ) (first second : Nat) :
    state.advance_by thread (first + second) = (state.advance_by thread first).advance_by thread second := by
  induction first generalizing state with
  | zero => rw [Nat.zero_add, advance_by]
  | succ first ih => rw [Nat.succ_add, advance_by, advance_by, ih]

/-- Alone, a call whose score is set copies the confidence and returns the score. -/
theorem ScoreState.advance_by_set {call : ScoreCall} {confidence_out : Option Nat}
    (hcall : state.calls thread = some (call, .load_confidence idx confidence_out)) :
    ∃ steps ≤ 3, state.advance_by thread steps =
      { state.answer thread call (.score (state.score.scores idx)) with
        memory := write_confidence state.memory confidence_out (state.score.confidence idx) } := by
  cases confidence_out with
  | none => exact ⟨2, by decide, by simp [advance_by, advance, hcall, set_phase, answer, write_confidence]⟩
  | some pointer => exact ⟨3, by decide, by simp [advance_by, advance, hcall, set_phase, answer, write_confidence]⟩

/-- Alone, a call finds the score set or computes it. -/
theorem ScoreState.advance_by_compare {call : ScoreCall} {confidence_out : Option Nat} {score_type : Int}
    (hidx : score_index score_type = some idx)
    (hcall : state.calls thread = some (call, .compare idx confidence_out)) :
    ∃ steps ≤ 3, state.advance_by thread steps =
      { state.set_phase thread call (.load_confidence idx confidence_out) with
        score := if f32_eq (state.score.scores idx) SCORE_UNCOMPUTED
          then (state.score.compute_score score_type).2 else state.score } := by
  cases hset : f32_eq (state.score.scores idx) SCORE_UNCOMPUTED with
  | false => exact ⟨1, by decide, by simp [advance_by, advance, hcall, hset, set_phase]⟩
  | true =>
    exact ⟨3, by decide, by
      simp [advance_by, advance, hcall, hset, set_phase, GearScore.compute_score, hidx, GearScore.set_score,
        GearScore.set_confidence]⟩

/-- Alone, the loads and stores of a call are those of the method. -/
theorem call_alone (hidle : state.calls thread = none) (call : ScoreCall) :
    ∃ steps ≤ 6, (state.enter thread call).advance_by thread steps =
      { state with
        score := (call.run state.score state.memory).2.1
        memory := (call.run state.score state.memory).2.2
        answers := state.answers ++ [(thread, call, (call.run state.score state.memory).1)] } := by
  have hkept : Function.update state.calls thread none = state.calls := by
    rw [← hidle]
    exact Function.update_eq_self _ _
  cases call with
  | compute_score score_type =>
    cases hidx : score_index score_type with
    | none =>
      refine ⟨0, by decide, ?_⟩
      simp [ScoreState.advance_by, ScoreState.enter, hidx, ScoreState.answer, hkept, ScoreCall.run,
        GearScore.compute_score]
    | some idx =>
      refine ⟨2, by decide, ?_⟩
      simp [ScoreState.advance_by, ScoreState.enter, hidx, ScoreState.advance, ScoreState.set_phase,
        ScoreState.answer, hkept, ScoreCall.run, GearScore.compute_score]
  | get_score score_type confidence_out =>
    cases hidx : score_index score_type with
    | none =>
      refine ⟨0, by decide, ?_⟩
      simp [ScoreState.advance_by, ScoreState.enter, hidx, ScoreState.answer, hkept, ScoreCall.run,
        GearScore.get_score]
    | some idx =>
      let entered := state.enter thread (.get_score score_type confidence_out)
      have hentered : entered.calls thread =
          some (.get_score score_type confidence_out, .compare idx confidence_out) := by
        simp [entered, ScoreState.enter, hidx, ScoreState.set_phase]
      obtain ⟨first, hfirst, hcompared⟩ := ScoreState.advance_by_compare hidx hentered
      have hset : (entered.advance_by thread first).calls thread =
          some (.get_score score_type confidence_out, .load_confidence idx confidence_out) := by
        rw [hcompared]
        exact Function.update_self ..
      obtain ⟨second, hsecond, hanswered⟩ := ScoreState.advance_by_set hset
      refine ⟨first + second, by omega, ?_⟩
      rw [ScoreState.advance_by_add, hanswered, hcompared]
      simp [entered, ScoreState.enter, hidx, ScoreState.set_phase, ScoreState.answer, hkept, ScoreCall.run,
        GearScore.get_score]

/-- Threads that race for the shared object do no harm. In every interleaving of their
loads and stores each call returns within six steps of its own, with what it returns
alone on a new object, and only the confidence is ever written through a pointer. A
later call that runs alone returns and writes what it would on a new object too. -/
theorem racing_scores_harmless {trace : List (ScoreEvent τ)}
    (hruns : ScoreRuns (.initial τ memory) trace state) :
    (∀ thread call answer, (thread, call, answer) ∈ state.answers → answer = (call.run .new memory).1) ∧
    (∀ thread call, state.calls thread = none →
      ∀ more later, ScoreRuns (state.enter thread call) more later → 6 ≤ score_steps_of thread more →
        ∃ others, later.answers = state.answers ++ others ∧
          (thread, call, (call.run .new memory).1) ∈ others) ∧
    (∀ pointer, state.memory pointer ≠ memory pointer → state.memory pointer = FULL_CONFIDENCE) ∧
    ∀ thread call, state.calls thread = none → ∃ steps ≤ 6,
      (state.enter thread call).advance_by thread steps =
        { state with
          score := (call.run state.score state.memory).2.1
          memory := (call.run .new state.memory).2.2
          answers := state.answers ++ [(thread, call, (call.run .new state.memory).1)] } := by
  have hinitial : (ScoreState.initial τ memory).Harmless memory := ScoreState.initial_harmless memory
  have hharmless := hruns.harmless hinitial
  have halone := fun (call : ScoreCall) floats => GearScore.new_cached.run call floats
  refine ⟨fun thread call answer hmem => ?_, fun thread call hidle more later hmore hsteps => ?_,
    fun pointer hchanged => (hharmless.memory pointer).resolve_left hchanged, fun thread call hidle => ?_⟩
  · rw [(halone call memory).1]
    exact hharmless.answers thread call answer hmem
  · obtain ⟨others, answer, hothers, hanswer⟩ := hmore.answered hsteps
    have hlater := ((hruns.enter thread call hidle).trans hmore).harmless hinitial
    have hreturned : answer = call.expected :=
      hlater.answers thread call answer (hothers ▸ List.mem_append_right _ hanswer)
    rw [(halone call memory).1, ← hreturned]
    exact ⟨others, hothers, hanswer⟩
  · obtain ⟨steps, hle, hstate⟩ := call_alone hidle call
    obtain ⟨hvalue, hmemory⟩ := hharmless.cached.run call state.memory
    obtain ⟨hvalue', hmemory'⟩ := halone call state.memory
    refine ⟨steps, hle, ?_⟩
    rw [hstate, hmemory.trans hmemory'.symm, hvalue.trans hvalue'.symm]

/-- Steps of one thread after a run are a run. -/
theorem ScoreRuns.advance_by {start : ScoreState τ} {trace : List (ScoreEvent τ)}
    (hruns : ScoreRuns start trace state) (thread : τ) (steps : Nat) :
    ScoreRuns start (trace ++ List.replicate steps (.advance thread)) (state.advance_by thread steps) := by
  induction steps generalizing state trace with
  | zero => rwa [List.replicate_zero, List.append_nil]
  | succ steps ih =>
    rw [List.replicate_succ, List.append_cons]
    exact ih (hruns.advance thread)

/-- Two threads that both find the score unset, one of which asks for the confidence. -/
def raced_scores : ScoreState Bool :=
  ((((((ScoreState.initial Bool fun _ => 0).enter true (.get_score 0 none)).enter false
    (.get_score 0 (some 4))).advance_by true 1).advance_by false 1).advance_by true 4).advance_by false 5

theorem raced_scores_run : ∃ trace, ScoreRuns (.initial Bool fun _ => 0) trace raced_scores := by
  have hstart : ScoreRuns (.initial Bool fun _ => 0) [] (.initial Bool fun _ => 0) := .nil
  have hentered := (hstart.enter true (.get_score 0 none) rfl).enter false (.get_score 0 (some 4)) rfl
  exact ⟨_, (((hentered.advance_by true 1).advance_by false 1).advance_by true 4).advance_by false 5⟩

/-- A thread that computes the score once more, with steps of the other one in between. -/
def raced_again : ScoreState Bool :=
  ((((raced_scores.enter true (.compute_score 0)).enter false (.get_score 0 none)).advance_by true 1).advance_by
    false 2).advance_by true 5

theorem raced_again_run :
    ∃ more, ScoreRuns (raced_scores.enter true (.compute_score 0)) more raced_again ∧
      6 ≤ score_steps_of true more := by
  have hstart : ScoreRuns (raced_scores.enter true (.compute_score 0)) [] _ := .nil
  have hentered := hstart.enter false (.get_score 0 none) rfl
  exact ⟨_, ((hentered.advance_by true 1).advance_by false 2).advance_by true 5, by decide⟩

/-- The raced calls, a call that is raced again, and one that runs alone after them. -/
theorem racing_scores_harmless_on_sample :
    (∀ thread call answer, (thread, call, answer) ∈ raced_scores.answers →
      answer = (call.run .new fun _ => 0).1) ∧
    (∃ others, raced_again.answers = raced_scores.answers ++ others ∧
      (true, .compute_score 0, .score_type 0) ∈ others) ∧
    raced_scores.memory 4 = FULL_CONFIDENCE ∧
    ∃ steps ≤ 6, (raced_scores.enter true (.get_score 1 (some 8))).advance_by true steps =
      { raced_scores with
        score := ((ScoreCall.get_score 1 (some 8)).run raced_scores.score raced_scores.memory).2.1
        memory := ((ScoreCall.get_score 1 (some 8)).run .new raced_scores.memory).2.2
        answers := raced_scores.answers ++
          [(true, .get_score 1 (some 8),
            ((ScoreCall.get_score 1 (some 8)).run .new raced_scores.memory).1)] } := by
  obtain ⟨trace, hruns⟩ := raced_scores_run
  obtain ⟨more, hmore, hsteps⟩ := raced_again_run
  obtain ⟨hanswers, hreturns, hmemory, halone⟩ := racing_scores_harmless hruns
  exact ⟨hanswers, hreturns true (.compute_score 0) rfl more raced_again hmore hsteps, hmemory 4 (by decide),
    halone true (.get_score 1 (some 8)) rfl⟩

end systemdetection.gear
