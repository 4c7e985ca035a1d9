import Mathlib.Data.List.Basic
import Mathlib.Logic.Function.Basic

namespace systemdetection.gear

/-- An `f32` by its bits. -/
abbrev F32 := UInt32

def is_nan (value : F32) : Bool := 0x7F800000 < value &&& 0x7FFFFFFF

/-- `==` on `f32`: no NaN is equal to anything, and the two zeros are equal. -/
def f32_eq (left right : F32) : Bool :=
  !is_nan left && !is_nan right && (left == right || (left &&& 0x7FFFFFFF == 0 && right &&& 0x7FFFFFFF == 0))

/-- Sentinel value for uncomputed scores (-FLT_MAX). -/
def SCORE_UNCOMPUTED : F32 := 0xFF7FFFFF

/-- The computed score, 0.8. -/
def DEFAULT_SCORE : F32 := 0x3F4CCCCD

/-- The confidence, 1.0. -/
def FULL_CONFIDENCE : F32 := 0x3F800000

structure GearScore where
  scores : Fin 2 → F32
  confidence : Fin 2 → F32

def GearScore.new : GearScore := ⟨fun _ => SCORE_UNCOMPUTED, fun _ => FULL_CONFIDENCE⟩

/-- The index of a score type in `0..2`. -/
def score_index (score_type : Int) : Option (Fin 2) :=
  if h : 0 ≤ score_type ∧ score_type < 2 then some ⟨score_type.toNat, by omega⟩ else none

def GearScore.set_score (self : GearScore) (idx : Fin 2) (score : F32) : GearScore :=
  { self with scores := Function.update self.scores idx score }

def GearScore.set_confidence (self : GearScore) (idx : Fin 2) (confidence : F32) : GearScore :=
  { self with confidence := Function.update self.confidence idx confidence }

/-- ComputeScore - computes and stores score for given type. -/
def GearScore.compute_score (self : GearScore) (score_type : Int) : Int × GearScore :=
  match score_index score_type with
  | none => (score_type, self)
  | some idx => (score_type, (self.set_score idx DEFAULT_SCORE).set_confidence idx FULL_CONFIDENCE)

/-- The memory of the caller, by pointers to `f32`. -/
abbrev Floats := Nat → F32

/-- `*confidence_out = confidence`, unless the pointer is null. -/
def write_confidence (memory : Floats) (confidence_out : Option Nat) (confidence : F32) : Floats :=
  match confidence_out with
  | none => memory
  | some pointer => Function.update memory pointer confidence

/-- GetScore - returns score for given type, computing if needed. -/
def GearScore.get_score (self : GearScore) (score_type : Int) (confidence_out : Option Nat) (memory : Floats) :
    F32 × GearScore × Floats :=
  match score_index score_type with
  | none => (0, self, memory)
  | some idx =>
    let self := if f32_eq (self.scores idx) SCORE_UNCOMPUTED then (self.compute_score score_type).2 else self
    (self.scores idx, self, write_confidence memory confidence_out (self.confidence idx))

/-- A call of one of the two methods. -/
inductive ScoreCall where
  | get_score (score_type : Int) (confidence_out : Option Nat)
  | compute_score (score_type : Int)

/-- What a call returns: a score, or the score type. -/
inductive ScoreAnswer where
  | score (value : F32)
  | score_type (score_type : Int)

/-- A whole call. -/
def ScoreCall.run (call : ScoreCall) (score : GearScore) (memory : Floats) : ScoreAnswer × GearScore × Floats :=
  match call with
  | .get_score score_type confidence_out =>
    let (value, score, memory) := score.get_score score_type confidence_out memory
    (.score value, score, memory)
  | .compute_score score_type =>
    let (returned, score) := score.compute_score score_type
    (.score_type returned, score, memory)

/-- Who has called `compute_score`: the game, to which the score type is returned, or
`get_score`, which drops it. -/
inductive ComputeCaller where
  | game (score_type : Int)
  | get_score (confidence_out : Option Nat)

/-- Where a thread is in a call for the score of an index: before the comparison,
before one of the stores of `compute_score`, before the load and the store of the
confidence, or before the load of the score that is returned. -/
inductive ScorePhase where
  | compare (idx : Fin 2) (confidence_out : Option Nat)
  | store_score (idx : Fin 2) (caller : ComputeCaller)
  | store_confidence (idx : Fin 2) (caller : ComputeCaller)
  | load_confidence (idx : Fin 2) (confidence_out : Option Nat)
  | copy_confidence (idx : Fin 2) (pointer : Nat) (confidence : F32)
  | load_score (idx : Fin 2)

/-- Threads that share the object, each load and store of an `f32` being one step.
The calls that have returned are noted in `answers`, with what they have returned. -/
structure ScoreState (τ : Type) where
  score : GearScore
  memory : Floats
  calls : τ → Option (ScoreCall × ScorePhase)
  answers : List (τ × ScoreCall × ScoreAnswer)

variable {τ : Type} [DecidableEq τ]

def ScoreState.initial (τ : Type) (memory : Floats) : ScoreState τ := ⟨.new, memory, fun _ => none, []⟩

def ScoreState.set_phase (state : ScoreState τ) (thread : τ) (call : ScoreCall) (phase : ScorePhase) :
    ScoreState τ :=
  { state with calls := Function.update state.calls thread (some (call, phase)) }

def ScoreState.answer (state : ScoreState τ) (thread : τ) (call : ScoreCall) (answer : ScoreAnswer) :
    ScoreState τ :=
  { state with
    calls := Function.update state.calls thread none
    answers := state.answers ++ [(thread, call, answer)] }

/-- A thread without a call makes one. An invalid type is answered at once. -/
def ScoreState.enter (state : ScoreState τ) (thread : τ) (call : ScoreCall) : ScoreState τ :=
  match call with
  | .get_score score_type confidence_out =>
    match score_index score_type with
    | none => state.answer thread call (.score 0)
    | some idx => state.set_phase thread call (.compare idx confidence_out)
  | .compute_score score_type =>
    match score_index score_type with
    | none => state.answer thread call (.score_type score_type)
    | some idx => state.set_phase thread call (.store_score idx (.game score_type))

/-- The next load or store of a thread in a call. -/
def ScoreState.advance (state : ScoreState τ) (thread : τ) : ScoreState τ :=
  match state.calls thread with
  | none => state
  | some (call, phase) =>
    match phase with
    | .compare idx confidence_out =>
      state.set_phase thread call
        (if f32_eq (state.score.scores idx) SCORE_UNCOMPUTED then .store_score idx (.get_score confidence_out)
          else .load_confidence idx confidence_out)
    | .store_score idx caller =>
      { state.set_phase thread call (.store_confidence idx caller) with
        score := state.score.set_score idx DEFAULT_SCORE }
    | .store_confidence idx (.game score_type) =>
      { state.answer thread call (.score_type score_type) with
        score := state.score.set_confidence idx FULL_CONFIDENCE }
    | .store_confidence idx (.get_score confidence_out) =>
      { state.set_phase thread call (.load_confidence idx confidence_out) with
        score := state.score.set_confidence idx FULL_CONFIDENCE }
    | .load_confidence idx none => state.set_phase thread call (.load_score idx)
    | .load_confidence idx (some pointer) =>
      state.set_phase thread call (.copy_confidence idx pointer (state.score.confidence idx))
    | .copy_confidence idx pointer confidence =>
      { state.set_phase thread call (.load_score idx) with
        memory := Function.update state.memory pointer confidence }
    | .load_score idx => state.answer thread call (.score (state.score.scores idx))

/-- A thread makes a call or takes its next step. -/
inductive ScoreEvent (τ : Type) where
  | enter (thread : τ) (call : ScoreCall)
  | advance (thread : τ)

/-- Any interleaving of the threads. -/
inductive ScoreRuns (start : ScoreState τ) : List (ScoreEvent τ) → ScoreState τ → Prop where
  | nil : ScoreRuns start [] start
  | enter {trace : List (ScoreEvent τ)} {state : ScoreState τ} (hruns : ScoreRuns start trace state)
      (thread : τ) (call : ScoreCall) (hidle : state.calls thread = none) :
      ScoreRuns start (trace ++ [.enter thread call]) (state.enter thread call)
  | advance {trace : List (ScoreEvent τ)} {state : ScoreState τ} (hruns : ScoreRuns start trace state)
      (thread : τ) : ScoreRuns start (trace ++ [.advance thread]) (state.advance thread)

/-- The steps that a thread takes in a trace. -/
def score_steps_of (thread : τ) (trace : List (ScoreEvent τ)) : Nat :=
  trace.countP fun
    | .advance other => other = thread
    | .enter _ _ => false

end systemdetection.gear
