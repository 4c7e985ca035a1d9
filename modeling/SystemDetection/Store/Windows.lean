import SystemDetection.Store.Cells
import Mathlib.Data.List.Sort

namespace store

variable {β : Type}

/-- The contiguous sublists of the given length, in order of their start. -/
def windows (length : Nat) (cells : List β) : List (List β) :=
  (List.range (cells.length + 1 - length)).map fun start => (cells.drop start).take length

/-- The starts of the windows that satisfy a test, in increasing order. -/
def window_starts (test : List β → Bool) (length : Nat) (cells : List β) : List Nat :=
  (windows length cells).zipIdx.filterMap fun (candidate, offset) =>
    if test candidate then some offset else none

/-- The windows that pass the test are found in order, without exception. -/
theorem window_starts_eq_filter (test : List β → Bool) (length : Nat) (cells : List β) :
    window_starts test length cells =
      (List.range (cells.length + 1 - length)).filter fun start =>
        test ((cells.drop start).take length) := by
  have hzip : (windows length cells).zipIdx =
      (List.range (cells.length + 1 - length)).map fun start =>
        ((cells.drop start).take length, start) := by
    apply List.ext_getElem
    · simp [windows]
    · intro position _ _
      simp [windows]
  rw [window_starts, hzip, List.filterMap_map, ← List.filterMap_eq_filter]
  rfl

/-- Overlapping occurrences are all found, each once, and no window runs past the end. -/
theorem mem_window_starts_iff {test : List β → Bool} {length start : Nat} {cells : List β} :
    start ∈ window_starts test length cells ↔
      start + length < cells.length + 1 ∧ test ((cells.drop start).take length) = true := by
  rw [window_starts_eq_filter, List.mem_filter, List.mem_range]
  constructor
  · rintro ⟨hstart, htest⟩
    exact ⟨by omega, htest⟩
  · rintro ⟨hstart, htest⟩
    exact ⟨by omega, htest⟩

theorem window_starts_sorted (test : List β → Bool) (length : Nat) (cells : List β) :
    (window_starts test length cells).Pairwise (· < ·) := by
  rw [window_starts_eq_filter]
  exact List.pairwise_lt_range.filter _

/-- A window of the cells read from a store is a shorter read. -/
theorem Store.window_of_read (memory : Store β) (address total start length : Nat)
    (hinside : start + length ≤ total) :
    ((memory.read address total).drop start).take length = memory.read (address + start) length := by
  apply List.ext_getElem
  · simp
    omega
  · intro offset _ _
    simp [Nat.add_assoc]

end store
