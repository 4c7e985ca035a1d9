import Mathlib.Data.List.Basic

namespace systemdetection

/-- One past the largest `usize` of the crate's 32-bit target. -/
def USIZE_LIMIT : Nat := 0x1_0000_0000

def checked_add (left right : Nat) : Option Nat :=
  if left + right < USIZE_LIMIT then some (left + right) else none

def checked_sub (left right : Nat) : Option Nat :=
  if right ≤ left then some (left - right) else none

theorem checked_add_eq_some_iff {left right sum : Nat} :
    checked_add left right = some sum ↔ sum = left + right ∧ left + right < USIZE_LIMIT := by
  unfold checked_add
  split <;> simp_all [eq_comm]

theorem checked_add_eq_none_iff {left right : Nat} :
    checked_add left right = none ↔ USIZE_LIMIT ≤ left + right := by
  simp [checked_add]

theorem checked_add_of_lt {left right : Nat} (hfits : left + right < USIZE_LIMIT) :
    checked_add left right = some (left + right) := if_pos hfits

theorem checked_sub_eq_some_iff {left right difference : Nat} :
    checked_sub left right = some difference ↔ left = right + difference := by
  unfold checked_sub
  split <;> simp only [Option.some.injEq, reduceCtorEq, false_iff] <;> omega

theorem checked_sub_of_le {left right : Nat} (hle : right ≤ left) :
    checked_sub left right = some (left - right) := if_pos hle

end systemdetection
