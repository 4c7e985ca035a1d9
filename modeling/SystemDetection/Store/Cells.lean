import Mathlib.Data.List.Basic
import Mathlib.Data.List.GetD

namespace store

/-- A total store of cells indexed by a mathematical address. -/
abbrev Store (β : Type) := Nat → β

variable {β : Type}

/-- The cells at `address`, `address + 1`, and so on, in order. -/
def Store.read (memory : Store β) (address length : Nat) : List β :=
  (List.range length).map fun offset => memory (address + offset)

/-- Overwrites the cells from `address` on with the given values. -/
def Store.write (memory : Store β) (address : Nat) (values : List β) : Store β := fun position =>
  if position < address then memory position else values.getD (position - address) (memory position)

@[simp] theorem Store.length_read (memory : Store β) (address length : Nat) :
    (memory.read address length).length = length := by
  simp [Store.read]

@[simp] theorem Store.getElem_read (memory : Store β) (address length offset : Nat)
    (hoffset : offset < (memory.read address length).length) :
    (memory.read address length)[offset] = memory (address + offset) := by
  simp [Store.read]

/-- A read returns given values exactly when their cells hold them. -/
theorem Store.read_eq_iff {memory : Store β} {address length : Nat} {values : List β} :
    memory.read address length = values ↔
      values.length = length ∧
        ∀ offset (hoffset : offset < values.length), memory (address + offset) = values[offset] := by
  constructor
  · rintro rfl
    simp
  · rintro ⟨hlength, hcells⟩
    apply List.ext_getElem (by simp [hlength])
    intro offset _ hoffset
    simpa using hcells offset hoffset

theorem Store.cell_of_read_eq {left right : Store β} {address address' length offset : Nat}
    (hread : left.read address length = right.read address' length) (hoffset : offset < length) :
    left (address + offset) = right (address' + offset) := by
  obtain ⟨_, hcells⟩ := Store.read_eq_iff.mp hread
  have hsame := hcells offset (by rwa [Store.length_read])
  rwa [Store.getElem_read] at hsame

/-- Stores that agree on a range read alike there. -/
theorem Store.read_congr {left right : Store β} {address length : Nat}
    (hagree : ∀ position, address ≤ position → position < address + length →
      left position = right position) :
    left.read address length = right.read address length := by
  rw [Store.read_eq_iff]
  refine ⟨by simp, fun offset hoffset => ?_⟩
  rw [Store.length_read] at hoffset
  simpa using hagree (address + offset) (by omega) (by omega)

theorem Store.write_inside (memory : Store β) {address position : Nat} {values : List β}
    (hlo : address ≤ position) (hhi : position - address < values.length) :
    memory.write address values position = values[position - address] := by
  simp only [Store.write, if_neg (Nat.not_lt.mpr hlo)]
  exact List.getD_eq_getElem _ _ hhi

/-- A write changes nothing outside its range. -/
theorem Store.write_outside (memory : Store β) {address position : Nat} {values : List β}
    (hout : position < address ∨ address + values.length ≤ position) :
    memory.write address values position = memory position := by
  unfold Store.write
  split
  · rfl
  · exact List.getD_eq_default _ _ (by omega)

@[simp] theorem Store.read_write_self (memory : Store β) (address : Nat) (values : List β) :
    (memory.write address values).read address values.length = values := by
  rw [Store.read_eq_iff]
  refine ⟨rfl, fun offset hoffset => ?_⟩
  rw [Store.write_inside memory (by omega) (by omega)]
  simp

/-- A part of a range that holds given values holds a part of them. -/
theorem Store.read_part {memory : Store β} {address start stop : Nat} {values : List β}
    (hread : memory.read address values.length = values) (hstart : start ≤ stop)
    (hstop : stop ≤ values.length) :
    memory.read (address + start) (stop - start) = (values.take stop).drop start := by
  obtain ⟨_, hcells⟩ := Store.read_eq_iff.mp hread
  rw [Store.read_eq_iff]
  refine ⟨by simp [hstop], fun offset hoffset => ?_⟩
  rw [List.length_drop, List.length_take, Nat.min_eq_left hstop] at hoffset
  rw [List.getElem_drop, List.getElem_take, Nat.add_assoc, hcells _ (by omega)]

/-- Writing back what a range already holds changes nothing. -/
theorem Store.write_of_read {memory : Store β} {address : Nat} {values : List β}
    (hread : memory.read address values.length = values) :
    memory.write address values = memory := by
  obtain ⟨_, hcells⟩ := Store.read_eq_iff.mp hread
  funext position
  by_cases hin : address ≤ position ∧ position - address < values.length
  · rw [Store.write_inside memory hin.1 hin.2, ← hcells _ hin.2]
    congr 1
    omega
  · exact Store.write_outside memory (by omega)

/-- A later write of the same length hides the earlier one. -/
theorem Store.write_write (memory : Store β) (address : Nat) {first second : List β}
    (hlength : first.length = second.length) :
    (memory.write address first).write address second = memory.write address second := by
  funext position
  by_cases hin : address ≤ position ∧ position - address < second.length
  · rw [Store.write_inside _ hin.1 hin.2, Store.write_inside _ hin.1 hin.2]
  · rw [Store.write_outside _ (by omega), Store.write_outside _ (by omega),
      Store.write_outside _ (by omega)]

/-- Replacing a range and then writing its old values back is the identity. -/
theorem Store.write_write_back {memory : Store β} {address : Nat} {before after : List β}
    (hread : memory.read address before.length = before) (hlength : after.length = before.length) :
    (memory.write address after).write address before = memory := by
  rw [Store.write_write memory address hlength, Store.write_of_read hread]

end store
