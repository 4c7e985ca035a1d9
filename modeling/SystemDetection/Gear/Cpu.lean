import Mathlib.Algebra.Group.Nat.Defs
import Mathlib.Data.List.Basic

namespace systemdetection.gear

/-- The Windows calls of the CPU detection, with machine words of `w` bits, over a state of
the operating system. The affinity masks are those of the process and of the system. -/
structure CpuOs (w : Nat) (σ : Type) where
  GetProcessAffinityMask : σ → BitVec w × BitVec w
  /-- Yields the previous mask of the calling thread, or zero on failure. -/
  SetThreadAffinityMask : BitVec w → σ → BitVec w × σ
  dwNumberOfProcessors : σ → Nat

variable {w : Nat} {σ : Type}

/-- The loop of `get_cpu_topology_fixed`, for at most `fuel` rounds; `none` when it
would go on after them. -/
def count_processors (os : CpuOs w σ) (system_affinity : BitVec w) :
    Nat → BitVec w → Nat → σ → Option (Nat × σ)
  | fuel, mask, logical_count, state =>
    if mask ≠ 0 ∧ mask ≤ system_affinity then
      match fuel with
      | 0 => none
      | fuel + 1 =>
        let (previous, state) := os.SetThreadAffinityMask mask state
        let logical_count := if previous ≠ 0 then logical_count + 1 else logical_count
        -- `wrapping_shl(1)`: the shift is below the width of any `usize`
        count_processors os system_affinity fuel (mask <<< 1) logical_count state
    else
      some (logical_count, state)

def div_ceil (left right : Nat) : Nat := (left + right - 1) / right

/-- Fixed CPU topology detection: the logical, physical and package counts. -/
def get_cpu_topology_fixed (fuel : Nat) (os : CpuOs w σ) (state : σ) : Option ((Nat × Nat × Nat) × σ) := do
  let (process_affinity, system_affinity) := os.GetProcessAffinityMask state
  let (logical_count, state) ← count_processors os system_affinity fuel 1 0 state
  let (_, state) := os.SetThreadAffinityMask process_affinity state
  let logical_count := if logical_count = 0 then os.dwNumberOfProcessors state else logical_count
  let physical_count := max (div_ceil logical_count 2) 1
  some ((max logical_count 1, physical_count, 1), state)

/-- What the registry key of the first processor yields: `none` when it cannot be opened,
else the value that the query leaves, zero if there is none. -/
def get_cpu_mhz (registry : Option UInt32) : UInt32 :=
  match registry with
  | some mhz => if 0 < mhz then mhz else 3000
  | none => 3000

def saturating_mul (left right : UInt32) : UInt32 :=
  if left.toNat * right.toNat < 2 ^ 32 then left * right else 0xFFFF_FFFF

/-- The string object at the end of a `GearCPU`, without its vtable. -/
structure GearBasicString where
  length : UInt32
  data : List UInt8
  deriving DecidableEq

def GearBasicString.default : GearBasicString := ⟨0, List.replicate 64 0⟩

/-- The fields of a `GearCPU`, without its vtable. -/
structure GearCPU where
  base_field : UInt32
  cpu_freq_low : UInt32
  cpu_freq_high : UInt32
  num_logical : Nat
  num_physical : Nat
  num_packages : Nat
  vendor_id : UInt32
  simd_level : UInt32
  reserved : UInt32
  cpu_info_string : GearBasicString
  deriving DecidableEq

def GearCPU.new (fuel : Nat) (os : CpuOs w σ) (registry : Option UInt32) (state : σ) :
    Option (GearCPU × σ) := do
  let ((logical, physical, packages), state) ← get_cpu_topology_fixed fuel os state
  let cpu_mhz := get_cpu_mhz registry
  let cpu : GearCPU :=
    { base_field := 0
      cpu_freq_low := saturating_mul cpu_mhz 1_000_000
      cpu_freq_high := 0
      num_logical := logical
      num_physical := physical
      num_packages := packages
      vendor_id := 4
      simd_level := 8
      reserved := 0
      cpu_info_string := .default }
  some (cpu, state)

end systemdetection.gear
