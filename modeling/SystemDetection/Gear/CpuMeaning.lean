import SystemDetection.Gear.Cpu

namespace systemdetection.gear

variable {w : Nat} {σ : Type}

/-- The number of processors in a mask. -/
def set_bits (mask : BitVec w) : Nat := (List.range w).countP fun index => mask.getLsbD index

/-- From the usable states on, the thread can be pinned to exactly the processors of the
process mask. -/
structure PinsProcessors (os : CpuOs w σ) (process_affinity : BitVec w) (usable : σ → Prop) : Prop where
  succeeds : ∀ index, index < w → ∀ state, usable state →
    ((os.SetThreadAffinityMask (BitVec.twoPow w index) state).1 ≠ 0 ↔
      BitVec.twoPow w index &&& process_affinity = BitVec.twoPow w index)
  keeps : ∀ index, index < w → ∀ state, usable state →
    usable (os.SetThreadAffinityMask (BitVec.twoPow w index) state).2

theorem twoPow_shiftLeft (index : Nat) : BitVec.twoPow w index <<< 1 = BitVec.twoPow w (index + 1) := by
  rw [BitVec.twoPow_eq, BitVec.twoPow_eq, BitVec.shiftLeft_add]

/-- A single bit is lost exactly when it is shifted out of the word. -/
theorem twoPow_ne_zero_iff {index : Nat} : BitVec.twoPow w index ≠ 0 ↔ index < w := by
  rw [Ne, ← BitVec.toNat_inj, BitVec.toNat_twoPow_eq_ite]
  split
  · rename_i hindex
    have hpositive := Nat.two_pow_pos index
    simp only [hindex, iff_true]
    change ¬2 ^ index = 0
    omega
  · rename_i hindex
    simp [hindex]

/-- A mask contains a single bit exactly when it has that bit. -/
theorem twoPow_subset_iff {mask : BitVec w} {index : Nat} (hindex : index < w) :
    BitVec.twoPow w index &&& mask = BitVec.twoPow w index ↔ mask.getLsbD index = true := by
  rw [BitVec.twoPow_and]
  split
  · rename_i hset
    simp [hset]
  · rename_i hclear
    have hnonzero : BitVec.twoPow w index ≠ 0 := twoPow_ne_zero_iff.mpr hindex
    exact iff_of_false hnonzero.symm hclear

/-- The loop condition at the processor `index`: the mask has not been shifted out, and
some processor of the system may still be there. -/
theorem loop_condition_iff {system_affinity : BitVec w} {index : Nat} :
    (BitVec.twoPow w index ≠ 0 ∧ BitVec.twoPow w index ≤ system_affinity) ↔
      index < w ∧ 2 ^ index ≤ system_affinity.toNat := by
  rw [twoPow_ne_zero_iff, BitVec.le_def]
  constructor
  · rintro ⟨hindex, hle⟩
    rw [BitVec.toNat_twoPow_of_lt hindex] at hle
    exact ⟨hindex, hle⟩
  · rintro ⟨hindex, hle⟩
    rw [BitVec.toNat_twoPow_of_lt hindex]
    exact ⟨hindex, hle⟩

/-- One round of the loop. -/
theorem count_processors_step (os : CpuOs w σ) {system_affinity : BitVec w} {fuel index : Nat}
    (hindex : index < w) (hsystem : 2 ^ index ≤ system_affinity.toNat) (logical_count : Nat) (state : σ) :
    count_processors os system_affinity (fuel + 1) (BitVec.twoPow w index) logical_count state =
      count_processors os system_affinity fuel (BitVec.twoPow w (index + 1))
        (if (os.SetThreadAffinityMask (BitVec.twoPow w index) state).1 ≠ 0 then logical_count + 1
          else logical_count)
        (os.SetThreadAffinityMask (BitVec.twoPow w index) state).2 := by
  rw [count_processors, if_pos (loop_condition_iff.mpr ⟨hindex, hsystem⟩), twoPow_shiftLeft]

theorem count_processors_stop (os : CpuOs w σ) {system_affinity : BitVec w} {index : Nat}
    (hstop : ¬(index < w ∧ 2 ^ index ≤ system_affinity.toNat)) (fuel logical_count : Nat) (state : σ) :
    count_processors os system_affinity fuel (BitVec.twoPow w index) logical_count state =
      some (logical_count, state) := by
  rw [count_processors.eq_def]
  exact if_neg (mt loop_condition_iff.mp hstop)

/-- From the processor `index` on there are at most `w - index` rounds, whatever the calls do. -/
theorem count_processors_terminates (os : CpuOs w σ) (system_affinity : BitVec w) {fuel index : Nat}
    (hfuel : w ≤ fuel + index) (logical_count : Nat) (state : σ) :
    ∃ result, count_processors os system_affinity fuel (BitVec.twoPow w index) logical_count state =
      some result := by
  induction fuel generalizing index logical_count state with
  | zero => exact ⟨_, count_processors_stop os (by omega) 0 logical_count state⟩
  | succ fuel ih =>
    by_cases hcontinue : index < w ∧ 2 ^ index ≤ system_affinity.toNat
    · rw [count_processors_step os hcontinue.1 hcontinue.2]
      exact ih (by omega) _ _
    · exact ⟨_, count_processors_stop os hcontinue (fuel + 1) logical_count state⟩

/-- A process has no processor above the highest one of the system. -/
theorem clear_above {process_affinity system_affinity : BitVec w}
    (hcontained : process_affinity &&& system_affinity = process_affinity) {start index : Nat}
    (hstart : system_affinity.toNat < 2 ^ start) (hindex : start ≤ index) :
    process_affinity.getLsbD index = false := by
  cases hset : process_affinity.getLsbD index with
  | false => rfl
  | true =>
    rw [← hcontained, BitVec.getLsbD_and, Bool.and_eq_true] at hset
    have hle : 2 ^ index ≤ system_affinity.toNat := Nat.ge_two_pow_of_testBit hset.2
    have hpow := Nat.pow_le_pow_right (show 0 < 2 by decide) hindex
    omega

/-- The invariant of the loop: what has been counted, and the processors of the process
from the mask on, make up the final count. -/
theorem count_processors_counts {os : CpuOs w σ} {process_affinity system_affinity : BitVec w}
    {usable : σ → Prop} (hcontained : process_affinity &&& system_affinity = process_affinity)
    (hpins : PinsProcessors os process_affinity usable) {fuel index : Nat} (hfuel : w ≤ fuel + index)
    (logical_count : Nat) {state : σ} (husable : usable state) :
    ∃ after, count_processors os system_affinity fuel (BitVec.twoPow w index) logical_count state =
      some (logical_count +
        (List.range' index (w - index)).countP (fun index => process_affinity.getLsbD index), after) := by
  induction fuel generalizing index logical_count state with
  | zero =>
    refine ⟨state, ?_⟩
    rw [count_processors_stop os (by omega), show w - index = 0 by omega]
    rfl
  | succ fuel ih =>
    by_cases hindex : index < w
    · by_cases hsystem : 2 ^ index ≤ system_affinity.toNat
      · rw [count_processors_step os hindex hsystem]
        obtain ⟨after, hrest⟩ := ih (show w ≤ fuel + (index + 1) by omega)
          (if (os.SetThreadAffinityMask (BitVec.twoPow w index) state).1 ≠ 0 then logical_count + 1
            else logical_count) (hpins.keeps index hindex state husable)
        refine ⟨after, ?_⟩
        rw [hrest, show w - index = w - (index + 1) + 1 by omega, List.range'_succ, List.countP_cons]
        have hpinned := (hpins.succeeds index hindex state husable).trans (twoPow_subset_iff hindex)
        by_cases hset : process_affinity.getLsbD index = true
        · rw [if_pos (hpinned.mpr hset), if_pos hset]
          congr 2
          omega
        · rw [if_neg (mt hpinned.mp hset), if_neg hset]
          rfl
      · refine ⟨state, ?_⟩
        rw [count_processors_stop os (by omega), List.countP_eq_zero.mpr]
        · rfl
        · intro other hmem
          have hother := List.left_le_of_mem_range' hmem
          simp [clear_above hcontained (by omega) hother]
    · refine ⟨state, ?_⟩
      rw [count_processors_stop os (by omega), show w - index = 0 by omega]
      rfl

/-- Detection from the end of the loop on. -/
theorem get_cpu_topology_fixed_of_count {os : CpuOs w σ} {state : σ} {process_affinity system_affinity : BitVec w}
    (hmasks : os.GetProcessAffinityMask state = (process_affinity, system_affinity)) {fuel logical_count : Nat}
    {pinned after : σ} (hloop : count_processors os system_affinity fuel 1 0 state = some (logical_count, pinned))
    (hafter : (os.SetThreadAffinityMask process_affinity pinned).2 = after) :
    get_cpu_topology_fixed fuel os state =
      let logical_count := if logical_count = 0 then os.dwNumberOfProcessors after else logical_count
      some ((max logical_count 1, max (div_ceil logical_count 2) 1, 1), after) := by
  subst hafter
  simp only [get_cpu_topology_fixed, hmasks, hloop, Option.bind_eq_bind, Option.bind_some]

/-- Only the empty mask has no bits set. -/
theorem set_bits_eq_zero_iff {mask : BitVec w} : set_bits mask = 0 ↔ mask = 0 := by
  rw [set_bits, List.countP_eq_zero]
  constructor
  · intro hclear
    refine BitVec.eq_of_getLsbD_eq fun index hindex => ?_
    simpa using hclear index (List.mem_range.mpr hindex)
  · rintro rfl index hindex
    simp

/-- The documented effect of pinning a thread, by the mask that each state has for it: it
succeeds exactly for the non-empty parts of the process mask, and tells the previous mask. -/
structure SetsAffinity (os : CpuOs w σ) (process_affinity : BitVec w) (thread_affinity : σ → BitVec w) :
    Prop where
  accepted : ∀ mask, mask ≠ 0 → mask &&& process_affinity = mask → ∀ state,
    (os.SetThreadAffinityMask mask state).1 = thread_affinity state ∧
      thread_affinity (os.SetThreadAffinityMask mask state).2 = mask
  refused : ∀ mask, ¬(mask ≠ 0 ∧ mask &&& process_affinity = mask) → ∀ state,
    (os.SetThreadAffinityMask mask state).1 = 0 ∧
      thread_affinity (os.SetThreadAffinityMask mask state).2 = thread_affinity state

/-- A system whose state is the mask of the calling thread, in a process with this mask. -/
def pinning_system (process_affinity : BitVec w) : CpuOs w (BitVec w) where
  GetProcessAffinityMask _ := (process_affinity, BitVec.allOnes w)
  SetThreadAffinityMask mask thread_affinity :=
    if mask ≠ 0 ∧ mask &&& process_affinity = mask then (thread_affinity, mask) else (0, thread_affinity)
  dwNumberOfProcessors _ := w

/-- The pinning system keeps the mask that it was last given. -/
theorem pinning_system_sets (process_affinity : BitVec w) :
    SetsAffinity (pinning_system process_affinity) process_affinity id where
  accepted mask hmask hcontained state := by
    unfold pinning_system
    dsimp only
    rw [if_pos ⟨hmask, hcontained⟩]
    exact ⟨rfl, rfl⟩
  refused mask hrefused state := by
    unfold pinning_system
    dsimp only
    rw [if_neg hrefused]
    exact ⟨rfl, rfl⟩

/-- It lets a thread run exactly where the last mask allows it. -/
theorem pinning_system_pins (process_affinity : BitVec w) :
    PinsProcessors (pinning_system process_affinity) process_affinity (· ≠ 0) where
  succeeds index hindex state hstate := by
    have hmask : BitVec.twoPow w index ≠ 0 := twoPow_ne_zero_iff.mpr hindex
    unfold pinning_system
    dsimp only
    split
    · rename_i haccepted
      exact iff_of_true hstate haccepted.2
    · rename_i hrefused
      exact iff_of_false (not_not.mpr rfl) fun hcontained => hrefused ⟨hmask, hcontained⟩
  keeps index hindex state hstate := by
    unfold pinning_system
    dsimp only
    split
    · exact twoPow_ne_zero_iff.mpr hindex
    · exact hstate

/-- Raising both counts to one keeps them in order. -/
theorem physical_of_logical (logical_count : Nat) :
    max (div_ceil logical_count 2) 1 ≤ max logical_count 1 ∧
      max (div_ceil logical_count 2) 1 = div_ceil (max logical_count 1) 2 := by
  unfold div_ceil
  omega

/-- The loop ends after at most one round for each bit of a word, every processor of the
process is counted once, and the three counts are in order. -/
theorem get_cpu_topology_fixed_counts {os : CpuOs w σ} {state : σ} {process_affinity system_affinity : BitVec w}
    (hmasks : os.GetProcessAffinityMask state = (process_affinity, system_affinity))
    (hcontained : process_affinity &&& system_affinity = process_affinity)
    {usable : σ → Prop} (hpins : PinsProcessors os process_affinity usable) (husable : usable state)
    {fuel : Nat} (hfuel : w ≤ fuel) :
    ∃ logical physical packages after,
      get_cpu_topology_fixed fuel os state = some ((logical, physical, packages), after) ∧
      logical = (if process_affinity ≠ 0 then set_bits process_affinity
        else max (os.dwNumberOfProcessors after) 1) ∧
      1 ≤ packages ∧ packages ≤ physical ∧ physical ≤ logical ∧ physical = div_ceil logical 2 := by
  obtain ⟨pinned, hloop⟩ := count_processors_counts hcontained hpins (show w ≤ fuel + 0 from hfuel) 0 husable
  rw [BitVec.twoPow_zero, Nat.zero_add, Nat.sub_zero, ← List.range_eq_range'] at hloop
  have hcounted := get_cpu_topology_fixed_of_count hmasks hloop rfl
  obtain ⟨hordered, hhalf⟩ := physical_of_logical (if set_bits process_affinity = 0
    then os.dwNumberOfProcessors (os.SetThreadAffinityMask process_affinity pinned).2
    else set_bits process_affinity)
  refine ⟨_, _, _, _, hcounted, ?_, Nat.le_refl 1, Nat.le_max_right _ _, hordered, hhalf⟩
  change max (if set_bits process_affinity = 0 then _ else set_bits process_affinity) 1 = _
  by_cases hempty : process_affinity = 0
  · rw [if_pos (set_bits_eq_zero_iff.mpr hempty), if_neg (not_not.mpr hempty)]
  · have hsome := mt set_bits_eq_zero_iff.mp hempty
    rw [if_neg hsome, if_pos hempty]
    omega

/-- Three processors, one of them at the top bit, with gaps between them. -/
theorem get_cpu_topology_fixed_counts_sparse_mask :
    ∃ packages after, get_cpu_topology_fixed 32 (pinning_system 0x8000_0101#32) 0x101#32 =
      some ((3, 2, packages), after) ∧ 1 ≤ packages ∧ packages ≤ 2 := by
  obtain ⟨logical, physical, packages, after, hresult, hlogical, hfirst, hlast, _, hphysical⟩ :=
    get_cpu_topology_fixed_counts (show (pinning_system 0x8000_0101#32).GetProcessAffinityMask 0x101#32 =
      (0x8000_0101#32, BitVec.allOnes 32) from rfl) BitVec.and_allOnes
      (pinning_system_pins 0x8000_0101#32) (by decide) (Nat.le_refl 32)
  have hthree : logical = 3 := hlogical.trans ((if_pos (by decide)).trans (by decide))
  subst hthree
  have htwo : physical = 2 := hphysical
  subst htwo
  exact ⟨packages, after, hresult, hfirst, hlast⟩

/-- After the detection the thread may run on every processor of the process. That is the
mask it had before exactly when it had not been pinned. -/
theorem get_cpu_topology_fixed_restores_iff {os : CpuOs w σ} {state : σ}
    {process_affinity system_affinity : BitVec w} {thread_affinity : σ → BitVec w}
    (hmasks : os.GetProcessAffinityMask state = (process_affinity, system_affinity))
    (hsets : SetsAffinity os process_affinity thread_affinity) (hnonempty : thread_affinity state ≠ 0)
    (hthread : thread_affinity state &&& process_affinity = thread_affinity state) {fuel : Nat}
    (hfuel : w ≤ fuel) :
    ∃ counts after, get_cpu_topology_fixed fuel os state = some (counts, after) ∧
      (thread_affinity after = thread_affinity state ↔ thread_affinity state = process_affinity) := by
  obtain ⟨⟨logical_count, pinned⟩, hloop⟩ := count_processors_terminates os system_affinity
    (show w ≤ fuel + 0 from hfuel) 0 state
  rw [BitVec.twoPow_zero] at hloop
  have hprocess : process_affinity ≠ 0 := by
    rintro rfl
    exact hnonempty (hthread.symm.trans BitVec.and_zero)
  refine ⟨_, _, get_cpu_topology_fixed_of_count hmasks hloop rfl, ?_⟩
  rw [(hsets.accepted process_affinity hprocess (BitVec.and_self) pinned).2]
  exact eq_comm

/-- A thread that may run on both processors of its process still may. -/
theorem get_cpu_topology_fixed_restores_free_thread :
    ∃ counts, get_cpu_topology_fixed 32 (pinning_system 3#32) 3#32 = some (counts, 3#32) := by
  obtain ⟨counts, after, hresult, hrestored⟩ := get_cpu_topology_fixed_restores_iff
    (show (pinning_system 3#32).GetProcessAffinityMask 3#32 = (3#32, BitVec.allOnes 32) from rfl)
    (pinning_system_sets 3#32) (by decide) (by decide) (Nat.le_refl 32)
  have hafter : after = 3#32 := hrestored.mpr rfl
  rw [hafter] at hresult
  exact ⟨counts, hresult⟩

/-- A thread pinned to one of two processors is let loose on both. -/
theorem pinned_thread_let_loose :
    SetsAffinity (pinning_system 3#32) 3#32 id ∧ 1#32 ≠ 0 ∧ 1#32 &&& 3#32 = 1#32 ∧
      get_cpu_topology_fixed 32 (pinning_system 3#32) 1#32 = some ((2, 1, 1), 3#32) :=
  ⟨pinning_system_sets 3#32, by decide, by decide, by decide +kernel⟩

/-- A saturating product is the product, cut off at the largest word. -/
theorem saturating_mul_toNat (left right : UInt32) :
    (saturating_mul left right).toNat = min (left.toNat * right.toNat) (2 ^ 32 - 1) := by
  unfold saturating_mul
  split
  · rename_i hfits
    rw [UInt32.toNat_mul, Nat.mod_eq_of_lt hfits]
    omega
  · rename_i hsaturated
    change 2 ^ 32 - 1 = _
    omega

/-- Detection always ends, and sets the frequency words from the clock speed alone. -/
theorem GearCPU.new_frequency (os : CpuOs w σ) (registry : Option UInt32) (state : σ) {fuel : Nat}
    (hfuel : w ≤ fuel) :
    ∃ cpu after, GearCPU.new fuel os registry state = some (cpu, after) ∧
      cpu.cpu_freq_low = saturating_mul (get_cpu_mhz registry) 1_000_000 ∧ cpu.cpu_freq_high = 0 := by
  obtain ⟨process_affinity, system_affinity, hmasks⟩ : ∃ process_affinity system_affinity,
      os.GetProcessAffinityMask state = (process_affinity, system_affinity) := ⟨_, _, rfl⟩
  obtain ⟨⟨logical_count, pinned⟩, hloop⟩ := count_processors_terminates os system_affinity
    (show w ≤ fuel + 0 from hfuel) 0 state
  rw [BitVec.twoPow_zero] at hloop
  have htopology := get_cpu_topology_fixed_of_count hmasks hloop rfl
  refine ⟨_, _, by rw [GearCPU.new, htopology]; rfl, rfl, rfl⟩

/-- The two frequency words tell the clock speed exactly up to 4294 MHz: above, the low
word is saturated, and the high word is zero. -/
theorem GearCPU.new_frequency_exact_iff (os : CpuOs w σ) (registry : Option UInt32) (state : σ) {fuel : Nat}
    (hfuel : w ≤ fuel) :
    ∃ cpu after, GearCPU.new fuel os registry state = some (cpu, after) ∧
      (cpu.cpu_freq_high.toNat * 2 ^ 32 + cpu.cpu_freq_low.toNat = (get_cpu_mhz registry).toNat * 1_000_000 ↔
        (get_cpu_mhz registry).toNat ≤ 4294) := by
  obtain ⟨cpu, after, hnew, hlow, hhigh⟩ := GearCPU.new_frequency os registry state hfuel
  refine ⟨cpu, after, hnew, ?_⟩
  rw [hlow, hhigh, saturating_mul_toNat]
  change 0 * 2 ^ 32 + min ((get_cpu_mhz registry).toNat * 1_000_000) (2 ^ 32 - 1) = _ ↔ _
  omega

/-- Without a registry value the fallback of 3000 MHz is told exactly. -/
theorem GearCPU.new_frequency_of_fallback :
    ∃ cpu after, GearCPU.new 32 (pinning_system 3#32) none 3#32 = some (cpu, after) ∧
      cpu.cpu_freq_high.toNat * 2 ^ 32 + cpu.cpu_freq_low.toNat = 3_000_000_000 := by
  obtain ⟨cpu, after, hnew, hexact⟩ :=
    GearCPU.new_frequency_exact_iff (pinning_system 3#32) none 3#32 (Nat.le_refl 32)
  exact ⟨cpu, after, hnew, hexact.mpr (by decide)⟩

/-- A processor at 5000 MHz is taken for one at 4294.967295 MHz. -/
theorem fast_processor_saturated :
    ∃ cpu after, GearCPU.new 32 (pinning_system 3#32) (some 5000) 3#32 = some (cpu, after) ∧
      cpu.cpu_freq_high.toNat * 2 ^ 32 + cpu.cpu_freq_low.toNat = 4_294_967_295 ∧
      (get_cpu_mhz (some 5000)).toNat * 1_000_000 = 5_000_000_000 := by
  obtain ⟨cpu, after, hnew, hlow, hhigh⟩ :=
    GearCPU.new_frequency (pinning_system 3#32) (some 5000) 3#32 (Nat.le_refl 32)
  refine ⟨cpu, after, hnew, ?_, by decide⟩
  rw [hlow, hhigh]
  decide

end systemdetection.gear
