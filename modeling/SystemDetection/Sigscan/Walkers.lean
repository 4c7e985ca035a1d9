import SystemDetection.Memory.Regions
import SystemDetection.Sigscan.ModuleMeaning

open effect systemdetection.patches.memory

namespace systemdetection.patches.sigscan

variable {σ : Type}

/-- A counter of the queries that a system has answered. -/
def CountsQueries (os : Os σ) (calls : σ → Nat) : Prop :=
  ∀ address state, calls (os.VirtualQuery address state).2 = calls state + 1

/-- A range check makes not more queries than the range has bytes. -/
theorem range_queries_le {os : Os σ} {calls : σ → Nat} (hcalls : CountsQueries os calls)
    (address length : Nat) (world : World σ) :
    calls (memory.validate_readable_range os address length world).2.os ≤ calls world.os + length := by
  unfold memory.validate_readable_range
  split
  · exact Nat.le_add_right _ _
  cases hsum : checked_add address length with
  | none => exact Nat.le_add_right _ _
  | some stop =>
    obtain ⟨rfl, _⟩ := checked_add_eq_some_iff.mp hsum
    have hloop := loop_queries_le hcalls (address + length) address world
    rwa [Nat.add_sub_cancel_left] at hloop

/-- A range check succeeds exactly when every byte can be read. -/
theorem range_ok_iff {os : Os σ} {region_at : Nat → Option Region} (hdescribes : Describes os region_at)
    (hpartition : Partition region_at) {address length : Nat} (hfits : address + length < USIZE_LIMIT)
    (world : World σ) :
    (memory.validate_readable_range os address length world).1 = .ok () ↔
      ∀ byte, address ≤ byte → byte < address + length → ReadableByte region_at byte := by
  unfold memory.validate_readable_range
  split
  · rename_i hempty
    refine iff_of_true rfl fun byte hstart hstop => ?_
    omega
  · rw [checked_add_of_lt hfits]
    exact hdescribes.loop_ok_iff hpartition (address + length) address world

/-- Both walkers make at most one query for each byte, accept the same ranges whatever
the system answers, and over a described address space accept exactly the readable ones. -/
theorem readable_range_walkers (os : Os σ) (address length : Nat) (world : World σ) :
    (∀ calls, CountsQueries os calls →
      calls (memory.validate_readable_range os address length world).2.os ≤ calls world.os + length ∧
        calls (validate_readable_range os address length world).2.os ≤ calls world.os + length) ∧
    ((memory.validate_readable_range os address length world).1 = .ok () ↔
      (validate_readable_range os address length world).1 = .ok ()) ∧
    ∀ region_at, Partition region_at → Describes os region_at → address + length < USIZE_LIMIT →
      ((memory.validate_readable_range os address length world).1 = .ok () ↔
        ∀ byte, address ≤ byte → byte < address + length → ReadableByte region_at byte) ∧
      ((validate_readable_range os address length world).1 = .ok () ↔
        ∀ byte, address ≤ byte → byte < address + length → ReadableByte region_at byte) := by
  obtain ⟨hstate, hagrees⟩ := validate_readable_range_agrees os address length world
  refine ⟨fun calls hcalls => ?_, hagrees.symm, fun region_at hpartition hdescribes hfits => ?_⟩
  · have hqueries := range_queries_le hcalls address length world
    exact ⟨hqueries, hstate ▸ hqueries⟩
  · have hexact := range_ok_iff hdescribes hpartition hfits world
    exact ⟨hexact, hagrees.trans hexact⟩

/-- Two neighbouring regions that can be read, and a guarded one behind them. -/
def three_regions (address : Nat) : Option Region :=
  if address < 0x1000 then none
  else if address < 0x2000 then some ⟨0x1000, 0x2000, MEM_COMMIT, PAGE_EXECUTE_READ⟩
  else if address < 0x4000 then some ⟨0x2000, 0x4000, MEM_COMMIT, PAGE_READWRITE⟩
  else if address < 0x5000 then some ⟨0x4000, 0x5000, MEM_COMMIT, PAGE_READWRITE ||| PAGE_GUARD⟩
  else none

/-- A system with these regions that counts its queries. -/
def counting_system : Os Nat where
  VirtualQuery address count :=
    ((three_regions address).map fun region => ⟨address / 0x1000 * 0x1000,
      region.stop - address / 0x1000 * 0x1000, region.State, region.Protect⟩, count + 1)
  VirtualProtect _ _ _ count := (.error "Access is denied. (os error 5)", count)
  FlushInstructionCache _ _ count := (.ok (), count)

/-- An address lies in one of the three regions. -/
theorem three_regions_cases {address : Nat} {region : Region} (hregion : three_regions address = some region) :
    (region = ⟨0x1000, 0x2000, MEM_COMMIT, PAGE_EXECUTE_READ⟩ ∧ 0x1000 ≤ address ∧ address < 0x2000) ∨
    (region = ⟨0x2000, 0x4000, MEM_COMMIT, PAGE_READWRITE⟩ ∧ 0x2000 ≤ address ∧ address < 0x4000) ∨
    (region = ⟨0x4000, 0x5000, MEM_COMMIT, PAGE_READWRITE ||| PAGE_GUARD⟩ ∧ 0x4000 ≤ address ∧
      address < 0x5000) := by
  unfold three_regions at hregion
  split at hregion
  · cases hregion
  split at hregion
  · cases hregion
    exact .inl ⟨rfl, by omega, by omega⟩
  split at hregion
  · cases hregion
    exact .inr (.inl ⟨rfl, by omega, by omega⟩)
  split at hregion
  · cases hregion
    exact .inr (.inr ⟨rfl, by omega, by omega⟩)
  · cases hregion

/-- The three regions partition the addresses. -/
theorem three_regions_partition : Partition three_regions where
  holds address region hregion := by
    obtain ⟨rfl, hlo, hhi⟩ | ⟨rfl, hlo, hhi⟩ | ⟨rfl, hlo, hhi⟩ := three_regions_cases hregion
    · exact ⟨hlo, hhi⟩
    · exact ⟨hlo, hhi⟩
    · exact ⟨hlo, hhi⟩
  whole address region other hregion hstart hstop := by
    unfold three_regions
    obtain ⟨rfl, _⟩ | ⟨rfl, _⟩ | ⟨rfl, _⟩ := three_regions_cases hregion
    · dsimp only at hstart hstop
      rw [if_neg (by omega), if_pos (by omega)]
    · dsimp only at hstart hstop
      rw [if_neg (by omega), if_neg (by omega), if_pos (by omega)]
    · dsimp only at hstart hstop
      rw [if_neg (by omega), if_neg (by omega), if_neg (by omega), if_pos (by omega)]
  ends address region hregion := by
    obtain ⟨rfl, _⟩ | ⟨rfl, _⟩ | ⟨rfl, _⟩ := three_regions_cases hregion
    · decide
    · decide
    · decide

/-- The counting system answers as the three regions say. -/
theorem counting_system_describes : Describes counting_system three_regions where
  inside address region hregion count := by
    obtain ⟨_, hstop⟩ := three_regions_partition.holds address region hregion
    have hpage : address / 0x1000 * 0x1000 ≤ address := Nat.div_mul_le_self address 0x1000
    refine ⟨⟨address / 0x1000 * 0x1000, region.stop - address / 0x1000 * 0x1000, region.State,
      region.Protect⟩, ?_, hpage, ?_, rfl, rfl⟩
    · simp [counting_system, hregion]
    · dsimp only
      omega
  outside address hregion count := by simp [counting_system, hregion]

/-- A range over both readable regions is accepted, one that reaches the guarded region is not. -/
theorem readable_range_walkers_on_three_regions :
    (validate_readable_range counting_system 0x1F00 0x200 ⟨fun _ => 0, 0, []⟩).1 = .ok () ∧
      (memory.validate_readable_range counting_system 0x1F00 0x200 ⟨fun _ => 0, 0, []⟩).2.os ≤ 0x200 ∧
      (validate_readable_range counting_system 0x3F00 0x200 ⟨fun _ => 0, 0, []⟩).1 ≠ .ok () := by
  have hcounts : CountsQueries counting_system id := fun _ _ => rfl
  obtain ⟨hcalls, _, hexact⟩ := readable_range_walkers counting_system 0x1F00 0x200 ⟨fun _ => 0, 0, []⟩
  obtain ⟨_, hreadable⟩ := hexact three_regions three_regions_partition counting_system_describes (by decide)
  obtain ⟨_, _, hguarded⟩ := readable_range_walkers counting_system 0x3F00 0x200 ⟨fun _ => 0, 0, []⟩
  obtain ⟨_, hrefused⟩ := hguarded three_regions three_regions_partition counting_system_describes (by decide)
  refine ⟨hreadable.mpr fun byte hstart hstop => ?_, ?_, fun haccepted => ?_⟩
  · by_cases hfirst : byte < 0x2000
    · refine ⟨⟨0x1000, 0x2000, MEM_COMMIT, PAGE_EXECUTE_READ⟩, ?_, rfl, by decide, by decide⟩
      rw [three_regions, if_neg (by omega), if_pos hfirst]
    · refine ⟨⟨0x2000, 0x4000, MEM_COMMIT, PAGE_READWRITE⟩, ?_, rfl, by decide, by decide⟩
      rw [three_regions, if_neg (by omega), if_neg hfirst, if_pos (by omega)]
  · have hbound := (hcalls id hcounts).1
    exact hbound.trans_eq (Nat.zero_add _)
  · obtain ⟨region, hregion, _, _, hguard⟩ := hrefused.mp haccepted 0x4000 (by decide) (by decide)
    cases hregion
    revert hguard
    decide

end systemdetection.patches.sigscan
