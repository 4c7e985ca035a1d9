import SystemDetection.Memory.Checked

open effect store

namespace systemdetection.patches.memory

/-- A run of addresses with one state and one protection. -/
structure Region where
  start : Nat
  stop : Nat
  State : UInt32
  Protect : UInt32

/-- The region of every address that is in one: regions do not overlap, and end in `usize`. -/
structure Partition (region_at : Nat → Option Region) : Prop where
  holds : ∀ address region, region_at address = some region →
    region.start ≤ address ∧ address < region.stop
  whole : ∀ address region other, region_at address = some region → region.start ≤ other →
    other < region.stop → region_at other = some region
  ends : ∀ address region, region_at address = some region → region.stop < USIZE_LIMIT

variable {σ : Type}

/-- In every state, a query tells the state and protection of the region of the address
and where that region ends; it may be told from the address's page on. -/
structure Describes (os : Os σ) (region_at : Nat → Option Region) : Prop where
  inside : ∀ address region, region_at address = some region → ∀ state, ∃ information,
    (os.VirtualQuery address state).1 = some information ∧ information.BaseAddress ≤ address ∧
      information.BaseAddress + information.RegionSize = region.stop ∧
      information.State = region.State ∧ information.Protect = region.Protect
  outside : ∀ address, region_at address = none → ∀ state, (os.VirtualQuery address state).1 = none

def readable_protections : List UInt32 :=
  [PAGE_READONLY, PAGE_READWRITE, PAGE_WRITECOPY, PAGE_EXECUTE_READ, PAGE_EXECUTE_READWRITE,
    PAGE_EXECUTE_WRITECOPY]

/-- The byte lies in a committed region with a readable protection and no guard. -/
def ReadableByte (region_at : Nat → Option Region) (address : Nat) : Prop :=
  ∃ region, region_at address = some region ∧ region.State = MEM_COMMIT ∧
    region.Protect &&& 0xFF ∈ readable_protections ∧ region.Protect &&& PAGE_GUARD = 0

theorem is_readable_protection_iff (protection : UInt32) :
    is_readable_protection protection = true ↔ protection &&& 0xFF ∈ readable_protections := by
  simp [is_readable_protection, readable_protections, or_assoc]

/-- The checks on one answer pass exactly for the bytes of its region. -/
theorem readable_region_end_eq_ok_iff {cursor : Nat} {information : MemoryBasicInformation} {region_end : Nat} :
    readable_region_end cursor information = .ok region_end ↔
      information.State = MEM_COMMIT ∧ information.Protect &&& 0xFF ∈ readable_protections ∧
        information.Protect &&& PAGE_GUARD = 0 ∧
        region_end = information.BaseAddress + information.RegionSize ∧
        information.BaseAddress + information.RegionSize < USIZE_LIMIT := by
  rw [← is_readable_protection_iff]
  unfold readable_region_end
  split
  · rename_i hstate
    simp [hstate]
  rename_i hstate
  split
  · rename_i hprotect
    simp only [reduceCtorEq, false_iff, not_and]
    intro _ hreadable hguard
    simp [hreadable, hguard] at hprotect
  rename_i hprotect
  simp only [not_or, not_not] at hstate hprotect
  simp only [hstate, hprotect, true_and]
  rw [← checked_add_eq_some_iff]
  cases checked_add information.BaseAddress information.RegionSize <;> simp

/-- One query, over a described address space: the walk goes on past the region
exactly when the byte at the cursor is readable. -/
theorem Describes.query {os : Os σ} {region_at : Nat → Option Region} (hdescribes : Describes os region_at)
    (hpartition : Partition region_at) (cursor : Nat) (state : σ) :
    (∃ region information, region_at cursor = some region ∧
      (os.VirtualQuery cursor state).1 = some information ∧
      readable_region_end cursor information = .ok region.stop ∧ cursor < region.stop ∧
      ∀ address, cursor ≤ address → address < region.stop → ReadableByte region_at address) ∨
    (¬ReadableByte region_at cursor ∧ ((os.VirtualQuery cursor state).1 = none ∨
      ∃ information error, (os.VirtualQuery cursor state).1 = some information ∧
        readable_region_end cursor information = .error error)) := by
  cases hregion : region_at cursor with
  | none =>
    refine .inr ⟨?_, .inl (hdescribes.outside cursor hregion state)⟩
    rintro ⟨region, hsome, _⟩
    rw [hregion] at hsome
    cases hsome
  | some region =>
    obtain ⟨information, hanswer, _, hend, hstate, hprotect⟩ := hdescribes.inside cursor region hregion state
    have hlimit := hpartition.ends cursor region hregion
    obtain ⟨hlo, hhi⟩ := hpartition.holds cursor region hregion
    cases hcheck : readable_region_end cursor information with
    | ok region_end =>
      obtain ⟨hcommit, hreadable, hguard, rfl, _⟩ := readable_region_end_eq_ok_iff.mp hcheck
      rw [hend] at hcheck
      refine .inl ⟨region, information, rfl, hanswer, hcheck, hhi, fun address hstart hstop => ?_⟩
      exact ⟨region, hpartition.whole cursor region address hregion (by omega) hstop, hstate ▸ hcommit,
        hprotect ▸ hreadable, hprotect ▸ hguard⟩
    | error error =>
      refine .inr ⟨?_, .inr ⟨information, error, hanswer, hcheck⟩⟩
      rintro ⟨other, hother, hcommit, hreadable, hguard⟩
      rw [hregion] at hother
      cases hother
      have hok : readable_region_end cursor information = .ok region.stop :=
        readable_region_end_eq_ok_iff.mpr ⟨hstate.trans hcommit, hprotect ▸ hreadable, hprotect ▸ hguard,
          hend.symm, by omega⟩
      rw [hok] at hcheck
      cases hcheck

/-- The walk from the cursor accepts exactly the ranges whose bytes are all readable. -/
theorem Describes.loop_ok_iff {os : Os σ} {region_at : Nat → Option Region}
    (hdescribes : Describes os region_at) (hpartition : Partition region_at) (stop cursor : Nat)
    (world : World σ) :
    (validate_readable_loop os stop cursor world).1 = .ok () ↔
      ∀ address, cursor ≤ address → address < stop → ReadableByte region_at address := by
  induction cursor using validate_readable_loop.induct stop generalizing world with
  | case2 cursor hcursor =>
    rw [validate_readable_loop, dif_neg hcursor]
    refine iff_of_true rfl fun address hstart hstop => ?_
    omega
  | case1 cursor hcursor ih =>
    rw [validate_readable_loop, dif_pos hcursor, Action.bind_of_ok (virtual_query_apply os cursor world)]
    obtain ⟨region, information, hregion, hanswer, hcheck, hadvance, hbytes⟩ |
      ⟨hbyte, hrefused⟩ := hdescribes.query hpartition cursor world.os
    · rw [hanswer]
      dsimp only
      rw [hcheck, Action.bind_of_ok (Action.lift_apply _ _), dif_neg (by omega),
        ih region.stop (by omega)]
      -- The bytes up to the region's end are readable; the rest is the next step's.
      constructor
      · intro hrest address hstart hstop
        by_cases hinside : address < region.stop
        · exact hbytes address hstart hinside
        · exact hrest address (by omega) hstop
      · intro hall address hstart hstop
        exact hall address (by omega) hstop
    · have hfirst : ¬∀ address, cursor ≤ address → address < stop → ReadableByte region_at address :=
        fun hall => hbyte (hall cursor (Nat.le_refl cursor) hcursor)
      obtain hnone | ⟨information, error, hsome, hcheck⟩ := hrefused
      · rw [hnone]
        exact iff_of_false (by simp) hfirst
      · rw [hsome]
        dsimp only
        rw [hcheck, Action.bind_of_error (Action.lift_apply _ _)]
        exact iff_of_false (by simp) hfirst

/-- Every step of the walk makes one query and gains at least one byte. -/
theorem loop_queries_le {os : Os σ} {calls : σ → Nat}
    (hcalls : ∀ address state, calls (os.VirtualQuery address state).2 = calls state + 1) (stop cursor : Nat)
    (world : World σ) :
    calls (validate_readable_loop os stop cursor world).2.os ≤ calls world.os + (stop - cursor) := by
  induction cursor using validate_readable_loop.induct stop generalizing world with
  | case2 cursor hcursor =>
    rw [validate_readable_loop, dif_neg hcursor]
    exact Nat.le_add_right _ _
  | case1 cursor hcursor ih =>
    have hcall := hcalls cursor world.os
    rw [validate_readable_loop, dif_pos hcursor, Action.bind_of_ok (virtual_query_apply os cursor world)]
    cases (os.VirtualQuery cursor world.os).1 with
    | none =>
      dsimp only
      rw [Action.throw_apply]
      dsimp only
      omega
    | some information =>
      dsimp only
      cases hcheck : readable_region_end cursor information with
      | error error =>
        rw [Action.bind_of_error (Action.lift_apply _ _)]
        dsimp only
        omega
      | ok region_end =>
        rw [Action.bind_of_ok (Action.lift_apply _ _)]
        by_cases hadvance : region_end ≤ cursor
        · rw [dif_pos hadvance, Action.throw_apply]
          dsimp only
          omega
        · rw [dif_neg hadvance]
          have hrest := ih region_end hadvance { world with os := (os.VirtualQuery cursor world.os).2 }
          dsimp only at hrest
          omega

end systemdetection.patches.memory
