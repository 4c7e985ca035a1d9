import SystemDetection.Memory.Pages

open effect store

namespace systemdetection.patches.memory

variable {σ : Type} {os : Os σ} {pages : σ → PageMap} {address length : Nat}
  {expected replacement : List UInt8}

/-- The modifiers of a protection do not matter for its execute permission. -/
theorem is_executable_of_base {protection base : UInt32} (hbase : protection &&& 0xFF = base) :
    is_executable protection = is_executable base := by
  have hmask : protection &&& 0xF0 = base &&& 0xF0 := by
    rw [← hbase, UInt32.and_assoc]
    rfl
  simp only [is_executable, hmask]

/-- The writable protection chosen for a readable page keeps its execute permission. -/
theorem is_executable_writable {protection : UInt32} (hreadable : is_readable_protection protection = true) :
    is_executable (if protection &&& 0xFF = PAGE_EXECUTE_READ ∨
        protection &&& 0xFF = PAGE_EXECUTE_READWRITE ∨ protection &&& 0xFF = PAGE_EXECUTE_WRITECOPY
      then PAGE_EXECUTE_READWRITE else PAGE_READWRITE) = is_executable protection := by
  rw [is_executable_of_base (Eq.refl (protection &&& 0xFF))]
  simp only [is_readable_protection, Bool.or_eq_true, beq_iff_eq] at hreadable
  obtain ((((h | h) | h) | h) | h) | h := hreadable <;> rw [h] <;> decide

/-- The range lies in the region that was found, whose execute permission is kept. -/
theorem writable_protection_ok {world world' : World σ} {protection : UInt32}
    (hregion : writable_protection_for_single_region os address length world = (.ok protection, world')) :
    ∃ information, (os.VirtualQuery address world.os).1 = some information ∧
      address + length ≤ information.BaseAddress + information.RegionSize ∧
      is_executable protection = is_executable information.Protect ∧
      world' = { world with os := (os.VirtualQuery address world.os).2 } := by
  unfold writable_protection_for_single_region at hregion
  cases hstop : checked_add address length with
  | none => simp [hstop] at hregion
  | some stop =>
    obtain ⟨rfl, _⟩ := checked_add_eq_some_iff.mp hstop
    rw [hstop] at hregion
    obtain ⟨answer, queried, hquery, hregion⟩ := Action.bind_eq_ok_iff.mp hregion
    simp only [virtual_query_apply, Prod.mk.injEq, Except.ok.injEq] at hquery
    obtain ⟨rfl, rfl⟩ := hquery
    cases hanswer : (os.VirtualQuery address world.os).1 with
    | none => simp [hanswer] at hregion
    | some information =>
      rw [hanswer] at hregion
      obtain ⟨region_end, _, hlift, hregion⟩ := Action.bind_eq_ok_iff.mp hregion
      simp only [Action.lift_apply, Prod.mk.injEq] at hlift
      obtain ⟨hend, rfl⟩ := hlift
      unfold readable_region_end at hend
      split at hend
      · cases hend
      · split at hend
        · cases hend
        · rename_i hprotection
          split at hend
          · cases hend
          · rename_i sum hsum
            obtain ⟨rfl, _⟩ := checked_add_eq_some_iff.mp hsum
            cases hend
            split at hregion
            · simp at hregion
            · simp only [Action.pure_apply, Prod.mk.injEq, Except.ok.injEq] at hregion
              have hreadable : is_readable_protection information.Protect = true := by
                simp only [not_or, not_not] at hprotection
                exact hprotection.2
              refine ⟨information, rfl, by omega, ?_, hregion.2.symm⟩
              rw [← hregion.1]
              exact is_executable_writable hreadable

/-- A range inside one region has the region's attributes on every page it overlaps. -/
theorem MaximalRun.attributes {map : PageMap} {information : MemoryBasicInformation}
    (hrun : MaximalRun map address information)
    (hregion : address + length ≤ information.BaseAddress + information.RegionSize)
    {page : Nat} (hpage : Overlaps address length page) :
    map page = ⟨information.State, information.Protect⟩ := by
  obtain ⟨count, hsize, hsame, _⟩ := hrun.run
  obtain ⟨hlo, hhi⟩ := hpage
  have hfirst : address / PAGE_SIZE ≤ page := by
    have := (Nat.div_lt_iff_lt_mul (show 0 < PAGE_SIZE by decide)).mpr hhi
    omega
  have hlast : page < address / PAGE_SIZE + count := by
    have hbound : page * PAGE_SIZE < (address / PAGE_SIZE + count) * PAGE_SIZE := by
      rw [Nat.add_mul, ← hsize, ← hrun.base]
      omega
    exact Nat.lt_of_mul_lt_mul_right hbound
  exact hsame page hfirst hlast

/-- Putting the first page's protection back over the whole range undoes the
change, because every page of the range had that protection. -/
theorem PageMap.protect_restore {map : PageMap} {information : MemoryBasicInformation}
    (hrun : MaximalRun map address information)
    (hregion : address + length ≤ information.BaseAddress + information.RegionSize)
    (protection : UInt32) :
    (map.protect address length protection).protect address length information.Protect = map := by
  funext page
  by_cases hpage : Overlaps address length page
  · simp [PageMap.protect, hpage, hrun.attributes hregion hpage]
  · simp [PageMap.protect, hpage]

theorem PageMap.protect_executable {map : PageMap} {information : MemoryBasicInformation}
    (hrun : MaximalRun map address information)
    (hregion : address + length ≤ information.BaseAddress + information.RegionSize)
    {protection : UInt32} (hkind : is_executable protection = is_executable information.Protect)
    (page : Nat) :
    is_executable (map.protect address length protection page).Protect =
      is_executable (map page).Protect := by
  by_cases hpage : Overlaps address length page
  · simp [PageMap.protect, hpage, hrun.attributes hregion hpage, hkind]
  · simp [PageMap.protect, hpage]

/-- Page attributes are the same. -/
def SamePages (pages : σ → PageMap) (before after : World σ) : Prop :=
  pages after.os = pages before.os

/-- Queries and refused protections leave the pages as they are. -/
theorem samePages_observes (hpaged : PagedOs os pages) : Observes os (SamePages pages) where
  refl _ := rfl
  trans _ _ _ hleft hright := Eq.trans hright hleft
  query world address := hpaged.query_pages address world.os
  refused world address length protection error herror :=
    hpaged.protect_error address length protection world.os error herror

/-- Every page has the same execute permission in all states visited in between. -/
def KeepsExecutable (pages : σ → PageMap) (before after : World (Recorded σ)) : Prop :=
  (∀ page, is_executable (pages after.os.state page).Protect =
      is_executable (pages before.os.state page).Protect) ∧
    ∃ visited, after.os.visited = before.os.visited ++ visited ∧
      ∀ state ∈ visited, ∀ page, is_executable (pages state page).Protect =
        is_executable (pages before.os.state page).Protect

theorem KeepsExecutable.of_step {world : World (Recorded σ)} {state : σ}
    (hsame : ∀ page, is_executable (pages state page).Protect =
      is_executable (pages world.os.state page).Protect) (memory : Store UInt8) (accesses : List Access) :
    KeepsExecutable pages world ⟨memory, world.os.step state, accesses⟩ :=
  ⟨hsame, [state], rfl, by simpa using hsame⟩

/-- What two successive actions keep is kept by both together. -/
theorem KeepsExecutable.trans (first second third : World (Recorded σ))
    (hleft : KeepsExecutable pages first second) (hright : KeepsExecutable pages second third) :
    KeepsExecutable pages first third := by
  obtain ⟨hfirst, early, hearly, hearlySame⟩ := hleft
  obtain ⟨hsecond, late, hlate, hlateSame⟩ := hright
  refine ⟨fun page => (hsecond page).trans (hfirst page), early ++ late,
    by rw [hlate, hearly, List.append_assoc], ?_⟩
  intro state hmem page
  obtain h | h := List.mem_append.mp hmem
  · exact hearlySame state h page
  · exact (hlateSame state h page).trans (hfirst page)

/-- So they change no execute permission at any moment. -/
theorem keepsExecutable_observes (hpaged : PagedOs os pages) :
    Observes (recording os) (KeepsExecutable pages) where
  refl world := ⟨fun _ => rfl, [], by simp⟩
  trans := KeepsExecutable.trans
  query world address := .of_step (fun page => by rw [hpaged.query_pages]) _ _
  refused world address length protection error herror :=
    .of_step (fun page => by rw [hpaged.protect_error address length protection _ error herror]) _ _

/-- Recording the states of a system leaves its answers those of a paged one. -/
theorem recorded_paged (hpaged : PagedOs os pages) :
    PagedOs (recording os) (fun recorded => pages recorded.state) where
  query_answer address recorded information hanswer :=
    hpaged.query_answer address recorded.state information hanswer
  query_pages address recorded := hpaged.query_pages address recorded.state
  protect_ok address length protection recorded old_protection hok :=
    hpaged.protect_ok address length protection recorded.state old_protection hok
  protect_error address length protection recorded error herror :=
    hpaged.protect_error address length protection recorded.state error herror
  flush_pages address length recorded := hpaged.flush_pages address length recorded.state

end systemdetection.patches.memory
