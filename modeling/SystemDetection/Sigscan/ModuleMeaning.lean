import SystemDetection.Sigscan.Module
import SystemDetection.Sigscan.Readable

open effect store systemdetection.patches.memory

namespace systemdetection.patches.sigscan

variable {σ : Type} {os : Os σ}

/-- The checks of both walkers on one region. -/
theorem region_checks_agree (cursor : Nat) (information : MemoryBasicInformation) :
    (∃ region_end, readable_region_end cursor information = .ok region_end ∧
      validate_region information = .ok () ∧
      checked_add information.BaseAddress information.RegionSize = some region_end) ∨
    (∃ error, readable_region_end cursor information = .error error) ∧
      ((∃ reason, validate_region information = .error reason) ∨ validate_region information = .ok () ∧
        checked_add information.BaseAddress information.RegionSize = none) := by
  have hsame : is_readable_protection = memory.is_readable_protection := rfl
  unfold readable_region_end validate_region
  rw [hsame]
  by_cases hstate : information.State ≠ MEM_COMMIT
  · simp [hstate]
  · by_cases hprotection : information.Protect &&& PAGE_GUARD ≠ 0 ∨
      ¬ memory.is_readable_protection information.Protect
    · simp only [hstate, hprotection, ↓reduceIte]
      exact .inr ⟨⟨_, rfl⟩, .inl ⟨_, rfl⟩⟩
    · simp only [hstate, hprotection, ↓reduceIte]
      cases checked_add information.BaseAddress information.RegionSize with
      | none => simp
      | some region_end => simp

/-- The two walkers make the same queries and accept the same ranges; they
differ in how they report a refusal. -/
theorem validate_readable_loop_agrees (stop cursor : Nat) (world : World σ) :
    (validate_readable_loop os stop cursor world).2 =
        (memory.validate_readable_loop os stop cursor world).2 ∧
      ((validate_readable_loop os stop cursor world).1 = .ok () ↔
        (memory.validate_readable_loop os stop cursor world).1 = .ok ()) := by
  induction cursor using memory.validate_readable_loop.induct stop generalizing world with
  | case2 cursor hcursor =>
    rw [validate_readable_loop, memory.validate_readable_loop, dif_neg hcursor, dif_neg hcursor]
    simp
  | case1 cursor hcursor ih =>
    rw [validate_readable_loop, memory.validate_readable_loop, dif_pos hcursor, dif_pos hcursor]
    rcases hquery : os.VirtualQuery cursor world.os with ⟨answer, state⟩
    rw [Action.bind_of_ok (virtual_query_of_answer hquery),
      Action.bind_of_ok (virtual_query_of_answer hquery)]
    cases answer with
    | none => simp
    | some information =>
      dsimp only
      rcases region_checks_agree cursor information with ⟨region_end, hmemory, hregion, hsum⟩ |
        ⟨⟨error, hmemory⟩, ⟨reason, hregion⟩ | ⟨hregion, hsum⟩⟩
      · rw [hmemory, hregion, hsum, Action.bind_of_ok (Action.lift_apply _ _),
          Action.bind_of_ok (Action.lift_apply _ _)]
        dsimp only
        by_cases hadvance : region_end ≤ cursor
        · simp [hadvance]
        · rw [dif_neg hadvance, dif_neg hadvance]
          exact ih region_end hadvance _
      · rw [hmemory, hregion, Action.bind_of_error (Action.lift_apply _ _),
          Action.bind_of_error (Action.lift_apply _ _)]
        simp
      · rw [hmemory, hregion, hsum, Action.bind_of_ok (Action.lift_apply _ _),
          Action.bind_of_error (Action.lift_apply _ _)]
        simp

variable (os) in
/-- The two range checks succeed on the same ranges, with the same queries. -/
theorem validate_readable_range_agrees (address length : Nat) (world : World σ) :
    (validate_readable_range os address length world).2 =
        (memory.validate_readable_range os address length world).2 ∧
      ((validate_readable_range os address length world).1 = .ok () ↔
        (memory.validate_readable_range os address length world).1 = .ok ()) := by
  unfold validate_readable_range memory.validate_readable_range
  by_cases hlength : length = 0
  · simp [hlength]
  · simp only [hlength, ↓reduceIte]
    cases checked_add address length with
    | none => simp
    | some stop => exact validate_readable_loop_agrees stop address world

/-- Readable memory is readable for the scanner too. -/
theorem validate_readable_range_reads {usable : σ → Prop} {start stop address length : Nat}
    (hreadable : Readable os usable start stop) (memory : Store UInt8) (hlo : start ≤ address)
    (hhi : address + length ≤ stop) :
    Reads usable memory (validate_readable_range os address length) (.ok ()) := by
  intro world hmemory husable
  obtain ⟨world', hrun, hworld'⟩ := hreadable.range_reads memory hlo hhi world hmemory husable
  obtain ⟨hstate, hresult⟩ := validate_readable_range_agrees os address length world
  rw [hrun] at hstate hresult
  exact ⟨world', Prod.ext (hresult.mpr rfl) hstate, hworld'⟩

/-- Sections of a readable image are copied as they are in memory. -/
theorem load_sections_reads {usable : σ → Prop} {memory : Store UInt8} {base size : Nat}
    (hlimit : base + size < USIZE_LIMIT) (hsize : size ≤ ISIZE_MAX) {sections : List PeSection}
    (hbounds : ∀ pe_section ∈ sections, pe_section.rva + pe_section.size ≤ size)
    (hreadable : (ModuleImage.snapshot base size sections memory).Readable os usable) :
    Reads usable memory (load_sections os base sections)
      (.ok (ModuleImage.snapshot base size sections memory).sections) := by
  induction sections with
  | nil => exact reads_pure _
  | cons pe_section rest ih =>
    rw [List.forall_mem_cons] at hbounds
    unfold load_sections
    by_cases hskip : pe_section.size = 0 ∨ (!pe_section.readable && !pe_section.executable) = true
    · rw [if_pos hskip]
      have hsame : ModuleImage.snapshot base size (pe_section :: rest) memory = .snapshot base size rest memory := by
        simp [ModuleImage.snapshot, PeSection.is_loaded_eq_false_iff.mpr hskip]
      rw [hsame] at hreadable ⊢
      exact ih hbounds.2 hreadable
    · rw [if_neg hskip, checked_add_of_lt (by omega)]
      have hloaded : pe_section.is_loaded = true := by
        rwa [← PeSection.is_loaded_eq_false_iff, Bool.not_eq_false] at hskip
      have hsections : (ModuleImage.snapshot base size (pe_section :: rest) memory).sections =
          ⟨pe_section, memory.read (base + pe_section.rva) pe_section.size⟩ ::
            (ModuleImage.snapshot base size rest memory).sections := by
        simp [ModuleImage.snapshot, hloaded]
      rw [ModuleImage.Readable, hsections, List.forall_mem_cons] at hreadable
      obtain ⟨hfirst, hrest⟩ := hreadable
      have hvalidated : Reads usable memory
          (validate_readable_range os (base + pe_section.rva) pe_section.size) (.ok ()) :=
        validate_readable_range_reads hfirst memory (Nat.le_refl _) (Nat.le_refl _)
      refine (hvalidated.map_err _).bind fun world hmemory husable => ?_
      subst hmemory
      have hlength : pe_section.size ≤ ISIZE_MAX := by omega
      have hcopy := copy_memory_of_le hlength (base + pe_section.rva) world
      rw [Action.bind_of_ok (hcopy.trans (raw_read_apply _ _ world))]
      obtain ⟨world', hrun, hworld'⟩ := ih hbounds.2 hrest
        { world with accesses := world.accesses ++ [⟨.read, base + pe_section.rva, pe_section.size⟩] }
        rfl husable
      refine ⟨world', ?_, hworld'⟩
      rw [Action.bind_of_ok hrun, hsections]
      rfl

end systemdetection.patches.sigscan
