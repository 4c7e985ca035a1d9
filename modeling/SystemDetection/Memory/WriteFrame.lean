import SystemDetection.Memory.Protection

open effect store

namespace systemdetection.patches.memory

variable {σ : Type} {os : Os σ} {pages : σ → PageMap} {address : Nat}
  {expected replacement : List UInt8}

/-- The copy is made with the target range reprotected and every other page
as it was; the saved protection is that of the whole range. -/
theorem Copies.page_map (hpaged : PagedOs os pages) {world copied : World (Recorded σ)}
    {old_protection : UInt32}
    (hcopies : Copies (recording os) address expected replacement world old_protection copied) :
    ∃ information protection, MaximalRun (pages world.os.state) address information ∧
      address + replacement.length ≤ information.BaseAddress + information.RegionSize ∧
      is_executable protection = is_executable information.Protect ∧
      old_protection = information.Protect ∧
      pages copied.os.state = (pages world.os.state).protect address replacement.length protection ∧
      KeepsExecutable pages world copied := by
  obtain ⟨guarded, protection, queried, unlocked, hguard, hregion, hprotect, rfl⟩ := hcopies.steps
  have hrecorded := recorded_paged hpaged
  obtain ⟨hnonempty, _⟩ := hcopies.guard
  have hpositive : 0 < replacement.length := List.length_pos_iff.mpr hnonempty
  have hguarded : SamePages (fun recorded => pages recorded.state) world guarded :=
    (validate_bytes_relates (samePages_observes hrecorded).toQueries address expected replacement
      fun _ => rfl).of_eq hguard
  have hguardedKeeps : KeepsExecutable pages world guarded :=
    (validate_bytes_relates (keepsExecutable_observes hpaged).toQueries address expected replacement
      fun world => ⟨fun _ => rfl, [], by simp⟩).of_eq hguard
  obtain ⟨information, hanswer, hinside, hkind, hqueried⟩ := writable_protection_ok hregion
  have hqueriedKeeps : KeepsExecutable pages guarded queried :=
    (writable_protection_relates (keepsExecutable_observes hpaged).toQueries address _).of_eq hregion
  have hqueriedPages : pages queried.os.state = pages world.os.state := by
    rw [hqueried]
    exact (hrecorded.query_pages address guarded.os).trans hguarded
  have hrun : MaximalRun (pages world.os.state) address information := by
    have h := hrecorded.query_answer address guarded.os information hanswer
    rwa [show pages guarded.os.state = pages world.os.state from hguarded] at h
  rw [virtual_protect_apply, Prod.mk.injEq] at hprotect
  obtain ⟨hold, rfl⟩ := hprotect
  obtain ⟨hsaved, hreprotected⟩ := hrecorded.protect_ok address _ protection queried.os _ hold
  simp only [hqueriedPages] at hsaved hreprotected
  have hfirst : Overlaps address replacement.length (address / PAGE_SIZE) := by
    constructor
    · have := Nat.div_mul_le_self address PAGE_SIZE
      omega
    · rw [Nat.add_mul, Nat.one_mul]
      exact Nat.lt_div_mul_add (by decide)
  refine ⟨information, protection, hrun, hinside, hkind, ?_, hreprotected, ?_⟩
  · rw [hsaved, hrun.attributes hinside hfirst]
  · refine KeepsExecutable.trans _ _ _ (hguardedKeeps.trans _ _ _ hqueriedKeeps) ?_
    refine KeepsExecutable.of_step (fun page => ?_) _ _
    have h := PageMap.protect_executable hrun hinside hkind page
    rw [hqueriedPages]
    rw [← hreprotected] at h
    exact h

/-- The calls after the copy keep every execute permission whatever fails, and
restore the page map when they succeed. -/
theorem finish_write_pages (hpaged : PagedOs os pages) {original : PageMap}
    {information : MemoryBasicInformation} (hrun : MaximalRun original address information)
    (hinside : address + replacement.length ≤ information.BaseAddress + information.RegionSize)
    {protection : UInt32} (hkind : is_executable protection = is_executable information.Protect)
    {copied world' : World (Recorded σ)} {result : Except MemoryError WriteState}
    (hcopied : pages copied.os.state = original.protect address replacement.length protection)
    (hfinish : finish_write (recording os) address replacement information.Protect copied =
      (result, world')) :
    KeepsExecutable pages copied world' ∧
      ∀ state, result = .ok state → pages world'.os.state = original := by
  have hrecorded := recorded_paged hpaged
  have hobserves := keepsExecutable_observes hpaged
  let restored : World (Recorded σ) := { copied with
    os := ((recording os).VirtualProtect address replacement.length information.Protect copied.os).2 }
  let flushed : World (Recorded σ) := { restored with
    os := ((recording os).FlushInstructionCache address replacement.length restored.os).2 }
  have hflushedPages : pages flushed.os.state = pages restored.os.state :=
    hrecorded.flush_pages address replacement.length restored.os
  have hflushed : KeepsExecutable pages restored flushed :=
    .of_step (fun page => by rw [hpaged.flush_pages]) _ _
  have hfirst : ((virtual_protect (recording os) address replacement.length information.Protect).attempt :
      Action _ MemoryError _) copied = (.ok ((recording os).VirtualProtect address replacement.length
        information.Protect copied.os).1, restored) := rfl
  have hsecond : ((flush_instruction_cache (recording os) address replacement.length).attempt :
      Action _ MemoryError _) restored = (.ok ((recording os).FlushInstructionCache address
        replacement.length restored.os).1, flushed) := rfl
  unfold finish_write at hfinish
  rw [Action.bind_of_ok hfirst, Action.bind_of_ok hsecond] at hfinish
  rcases hrestore : ((recording os).VirtualProtect address replacement.length information.Protect
    copied.os).1 with error | previous
  · -- The failed restore leaves the range at its writable protection.
    have hrestored := hobserves.refused copied address _ _ error hrestore
    rw [hrestore] at hfinish
    simp only [Action.throw_apply, Prod.mk.injEq] at hfinish
    obtain ⟨rfl, rfl⟩ := hfinish
    exact ⟨hobserves.trans _ _ _ hrestored hflushed, by simp⟩
  · obtain ⟨_, hreprotected⟩ := hrecorded.protect_ok address _ _ copied.os previous hrestore
    simp only [hcopied, PageMap.protect_restore hrun hinside] at hreprotected
    have hrestored : KeepsExecutable pages copied restored := by
      refine KeepsExecutable.of_step (fun page => ?_) _ _
      have h := PageMap.protect_executable hrun hinside hkind page
      rw [hcopied, h]
      exact congrArg (fun map : PageMap => is_executable (map page).Protect) hreprotected
    rw [hrestore] at hfinish
    rcases hflush : ((recording os).FlushInstructionCache address replacement.length restored.os).1
      with error | _
    · rw [hflush] at hfinish
      simp only [Action.throw_apply, Prod.mk.injEq] at hfinish
      obtain ⟨rfl, rfl⟩ := hfinish
      exact ⟨hobserves.trans _ _ _ hrestored hflushed, by simp⟩
    · rw [hflush] at hfinish
      dsimp only at hfinish
      have hverify : ∀ R, Observes (recording os) R →
          (∀ world : World (Recorded σ), R world { world with
            accesses := world.accesses ++ [⟨.read, address, replacement.length⟩] }) →
          R flushed world' := by
        intro R hR hread
        refine Action.Relates.of_eq (Action.relates_bind hR.trans
          (read_bytes_relates hR.toQueries address replacement.length hread) fun actual => ?_) hfinish
        split
        · exact Action.relates_throw hR.refl _
        · exact Action.relates_pure hR.refl _
      have hkeeps := hverify _ hobserves fun world => ⟨fun _ => rfl, [], by simp⟩
      have hsame := hverify _ (samePages_observes hrecorded) fun _ => rfl
      refine ⟨hobserves.trans _ _ _ (hobserves.trans _ _ _ hrestored hflushed) hkeeps, fun _ _ => ?_⟩
      exact (hsame.trans hflushedPages).trans hreprotected

/-- `write_checked` frames protections and memory. On success every page has its old
attributes, the target holds the replacement and nothing else changed; an error
raised before the copy, so up to and including a failed first `VirtualProtect`,
changed neither; and in every state visited on the way each page is executable
exactly if it was before. -/
theorem write_checked_frame (os : Os σ) (pages : σ → PageMap) (hpaged : PagedOs os pages)
    (address : Nat) (expected replacement : List UInt8) (world : World (Recorded σ)) :
    let (result, world') := write_checked (recording os) address expected replacement world
    (∀ state, result = .ok state →
      pages world'.os.state = pages world.os.state ∧
        world'.memory.read address replacement.length = replacement ∧
        ∀ position, position < address ∨ address + replacement.length ≤ position →
          world'.memory position = world.memory position) ∧
    (∀ error, result = .error error →
      (¬ ∃ old_protection copied,
        Copies (recording os) address expected replacement world old_protection copied) →
        world'.memory = world.memory ∧ pages world'.os.state = pages world.os.state) ∧
    KeepsExecutable pages world world' := by
  rcases hwrite : write_checked (recording os) address expected replacement world with ⟨result, world'⟩
  have hrecorded := recorded_paged hpaged
  have hobserves := keepsExecutable_observes hpaged
  dsimp only
  rcases write_checked_cases hwrite with ⟨rfl, hvalid⟩ | ⟨⟨error, rfl⟩, huntouched, _⟩ |
      ⟨old_protection, copied, hcopies, hfinish⟩
  · obtain ⟨_, _, hheld, hmemory⟩ := validate_bytes_ok hvalid
    have hsame := (validate_bytes_relates (samePages_observes hrecorded).toQueries address expected replacement
      fun _ => rfl).of_eq hvalid
    have hkeeps := (validate_bytes_relates hobserves.toQueries address expected replacement
      fun world => ⟨fun _ => rfl, [], by simp⟩).of_eq hvalid
    refine ⟨fun _ _ => ⟨hsame, by rw [hmemory]; exact hheld, fun _ _ => by rw [hmemory]⟩, ?_, hkeeps⟩
    intro error herror
    cases herror
  · have hsame := huntouched _ (samePages_observes hrecorded) fun _ => rfl
    have hkeeps := huntouched _ hobserves fun world => ⟨fun _ => rfl, [], by simp⟩
    refine ⟨?_, fun _ _ _ => ⟨huntouched.memory_eq, hsame⟩, hkeeps⟩
    intro state hstate
    cases hstate
  · obtain ⟨information, protection, hrun, hinside, hkind, rfl, hcopied, hbefore⟩ :=
      hcopies.page_map hpaged
    obtain ⟨hafter, hrestored⟩ := finish_write_pages hpaged hrun hinside hkind hcopied hfinish
    have hmemory := (finish_write_cases hfinish).2.trans hcopies.memory_eq
    refine ⟨fun state hstate => ⟨hrestored state hstate, ?_, fun position hout => ?_⟩,
      fun _ _ hnot => absurd ⟨_, copied, hcopies⟩ hnot, hobserves.trans _ _ _ hbefore hafter⟩
    · rw [hmemory, Store.read_write_self]
    · rw [hmemory, Store.write_outside _ hout]

/-- One executable page in an otherwise free address space filled with `0A`. -/
def code_page_world : World (Recorded PageMap) where
  memory _ := 0x0A
  os := ⟨fun page => if page = 0x10 then ⟨MEM_COMMIT, PAGE_EXECUTE_READ⟩ else ⟨0, 0x01⟩, []⟩
  accesses := []

theorem write_checked_frame_on_code_page :
    let (result, world') := write_checked (recording page_table) 0x10005 [0x0A] [0x14] code_page_world
    result = .ok .Applied ∧ world'.os.state = code_page_world.os.state ∧
      world'.memory.read 0x10005 1 = [0x14] := by
  have hresult : (write_checked (recording page_table) 0x10005 [0x0A] [0x14] code_page_world).1 =
      .ok .Applied := by decide +kernel
  obtain ⟨hok, _, _⟩ :=
    write_checked_frame page_table id page_table_paged 0x10005 [0x0A] [0x14] code_page_world
  obtain ⟨hpages, hheld, _⟩ := hok .Applied hresult
  exact ⟨hresult, hpages, hheld⟩

end systemdetection.patches.memory
