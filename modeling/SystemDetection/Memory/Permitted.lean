import SystemDetection.Memory.WriteCases

open effect store

namespace systemdetection.patches.memory

variable {σ : Type} {os : Os σ} {world : World σ} {address length : Nat} {expected replacement : List UInt8}

/-- The answers to the queries up from the cursor: each finds memory that can be read and
leads further, until the stop is reached. -/
inductive WalkPermitted (os : Os σ) (stop : Nat) : Nat → σ → σ → Prop where
  | reached {cursor : Nat} (state : σ) (hcursor : stop ≤ cursor) : WalkPermitted os stop cursor state state
  | region {cursor region_end : Nat} {information : MemoryBasicInformation} {state next last : σ}
      (hcursor : cursor < stop) (hanswer : os.VirtualQuery cursor state = (some information, next))
      (hend : readable_region_end cursor information = .ok region_end) (hadvance : cursor < region_end)
      (hrest : WalkPermitted os stop (min region_end stop) next last) :
      WalkPermitted os stop cursor state last

/-- The range is one of addresses, and can be read all through. -/
structure RangePermitted (os : Os σ) (address length : Nat) (state last : σ) : Prop where
  fits : address + length < USIZE_LIMIT
  walk : WalkPermitted os (address + length) address state last

/-- The answers to the calls after a copy: the old protection is back, the cache is
flushed, and the range can still be read. -/
inductive FinishPermitted (os : Os σ) (address length : Nat) (old_protection : UInt32) : σ → σ → Prop where
  | calls {state restored flushed last : σ} {previous : UInt32}
      (hrestore : os.VirtualProtect address length old_protection state = (.ok previous, restored))
      (hflush : os.FlushInstructionCache address length restored = (.ok (), flushed))
      (hrange : RangePermitted os address length flushed last) :
      FinishPermitted os address length old_protection state last

/-- The protection that a write asks for, from the one it finds. -/
def writable_protection (protection : UInt32) : UInt32 :=
  let base := protection &&& 0xFF
  if base = PAGE_EXECUTE_READ ∨ base = PAGE_EXECUTE_READWRITE ∨ base = PAGE_EXECUTE_WRITECOPY
    then PAGE_EXECUTE_READWRITE else PAGE_READWRITE

theorem writable_protection_cases (protection : UInt32) :
    writable_protection protection = PAGE_READWRITE ∨
      writable_protection protection = PAGE_EXECUTE_READWRITE := by
  unfold writable_protection
  dsimp only
  split
  · exact .inr rfl
  · exact .inl rfl

/-- What a checked write needs of the memory and of the system, from the first query to
the last: the target holds the replacement, or it holds the expected bytes in one region
that can be made writable. -/
inductive WritePermitted (os : Os σ) (memory : Store UInt8) (address : Nat)
    (expected replacement : List UInt8) : σ → σ → Prop where
  | already {state last : σ} (hheld : memory.read address replacement.length = replacement)
      (hrange : RangePermitted os address replacement.length state last) :
      WritePermitted os memory address expected replacement state last
  | copied {state walked queried unlocked last : σ} {information : MemoryBasicInformation} {region_end : Nat}
      {old_protection : UInt32} (hheld : memory.read address expected.length = expected)
      (hdiffers : expected ≠ replacement) (hrange : RangePermitted os address replacement.length state walked)
      (hanswer : os.VirtualQuery address walked = (some information, queried))
      (hend : readable_region_end address information = .ok region_end)
      (hinside : address + replacement.length ≤ region_end)
      (hprotect : os.VirtualProtect address replacement.length (writable_protection information.Protect)
        queried = (.ok old_protection, unlocked))
      (hfinish : FinishPermitted os address replacement.length old_protection unlocked last) :
      WritePermitted os memory address expected replacement state last

/-- A walk that succeeds has been permitted by every answer. -/
theorem validate_readable_loop_ok {stop cursor : Nat} {world' : World σ}
    (hloop : validate_readable_loop os stop cursor world = (.ok (), world')) :
    WalkPermitted os stop cursor world.os world'.os := by
  induction cursor using validate_readable_loop.induct stop generalizing world with
  | case1 cursor hcursor ih =>
    rw [validate_readable_loop, dif_pos hcursor] at hloop
    rcases hanswer : os.VirtualQuery cursor world.os with ⟨answer, next⟩
    rw [Action.bind_of_ok (virtual_query_of_answer hanswer)] at hloop
    cases answer with
    | none => simp at hloop
    | some information =>
      obtain ⟨region_end, queried, hlift, hloop⟩ := Action.bind_eq_ok_iff.mp hloop
      simp only [Action.lift_apply, Prod.mk.injEq] at hlift
      obtain ⟨hend, rfl⟩ := hlift
      by_cases hadvance : region_end ≤ cursor
      · simp [hadvance] at hloop
      · rw [dif_neg hadvance] at hloop
        exact .region hcursor hanswer hend (Nat.lt_of_not_le hadvance) (ih region_end hadvance hloop)
  | case2 cursor hcursor =>
    rw [validate_readable_loop, dif_neg hcursor] at hloop
    cases hloop
    exact .reached _ (Nat.le_of_not_lt hcursor)

/-- A permitted walk succeeds, and changes nothing but the system. -/
theorem WalkPermitted.loop_ok {stop cursor : Nat} {state last : σ}
    (hwalk : WalkPermitted os stop cursor state last) (world : World σ) (hstate : world.os = state) :
    validate_readable_loop os stop cursor world = (.ok (), { world with os := last }) := by
  induction hwalk generalizing world with
  | reached state hcursor =>
    rw [validate_readable_loop, dif_neg (Nat.not_lt.mpr hcursor), ← hstate]
    rfl
  | region hcursor hanswer hend hadvance _ ih =>
    rw [validate_readable_loop, dif_pos hcursor,
      Action.bind_of_ok (virtual_query_of_answer (hstate ▸ hanswer))]
    dsimp only
    rw [hend]
    rw [Action.bind_of_ok (Action.lift_apply _ _), dif_neg (Nat.not_le.mpr hadvance)]
    exact ih _ rfl

/-- Bytes are read exactly when the answers permit it. -/
theorem read_bytes_permitted {bytes : List UInt8} {world' : World σ} (hlength : length ≠ 0)
    (hread : read_bytes os address length world = (.ok bytes, world')) :
    RangePermitted os address length world.os world'.os := by
  obtain ⟨_, middle, hrange, hcopy⟩ := Action.bind_eq_ok_iff.mp hread
  rw [if_pos hlength, raw_read_apply, Prod.mk.injEq] at hcopy
  have hlast : world'.os = middle.os := by rw [← hcopy.2]
  rw [hlast]
  rw [validate_readable_range, if_neg hlength] at hrange
  cases hstop : checked_add address length with
  | none => simp [hstop] at hrange
  | some stop =>
    rw [hstop] at hrange
    obtain ⟨rfl, hfits⟩ := checked_add_eq_some_iff.mp hstop
    exact ⟨hfits, validate_readable_loop_ok hrange⟩

/-- A permitted range is read as it is in memory. -/
theorem RangePermitted.read_bytes_ok {last : σ} (hrange : RangePermitted os address length world.os last)
    (hlength : length ≠ 0) :
    read_bytes os address length world = (.ok (world.memory.read address length),
      { world with os := last, accesses := world.accesses ++ [⟨.read, address, length⟩] }) := by
  have hvalid : validate_readable_range os address length world = (.ok (), { world with os := last }) := by
    rw [validate_readable_range, if_neg hlength, checked_add_of_lt hrange.fits]
    exact hrange.walk.loop_ok world rfl
  rw [read_bytes, Action.bind_of_ok hvalid, if_pos hlength, raw_read_apply]

/-- A write that was finished has been permitted to the end. -/
theorem finish_write_permitted {old_protection : UInt32} {state : WriteState} {world' : World σ}
    (hnonempty : replacement ≠ [])
    (hfinish : finish_write os address replacement old_protection world = (.ok state, world')) :
    FinishPermitted os address replacement.length old_protection world.os world'.os := by
  rcases hrestore : os.VirtualProtect address replacement.length old_protection world.os with ⟨restored, locked⟩
  rcases hflush : os.FlushInstructionCache address replacement.length locked with ⟨flushed, last⟩
  rw [finish_write, Action.bind_of_ok (Action.attempt_of_eq (virtual_protect_of_result hrestore)),
    Action.bind_of_ok (Action.attempt_of_eq (flush_instruction_cache_of_result hflush))] at hfinish
  cases restored with
  | error error => simp at hfinish
  | ok previous =>
    cases flushed with
    | error error => simp at hfinish
    | ok _ =>
      obtain ⟨actual, checked, hread, hcompare⟩ := Action.bind_eq_ok_iff.mp hfinish
      have hchecked : world' = checked := by
        split at hcompare
        · simp at hcompare
        · exact (congrArg Prod.snd hcompare).symm
      rw [hchecked]
      exact .calls hrestore hflush (read_bytes_permitted (by simpa using hnonempty) hread)

/-- Once the bytes are in memory and the last calls are permitted, the write is applied. -/
theorem FinishPermitted.finish_write_ok {old_protection : UInt32} {last : σ}
    (hfinish : FinishPermitted os address replacement.length old_protection world.os last)
    (hnonempty : replacement ≠ []) (hheld : world.memory.read address replacement.length = replacement) :
    ∃ world', finish_write os address replacement old_protection world = (.ok .Applied, world') ∧
      world'.os = last := by
  cases hfinish with
  | @calls restored flushed _ _ hrestore hflush hrange =>
    let ready : World σ := { world with os := flushed }
    let done : World σ :=
      { ready with os := last, accesses := ready.accesses ++ [⟨.read, address, replacement.length⟩] }
    have hread : read_bytes os address replacement.length ready = (.ok replacement, done) := by
      rw [RangePermitted.read_bytes_ok hrange (by simpa using hnonempty), hheld]
    refine ⟨done, ?_, rfl⟩
    rw [finish_write, Action.bind_of_ok (Action.attempt_of_eq (virtual_protect_of_result hrestore)),
      Action.bind_of_ok (Action.attempt_of_eq (flush_instruction_cache_of_result hflush))]
    dsimp only
    rw [Action.bind_of_ok hread, if_neg (not_not.mpr rfl)]
    rfl

/-- A guard that holds has read its target. -/
theorem validate_bytes_permitted {found : WriteState} {guarded : World σ}
    (hguard : validate_bytes os address expected replacement world = (.ok found, guarded)) :
    RangePermitted os address replacement.length world.os guarded.os := by
  obtain ⟨hnonempty, hsame, _, _⟩ := validate_bytes_ok hguard
  obtain ⟨_, start, hlengths, hguard⟩ := Action.bind_eq_ok_iff.mp hguard
  simp only [Action.lift_apply, Prod.mk.injEq] at hlengths
  obtain ⟨actual, checked, hread, hclassify⟩ := Action.bind_eq_ok_iff.mp hguard
  rw [Action.lift_apply, Prod.mk.injEq] at hclassify
  rw [hlengths.2, ← hclassify.2, ← hsame]
  exact read_bytes_permitted (by simpa [hsame] using hnonempty) hread

/-- On a permitted range the bytes decide the guard. -/
theorem RangePermitted.validate_bytes_eq {walked : σ}
    (hrange : RangePermitted os address replacement.length world.os walked)
    (hnonempty : replacement ≠ []) (hsame : expected.length = replacement.length) :
    validate_bytes os address expected replacement world =
      (classify_bytes address expected replacement (world.memory.read address expected.length),
        { world with os := walked, accesses := world.accesses ++ [⟨.read, address, expected.length⟩] }) := by
  have hlengths : validate_lengths expected replacement = .ok () :=
    validate_lengths_eq_ok_iff.mpr ⟨hnonempty, hsame⟩
  rw [← hsame] at hrange
  rw [validate_bytes, hlengths, Action.bind_of_ok (Action.lift_apply _ _),
    Action.bind_of_ok (hrange.read_bytes_ok (by simpa [hsame] using hnonempty)), Action.lift_apply]

/-- A write that succeeds has been permitted. -/
theorem write_checked_permitted {state : WriteState} {world' : World σ}
    (hwrite : write_checked os address expected replacement world = (.ok state, world')) :
    WritePermitted os world.memory address expected replacement world.os world'.os := by
  rcases write_checked_cases hwrite with
    ⟨_, hguard⟩ | ⟨⟨_, herror⟩, _⟩ | ⟨old, copied, hcopies, hfinish⟩
  · exact .already (validate_bytes_ok hguard).2.2.1 (validate_bytes_permitted hguard)
  · cases herror
  · obtain ⟨hnonempty, hsame, hheld, hdiffers⟩ := hcopies.guard
    obtain ⟨guarded, protection, queried, unlocked, hguard, hregion, hprotect, rfl⟩ := hcopies.steps
    have hrange := validate_bytes_permitted hguard
    rw [writable_protection_for_single_region, checked_add_of_lt hrange.fits] at hregion
    rcases hanswer : os.VirtualQuery address guarded.os with ⟨answer, next⟩
    dsimp only at hregion
    rw [Action.bind_of_ok (virtual_query_of_answer hanswer)] at hregion
    cases answer with
    | none => simp at hregion
    | some information =>
      obtain ⟨region_end, _, hlift, hregion⟩ := Action.bind_eq_ok_iff.mp hregion
      simp only [Action.lift_apply, Prod.mk.injEq] at hlift
      obtain ⟨hend, rfl⟩ := hlift
      split at hregion
      · simp at hregion
      · rename_i hinside
        simp only [Action.pure_apply, Prod.mk.injEq, Except.ok.injEq] at hregion
        obtain ⟨rfl, rfl⟩ := hregion
        rw [virtual_protect_apply, Prod.mk.injEq] at hprotect
        have hfinished := finish_write_permitted hnonempty hfinish
        exact .copied hheld hdiffers hrange hanswer hend (Nat.le_of_not_lt hinside)
          (Prod.ext hprotect.1 (congrArg World.os hprotect.2)) hfinished

/-- A permitted write succeeds, as the bytes at its target say. -/
theorem WritePermitted.write_checked_ok {last : σ}
    (hpermitted : WritePermitted os world.memory address expected replacement world.os last)
    (hnonempty : replacement ≠ []) (hsame : expected.length = replacement.length) :
    ∃ state world', write_checked os address expected replacement world = (.ok state, world') ∧
      classify_bytes address expected replacement (world.memory.read address expected.length) = .ok state ∧
      world'.os = last := by
  cases hpermitted with
  | already hheld hrange =>
    have hclassify : classify_bytes address expected replacement (world.memory.read address expected.length) =
        .ok .AlreadyApplied := by rw [hsame, hheld, classify_bytes, if_pos rfl]
    have hguard := hrange.validate_bytes_eq hnonempty hsame
    rw [hclassify] at hguard
    have hwrite : (write_checked os address expected replacement world).1 = .ok .AlreadyApplied := by
      rw [write_checked, Action.bind_of_ok hguard]
      rfl
    refine ⟨.AlreadyApplied, _, Action.eq_of_result hwrite, hclassify, ?_⟩
    rw [write_checked, Action.bind_of_ok hguard]
    rfl
  | @copied walked queried unlocked _ information region_end old hheld hdiffers hrange hanswer hend hinside
      hprotect hfinish =>
    have hclassify : classify_bytes address expected replacement (world.memory.read address expected.length) =
        .ok .Applied := by rw [hheld, classify_bytes, if_neg hdiffers, if_pos rfl]
    have hguard := hrange.validate_bytes_eq hnonempty hsame
    rw [hclassify] at hguard
    let guarded : World σ :=
      { world with os := walked, accesses := world.accesses ++ [⟨.read, address, expected.length⟩] }
    have hregion : writable_protection_for_single_region os address replacement.length guarded =
        (.ok (writable_protection information.Protect), { guarded with os := queried }) := by
      rw [writable_protection_for_single_region, checked_add_of_lt hrange.fits]
      dsimp only
      rw [Action.bind_of_ok (virtual_query_of_answer hanswer)]
      dsimp only
      rw [hend, Action.bind_of_ok (Action.lift_apply _ _), if_neg (Nat.not_lt.mpr hinside)]
      rfl
    let copied : World σ := { guarded with
      memory := world.memory.write address replacement
      os := unlocked
      accesses := guarded.accesses ++ [⟨.write, address, replacement.length⟩] }
    have hcopies : Copies os address expected replacement world old copied :=
      ⟨_, _, _, _, hguard, hregion, virtual_protect_of_result hprotect, rfl⟩
    have hreplaced : copied.memory.read address replacement.length = replacement := Store.read_write_self _ _ _
    obtain ⟨world', hfinished, hlast⟩ := hfinish.finish_write_ok hnonempty hreplaced
    exact ⟨.Applied, world', hcopies.write_checked_eq.trans hfinished, hclassify, hlast⟩

end systemdetection.patches.memory
