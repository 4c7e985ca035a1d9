import SystemDetection.Memory.Permitted

open effect store

namespace systemdetection.patches.memory

variable {σ ε α β : Type}

/-- While the system is in a usable state, every query inside the range finds
committed, readable and unguarded memory up to a representable region end. -/
structure Readable (os : Os σ) (usable : σ → Prop) (start stop : Nat) : Prop where
  answers : ∀ state, usable state → ∀ address, start ≤ address → address < stop →
    ∃ information state', os.VirtualQuery address state = (some information, state') ∧
      usable state' ∧ information.State = MEM_COMMIT ∧ information.Protect &&& PAGE_GUARD = 0 ∧
      is_readable_protection information.Protect = true ∧
      address < information.BaseAddress + information.RegionSize ∧
      information.BaseAddress + information.RegionSize < USIZE_LIMIT

/-- The range lies in the region found at its start. It can be made writable, with
or without execute permission, and then be given back its old protection and be
flushed, after which the system is usable again. -/
structure Writable (os : Os σ) (usable : σ → Prop) (address length : Nat) : Prop where
  single_region : ∀ state, usable state → ∀ information state',
    os.VirtualQuery address state = (some information, state') →
      address + length ≤ information.BaseAddress + information.RegionSize
  cycle : ∀ state, usable state → ∀ protection,
    protection = PAGE_READWRITE ∨ protection = PAGE_EXECUTE_READWRITE →
    ∃ old_protection unlocked previous restored flushed,
      os.VirtualProtect address length protection state = (.ok old_protection, unlocked) ∧
      os.VirtualProtect address length old_protection unlocked = (.ok previous, restored) ∧
      os.FlushInstructionCache address length restored = (.ok (), flushed) ∧ usable flushed

/-- Asking about an address leaves the system usable. -/
def Queryable (os : Os σ) (usable : σ → Prop) : Prop :=
  ∀ address state, usable state → usable (os.VirtualQuery address state).2

/-- Reading then leaves the system usable too. -/
theorem Queryable.watches {os : Os σ} {usable : σ → Prop} (hqueries : Queryable os usable) :
    Watches os fun before after => usable before.os → usable after.os where
  refl _ := id
  trans _ _ _ hfirst hsecond husable := hsecond (hfirst husable)
  query world address := hqueries address world.os
  read _ _ _ := id

theorem Readable.mono {os : Os σ} {usable : σ → Prop} {start stop start' stop' : Nat}
    (hreadable : Readable os usable start stop) (hlo : start ≤ start') (hhi : stop' ≤ stop) :
    Readable os usable start' stop' where
  answers state husable address hstart hstop :=
    hreadable.answers state husable address (by omega) (by omega)

theorem Readable.stop_lt {os : Os σ} {usable : σ → Prop} {start stop : Nat} {state : σ}
    (hreadable : Readable os usable start stop) (husable : usable state) (hnonempty : start < stop) :
    stop < USIZE_LIMIT := by
  obtain ⟨_, _, _, _, _, _, _, hlast, hlimit⟩ :=
    hreadable.answers state husable (stop - 1) (by omega) (by omega)
  omega

/-- Over the given memory the action has this result, leaves the memory as it
is, and keeps the system usable. -/
def Reads (usable : σ → Prop) (memory : Store UInt8) (action : Action (World σ) ε α)
    (result : Except ε α) : Prop :=
  ∀ world : World σ, world.memory = memory → usable world.os →
    ∃ world', action world = (result, world') ∧ world'.memory = memory ∧ usable world'.os

section Reads

variable {usable : σ → Prop} {memory : Store UInt8}

theorem reads_pure (value : α) : Reads usable memory (pure value : Action (World σ) ε α) (.ok value) :=
  fun world hmemory husable => ⟨world, rfl, hmemory, husable⟩

theorem reads_throw (error : ε) : Reads usable memory (throw error : Action (World σ) ε α) (.error error) :=
  fun world hmemory husable => ⟨world, rfl, hmemory, husable⟩

theorem reads_lift (result : Except ε α) :
    Reads usable memory (Action.lift result : Action (World σ) ε α) result :=
  fun world hmemory husable => ⟨world, rfl, hmemory, husable⟩

theorem Reads.bind {action : Action (World σ) ε α} {next : α → Action (World σ) ε β} {value : α}
    {result : Except ε β} (hfirst : Reads usable memory action (.ok value))
    (hnext : Reads usable memory (next value) result) : Reads usable memory (action >>= next) result := by
  intro world hmemory husable
  obtain ⟨middle, hrun, hmiddle, hmiddleUsable⟩ := hfirst world hmemory husable
  rw [Action.bind_of_ok hrun]
  exact hnext middle hmiddle hmiddleUsable

theorem Reads.bind_error {action : Action (World σ) ε α} {next : α → Action (World σ) ε β} {error : ε}
    (hfirst : Reads usable memory action (.error error)) :
    Reads usable memory (action >>= next) (.error error) := by
  intro world hmemory husable
  obtain ⟨middle, hrun, hmiddle⟩ := hfirst world hmemory husable
  exact ⟨middle, Action.bind_of_error hrun, hmiddle⟩

theorem Reads.attempt {ε' : Type} {action : Action (World σ) ε α} {result : Except ε α}
    (haction : Reads usable memory action result) :
    Reads usable memory (action.attempt : Action (World σ) ε' (Except ε α)) (.ok result) := by
  intro world hmemory husable
  obtain ⟨world', hrun, hworld'⟩ := haction world hmemory husable
  exact ⟨world', by simp [hrun], hworld'⟩

theorem Reads.map_err {ε' : Type} {action : Action (World σ) ε α} {result : Except ε α}
    (haction : Reads usable memory action result) (convert : ε → ε') :
    Reads usable memory (action.map_err convert) (result.mapError convert) := by
  intro world hmemory husable
  obtain ⟨world', hrun, hworld'⟩ := haction world hmemory husable
  exact ⟨world', by simp [hrun], hworld'⟩

/-- Over the given memory the action succeeds with a value exactly when that
value is accepted, so with at most one, and otherwise it fails. -/
def Yields (usable : σ → Prop) (memory : Store UInt8) (action : Action (World σ) ε α)
    (accepts : α → Prop) : Prop :=
  ∃ result, Reads usable memory action result ∧ ∀ value, result = .ok value ↔ accepts value

theorem Reads.yields {action : Action (World σ) ε α} {result : Except ε α} {accepts : α → Prop}
    (hreads : Reads usable memory action result) (haccepts : ∀ value, result = .ok value ↔ accepts value) :
    Yields usable memory action accepts :=
  ⟨result, hreads, haccepts⟩

theorem yields_lift (result : Except ε α) :
    Yields usable memory (Action.lift result : Action (World σ) ε α) fun value => result = .ok value :=
  ⟨result, reads_lift result, fun _ => Iff.rfl⟩

theorem yields_throw (error : ε) :
    Yields usable memory (throw error : Action (World σ) ε α) fun _ => False :=
  ⟨.error error, reads_throw error, fun _ => by simp⟩

/-- The values that a sequence may yield are those of its second action, after one of the first.
-/
theorem Yields.bind {action : Action (World σ) ε α} {next : α → Action (World σ) ε β}
    {accepts : α → Prop} {accepts' : α → β → Prop} (hfirst : Yields usable memory action accepts)
    (hnext : ∀ value, accepts value → Yields usable memory (next value) (accepts' value)) :
    Yields usable memory (action >>= next) fun result => ∃ value, accepts value ∧ accepts' value result := by
  obtain ⟨first, hreads, haccepts⟩ := hfirst
  cases first with
  | error error =>
    refine ⟨.error error, hreads.bind_error, fun value => ?_⟩
    have hnone : ∀ value, ¬ accepts value := fun value hvalue => nomatch (haccepts value).mpr hvalue
    simp [hnone]
  | ok value =>
    obtain ⟨result, hreads', haccepts'⟩ := hnext value ((haccepts value).mp rfl)
    refine ⟨result, hreads.bind hreads', fun final => ?_⟩
    have honly : ∀ other, accepts other ↔ other = value := fun other => by
      rw [← haccepts other, Except.ok.injEq, eq_comm]
    simp [honly, haccepts']

theorem Reads.bind_yields {action : Action (World σ) ε α} {next : α → Action (World σ) ε β} {value : α}
    {accepts : β → Prop} (hfirst : Reads usable memory action (.ok value))
    (hnext : Yields usable memory (next value) accepts) :
    Yields usable memory (action >>= next) accepts := by
  obtain ⟨result, hreads, haccepts⟩ := hnext
  exact ⟨result, hfirst.bind hreads, haccepts⟩

theorem Yields.congr {action : Action (World σ) ε α} {accepts accepts' : α → Prop}
    (hyields : Yields usable memory action accepts) (hiff : ∀ value, accepts value ↔ accepts' value) :
    Yields usable memory action accepts' := by
  obtain ⟨result, hreads, haccepts⟩ := hyields
  exact ⟨result, hreads, fun value => (haccepts value).trans (hiff value)⟩

theorem Yields.run_ok_iff {action : Action (World σ) ε α} {accepts : α → Prop}
    (hyields : Yields usable memory action accepts) {world : World σ} (hmemory : world.memory = memory)
    (husable : usable world.os) {value : α} :
    (action world).1 = .ok value ↔ accepts value := by
  obtain ⟨result, hreads, haccepts⟩ := hyields
  obtain ⟨world', hrun, _⟩ := hreads world hmemory husable
  rw [hrun, haccepts]

end Reads

section Reliable

variable {os : Os σ} {usable : σ → Prop} {start stop address length : Nat}
  {expected replacement : List UInt8}

theorem readable_region_end_of_readable {information : MemoryBasicInformation}
    (hstate : information.State = MEM_COMMIT) (hguard : information.Protect &&& PAGE_GUARD = 0)
    (hprotection : is_readable_protection information.Protect = true)
    (hlimit : information.BaseAddress + information.RegionSize < USIZE_LIMIT) :
    readable_region_end address information =
      .ok (information.BaseAddress + information.RegionSize) := by
  simp [readable_region_end, hstate, hguard, hprotection, checked_add_of_lt hlimit]

/-- Over readable memory the walk reaches its end. -/
theorem Readable.walk (hreadable : Readable os usable start stop) (last cursor : Nat) (hlast : last ≤ stop)
    (hcursor : start ≤ cursor) {state : σ} (husable : usable state) :
    ∃ state', WalkPermitted os last cursor state state' ∧ usable state' := by
  by_cases hlt : cursor < last
  · obtain ⟨information, next, hquery, hnext, hstate, hguard, hprotection, hbeyond, hlimit⟩ :=
      hreadable.answers state husable cursor hcursor (by omega)
    obtain ⟨state', hwalk, husable'⟩ := hreadable.walk last
      (min (information.BaseAddress + information.RegionSize) last) hlast (by omega) hnext
    exact ⟨state', .region hlt hquery (readable_region_end_of_readable hstate hguard hprotection hlimit) hbeyond
      hwalk, husable'⟩
  · exact ⟨state, .reached state (Nat.le_of_not_lt hlt), husable⟩
termination_by last - cursor

/-- So a readable range can be read all through. -/
theorem Readable.range (hreadable : Readable os usable start stop) (hlo : start ≤ address)
    (hhi : address + length ≤ stop) (hlength : length ≠ 0) {state : σ} (husable : usable state) :
    ∃ last, RangePermitted os address length state last ∧ usable last := by
  obtain ⟨last, hwalk, hlast⟩ := hreadable.walk (address + length) address hhi hlo husable
  have hlimit := hreadable.stop_lt husable (by omega)
  exact ⟨last, ⟨by omega, hwalk⟩, hlast⟩

/-- A readable range passes its check. -/
theorem Readable.range_reads (hreadable : Readable os usable start stop)
    (memory : Store UInt8) (hlo : start ≤ address) (hhi : address + length ≤ stop) :
    Reads usable memory (validate_readable_range os address length) (.ok ()) := by
  unfold validate_readable_range
  split
  · exact reads_pure ()
  · rename_i hlength
    intro world hmemory husable
    obtain ⟨last, hrange, hlast⟩ := hreadable.range hlo hhi hlength husable
    rw [checked_add_of_lt hrange.fits]
    exact ⟨_, hrange.walk.loop_ok world rfl, hmemory, hlast⟩

/-- Readable memory is read exactly. -/
theorem Readable.read_bytes_reads (hreadable : Readable os usable start stop) (memory : Store UInt8)
    (hlo : start ≤ address) (hhi : address + length ≤ stop) :
    Reads usable memory (read_bytes os address length) (.ok (memory.read address length)) := by
  refine Reads.bind (hreadable.range_reads memory hlo hhi) ?_
  split
  · intro world hmemory husable
    subst hmemory
    exact ⟨_, raw_read_apply address length world, rfl, husable⟩
  · rename_i hlength
    rw [show memory.read address length = [] by simp_all [Store.read]]
    exact reads_pure []

/-- On readable memory the guard is decided by the bytes alone. -/
theorem Readable.validate_bytes_reads (hreadable : Readable os usable start stop) (memory : Store UInt8)
    (hlo : start ≤ address) (hhi : address + expected.length ≤ stop)
    (hnonempty : replacement ≠ []) (hlength : expected.length = replacement.length) :
    Reads usable memory (validate_bytes os address expected replacement)
      (classify_bytes address expected replacement (memory.read address expected.length)) := by
  rintro world rfl husable
  obtain ⟨last, hrange, hlast⟩ := hreadable.range hlo (hlength ▸ hhi) (by simpa using hnonempty) husable
  exact ⟨_, hrange.validate_bytes_eq hnonempty hlength, rfl, hlast⟩

/-- Readable and writable memory permits a write of other bytes than it holds. -/
theorem Writable.write_permitted (hwritable : Writable os usable address replacement.length)
    (hreadable : Readable os usable address (address + replacement.length)) (hnonempty : replacement ≠ [])
    {memory : Store UInt8} (hheld : memory.read address expected.length = expected)
    (hdiffers : expected ≠ replacement) {state : σ} (husable : usable state) :
    ∃ last, WritePermitted os memory address expected replacement state last ∧ usable last := by
  have hlength : replacement.length ≠ 0 := by simpa using hnonempty
  obtain ⟨walked, hrange, hwalked⟩ := hreadable.range (Nat.le_refl _) (Nat.le_refl _) hlength husable
  obtain ⟨information, queried, hquery, hqueried, hstate, hguard, hprotection, _, hlimit⟩ :=
    hreadable.answers walked hwalked address (Nat.le_refl _) (by omega)
  obtain ⟨old_protection, unlocked, previous, restored, flushed, hprotect, hrestore, hflush, hflushed⟩ :=
    hwritable.cycle queried hqueried _ (writable_protection_cases information.Protect)
  obtain ⟨last, hread, hlast⟩ := hreadable.range (Nat.le_refl _) (Nat.le_refl _) hlength hflushed
  exact ⟨last, .copied hheld hdiffers hrange hquery
    (readable_region_end_of_readable hstate hguard hprotection hlimit)
    (hwritable.single_region walked hwalked information queried hquery) hprotect
    (.calls hrestore hflush hread), hlast⟩

/-- On cooperating memory `write_checked` is its guard followed by the store. -/
theorem write_checked_reliable (hreadable : Readable os usable address (address + replacement.length))
    (hwritable : Writable os usable address replacement.length) (hnonempty : replacement ≠ [])
    (hlength : expected.length = replacement.length) (world : World σ) (husable : usable world.os) :
    ∃ world', write_checked os address expected replacement world =
        (classify_bytes address expected replacement (world.memory.read address expected.length), world') ∧
      usable world'.os ∧
      world'.memory =
        if classify_bytes address expected replacement (world.memory.read address expected.length) =
          .ok .Applied then world.memory.write address replacement else world.memory := by
  obtain ⟨guarded, hguard, hguarded, husable'⟩ := hreadable.validate_bytes_reads world.memory
    (Nat.le_refl address) (by omega) hnonempty hlength world rfl husable
  rcases hclassify : classify_bytes address expected replacement
    (world.memory.read address expected.length) with error | state
  · rw [hclassify] at hguard
    exact ⟨guarded, Action.bind_of_error hguard, husable', by simpa using hguarded⟩
  · cases state with
    | AlreadyApplied =>
      rw [hclassify] at hguard
      exact ⟨guarded, Action.bind_of_ok hguard, husable', by simpa using hguarded⟩
    | Applied =>
      obtain ⟨hheld, hdiffers⟩ := classify_bytes_applied hclassify
      obtain ⟨last, hpermitted, hlast⟩ := hwritable.write_permitted hreadable hnonempty hheld hdiffers husable
      obtain ⟨state, world', hwrite, hstate, rfl⟩ := hpermitted.write_checked_ok hnonempty hlength
      cases hclassify.symm.trans hstate
      refine ⟨world', hwrite, hlast, ?_⟩
      rw [if_pos rfl]
      obtain ⟨hstate, _⟩ | ⟨⟨_, herror⟩, _⟩ | ⟨_, _, hcopies, hfinish⟩ := write_checked_cases hwrite
      · cases hstate
      · cases herror
      · exact (finish_write_cases hfinish).2.trans hcopies.memory_eq

end Reliable

end systemdetection.patches.memory
