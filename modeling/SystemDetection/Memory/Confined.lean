import SystemDetection.Memory.WriteCases

open effect store

namespace systemdetection.patches.memory

variable {σ ε ε' α β : Type}

/-- Over the given memory, and whatever the system answers, the action makes
only permitted accesses, leaves the memory as it is and returns only accepted
values. -/
def Confined (permitted : Access → Prop) (memory : Store UInt8) (action : Action (World σ) ε α)
    (accepts : α → Prop) : Prop :=
  ∀ world : World σ, world.memory = memory → world.Accesses permitted (action world).2 ∧
    (action world).2.memory = memory ∧ ∀ value, (action world).1 = .ok value → accepts value

section Rules

variable {permitted : Access → Prop} {memory : Store UInt8}

theorem confined_pure {value : α} {accepts : α → Prop} (haccepts : accepts value) :
    Confined permitted memory (pure value : Action (World σ) ε α) accepts := by
  intro world hmemory
  refine ⟨World.Accesses.refl permitted world, hmemory, fun other hother => ?_⟩
  cases hother
  exact haccepts

theorem confined_throw (error : ε) (accepts : α → Prop) :
    Confined permitted memory (throw error : Action (World σ) ε α) accepts :=
  fun world hmemory => ⟨World.Accesses.refl permitted world, hmemory, nofun⟩

theorem confined_lift (result : Except ε α) :
    Confined permitted memory (Action.lift result : Action (World σ) ε α) (result = .ok ·) :=
  fun world hmemory => ⟨World.Accesses.refl permitted world, hmemory, fun _ => id⟩

/-- The second action is confined for every value that the first may yield. -/
theorem Confined.bind {action : Action (World σ) ε α} {next : α → Action (World σ) ε β}
    {first : α → Prop} {accepts : β → Prop} (hfirst : Confined permitted memory action first)
    (hnext : ∀ value, first value → Confined permitted memory (next value) accepts) :
    Confined permitted memory (action >>= next) accepts := by
  intro world hmemory
  obtain ⟨haccesses, hkept, hvalues⟩ := hfirst world hmemory
  rcases hrun : action world with ⟨error | value, middle⟩
  · rw [hrun] at haccesses hkept
    rw [Action.bind_of_error hrun]
    exact ⟨haccesses, hkept, nofun⟩
  · rw [hrun] at haccesses hkept hvalues
    rw [Action.bind_of_ok hrun]
    obtain ⟨hlater, hstays, hresults⟩ := hnext value (hvalues value rfl) middle hkept
    exact ⟨World.Accesses.trans _ _ _ _ haccesses hlater, hstays, hresults⟩

theorem Confined.mono {action : Action (World σ) ε α} {strict loose : α → Prop}
    (haction : Confined permitted memory action strict) (hweaken : ∀ value, strict value → loose value) :
    Confined permitted memory action loose := by
  intro world hmemory
  obtain ⟨haccesses, hkept, hvalues⟩ := haction world hmemory
  exact ⟨haccesses, hkept, fun value hvalue => hweaken value (hvalues value hvalue)⟩

theorem Confined.map_err {action : Action (World σ) ε α} {accepts : α → Prop}
    (haction : Confined permitted memory action accepts) (convert : ε → ε') :
    Confined permitted memory (action.map_err convert) accepts := by
  intro world hmemory
  obtain ⟨haccesses, hkept, hvalues⟩ := haction world hmemory
  exact ⟨haccesses, hkept, fun value hvalue => hvalues value (mapError_eq_ok_iff.mp hvalue)⟩

/-- A caller that goes on after an error learns nothing from it. -/
theorem Confined.attempt {action : Action (World σ) ε α} {accepts : α → Prop}
    (haction : Confined permitted memory action accepts) :
    Confined permitted memory (action.attempt : Action (World σ) ε' (Except ε α))
      fun result => ∀ value, result = .ok value → accepts value := by
  intro world hmemory
  obtain ⟨haccesses, hkept, hvalues⟩ := haction world hmemory
  refine ⟨haccesses, hkept, fun result hresult value hvalue => ?_⟩
  cases hresult
  exact hvalues value hvalue

end Rules

section Readers

variable (os : Os σ) {permitted : Access → Prop} {address : Nat}

/-- A checked read accesses the range that it was asked for, and nothing else. -/
theorem read_bytes_confined (memory : Store UInt8) {length : Nat}
    (hpermitted : permitted ⟨.read, address, length⟩) :
    Confined permitted memory (read_bytes os address length) fun _ => True := by
  intro world hmemory
  have haccesses := read_bytes_relates (accesses_calls os permitted).toQueries address length
    (fun world => ⟨[⟨.read, address, length⟩], rfl, by simpa using hpermitted⟩) world
  have hkept : (read_bytes os address length world).2.memory = world.memory :=
    read_bytes_relates (sameMemory_calls os).toQueries address length (fun _ => rfl) world
  exact ⟨haccesses, hkept.trans hmemory, fun _ _ => trivial⟩

theorem validate_bytes_confined (memory : Store UInt8) {expected : List UInt8} (replacement : List UInt8)
    (hpermitted : permitted ⟨.read, address, expected.length⟩) :
    Confined permitted memory (validate_bytes os address expected replacement) fun _ => True := by
  refine (confined_lift _).bind fun _ _ => (read_bytes_confined os memory hpermitted).bind fun _ _ => ?_
  exact (confined_lift _).mono fun _ _ => trivial

/-- A range that leaves the address space is refused. -/
theorem read_bytes_overflow {length : Nat} (hlength : length ≠ 0)
    (hoverflow : USIZE_LIMIT ≤ address + length) (world : World σ) :
    ∃ error, (read_bytes os address length world).1 = .error error := by
  have hrange : validate_readable_range os address length world =
      (.error (.AddressOverflow address length), world) := by
    unfold validate_readable_range
    rw [if_neg hlength, checked_add_eq_none_iff.mpr hoverflow]
    rfl
  unfold read_bytes
  exact ⟨_, by rw [Action.bind_of_error hrange]⟩

/-- A target that holds one of the two byte strings is turned down only if the
system does not let it be read. -/
theorem validate_bytes_refused {expected replacement : List UInt8} (hnonempty : replacement ≠ [])
    (hlengths : expected.length = replacement.length) {world : World σ}
    (hheld : world.memory.read address expected.length = expected ∨
      world.memory.read address expected.length = replacement) {error : MemoryError}
    (herror : (validate_bytes os address expected replacement world).1 = .error error) :
    ∃ cause, (read_bytes os address expected.length world).1 = .error cause := by
  obtain hlift | ⟨_, start, hlift, hrest⟩ := Action.bind_eq_error_iff.mp (Action.eq_of_result herror)
  · rw [Action.lift_apply, validate_lengths_eq_ok_iff.mpr ⟨hnonempty, hlengths⟩] at hlift
    cases hlift
  · obtain ⟨_, rfl⟩ := Prod.mk.inj hlift
    obtain hread | ⟨actual, middle, hread, hclassify⟩ := Action.bind_eq_error_iff.mp hrest
    · exact ⟨error, by rw [hread]⟩
    · rw [← (read_bytes_ok hread).1] at hheld
      rw [Action.lift_apply, Prod.mk.injEq] at hclassify
      unfold classify_bytes at hclassify
      obtain rfl | rfl := hheld
      · split at hclassify <;> simp at hclassify
      · simp at hclassify

end Readers

end systemdetection.patches.memory
