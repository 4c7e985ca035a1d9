import SystemDetection.Memory.Effects

open effect store

namespace systemdetection.patches.memory

variable {σ : Type} {os : Os σ} {world world' : World σ} {address length : Nat}
  {expected replacement : List UInt8}

/-- A successful read returns the memory it ranges over. The empty read, which
copies nothing, is not an exception. -/
theorem read_bytes_ok {bytes : List UInt8}
    (hread : read_bytes os address length world = (.ok bytes, world')) :
    bytes = world.memory.read address length ∧ world'.memory = world.memory := by
  have hmemory : world'.memory = world.memory := Action.Relates.of_eq
    (read_bytes_relates (sameMemory_calls os).toQueries address length fun _ => rfl) hread
  refine ⟨?_, hmemory⟩
  obtain ⟨_, middle, hrange, hcopy⟩ := Action.bind_eq_ok_iff.mp hread
  have hmiddle : middle.memory = world.memory := Action.Relates.of_eq
    (validate_readable_range_relates (sameMemory_calls os).toQueries address length) hrange
  by_cases hempty : length = 0
  · subst hempty
    simp only [ne_eq, not_true_eq_false, ↓reduceIte, Action.pure_apply, Prod.mk.injEq,
      Except.ok.injEq] at hcopy
    simp [← hcopy.1, Store.read]
  · simp only [ne_eq, hempty, not_false_eq_true, ↓reduceIte, raw_read_apply, Prod.mk.injEq,
      Except.ok.injEq] at hcopy
    rw [← hcopy.1, hmiddle]

/-- Replacements pass that are not empty and as long as what they replace. -/
theorem validate_lengths_eq_ok_iff :
    validate_lengths expected replacement = .ok () ↔
      replacement ≠ [] ∧ expected.length = replacement.length := by
  unfold validate_lengths
  cases replacement with
  | nil => simp
  | cons head tail => simp

/-- A write is needed where the expected bytes stand, and are others than the replacement. -/
theorem classify_bytes_applied {actual : List UInt8}
    (hclassify : classify_bytes address expected replacement actual = .ok .Applied) :
    actual = expected ∧ expected ≠ replacement := by
  unfold classify_bytes at hclassify
  split at hclassify
  · cases hclassify
  · rename_i hdiffers
    split at hclassify
    · rename_i horiginal
      exact ⟨horiginal, horiginal ▸ hdiffers⟩
    · cases hclassify

/-- A write is done where the replacement stands. -/
theorem classify_bytes_already {actual : List UInt8}
    (hclassify : classify_bytes address expected replacement actual = .ok .AlreadyApplied) :
    actual = replacement := by
  unfold classify_bytes at hclassify
  split at hclassify
  · assumption
  · split at hclassify <;> cases hclassify

/-- What the guard has established about the target, as a proposition on the
memory: it holds the bytes that `state` stands for. -/
def Guarded (memory : Store UInt8) (address : Nat) (expected replacement : List UInt8) :
    WriteState → Prop
  | .AlreadyApplied => memory.read address replacement.length = replacement
  | .Applied => memory.read address expected.length = expected ∧ expected ≠ replacement

/-- A target that passes the guard holds the bytes that the answer stands for. -/
theorem validate_bytes_ok {state : WriteState}
    (hvalid : validate_bytes os address expected replacement world = (.ok state, world')) :
    replacement ≠ [] ∧ expected.length = replacement.length ∧
      Guarded world.memory address expected replacement state ∧ world'.memory = world.memory := by
  obtain ⟨_, start, hlengths, hvalid⟩ := Action.bind_eq_ok_iff.mp hvalid
  simp only [Action.lift_apply, Prod.mk.injEq] at hlengths
  obtain ⟨hlengths, rfl⟩ := hlengths
  obtain ⟨hnonempty, hsame⟩ := validate_lengths_eq_ok_iff.mp hlengths
  obtain ⟨actual, checked, hread, hclassify⟩ := Action.bind_eq_ok_iff.mp hvalid
  obtain ⟨hactual, hmemory⟩ := read_bytes_ok hread
  simp only [Action.lift_apply, Prod.mk.injEq] at hclassify
  obtain ⟨hclassify, rfl⟩ := hclassify
  refine ⟨hnonempty, hsame, ?_, hmemory⟩
  rw [hactual] at hclassify
  cases state with
  | AlreadyApplied =>
    rw [Guarded, ← hsame]
    exact classify_bytes_already hclassify
  | Applied => exact classify_bytes_applied hclassify

/-- The write reaches its copy: the guard holds, the region is writable, the
first `VirtualProtect` has returned `old_protection`, and `copied` is the world
in which the replacement has just been stored. -/
structure Copies (os : Os σ) (address : Nat) (expected replacement : List UInt8)
    (world : World σ) (old_protection : UInt32) (copied : World σ) : Prop where
  steps : ∃ guarded protection queried unlocked,
    validate_bytes os address expected replacement world = (.ok .Applied, guarded) ∧
    writable_protection_for_single_region os address replacement.length guarded =
      (.ok protection, queried) ∧
    virtual_protect os address replacement.length protection queried =
      (.ok old_protection, unlocked) ∧
    copied = { unlocked with
      memory := unlocked.memory.write address replacement
      accesses := unlocked.accesses ++ [⟨.write, address, replacement.length⟩] }

/-- A copy changes the memory by the replacement and nothing else. -/
theorem Copies.memory_eq {old_protection : UInt32} {copied : World σ}
    (hcopies : Copies os address expected replacement world old_protection copied) :
    copied.memory = world.memory.write address replacement := by
  obtain ⟨guarded, protection, queried, unlocked, hguard, hregion, hprotect, rfl⟩ := hcopies.steps
  have hguarded := (validate_bytes_ok hguard).2.2.2
  have hqueried : queried.memory = guarded.memory := Action.Relates.of_eq
    (writable_protection_relates (sameMemory_calls os).toQueries address replacement.length) hregion
  have hunlocked : unlocked.memory = queried.memory := by
    rw [virtual_protect_apply, Prod.mk.injEq] at hprotect
    rw [← hprotect.2]
  simp only [hunlocked, hqueried, hguarded]

theorem Copies.guard {old_protection : UInt32} {copied : World σ}
    (hcopies : Copies os address expected replacement world old_protection copied) :
    replacement ≠ [] ∧ expected.length = replacement.length ∧
      world.memory.read address expected.length = expected ∧ expected ≠ replacement := by
  obtain ⟨guarded, protection, queried, unlocked, hguard, _⟩ := hcopies.steps
  obtain ⟨hnonempty, hsame, hheld, _⟩ := validate_bytes_ok hguard
  exact ⟨hnonempty, hsame, hheld⟩

/-- From its copy on a write is what finishes it. -/
theorem Copies.write_checked_eq {old_protection : UInt32} {copied : World σ}
    (hcopies : Copies os address expected replacement world old_protection copied) :
    write_checked os address expected replacement world =
      finish_write os address replacement old_protection copied := by
  obtain ⟨guarded, protection, queried, unlocked, hguard, hregion, hprotect, rfl⟩ := hcopies.steps
  have hok : (virtual_protect os address replacement.length protection).map_err
      (MemoryError.Protect address) queried = (.ok old_protection, unlocked) :=
    Action.map_err_eq_ok_iff.mpr hprotect
  unfold write_checked
  rw [Action.bind_of_ok hguard]
  dsimp only
  rw [Action.bind_of_ok hregion, Action.bind_of_ok hok,
    Action.bind_of_ok (raw_write_apply address replacement unlocked)]

/-- An error raised before the copy: what the write did until then leaves no
relation that queries, refused protections and reads of the target respect. -/
def Untouched (os : Os σ) (address : Nat) (expected : List UInt8) (world world' : World σ) : Prop :=
  ∀ R : World σ → World σ → Prop, Observes os R →
    (∀ world : World σ,
      R world { world with accesses := world.accesses ++ [⟨.read, address, expected.length⟩] }) →
    R world world'

theorem Untouched.memory_eq (huntouched : Untouched os address expected world world') :
    world'.memory = world.memory :=
  huntouched World.SameMemory (sameMemory_calls os).toObserves fun _ => rfl

/-- The three ways through `write_checked`: nothing to do, an error before any
byte was touched, or a copy followed by the calls of `finish_write`. -/
theorem write_checked_cases {result : Except MemoryError WriteState}
    (hwrite : write_checked os address expected replacement world = (result, world')) :
    (result = .ok .AlreadyApplied ∧
      validate_bytes os address expected replacement world = (.ok .AlreadyApplied, world')) ∨
    ((∃ error, result = .error error) ∧ Untouched os address expected world world' ∧
      ∀ old_protection copied,
        ¬ Copies os address expected replacement world old_protection copied) ∨
    (∃ old_protection copied,
      Copies os address expected replacement world old_protection copied ∧
      finish_write os address replacement old_protection copied = (result, world')) := by
  unfold write_checked at hwrite
  rcases hguard : validate_bytes os address expected replacement world with ⟨error | state, guarded⟩
  · rw [Action.bind_of_error hguard, Prod.mk.injEq] at hwrite
    obtain ⟨rfl, rfl⟩ := hwrite
    refine .inr (.inl ⟨⟨error, rfl⟩, ?_, ?_⟩)
    · intro R hobserves hread
      exact (validate_bytes_relates hobserves.toQueries address expected replacement hread).of_eq hguard
    · rintro old copied ⟨_, _, _, _, hok, _⟩
      simp [hguard] at hok
  · rw [Action.bind_of_ok hguard] at hwrite
    cases state with
    | AlreadyApplied =>
      simp only [Action.pure_apply, Prod.mk.injEq] at hwrite
      obtain ⟨rfl, rfl⟩ := hwrite
      exact .inl ⟨rfl, rfl⟩
    | Applied =>
      dsimp only at hwrite
      rcases hregion : writable_protection_for_single_region os address replacement.length guarded
        with ⟨error | protection, queried⟩
      · rw [Action.bind_of_error hregion, Prod.mk.injEq] at hwrite
        obtain ⟨rfl, rfl⟩ := hwrite
        refine .inr (.inl ⟨⟨error, rfl⟩, ?_, ?_⟩)
        · intro R hobserves hread
          exact hobserves.trans _ _ _
            ((validate_bytes_relates hobserves.toQueries address expected replacement hread).of_eq hguard)
            ((writable_protection_relates hobserves.toQueries address _).of_eq hregion)
        · rintro old copied ⟨_, _, _, _, hok, hok', _⟩
          rw [hguard] at hok
          cases hok
          simp [hregion] at hok'
      · rw [Action.bind_of_ok hregion] at hwrite
        rcases hprotect : virtual_protect os address replacement.length protection queried
          with ⟨error | old_protection, unlocked⟩
        · have hfail : (virtual_protect os address replacement.length protection).map_err
              (MemoryError.Protect address) queried = (.error (.Protect address error), unlocked) :=
            Action.map_err_eq_error_iff.mpr ⟨error, hprotect, rfl⟩
          rw [Action.bind_of_error hfail, Prod.mk.injEq] at hwrite
          obtain ⟨rfl, rfl⟩ := hwrite
          refine .inr (.inl ⟨⟨_, rfl⟩, ?_, ?_⟩)
          · intro R hobserves hread
            have hguarded :=
              (validate_bytes_relates hobserves.toQueries address expected replacement hread).of_eq hguard
            have hqueried := (writable_protection_relates hobserves.toQueries address _).of_eq hregion
            rw [virtual_protect_apply, Prod.mk.injEq] at hprotect
            have hrefused := hobserves.refused queried address _ protection error hprotect.1
            rw [hprotect.2] at hrefused
            exact hobserves.trans _ _ _ (hobserves.trans _ _ _ hguarded hqueried) hrefused
          · rintro old copied ⟨_, _, _, _, hok, hok', hok'', _⟩
            rw [hguard] at hok
            cases hok
            rw [hregion] at hok'
            cases hok'
            rw [hprotect] at hok''
            cases hok''
        · have hok : (virtual_protect os address replacement.length protection).map_err
              (MemoryError.Protect address) queried = (.ok old_protection, unlocked) :=
            Action.map_err_eq_ok_iff.mpr hprotect
          rw [Action.bind_of_ok hok, Action.bind_of_ok (raw_write_apply address replacement unlocked)]
            at hwrite
          exact .inr (.inr ⟨old_protection, _,
            ⟨guarded, protection, queried, unlocked, hguard, hregion, hprotect, rfl⟩, hwrite⟩)

/-- Once the bytes are in memory the outcome is `Applied` or an error, and
memory stays as it is either way. -/
theorem finish_write_cases {old_protection : UInt32} {result : Except MemoryError WriteState}
    (hfinish : finish_write os address replacement old_protection world = (result, world')) :
    (result = .ok .Applied ∨ ∃ error, result = .error error) ∧ world'.memory = world.memory := by
  refine ⟨?_, Action.Relates.of_eq
    (finish_write_relates (sameMemory_calls os) address replacement old_protection fun _ => rfl) hfinish⟩
  obtain error | state := result
  · exact .inr ⟨error, rfl⟩
  · obtain ⟨restored, _, _, hfinish⟩ := Action.bind_eq_ok_iff.mp hfinish
    obtain ⟨flushed, _, _, hfinish⟩ := Action.bind_eq_ok_iff.mp hfinish
    cases restored with
    | error error => simp at hfinish
    | ok old =>
      cases flushed with
      | error error => simp at hfinish
      | ok _ =>
        obtain ⟨actual, _, _, hfinish⟩ := Action.bind_eq_ok_iff.mp hfinish
        split at hfinish
        · simp at hfinish
        · simp only [Action.pure_apply, Prod.mk.injEq] at hfinish
          exact .inl hfinish.1.symm

end systemdetection.patches.memory
