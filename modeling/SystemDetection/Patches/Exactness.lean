import SystemDetection.Memory.Granting
import SystemDetection.Patches.Rollback

open effect store systemdetection.patches.memory

namespace systemdetection.patches

variable {σ : Type}

/-- A well-formed write for whose range every call of the system succeeds, so
that only its byte guard can refuse it. -/
structure CheckedWrite.Cooperative (os : Os σ) (usable : σ → Prop) (write : CheckedWrite) : Prop where
  nonempty : write.replacement ≠ []
  lengths : write.expected.length = write.replacement.length
  readable : Readable os usable write.address (write.address + write.replacement.length)
  writable : Writable os usable write.address write.replacement.length

/-- No write of the plan changes memory at its turn. -/
def PatchPlan.Idle (os : Os σ) (plan : PatchPlan) (world : World σ) : Prop :=
  ∀ done write rest applied reached, plan.writes = done ++ write :: rest →
    Forward os world done applied reached → (write.apply os reached).2.memory = reached.memory

variable {os : Os σ} {usable : σ → Prop}

/-- The one error of the guard names the bytes that were found. -/
theorem classify_bytes_error {address : Nat} {expected replacement actual : List UInt8}
    {error : MemoryError} (hclassify : classify_bytes address expected replacement actual = .error error) :
    error = .UnexpectedBytes address expected replacement actual ∧
      actual ≠ expected ∧ actual ≠ replacement := by
  unfold classify_bytes at hclassify
  split at hclassify
  · cases hclassify
  · split at hclassify
    · cases hclassify
    · cases hclassify
      exact ⟨rfl, ‹_›, ‹_›⟩

/-- A cooperative write is its guard followed by the store. -/
theorem CheckedWrite.Cooperative.apply_eq {write : CheckedWrite}
    (hwrite : write.Cooperative os usable) (world : World σ) (husable : usable world.os) :
    ∃ world', write.apply os world =
        ((classify_bytes write.address write.expected write.replacement
          (world.memory.read write.address write.expected.length)).mapError PatchError.Memory, world') ∧
      usable world'.os ∧
      world'.memory =
        if classify_bytes write.address write.expected write.replacement
            (world.memory.read write.address write.expected.length) = .ok .Applied
        then world.memory.write write.address write.replacement else world.memory := by
  obtain ⟨world', hrun, husable', hmemory⟩ := write_checked_reliable hwrite.readable hwrite.writable
    hwrite.nonempty hwrite.lengths world husable
  refine ⟨world', ?_, husable', hmemory⟩
  rw [CheckedWrite.apply, Action.map_err_apply, hrun]

/-- Undoing a cooperative write in the memory that it left succeeds and gives
back the memory that it found. -/
theorem CheckedWrite.Cooperative.rollback_eq {write : CheckedWrite}
    (hwrite : write.Cooperative os usable) {memory : Store UInt8} {world : World σ}
    (husable : usable world.os)
    (hguard : memory.read write.address write.expected.length = write.expected)
    (hmemory : world.memory = memory.write write.address write.replacement) :
    ∃ state world', write.rollback os world = (.ok state, world') ∧ world'.memory = memory ∧
      usable world'.os := by
  have hexpected : write.expected ≠ [] := by
    intro hempty
    apply hwrite.nonempty
    rw [← List.length_eq_zero_iff, ← hwrite.lengths, hempty, List.length_nil]
  have hheld : world.memory.read write.address write.replacement.length = write.replacement := by
    rw [hmemory, Store.read_write_self]
  have hreadable := hwrite.readable
  have hwritable := hwrite.writable
  rw [← hwrite.lengths] at hreadable hwritable
  obtain ⟨world', hrun, husable', _⟩ := write_checked_reliable hreadable hwritable hexpected
    hwrite.lengths.symm world husable
  have hstate : ∃ state, classify_bytes write.address write.replacement write.expected
      (world.memory.read write.address write.replacement.length) = .ok state := by
    rw [hheld, classify_bytes]
    split
    · exact ⟨_, rfl⟩
    · exact ⟨.Applied, if_pos rfl⟩
  obtain ⟨state, hstate⟩ := hstate
  have hrollback : write.rollback os world = (.ok state, world') := by
    rw [CheckedWrite.rollback, Action.map_err_apply, hrun, hstate]
    rfl
  refine ⟨state, world', hrollback, ?_, husable'⟩
  rw [CheckedWrite.rollback_ok hrollback, hmemory]
  exact Store.write_write_back hguard hwrite.lengths.symm

/-- Rollbacks without errors can be made one after the other. -/
theorem rollback_all_append_ok {first second : List CheckedWrite} {world middle world' : World σ}
    (hfirst : rollback_all os first world = (.ok [], middle))
    (hsecond : rollback_all os second middle = (.ok [], world')) :
    rollback_all os (first ++ second) world = (.ok [], world') := by
  induction first generalizing world with
  | nil =>
    cases hfirst
    exact hsecond
  | cons write rest ih =>
    rcases hwrite : write.rollback os world with ⟨result, next⟩
    obtain ⟨errors, final, hrest⟩ := rollback_all_ok os rest next
    rw [rollback_all, Action.bind_of_ok (Action.attempt_of_eq hwrite), Action.bind_of_ok hrest] at hfirst
    cases result with
    | error error => simp at hfirst
    | ok state =>
      simp only [Action.pure_apply, Prod.mk.injEq, Except.ok.injEq] at hfirst
      obtain ⟨rfl, rfl⟩ := hfirst
      rw [List.cons_append, rollback_all, Action.bind_of_ok (Action.attempt_of_eq hwrite),
        Action.bind_of_ok (ih hrest)]
      rfl

section Cooperative

variable {world reached : World σ} {writes applied : List CheckedWrite}

/-- Writes that succeeded left the system usable, applied or not. -/
theorem Forward.keeps_usable (hforward : Forward os world writes applied reached)
    (hwrites : ∀ write ∈ writes, write.Cooperative os usable) (husable : usable world.os) :
    usable reached.os := by
  induction hforward with
  | nil world => exact husable
  | @applied world next reached write writes applied hwrite _ ih =>
    obtain ⟨_, hrun, hnext, _⟩ := (hwrites write (by simp)).apply_eq world husable
    obtain ⟨_, rfl⟩ := Prod.mk.inj (hwrite.symm.trans hrun)
    exact ih (fun other hmem => hwrites other (by simp [hmem])) hnext
  | @already world next reached write writes applied hwrite _ ih =>
    obtain ⟨_, hrun, hnext, _⟩ := (hwrites write (by simp)).apply_eq world husable
    obtain ⟨_, rfl⟩ := Prod.mk.inj (hwrite.symm.trans hrun)
    exact ih (fun other hmem => hwrites other (by simp [hmem])) hnext

/-- Undone in reverse order, each write finds exactly the bytes it left, however
the ranges overlap: what was written over them has been undone before. -/
theorem Forward.rollback_succeeds (hforward : Forward os world writes applied reached)
    (hwrites : ∀ write ∈ writes, write.Cooperative os usable) {failed : World σ}
    (hmemory : failed.memory = reached.memory) (husable : usable failed.os) :
    ∃ world', rollback_all os applied.reverse failed = (.ok [], world') ∧
      world'.memory = world.memory ∧ usable world'.os := by
  induction hforward with
  | nil world => exact ⟨failed, rfl, hmemory, husable⟩
  | @applied world next reached write writes applied hwrite _ ih =>
    obtain ⟨_, _, hguard, _, hnext⟩ := CheckedWrite.apply_applied hwrite
    obtain ⟨middle, hlater, hmiddle, hmiddleUsable⟩ :=
      ih (fun other hmem => hwrites other (by simp [hmem])) hmemory
    rw [hnext] at hmiddle
    obtain ⟨state, world', hundo, hrestored, husable'⟩ :=
      (hwrites write (by simp)).rollback_eq hmiddleUsable hguard hmiddle
    refine ⟨world', ?_, hrestored, husable'⟩
    rw [List.reverse_cons]
    refine rollback_all_append_ok hlater ?_
    rw [rollback_all, Action.bind_of_ok (Action.attempt_of_eq hundo)]
    rfl
  | already hwrite _ ih =>
    obtain ⟨_, hsame⟩ := CheckedWrite.apply_already hwrite
    obtain ⟨world', hrollback, hrestored, husable'⟩ :=
      ih (fun other hmem => hwrites other (by simp [hmem])) hmemory
    exact ⟨world', hrollback, hrestored.trans hsame, husable'⟩

end Cooperative

/-- An applied write changed memory: its two byte strings differ. -/
theorem CheckedWrite.apply_applied_ne {write : CheckedWrite} {world world' : World σ}
    (hwrite : write.apply os world = (.ok .Applied, world')) : world'.memory ≠ world.memory := by
  intro hsame
  obtain ⟨_, hlength, hheld, hdiffers, hmemory⟩ := CheckedWrite.apply_applied hwrite
  apply hdiffers
  rw [← hheld, ← hlength, ← hsame, hmemory, Store.read_write_self]

/-- A successful run applied no write exactly when none of its writes changed memory. -/
theorem Forward.applied_nil_iff {world reached : World σ} {writes applied : List CheckedWrite}
    (hforward : Forward os world writes applied reached) :
    applied = [] ↔ ∀ done write rest now middle, writes = done ++ write :: rest →
      Forward os world done now middle → (write.apply os middle).2.memory = middle.memory := by
  induction hforward with
  | nil world => simp
  | @applied world next reached first writes applied hwrite _ _ =>
    simp only [reduceCtorEq, false_iff]
    intro hidle
    have hsame := hidle [] first writes [] world rfl (.nil world)
    rw [hwrite] at hsame
    exact CheckedWrite.apply_applied_ne hwrite hsame
  | @already world next reached first writes applied hwrite _ ih =>
    rw [ih]
    constructor
    · intro hidle done write rest now middle hsplit hprefix
      cases hprefix with
      | nil world =>
        obtain ⟨rfl, rfl⟩ := List.cons.inj hsplit
        rw [hwrite]
        exact (CheckedWrite.apply_already hwrite).2
      | applied hwrite' _ =>
        obtain ⟨rfl, _⟩ := List.cons.inj hsplit
        rw [hwrite] at hwrite'
        cases hwrite'
      | already hwrite' hrest =>
        obtain ⟨rfl, htail⟩ := List.cons.inj hsplit
        rw [hwrite] at hwrite'
        cases hwrite'
        exact hidle _ write rest now middle htail hrest
    · intro hidle done write rest now middle hsplit hprefix
      exact hidle (first :: done) write rest now middle (by rw [hsplit, List.cons_append])
        (.already hwrite hprefix)

/-- When only byte guards can fail, a plan is exact. It fails with the guard
error of one of its writes, on the bytes that write found at its turn, after
putting back every byte; it succeeds as `AlreadyApplied` exactly when none of
its writes changed memory. The ranges of the writes are arbitrary. -/
theorem PatchPlan.apply_exact (os : Os σ) (usable : σ → Prop) (plan : PatchPlan)
    (hwrites : ∀ write ∈ plan.writes, write.Cooperative os usable) (world : World σ)
    (husable : usable world.os) :
    let (result, world') := plan.apply os world
    (∀ error, result = .error error →
      world'.memory = world.memory ∧
        ∃ done write rest applied reached, plan.writes = done ++ write :: rest ∧
          Forward os world done applied reached ∧
          error = .Memory (.UnexpectedBytes write.address write.expected write.replacement
            (reached.memory.read write.address write.expected.length)) ∧
          reached.memory.read write.address write.expected.length ≠ write.expected ∧
          reached.memory.read write.address write.expected.length ≠ write.replacement) ∧
    (∀ state, result = .ok state → (state = .AlreadyApplied ↔ plan.Idle os world)) := by
  rcases hrun : plan.apply os world with ⟨result, world'⟩
  dsimp only
  rcases apply_loop_cases 0 0 [] plan.writes hrun with ⟨applied, hforward, rfl⟩ |
    ⟨done, write, rest, applied, reached, failed, error, rollback_errors, hsplit, hforward, hwrite,
      hrollback, rfl⟩
  · refine ⟨fun error herror => (nomatch herror), fun state hstate => ?_⟩
    have hidle : applied = [] ↔ plan.Idle os world := hforward.applied_nil_iff
    have hpositive : 0 < plan.writes.length := List.length_pos_iff.mpr plan.writes_ne_nil
    cases hstate
    rw [← hidle]
    cases applied with
    | nil => simp [plan.writes_ne_nil]
    | cons first others => simp
  · refine ⟨fun cause hcause => ?_, fun state hstate => nomatch hstate⟩
    have hdone : ∀ other ∈ done, other.Cooperative os usable := fun other hmem =>
      hwrites other (by simp [hsplit, hmem])
    have hcooperative : write.Cooperative os usable := hwrites write (by simp [hsplit])
    obtain ⟨_, happly, husable', hfailed⟩ :=
      hcooperative.apply_eq reached (hforward.keeps_usable hdone husable)
    obtain ⟨hclassify, rfl⟩ := Prod.mk.inj (hwrite.symm.trans happly)
    rcases hguard : classify_bytes write.address write.expected write.replacement
      (reached.memory.read write.address write.expected.length) with cause' | state
    · rw [hguard] at hclassify
      cases hclassify
      obtain ⟨rfl, hexpected, hreplacement⟩ := classify_bytes_error hguard
      have huntouched : failed.memory = reached.memory := by
        simpa [hguard] using hfailed
      obtain ⟨restored, hrestore, hmemory, _⟩ :=
        hforward.rollback_succeeds hdone huntouched husable'
      rw [List.nil_append] at hrollback
      rw [hrestore] at hrollback
      cases hrollback
      cases hcause
      exact ⟨hmemory, done, write, rest, applied, reached, hsplit, hforward, rfl, hexpected, hreplacement⟩
    · rw [hguard] at hclassify
      cases hclassify

/-- The second write covers the first, and the third no longer finds its bytes. -/
def overlapping_plan : PatchPlan where
  writes := [⟨0x10005, [0x0A], [0x14]⟩, ⟨0x10005, [0x14, 0x0A], [0xEB, 0x0E]⟩, ⟨0x10006, [0x0A], [0x14]⟩]
  writes_ne_nil := by simp

/-- One executable page that holds `0A` everywhere. -/
def overlapping_world : World PageMap := ⟨fun _ => 0x0A, mapped_pages 0x10000 0x1000 PAGE_EXECUTE_READ, []⟩

/-- Two writes over the same byte, of which the second fails: the byte is put back. -/
theorem apply_exact_on_overlap :
    (overlapping_plan.apply page_table overlapping_world).2.memory = fun _ => 0x0A := by
  have hwrites : ∀ write ∈ overlapping_plan.writes,
      write.Cooperative page_table (Mapped 0x10000 0x1000 PAGE_EXECUTE_READ) := by
    intro write hmem
    have hbounds : write.replacement ≠ [] ∧ write.expected.length = write.replacement.length ∧
        0x10000 ≤ write.address ∧ write.address + write.replacement.length ≤ 0x10000 + 0x1000 := by
      revert write
      decide
    obtain ⟨hnonempty, hlengths, hstart, hstop⟩ := hbounds
    have hreadable : Readable page_table (Mapped 0x10000 0x1000 PAGE_EXECUTE_READ) 0x10000 (0x10000 + 0x1000) :=
      mapped_readable page_table_granting execute_read_accessible (by decide)
    exact ⟨hnonempty, hlengths, hreadable.mono hstart hstop,
      mapped_writable page_table_granting execute_read_accessible (by decide)
        (List.length_pos_iff.mpr hnonempty) hstart hstop⟩
  have hfailed : (overlapping_plan.apply page_table overlapping_world).1.toOption = none := by decide +kernel
  have hexact := PatchPlan.apply_exact page_table (Mapped 0x10000 0x1000 PAGE_EXECUTE_READ) overlapping_plan
    hwrites overlapping_world (mapped_pages_mapped (by decide))
  rcases hrun : overlapping_plan.apply page_table overlapping_world with ⟨error | state, world'⟩
  · rw [hrun] at hexact
    exact (hexact.1 error rfl).1
  · rw [hrun] at hfailed
    cases hfailed

end systemdetection.patches
