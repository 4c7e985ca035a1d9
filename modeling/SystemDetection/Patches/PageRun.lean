import SystemDetection.Memory.WriteFrame
import SystemDetection.Patches.FaultyRun
import SystemDetection.Patches.Observed
import SystemDetection.Patches.RunReport

open effect store systemdetection.patches.memory systemdetection.patches.sigscan

namespace systemdetection.patches

variable {σ : Type} {os : Os σ} {pages : σ → PageMap}

section Apply

variable {R : World σ → World σ → Prop} (hwatches : Watches os R)
  (hwrite : ∀ address expected replacement, (write_checked os address expected replacement).Relates R)
include hwatches hwrite

/-- What every checked write keeps, a rollback keeps. -/
theorem rollback_all_relates (writes : List CheckedWrite) : (rollback_all os writes).Relates R := by
  induction writes with
  | nil => exact Action.relates_pure hwatches.refl _
  | cons write rest ih =>
    have hrollback : (write.rollback os).Relates R := (hwrite _ _ _).map_err _
    refine Action.relates_bind hwatches.trans hrollback.attempt fun result => ?_
    refine Action.relates_bind hwatches.trans ih fun rollback_errors => ?_
    cases result with
    | error error => exact Action.relates_pure hwatches.refl _
    | ok state => exact Action.relates_pure hwatches.refl _

/-- So does the loop over the writes. -/
theorem apply_loop_relates (applied already_applied : Nat) (applied_writes writes : List CheckedWrite) :
    (apply_loop os applied already_applied applied_writes writes).Relates R := by
  induction writes generalizing applied already_applied applied_writes with
  | nil => exact Action.relates_pure hwatches.refl _
  | cons write rest ih =>
    have happly : (write.apply os).Relates R := (hwrite _ _ _).map_err _
    refine Action.relates_bind hwatches.trans happly.attempt fun result => ?_
    cases result with
    | ok state =>
      cases state with
      | Applied => exact ih _ _ _
      | AlreadyApplied => exact ih _ _ _
    | error error =>
      refine Action.relates_bind hwatches.trans (rollback_all_relates hwatches hwrite _) fun errors => ?_
      split
      · exact Action.relates_throw hwatches.refl _
      · exact Action.relates_throw hwatches.refl _

/-- So does a pass over the prepared patches. -/
theorem apply_patches_relates (prepared : List PreparedPatch) : (apply_patches os prepared).Relates R := by
  induction prepared with
  | nil => exact Action.relates_pure hwatches.refl _
  | cons ready rest ih =>
    have hready : (ready.apply os).Relates R := by
      cases ready with
      | Disabled name => exact Action.relates_pure hwatches.refl _
      | Failed name error => exact Action.relates_pure hwatches.refl _
      | Ready name plan =>
        refine Action.relates_bind hwatches.trans (apply_loop_relates hwatches hwrite _ _ _ _).attempt fun result => ?_
        split <;> exact Action.relates_pure hwatches.refl _
    refine Action.relates_bind hwatches.trans hready fun outcome => ?_
    exact Action.relates_bind hwatches.trans ih fun others => Action.relates_pure hwatches.refl _

/-- What no reading and no checked write leaves, no run leaves. -/
theorem run_relates (dunia : Except String LoadedModule) (config : PatchConfig) : (run os dunia config).Relates R := by
  unfold run
  cases dunia with
  | error error => exact Action.relates_pure hwatches.refl _
  | ok module =>
    refine Action.relates_bind hwatches.trans (from_module_relates hwatches module).attempt fun result => ?_
    rcases result with (error | reason) | image
    · exact Action.relates_pure hwatches.refl _
    · exact Action.relates_throw hwatches.refl _
    · have hprepare := prepare_patches_relates hwatches image (.from_file_size module.file_size) config Patch.all
      refine Action.relates_bind hwatches.trans hprepare.infallible fun prepared => ?_
      have happly := apply_patches_relates hwatches hwrite prepared
      refine Action.relates_bind hwatches.trans happly.infallible fun outcomes => ?_
      exact Action.relates_pure hwatches.refl _

end Apply

section Executable

theorem keepsExecutable_watches (hpaged : PagedOs os pages) : Watches (recording os) (KeepsExecutable pages) where
  toQueries := (keepsExecutable_observes hpaged).toQueries
  read world _ _ := ⟨fun _ => rfl, [], by simp⟩

/-- At no moment of a write does a page gain or lose its execute permission. -/
theorem write_checked_executable (hpaged : PagedOs os pages) (address : Nat) (expected replacement : List UInt8) :
    (write_checked (recording os) address expected replacement).Relates (KeepsExecutable pages) := by
  intro world
  have hobserves := keepsExecutable_observes hpaged
  rcases hwrite : write_checked (recording os) address expected replacement world with ⟨result, world'⟩
  have hread : ∀ world : World (Recorded σ), KeepsExecutable pages world
      { world with accesses := world.accesses ++ [⟨.read, address, expected.length⟩] } :=
    fun world => (keepsExecutable_watches hpaged).read world _ _
  rcases write_checked_cases hwrite with ⟨_, hvalid⟩ | ⟨_, huntouched, _⟩ | ⟨old_protection, copied, hcopies, hfinish⟩
  · exact (validate_bytes_relates hobserves.toQueries address expected replacement hread).of_eq hvalid
  · exact huntouched _ hobserves hread
  · obtain ⟨information, protection, hrun, hinside, hkind, rfl, hcopied, hbefore⟩ := hcopies.page_map hpaged
    exact hobserves.trans _ _ _ hbefore (finish_write_pages hpaged hrun hinside hkind hcopied hfinish).1

end Executable

section Outside

/-- The pages outside of the touched ones have the same attributes. -/
def SameOutside (pages : σ → PageMap) (touched : Nat → Prop) (before after : World σ) : Prop :=
  ∀ page, ¬ touched page → pages after.os page = pages before.os page

theorem SameOutside.of_pages {touched : Nat → Prop} {before after : World σ}
    (hsame : pages after.os = pages before.os) : SameOutside pages touched before after :=
  fun page _ => by rw [hsame]

/-- Queries and reads change no page. -/
theorem sameOutside_watches (hpaged : PagedOs os pages) (touched : Nat → Prop) :
    Watches os (SameOutside pages touched) where
  refl _ _ _ := rfl
  trans _ _ _ hleft hright page hpage := (hright page hpage).trans (hleft page hpage)
  query world address := .of_pages (hpaged.query_pages address world.os)
  read _ _ _ _ _ := rfl

variable {address : Nat} {expected replacement : List UInt8} {touched : Nat → Prop} (hpaged : PagedOs os pages)
include hpaged

/-- A protection changes no page that its range does not overlap. -/
theorem virtual_protect_outside {length : Nat} (htouched : ∀ page, Overlaps address length page → touched page)
    (protection : UInt32) : (virtual_protect os address length protection).Relates (SameOutside pages touched) := by
  intro world
  rw [virtual_protect_apply]
  rcases hprotect : (os.VirtualProtect address length protection world.os).1 with error | old_protection
  · exact .of_pages (hpaged.protect_error address length protection world.os error hprotect)
  · intro page hpage
    obtain ⟨_, hprotected⟩ := hpaged.protect_ok address length protection world.os old_protection hprotect
    dsimp only
    rw [hprotected, PageMap.protect, if_neg fun hoverlaps => hpage (htouched page hoverlaps)]

/-- A checked write leaves the pages of other ranges alone, also when it fails. -/
theorem write_checked_outside (expected : List UInt8)
    (htouched : ∀ page, Overlaps address replacement.length page → touched page) :
    (write_checked os address expected replacement).Relates (SameOutside pages touched) := by
  have hwatches := sameOutside_watches hpaged touched
  have hprotect := virtual_protect_outside hpaged htouched
  refine Action.relates_bind hwatches.trans (guard_relates hwatches _ _ _) fun state => ?_
  cases state with
  | AlreadyApplied => exact Action.relates_pure hwatches.refl _
  | Applied =>
    refine Action.relates_bind hwatches.trans (writable_protection_relates hwatches.toQueries _ _) fun protection => ?_
    refine Action.relates_bind hwatches.trans ((hprotect protection).map_err _) fun old_protection => ?_
    refine Action.relates_bind hwatches.trans (fun _ => .of_pages rfl) fun _ => ?_
    refine Action.relates_bind hwatches.trans (hprotect old_protection).attempt fun restored => ?_
    refine Action.relates_bind hwatches.trans
      (fun world => .of_pages (hpaged.flush_pages address _ world.os)) fun flushed => ?_
    split
    · exact Action.relates_throw hwatches.refl _
    · exact Action.relates_throw hwatches.refl _
    · refine Action.relates_bind hwatches.trans (read_bytes_relates hwatches.toQueries address _
        fun world => hwatches.read world _ _) fun actual => ?_
      split
      · exact Action.relates_throw hwatches.refl _
      · exact Action.relates_pure hwatches.refl _

/-- The page has a byte of a target of the plan. -/
def PatchPlan.Touches (plan : PatchPlan) (page : Nat) : Prop :=
  ∃ write ∈ plan.writes, Overlaps write.address write.replacement.length page

omit hpaged in
/-- A write that succeeds replaces as many bytes as it expects. -/
theorem write_checked_lengths {world world' : World σ} {state : WriteState}
    (hwrite : write_checked os address expected replacement world = (.ok state, world')) :
    expected.length = replacement.length := by
  rcases write_checked_cases hwrite with ⟨_, hvalid⟩ | ⟨⟨error, herror⟩, _, _⟩ | ⟨_, _, hcopies, _⟩
  · exact (validate_bytes_ok hvalid).2.1
  · cases herror
  · exact hcopies.guard.2.1

/-- A rollback changes no page outside the pages of its writes. -/
theorem rollback_all_outside {writes : List CheckedWrite}
    (hwrites : ∀ write ∈ writes, write.expected.length = write.replacement.length ∧
      ∀ page, Overlaps write.address write.replacement.length page → touched page) :
    (rollback_all os writes).Relates (SameOutside pages touched) := by
  have hwatches := sameOutside_watches hpaged touched
  induction writes with
  | nil => exact Action.relates_pure hwatches.refl _
  | cons write rest ih =>
    obtain ⟨⟨hlengths, htouched⟩, hrest⟩ := List.forall_mem_cons.mp hwrites
    have hrollback : (write.rollback os).Relates (SameOutside pages touched) :=
      (write_checked_outside hpaged write.replacement (by rwa [hlengths])).map_err _
    refine Action.relates_bind hwatches.trans hrollback.attempt fun result => ?_
    refine Action.relates_bind hwatches.trans (ih hrest) fun rollback_errors => ?_
    cases result with
    | error error => exact Action.relates_pure hwatches.refl _
    | ok state => exact Action.relates_pure hwatches.refl _

/-- Nor does the loop, with the rollback that may end it. -/
theorem apply_loop_outside {applied already_applied : Nat} {applied_writes writes : List CheckedWrite}
    (happlied : ∀ write ∈ applied_writes, write.expected.length = write.replacement.length ∧
      ∀ page, Overlaps write.address write.replacement.length page → touched page)
    (hwrites : ∀ write ∈ writes, ∀ page, Overlaps write.address write.replacement.length page → touched page) :
    (apply_loop os applied already_applied applied_writes writes).Relates (SameOutside pages touched) := by
  have hwatches := sameOutside_watches hpaged touched
  induction writes generalizing applied already_applied applied_writes with
  | nil => exact Action.relates_pure hwatches.refl _
  | cons write rest ih =>
    obtain ⟨hwrite, hrest⟩ := List.forall_mem_cons.mp hwrites
    have happly : (write.apply os).Relates (SameOutside pages touched) :=
      (write_checked_outside hpaged write.expected hwrite).map_err _
    refine Action.relates_bind_of hwatches.trans happly.attempt fun world world' result hresult => ?_
    cases result with
    | error error =>
      refine Action.relates_bind hwatches.trans (rollback_all_outside hpaged fun write hmem =>
        happlied write (List.mem_reverse.mp hmem)) (fun errors => ?_) world'
      split
      · exact Action.relates_throw hwatches.refl _
      · exact Action.relates_throw hwatches.refl _
    | ok state =>
      have hlengths : write.expected.length = write.replacement.length := by
        rw [Action.attempt_apply, Prod.mk.injEq, Except.ok.injEq] at hresult
        exact write_checked_lengths (Action.map_err_eq_ok_iff.mp (Prod.ext hresult.1 hresult.2))
      cases state with
      | Applied =>
        refine ih ?_ hrest world'
        rw [List.forall_mem_append, List.forall_mem_singleton]
        exact ⟨happlied, hlengths, hwrite⟩
      | AlreadyApplied => exact ih happlied hrest world'

theorem PatchPlan.apply_outside (plan : PatchPlan) : (plan.apply os).Relates (SameOutside pages plan.Touches) :=
  apply_loop_outside hpaged (by simp) fun write hmem _ hoverlaps => ⟨write, hmem, hoverlaps⟩

end Outside

section Run

variable (hpaged : PagedOs os pages)
include hpaged

/-- A write that succeeds gives back every protection. -/
theorem write_checked_restores {address : Nat} {expected replacement : List UInt8}
    {world world' : World (Recorded σ)} {state : WriteState}
    (hwrite : write_checked (recording os) address expected replacement world = (.ok state, world')) :
    pages world'.os.state = pages world.os.state := by
  rcases write_checked_cases hwrite with ⟨_, hvalid⟩ | ⟨⟨error, herror⟩, _, _⟩ | ⟨old_protection, copied, hcopies, hfinish⟩
  · exact (validate_bytes_relates (samePages_observes (recorded_paged hpaged)).toQueries address expected
      replacement fun _ => rfl).of_eq hvalid
  · cases herror
  · obtain ⟨information, protection, hrun, hinside, hkind, rfl, hcopied, _⟩ := hcopies.page_map hpaged
    exact (finish_write_pages hpaged hrun hinside hkind hcopied hfinish).2 state rfl

/-- So does a loop that succeeds. -/
theorem apply_loop_restores {applied already_applied : Nat} {applied_writes writes : List CheckedWrite}
    {world world' : World (Recorded σ)} {state : WriteState}
    (happly : apply_loop (recording os) applied already_applied applied_writes writes world = (.ok state, world')) :
    pages world'.os.state = pages world.os.state := by
  induction writes generalizing applied already_applied applied_writes world with
  | nil =>
    cases happly
    rfl
  | cons write rest ih =>
    obtain ⟨result, middle, hresult, hrest⟩ := Action.bind_eq_ok_iff.mp happly
    rw [Action.attempt_apply, Prod.mk.injEq, Except.ok.injEq] at hresult
    cases result with
    | error error =>
      obtain ⟨errors, _, _, hthrow⟩ := Action.bind_eq_ok_iff.mp hrest
      split at hthrow <;> cases hthrow
    | ok written =>
      have hmiddle := write_checked_restores hpaged (Action.map_err_eq_ok_iff.mp (Prod.ext hresult.1 hresult.2))
      cases written with
      | Applied => exact (ih hrest).trans hmiddle
      | AlreadyApplied => exact (ih hrest).trans hmiddle

/-- A page that is left with other attributes is one of a patch that is reported as
failed. -/
theorem apply_patches_pages (prepared : List PreparedPatch) (world : World (Recorded σ)) :
    ∃ outcomes world', apply_patches (recording os) prepared world = (.ok outcomes, world') ∧
      ∀ page, pages world'.os.state page ≠ pages world.os.state page → ∃ name plan reason,
        .Ready name plan ∈ prepared ∧ ⟨name, .Failed reason⟩ ∈ outcomes ∧ plan.Touches page := by
  induction prepared generalizing world with
  | nil => exact ⟨[], world, rfl, fun page hchanged => absurd rfl hchanged⟩
  | cons ready rest ih =>
    have hready : ∃ outcome middle, ready.apply (recording os) world = (.ok outcome, middle) ∧
        ∀ page, pages middle.os.state page ≠ pages world.os.state page → ∃ name plan reason,
          ready = .Ready name plan ∧ outcome = ⟨name, .Failed reason⟩ ∧ plan.Touches page := by
      cases ready with
      | Disabled name => exact ⟨_, world, rfl, fun page hchanged => absurd rfl hchanged⟩
      | Failed name error => exact ⟨_, world, rfl, fun page hchanged => absurd rfl hchanged⟩
      | Ready name plan =>
        rcases happly : plan.apply (recording os) world with ⟨error | state, middle⟩
        · refine ⟨_, middle, by rw [PreparedPatch.apply, Action.bind_of_ok (Action.attempt_of_eq happly)]; rfl,
            fun page hchanged => ⟨name, plan, _, rfl, rfl, ?_⟩⟩
          by_contra houtside
          exact hchanged ((PatchPlan.apply_outside (recorded_paged hpaged) plan).of_eq happly page houtside)
        · have hsame := apply_loop_restores hpaged happly
          have happlied : ∃ outcome, PreparedPatch.apply (recording os) (.Ready name plan) world =
              (.ok outcome, middle) := by
            rw [PreparedPatch.apply, Action.bind_of_ok (Action.attempt_of_eq happly)]
            cases state <;> exact ⟨_, rfl⟩
          obtain ⟨outcome, happlied⟩ := happlied
          exact ⟨outcome, middle, happlied, fun page hchanged => absurd (by rw [hsame]) hchanged⟩
    obtain ⟨outcome, middle, happly, hmiddle⟩ := hready
    obtain ⟨outcomes, world', hothers, hrest⟩ := ih middle
    refine ⟨outcome :: outcomes, world', ?_, fun page hchanged => ?_⟩
    · rw [apply_patches, Action.bind_of_ok happly, Action.bind_of_ok hothers]
      rfl
    · by_cases hfirst : pages middle.os.state page = pages world.os.state page
      · rw [← hfirst] at hchanged
        obtain ⟨name, plan, reason, hmem, hfailed, htouches⟩ := hrest page hchanged
        exact ⟨name, plan, reason, List.mem_cons_of_mem _ hmem, List.mem_cons_of_mem _ hfailed, htouches⟩
      · obtain ⟨name, plan, reason, rfl, rfl, htouches⟩ := hmiddle page hfirst
        exact ⟨name, plan, reason, List.mem_cons_self, List.mem_cons_self, htouches⟩

end Run

/-- A whole run and the pages, under any failures of the system. No page gains or
loses its execute permission, not even for a moment; and a page that ends with other
attributes is one of a patch that was planned and is reported as failed. -/
theorem run_keeps_pages (os : Os σ) (pages : σ → PageMap) (hpaged : PagedOs os pages)
    (dunia : Except String LoadedModule) (config : PatchConfig) (world : World (Recorded σ)) :
    ∃ report world', run (recording os) dunia config world = (.ok report, world') ∧
      KeepsExecutable pages world world' ∧
      ∀ page, pages world'.os.state page ≠ pages world.os.state page → ∃ patch plan reason,
        PlannedIn (recording os) dunia config world patch plan ∧
        ⟨patch.name, .Failed reason⟩ ∈ report.outcomes ∧ plan.Touches page := by
  have hrelates := run_relates (keepsExecutable_watches hpaged) (write_checked_executable hpaged) dunia config
  have hsame := sameOutside_watches (recorded_paged hpaged) fun _ => False
  cases dunia with
  | error error => exact ⟨_, world, rfl, hrelates world, fun page hchanged => absurd rfl hchanged⟩
  | ok module =>
    obtain ⟨error, loaded, hload⟩ | ⟨image, loaded, hload⟩ :=
      ModuleImage.from_module_cases (recording os) module world
    · have hloaded := (from_module_relates hsame module).of_eq hload
      obtain ⟨report, hrun⟩ : ∃ report, run (recording os) (.ok module) config world = (.ok report, loaded) := by
        rw [run, Action.bind_of_ok (Action.attempt_of_eq hload)]
        exact ⟨_, rfl⟩
      exact ⟨_, loaded, hrun, hrelates.of_eq hrun, fun page hchanged => absurd (hloaded page id) hchanged⟩
    · obtain ⟨prepared, planned, hprepare, hforall⟩ :=
        prepare_patches_cases (recording os) image (.from_file_size module.file_size) config Patch.all loaded
      obtain ⟨outcomes, world', happly, hpages⟩ := apply_patches_pages hpaged prepared planned
      obtain ⟨report, rfl, hrun⟩ := run_of_stages hload hprepare happly
      refine ⟨report, world', hrun, hrelates.of_eq hrun, fun page hchanged => ?_⟩
      have hloaded := (from_module_relates hsame module).of_eq hload page id
      have hplanned := (prepare_patches_relates hsame image _ config Patch.all).of_eq hprepare page id
      have hstart : pages planned.os.state page = pages world.os.state page := hplanned.trans hloaded
      rw [← hstart] at hchanged
      obtain ⟨name, plan, reason, hmem, hfailed, htouches⟩ := hpages page hchanged
      obtain ⟨patch, _, early, late, hsplit, hready⟩ := mem_of_forall₂ hforall hmem
      cases hready with
      | ready henabled hmade =>
        exact ⟨patch, plan, reason, ⟨module, image, loaded, early, late, _, rfl, hload, hsplit, hmade⟩, hfailed, htouches⟩

/-- A page table under a system that does not take back the permission to write code. -/
def refusing_restores : Os PageMap where
  VirtualQuery := page_table.VirtualQuery
  VirtualProtect address length protection map :=
    if protection = PAGE_EXECUTE_READ then (.error "access denied", map)
    else page_table.VirtualProtect address length protection map
  FlushInstructionCache := page_table.FlushInstructionCache

/-- The system that refuses to restore a protection is a paged one. -/
theorem refusing_restores_paged : PagedOs refusing_restores id where
  query_answer := page_table_paged.query_answer
  query_pages := page_table_paged.query_pages
  protect_ok address length protection state old_protection hprotect := by
    simp only [refusing_restores] at hprotect ⊢
    split at hprotect
    · cases hprotect
    · rename_i hother
      rw [if_neg hother]
      exact page_table_paged.protect_ok _ _ _ _ _ hprotect
  protect_error address length protection state error herror := by
    simp only [refusing_restores] at herror ⊢
    split at herror
    · rename_i hrestore
      rw [if_pos hrestore]
    · rename_i hother
      rw [if_neg hother]
      exact page_table_paged.protect_error _ _ _ _ _ herror
  flush_pages := page_table_paged.flush_pages

def recorded_sample_world : World (Recorded PageMap) := ⟨sample_world.memory, ⟨sample_world.os, []⟩, []⟩

/-- The code page of the sample stays writable, and a patch that has failed there owns it. -/
theorem run_keeps_pages_on_sample : ∃ report world',
    run (recording refusing_restores) (.ok sample_module) .default recorded_sample_world = (.ok report, world') ∧
      KeepsExecutable id recorded_sample_world world' ∧
      world'.os.state 0x10001 = ⟨MEM_COMMIT, PAGE_EXECUTE_READWRITE⟩ ∧
      ∃ (patch : Patch) (plan : PatchPlan) (reason : String),
        ⟨patch.name, .Failed reason⟩ ∈ report.outcomes ∧ plan.Touches 0x10001 := by
  obtain ⟨report, world', hrun, hkeeps, hpages⟩ := run_keeps_pages refusing_restores id refusing_restores_paged
    (.ok sample_module) .default recorded_sample_world
  have hwritable : (run (recording refusing_restores) (.ok sample_module) .default
      recorded_sample_world).2.os.state 0x10001 = ⟨MEM_COMMIT, PAGE_EXECUTE_READWRITE⟩ := by decide +kernel
  rw [hrun] at hwritable
  have hchanged : world'.os.state 0x10001 ≠ recorded_sample_world.os.state 0x10001 := by
    rw [hwritable]
    decide +kernel
  obtain ⟨patch, plan, reason, _, hfailed, htouches⟩ := hpages 0x10001 hchanged
  exact ⟨report, world', hrun, hkeeps, hwritable, patch, plan, reason, hfailed, htouches⟩

end systemdetection.patches
