import SystemDetection.Patches.Provenance
import SystemDetection.Patches.RunMeaning
import SystemDetection.Sigscan.ModuleReads

open effect store systemdetection.patches.memory systemdetection.patches.sigscan

namespace systemdetection.patches

variable {σ : Type}

/-- The range of the write may be read and written. -/
def CheckedWrite.Within (permitted : Access → Prop) (write : CheckedWrite) : Prop :=
  write.expected.length = write.replacement.length ∧
    ∀ kind, permitted ⟨kind, write.address, write.replacement.length⟩

def PatchPlan.Within (permitted : Access → Prop) (plan : PatchPlan) : Prop :=
  ∀ write ∈ plan.writes, write.Within permitted

section Apply

variable {os : Os σ} {permitted : Access → Prop}

/-- A checked write reads and writes its target and nothing else. -/
theorem write_checked_accesses {address : Nat} {expected replacement : List UInt8}
    (hlength : expected.length = replacement.length)
    (hpermitted : ∀ kind, permitted ⟨kind, address, replacement.length⟩) :
    (write_checked os address expected replacement).Relates (World.Accesses permitted) := by
  refine write_checked_relates (accesses_calls os permitted) address expected replacement hlength
    (fun world => ⟨[⟨.read, address, replacement.length⟩], rfl, ?_⟩)
    (fun world => ⟨[⟨.write, address, replacement.length⟩], rfl, ?_⟩)
  · simpa using hpermitted .read
  · simpa using hpermitted .write

/-- Undoing writes stays within them. -/
theorem rollback_all_accesses {writes : List CheckedWrite}
    (hwithin : ∀ write ∈ writes, write.Within permitted) :
    (rollback_all os writes).Relates (World.Accesses permitted) := by
  induction writes with
  | nil => exact accesses_pure _
  | cons write rest ih =>
    obtain ⟨⟨hlength, hpermitted⟩, hrest⟩ := List.forall_mem_cons.mp hwithin
    have hrollback : (write.rollback os).Relates (World.Accesses permitted) :=
      (write_checked_accesses hlength.symm (by rwa [hlength])).map_err _
    refine accesses_bind hrollback.attempt fun result => ?_
    refine accesses_bind (ih hrest) fun rollback_errors => ?_
    cases result with
    | error error => exact accesses_pure _
    | ok state => exact accesses_pure _

/-- So does applying them, whatever has to be undone. -/
theorem apply_loop_accesses {applied already_applied : Nat} {applied_writes writes : List CheckedWrite}
    (happlied : ∀ write ∈ applied_writes, write.Within permitted)
    (hwithin : ∀ write ∈ writes, write.Within permitted) :
    (apply_loop os applied already_applied applied_writes writes).Relates (World.Accesses permitted) := by
  induction writes generalizing applied already_applied applied_writes with
  | nil => exact accesses_pure _
  | cons write rest ih =>
    obtain ⟨hwrite, hrest⟩ := List.forall_mem_cons.mp hwithin
    have happly : (write.apply os).Relates (World.Accesses permitted) :=
      (write_checked_accesses hwrite.1 hwrite.2).map_err _
    refine accesses_bind happly.attempt fun result => ?_
    cases result with
    | ok state =>
      cases state with
      | Applied =>
        refine ih ?_ hrest
        rw [List.forall_mem_append, List.forall_mem_singleton]
        exact ⟨happlied, hwrite⟩
      | AlreadyApplied => exact ih happlied hrest
    | error error =>
      refine accesses_bind (rollback_all_accesses fun write hmem =>
        happlied write (List.mem_reverse.mp hmem)) fun errors => ?_
      split
      · exact accesses_throw _
      · exact accesses_throw _

/-- Applying a plan stays in the ranges of its writes, rollback included. -/
theorem PatchPlan.Within.apply_accesses {plan : PatchPlan} (hwithin : plan.Within permitted) :
    (plan.apply os).Relates (World.Accesses permitted) :=
  apply_loop_accesses (by simp) hwithin

/-- Applying prepared patches stays within their plans. -/
theorem apply_patches_accesses {prepared : List PreparedPatch}
    (hwithin : ∀ ready ∈ prepared, ∀ plan ∈ ready.plans, plan.Within permitted) :
    (apply_patches os prepared).Relates (World.Accesses permitted) := by
  induction prepared with
  | nil => exact accesses_pure _
  | cons ready rest ih =>
    rw [List.forall_mem_cons] at hwithin
    have hready : (ready.apply os).Relates (World.Accesses permitted) := by
      cases ready with
      | Disabled name => exact accesses_pure _
      | Failed name error => exact accesses_pure _
      | Ready name plan =>
        have hplan : plan.Within permitted := hwithin.1 plan List.mem_cons_self
        refine accesses_bind hplan.apply_accesses.attempt fun result => ?_
        split <;> exact accesses_pure _
    refine accesses_bind hready fun outcome => ?_
    refine accesses_bind (ih hwithin.2) fun others => ?_
    exact accesses_pure _

end Apply

/-- The sections in which a patch may change bytes. -/
def Patch.MayChange (self : Patch) (pe_section : PeSection) : Prop :=
  match self with
  | .no_blinking_items =>
    pe_section.readable = true ∧ pe_section.writable = false ∧ pe_section.executable = false
  | .jackal_tapes | .devmode_always_on | .predecessor_tapes | .machetes => pe_section.executable = true

/-- The sites of a patch lie in sections of the kind that it may change. -/
theorem Patch.may_change {patch : Patch} {build : DuniaBuild} {site : Site}
    (hsite : site ∈ patch.sites build) {pe_section : PeSection}
    (hscope : pe_section.is_in_scope site.scope = true) : patch.MayChange pe_section := by
  cases patch with
  | jackal_tapes =>
    obtain rfl := List.mem_singleton.mp hsite
    exact hscope
  | devmode_always_on =>
    obtain rfl := List.mem_singleton.mp hsite
    exact hscope
  | predecessor_tapes =>
    cases build <;>
    · obtain rfl := List.mem_singleton.mp hsite
      exact hscope
  | machetes =>
    obtain rfl := List.mem_singleton.mp hsite
    exact hscope
  | no_blinking_items =>
    have hdata : site.scope = .ReadOnlyData := by
      rw [Patch.sites] at hsite
      split at hsite <;>
      · simp only [List.mem_cons, List.not_mem_nil, or_false] at hsite
        obtain rfl | rfl | rfl := hsite <;> rfl
    rw [hdata] at hscope
    simpa [PeSection.is_in_scope, Patch.MayChange, and_assoc] using hscope

/-- A patch selects a target at a fixed RVA for a recognised file size only, and
`no_blinking_items` only inside a whole signature. -/
theorem Patch.site_recognised {file_size : Option Nat} {patch : Patch} {site : Site}
    (hsite : site ∈ patch.sites (.from_file_size file_size)) :
    (∃ recipe, site = .unique recipe) ∨
      (file_size = some STEAM_DUNIA_FILE_SIZE ∨ file_size = some RETAIL_DUNIA_FILE_SIZE ∨
        file_size = some UBISOFT_DUNIA_FILE_SIZE) ∧
      (patch = .no_blinking_items → ∃ recipe target_rva, site = .known recipe target_rva) := by
  by_cases hunknown : DuniaBuild.from_file_size file_size = .Unknown file_size
  · rw [hunknown] at hsite
    left
    cases patch <;>
    · simp only [Patch.sites, no_blink_rvas, List.mem_cons, List.not_mem_nil, or_false] at hsite
      first
        | exact ⟨_, hsite⟩
        | obtain hsite | hsite | hsite := hsite <;> exact ⟨_, hsite⟩
  · have hrecognised : file_size = some STEAM_DUNIA_FILE_SIZE ∨ file_size = some RETAIL_DUNIA_FILE_SIZE ∨
        file_size = some UBISOFT_DUNIA_FILE_SIZE := by
      unfold DuniaBuild.from_file_size at hunknown
      split at hunknown
      · exact .inl ‹_›
      · split at hunknown
        · exact .inr (.inl ‹_›)
        · split at hunknown
          · exact .inr (.inr ‹_›)
          · exact absurd rfl hunknown
    by_cases hpatch : patch = .no_blinking_items
    · subst hpatch
      rw [Patch.sites] at hsite
      split at hsite
      · right
        refine ⟨hrecognised, fun _ => ?_⟩
        simp only [List.mem_cons, List.not_mem_nil, or_false] at hsite
        obtain hsite | hsite | hsite := hsite <;> exact ⟨_, _, hsite⟩
      · left
        simp only [List.mem_cons, List.not_mem_nil, or_false] at hsite
        obtain hsite | hsite | hsite := hsite <;> exact ⟨_, hsite⟩
    · exact .inr ⟨hrecognised, fun h => absurd h hpatch⟩

/-- The access goes to a target that the planner of the patch, called in this
world, selects, and stays in one section that the patch may change. -/
def Patch.MayWrite (os : Os σ) (image : ModuleImage) (snapshot : Store UInt8) (build : DuniaBuild)
    (planner : World σ) (patch : Patch) (access : Access) : Prop :=
  ∃ writes, Selections os image snapshot planner (patch.sites build) writes ∧
    ∃ write ∈ writes, access.address = write.address ∧ access.length = write.replacement.length ∧
      ∃ loaded ∈ image.sections, patch.MayChange loaded.metadata ∧
        loaded.metadata.Holds image.base access.address access.length

theorem Patch.MayWrite.inside {os : Os σ} {image : ModuleImage} {snapshot : Store UInt8}
    {build : DuniaBuild} {planner : World σ} {patch : Patch} {access : Access}
    (hwrite : patch.MayWrite os image snapshot build planner access) (hlaid : image.Laid) :
    access.Inside image.base image.size := by
  obtain ⟨_, _, _, _, _, _, loaded, hloaded, _, hlo, hhi⟩ := hwrite
  have hbounds := hlaid.in_bounds loaded hloaded
  exact ⟨Nat.le_trans (Nat.le_add_right _ _) hlo, by omega⟩

/-- Reads in the sections of the image are permitted, and so are the writes to
targets that the planner of the patch selects. -/
structure Patch.Permits (os : Os σ) (image : ModuleImage) (snapshot : Store UInt8) (build : DuniaBuild)
    (permitted : Access → Prop) (planner : World σ) (patch : Patch) : Prop where
  reads : ∀ scope address length, image.InScope scope address length → permitted ⟨.read, address, length⟩
  writes : ∀ address length, patch.MayWrite os image snapshot build planner ⟨.write, address, length⟩ →
    permitted ⟨.write, address, length⟩

/-- A plan stays in what its patch permits. -/
theorem Patch.Permits.plan_within {os : Os σ} {image : ModuleImage} {snapshot : Store UInt8}
    {build : DuniaBuild} {permitted : Access → Prop} {planner planned : World σ} {patch : Patch}
    (hpermits : patch.Permits os image snapshot build permitted planner) (hlaid : image.Laid)
    (hlive : image.Live snapshot) {plan : PatchPlan}
    (hplan : patch.plan os image build planner = (.ok plan, planned)) : plan.Within permitted := by
  have hselections := Patch.plan_selects hlaid hlive hplan
  intro write hmem
  obtain ⟨site, hsite, target, rfl, hscope⟩ := hselections.mem hmem
  have hlengths : site.guard.expected.length = site.guard.replacement.length := site.guard.lengths
  refine ⟨hlengths, fun kind => ?_⟩
  change permitted ⟨kind, target, site.guard.replacement.length⟩
  rw [hlengths] at hscope
  cases kind with
  | read => exact hpermits.reads _ _ _ hscope
  | write =>
    obtain ⟨loaded, hloaded, hin, hholds⟩ := hscope
    exact hpermits.writes _ _
      ⟨_, hselections, _, hmem, rfl, rfl, loaded, hloaded, Patch.may_change hsite hin, hholds⟩

section Prepare

variable {os : Os σ} {image : ModuleImage} (hlaid : image.Laid) {snapshot : Store UInt8}
  (hlive : image.Live snapshot) {build : DuniaBuild} {permitted : Access → Prop}
  (hreads : ∀ scope address length, image.InScope scope address length →
    permitted ⟨.read, address, length⟩)
include hlaid hlive hreads

/-- Preparing a patch accesses what its planner is permitted, if it is enabled at all. -/
theorem prepare_patch_contained {config : PatchConfig} {patch : Patch} {world next : World σ}
    {result : Except Empty PreparedPatch}
    (hpermits : config.enabled patch = true →
      patch.Permits os image snapshot build permitted world)
    (hprepare : prepare_patch patch.name (config.enabled patch) (patch.plan os image build) world =
      (result, next)) :
    world.Accesses permitted next ∧ ∃ ready, result = .ok ready ∧
      ∀ plan ∈ ready.plans, plan.Within permitted := by
  unfold prepare_patch at hprepare
  cases henabled : config.enabled patch with
  | false =>
    rw [henabled] at hprepare
    cases hprepare
    exact ⟨World.Accesses.refl permitted world, _, rfl, nofun⟩
  | true =>
    rw [henabled, if_pos rfl] at hprepare
    have haccesses := (Patch.plan_confined os hlaid hreads world.memory build patch world rfl).1
    rcases hplan : patch.plan os image build world with ⟨error | plan, planned⟩
    · rw [Action.bind_of_ok (Action.attempt_of_eq hplan)] at hprepare
      rw [hplan] at haccesses
      cases hprepare
      exact ⟨haccesses, _, rfl, nofun⟩
    · rw [Action.bind_of_ok (Action.attempt_of_eq hplan)] at hprepare
      rw [hplan] at haccesses
      cases hprepare
      refine ⟨haccesses, _, rfl, fun other hother => ?_⟩
      obtain rfl := List.mem_singleton.mp hother
      exact (hpermits henabled).plan_within hlaid hlive hplan

/-- Each patch is prepared in the world that the patches before it have left. -/
theorem prepare_patches_contained {config : PatchConfig} {patches : List Patch} {world next : World σ}
    {result : Except Empty (List PreparedPatch)}
    (hpermits : ∀ early patch late, patches = early ++ patch :: late → config.enabled patch = true →
      patch.Permits os image snapshot build permitted
        (prepare_patches os image build config early world).2)
    (hprepare : prepare_patches os image build config patches world = (result, next)) :
    world.Accesses permitted next ∧ ∃ prepared, result = .ok prepared ∧
      ∀ ready ∈ prepared, ∀ plan ∈ ready.plans, plan.Within permitted := by
  induction patches generalizing world next result with
  | nil =>
    cases hprepare
    exact ⟨World.Accesses.refl permitted world, _, rfl, nofun⟩
  | cons patch rest ih =>
    rcases hfirst : prepare_patch patch.name (config.enabled patch) (patch.plan os image build) world
      with ⟨first, middle⟩
    obtain ⟨hearlier, ready, rfl, hready⟩ :=
      prepare_patch_contained hlaid hlive hreads (hpermits [] patch rest rfl) hfirst
    have hstart : ∀ early, (prepare_patches os image build config (patch :: early) world).2 =
        (prepare_patches os image build config early middle).2 := fun early => by
      rw [prepare_patches, Action.bind_of_ok hfirst]
      rcases hearly : prepare_patches os image build config early middle with ⟨error | others, last⟩
      · exact error.elim
      · rw [Action.bind_of_ok hearly]
        rfl
    rcases hrest : prepare_patches os image build config rest middle with ⟨others, last⟩
    obtain ⟨hlater, others, rfl, hothers⟩ := ih (fun early patch' late hsplit henabled => by
      rw [← hstart]
      exact hpermits (patch :: early) patch' late (by rw [hsplit, List.cons_append]) henabled) hrest
    rw [prepare_patches, Action.bind_of_ok hfirst, Action.bind_of_ok hrest] at hprepare
    cases hprepare
    exact ⟨World.Accesses.trans _ _ _ _ hearlier hlater, _, rfl,
      List.forall_mem_cons.mpr ⟨hready, hothers⟩⟩

end Prepare

/-- What `run` may access: ranges inside the module, and to be written only
those that the planner of an enabled patch selects in this run, in the image
that `from_module` made of an accepted section table. -/
def MayAccess (os : Os σ) (module : LoadedModule) (config : PatchConfig) (world : World σ)
    (access : Access) : Prop :=
  ∃ base size, module.information = .ok (base, size) ∧ access.Inside base size ∧
    (access.kind = .write →
      let build := DuniaBuild.from_file_size module.file_size
      ∃ image loaded parsed sections early patch late,
        ModuleImage.from_module os module world = (.ok image, loaded) ∧
        SectionTable parsed size sections ∧ image = .snapshot base size sections world.memory ∧
        Patch.all = early ++ patch :: late ∧ config.enabled patch = true ∧
        patch.MayWrite os image world.memory build
          (prepare_patches os image build config early loaded).2 access)

/-- Whatever the headers, the memory and the system, a run accesses only what it may. -/
theorem run_accesses (os : Os σ) (module : LoadedModule) (config : PatchConfig) (world : World σ) :
    world.Accesses (MayAccess os module config world) (run os (.ok module) config world).2 := by
  have hinside : ∀ base size, module.information = .ok (base, size) → ∀ address length, base ≤ address →
      address + length ≤ base + size → MayAccess os module config world ⟨.read, address, length⟩ :=
    fun base size hinformation address length hlo hhi => ⟨base, size, hinformation, ⟨hlo, hhi⟩, nofun⟩
  have hmodule := ModuleImage.from_module_confined os hinside world.memory world rfl
  obtain ⟨error, loaded, hload⟩ | ⟨image, loaded, hload⟩ := ModuleImage.from_module_cases os module world
  · rw [run, Action.bind_of_ok (Action.attempt_of_eq hload)]
    rw [hload] at hmodule
    exact hmodule.1
  · rw [hload] at hmodule
    obtain ⟨haccesses, _, hsnapshot⟩ := hmodule
    obtain ⟨base, size, parsed, sections, hinformation, htable, himage⟩ := hsnapshot image rfl
    have hlaid := htable.snapshot_laid base world.memory
    have hlive := ModuleImage.snapshot_live base size sections world.memory
    rw [← himage] at hlaid hlive
    have hrange : image.base = base ∧ image.size = size := by
      rw [himage]
      exact ⟨rfl, rfl⟩
    have hreads : ∀ scope address length, image.InScope scope address length →
        MayAccess os module config world ⟨.read, address, length⟩ := fun scope address length hscope => by
      obtain ⟨hlo, hhi⟩ := hscope.in_image hlaid
      rw [hrange.1] at hlo hhi
      rw [hrange.2] at hhi
      exact hinside base size hinformation address length hlo hhi
    have hpermits : ∀ early patch late, Patch.all = early ++ patch :: late →
        config.enabled patch = true →
        patch.Permits os image world.memory (.from_file_size module.file_size)
          (MayAccess os module config world)
          (prepare_patches os image (.from_file_size module.file_size) config early loaded).2 := by
      intro early patch late hsplit henabled
      refine ⟨hreads, fun address length hwrite => ?_⟩
      have hmapped := hwrite.inside hlaid
      rw [hrange.1, hrange.2] at hmapped
      exact ⟨base, size, hinformation, hmapped, fun _ => ⟨image, loaded, parsed, sections, early, patch, late,
        hload, htable, himage, hsplit, henabled, hwrite⟩⟩
    rcases hprepare : prepare_patches os image (.from_file_size module.file_size) config Patch.all loaded
      with ⟨result, ready⟩
    obtain ⟨hplanned, prepared, rfl, hwithin⟩ :=
      prepare_patches_contained hlaid hlive hreads hpermits hprepare
    rw [run, Action.bind_of_ok (Action.attempt_of_eq hload)]
    dsimp only
    rw [Action.bind_of_ok (Action.infallible_of_ok hprepare)]
    refine World.Accesses.trans _ _ _ _ haccesses (World.Accesses.trans _ _ _ _ hplanned ?_)
    exact accesses_bind (apply_patches_accesses hwithin).infallible (fun _ => accesses_pure _) ready

end systemdetection.patches
