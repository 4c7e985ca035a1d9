import SystemDetection.Patches.Containment
import SystemDetection.Patches.FaultyPlan

open effect store systemdetection.patches.memory systemdetection.patches.sigscan

namespace systemdetection.patches

variable {σ : Type} {os : Os σ}

/-- What becomes of a patch that is prepared in the given world, whatever the
system answers. -/
inductive PreparedIn (os : Os σ) (image : ModuleImage) (build : DuniaBuild) (config : PatchConfig)
    (planner : World σ) (patch : Patch) : PreparedPatch → Prop where
  | disabled (hdisabled : config.enabled patch = false) :
      PreparedIn os image build config planner patch (.Disabled patch.name)
  | ready {plan : PatchPlan} {planned : World σ} (henabled : config.enabled patch = true)
      (hplan : patch.plan os image build planner = (.ok plan, planned)) :
      PreparedIn os image build config planner patch (.Ready patch.name plan)
  | failed {error : PatchError} {planned : World σ} (henabled : config.enabled patch = true)
      (hplan : patch.plan os image build planner = (.error error, planned)) :
      PreparedIn os image build config planner patch (.Failed patch.name error)

section Prepare

variable (os : Os σ) (image : ModuleImage) (build : DuniaBuild) (config : PatchConfig)

/-- Preparing a patch never fails, and gives what its planner or the configuration says. -/
theorem prepare_patch_cases (patch : Patch) (world : World σ) :
    ∃ ready next, prepare_patch patch.name (config.enabled patch) (patch.plan os image build) world =
      (.ok ready, next) ∧ PreparedIn os image build config world patch ready := by
  unfold prepare_patch
  cases henabled : config.enabled patch with
  | false => exact ⟨_, world, rfl, .disabled henabled⟩
  | true =>
    rw [if_pos rfl]
    rcases hplan : patch.plan os image build world with ⟨error | plan, planned⟩
    · rw [Action.bind_of_ok (Action.attempt_of_eq hplan)]
      exact ⟨_, planned, rfl, .failed henabled hplan⟩
    · rw [Action.bind_of_ok (Action.attempt_of_eq hplan)]
      exact ⟨_, planned, rfl, .ready henabled hplan⟩

/-- Each patch is prepared in the world that the patches before it have left. -/
theorem prepare_patches_cases (patches : List Patch) (world : World σ) :
    ∃ prepared planned, prepare_patches os image build config patches world = (.ok prepared, planned) ∧
      List.Forall₂ (fun patch ready => ∃ early late, patches = early ++ patch :: late ∧
        PreparedIn os image build config (prepare_patches os image build config early world).2 patch ready)
        patches prepared := by
  induction patches generalizing world with
  | nil => exact ⟨[], world, rfl, .nil⟩
  | cons patch rest ih =>
    obtain ⟨ready, middle, hfirst, hready⟩ := prepare_patch_cases os image build config patch world
    obtain ⟨others, planned, hrest, hothers⟩ := ih middle
    refine ⟨ready :: others, planned, ?_, .cons ⟨[], rest, rfl, hready⟩ (hothers.imp ?_)⟩
    · rw [prepare_patches, Action.bind_of_ok hfirst, Action.bind_of_ok hrest]
      rfl
    · rintro other prepared ⟨early, late, rfl, hprepared⟩
      obtain ⟨before, start, hearly⟩ :=
        Action.eq_ok_of_empty (prepare_patches os image build config early) middle
      have hstart : prepare_patches os image build config (patch :: early) world =
          (.ok (ready :: before), start) := by
        rw [prepare_patches, Action.bind_of_ok hfirst, Action.bind_of_ok hearly]
        rfl
      rw [hearly] at hprepared
      exact ⟨patch :: early, late, rfl, by rwa [hstart]⟩

/-- Planning changes no byte. -/
theorem prepare_patches_memory (hlaid : image.Laid) (patches : List Patch) :
    (prepare_patches os image build config patches).Relates World.SameMemory := by
  induction patches with
  | nil => exact Action.relates_pure World.SameMemory.refl _
  | cons patch rest ih =>
    have hplan : (patch.plan os image build).Relates World.SameMemory := by
      intro world
      have hconfined : Confined (fun _ => True) world.memory (patch.plan os image build) _ :=
        Patch.plan_confined os hlaid (fun _ _ _ _ => trivial) world.memory build patch
      exact (hconfined world rfl).2.1
    have hprepare : (prepare_patch patch.name (config.enabled patch) (patch.plan os image build)).Relates
        World.SameMemory := by
      unfold prepare_patch
      split
      · refine Action.relates_bind World.SameMemory.trans hplan.attempt fun result => ?_
        cases result with
        | ok plan => exact Action.relates_pure World.SameMemory.refl _
        | error error => exact Action.relates_pure World.SameMemory.refl _
      · exact Action.relates_pure World.SameMemory.refl _
    refine Action.relates_bind World.SameMemory.trans hprepare fun ready => ?_
    exact Action.relates_bind World.SameMemory.trans ih fun others =>
      Action.relates_pure World.SameMemory.refl _

end Prepare

/-- What a prepared patch is reported as, over the memory at the end. A success
is reported only of a plan whose targets are all patched. -/
inductive Settles (allowed : Patch → Prop) (memory : Store UInt8) : PreparedPatch → PatchOutcome → Prop where
  | disabled (name : String) : Settles allowed memory (.Disabled name) ⟨name, .Disabled⟩
  | unplanned (name : String) (error : PatchError) :
      Settles allowed memory (.Failed name error) ⟨name, .Failed error.to_string⟩
  | failed (name : String) (plan : PatchPlan) (error : PatchError) :
      Settles allowed memory (.Ready name plan) ⟨name, .Failed error.to_string⟩
  | succeeded (name : String) {plan : PatchPlan} {status : PatchStatus}
      (hstatus : status = .Applied ∨ status = .AlreadyApplied)
      (hpatched : ∀ write ∈ plan.writes, write.Finds allowed (·.Patched memory)) :
      Settles allowed memory (.Ready name plan) ⟨name, status⟩

section Apply

variable {allowed : Patch → Prop} {world world' : World σ}

/-- What is settled stays so when more places are stamped. -/
theorem Settles.later {memory memory' : Store UInt8} {prepared : PreparedPatch} {outcome : PatchOutcome}
    (hsettles : Settles allowed memory prepared outcome)
    (hstamped : StampedBy (PlaceOf allowed) memory memory') : Settles allowed memory' prepared outcome := by
  cases hsettles with
  | disabled name => exact .disabled name
  | unplanned name error => exact .unplanned name error
  | failed name plan error => exact .failed name plan error
  | succeeded name hstatus hpatched =>
    refine .succeeded name hstatus fun write hwrite => (hpatched write hwrite).imp ?_
    exact fun placement hplace => hstamped.patched patch_templates_independent PlaceOf.mem hplace.mem

/-- The targets of a prepared patch have their places in memory. -/
def PreparedPatch.Finds (allowed : Patch → Prop) (memory : Store UInt8) (prepared : PreparedPatch) : Prop :=
  ∀ plan ∈ prepared.plans, ∀ write ∈ plan.writes, write.Finds allowed (·.Stands memory)

/-- Applying a prepared patch settles it, whatever the system answers. -/
theorem PreparedPatch.apply_settles {prepared : PreparedPatch} (world : World σ)
    (hfinds : prepared.Finds allowed world.memory) :
    ∃ outcome next, prepared.apply os world = (.ok outcome, next) ∧
      StampedBy (PlaceOf allowed) world.memory next.memory ∧ Settles allowed next.memory prepared outcome := by
  cases prepared with
  | Disabled name => exact ⟨_, world, rfl, .refl _ _, .disabled name⟩
  | Failed name error => exact ⟨_, world, rfl, .refl _ _, .unplanned name error⟩
  | Ready name plan =>
    rcases happly : plan.apply os world with ⟨result, next⟩
    obtain ⟨hstamped, hpatched⟩ := PatchPlan.apply_stamped (hfinds plan (List.mem_singleton_self plan)) happly
    rw [PreparedPatch.apply, Action.bind_of_ok (Action.attempt_of_eq happly)]
    cases result with
    | error error => exact ⟨_, next, rfl, hstamped, .failed name plan error⟩
    | ok state =>
      have hsettled := hpatched state rfl
      cases state with
      | Applied => exact ⟨_, next, rfl, hstamped, .succeeded name (.inl rfl) hsettled⟩
      | AlreadyApplied => exact ⟨_, next, rfl, hstamped, .succeeded name (.inr rfl) hsettled⟩

/-- What the first patches have settled stays so while the others are applied,
also when these fail and are rolled back. -/
theorem apply_patches_settles {prepared : List PreparedPatch} (world : World σ)
    (hfinds : ∀ ready ∈ prepared, ready.Finds allowed world.memory) :
    ∃ outcomes next, apply_patches os prepared world = (.ok outcomes, next) ∧
      StampedBy (PlaceOf allowed) world.memory next.memory ∧
      List.Forall₂ (Settles allowed next.memory) prepared outcomes := by
  induction prepared generalizing world with
  | nil => exact ⟨[], world, rfl, .refl _ _, .nil⟩
  | cons ready rest ih =>
    rw [List.forall_mem_cons] at hfinds
    obtain ⟨outcome, middle, happly, hmiddle, hsettles⟩ := ready.apply_settles world hfinds.1
    have hrest : ∀ other ∈ rest, other.Finds allowed middle.memory := by
      intro other hmem plan hplan write hwrite
      refine (hfinds.2 other hmem plan hplan write hwrite).imp fun placement hplace hstands => ?_
      exact (hmiddle.stands_iff patch_templates_independent PlaceOf.mem hplace.mem _).mpr hstands
    obtain ⟨outcomes, next, hothers, hnext, hforall⟩ := ih middle hrest
    refine ⟨outcome :: outcomes, next, ?_, hmiddle.trans patch_templates_independent PlaceOf.mem hnext,
      .cons (hsettles.later hnext) hforall⟩
    rw [apply_patches, Action.bind_of_ok happly, Action.bind_of_ok hothers]
    rfl

end Apply

/-- The plan of a patch that a run makes: the planner is called on the image of
the module, in the world that the planners before it have left. -/
def PlannedIn (os : Os σ) (dunia : Except String LoadedModule) (config : PatchConfig) (world : World σ)
    (patch : Patch) (plan : PatchPlan) : Prop :=
  ∃ module image loaded early late planned, dunia = .ok module ∧
    ModuleImage.from_module os module world = (.ok image, loaded) ∧ Patch.all = early ++ patch :: late ∧
    let build := DuniaBuild.from_file_size module.file_size
    patch.plan os image build (prepare_patches os image build config early loaded).2 = (.ok plan, planned)

/-- What a run tells of a patch. A success is told only of a plan that the run made
and of whose writes the given property holds. -/
inductive Tells (os : Os σ) (dunia : Except String LoadedModule) (config : PatchConfig) (world : World σ)
    (settled : CheckedWrite → Prop) (patch : Patch) : PatchOutcome → Prop where
  | disabled (hdisabled : config.enabled patch = false) :
      Tells os dunia config world settled patch ⟨patch.name, .Disabled⟩
  | failed (henabled : config.enabled patch = true) (reason : String) :
      Tells os dunia config world settled patch ⟨patch.name, .Failed reason⟩
  | succeeded {plan : PatchPlan} {status : PatchStatus} (henabled : config.enabled patch = true)
      (hstatus : status = .Applied ∨ status = .AlreadyApplied)
      (hplanned : PlannedIn os dunia config world patch plan)
      (hsettled : ∀ write ∈ plan.writes, settled write) :
      Tells os dunia config world settled patch ⟨patch.name, status⟩

/-- What is told of a run stays told when less is asked of settled writes. -/
theorem Tells.imp {dunia : Except String LoadedModule} {config : PatchConfig} {world : World σ}
    {settled settled' : CheckedWrite → Prop} {patch : Patch} {outcome : PatchOutcome}
    (htells : Tells os dunia config world settled patch outcome)
    (himp : ∀ write, settled write → settled' write) :
    Tells os dunia config world settled' patch outcome := by
  cases htells with
  | disabled hdisabled => exact .disabled hdisabled
  | failed henabled reason => exact .failed henabled reason
  | succeeded henabled hstatus hplanned hsettled =>
    exact .succeeded henabled hstatus hplanned fun write hwrite => himp write (hsettled write hwrite)

/-- A report that fails every enabled patch tells the truth. -/
theorem fail_enabled_tells (dunia : Except String LoadedModule) (config : PatchConfig) (world : World σ)
    (settled : CheckedWrite → Prop) (reason : String) :
    List.Forall₂ (Tells os dunia config world settled) Patch.all
      (PatchReport.new.fail_enabled config reason).outcomes := by
  rw [PatchReport.fail_enabled, List.forall₂_map_right_iff, List.forall₂_same]
  intro patch _
  cases henabled : config.enabled patch with
  | false => exact .disabled henabled
  | true => exact .failed henabled reason

/-- A run under any behaviour of the system: memory changes only by whole
replacements at places of enabled patches, and the report tells of each patch in
order. -/
theorem run_tells (os : Os σ) (dunia : Except String LoadedModule) (config : PatchConfig) (world : World σ) :
    ∃ report world', run os dunia config world = (.ok report, world') ∧
      StampedBy (PlaceOf (config.enabled · = true)) world.memory world'.memory ∧
      List.Forall₂ (Tells os dunia config world
        (·.Finds (config.enabled · = true) (·.Patched world'.memory))) Patch.all report.outcomes := by
  cases dunia with
  | error error => exact ⟨_, world, rfl, .refl _ _, fail_enabled_tells _ _ _ _ _⟩
  | ok module =>
    have hmodule : Confined (fun _ => True) world.memory (ModuleImage.from_module os module) _ :=
      ModuleImage.from_module_confined os (fun _ _ _ _ _ _ _ => trivial) world.memory
    obtain ⟨_, hmemory, himages⟩ := hmodule world rfl
    obtain ⟨error, loaded, hload⟩ | ⟨image, loaded, hload⟩ := ModuleImage.from_module_cases os module world
    · rw [run, Action.bind_of_ok (Action.attempt_of_eq hload)]
      rw [hload] at hmemory
      refine ⟨_, loaded, rfl, ?_, fail_enabled_tells _ _ _ _ _⟩
      rw [hmemory]
      exact .refl _ _
    · rw [hload] at hmemory himages
      obtain ⟨base, size, parsed, sections, _, htable, himage⟩ := himages image rfl
      have hlaid := htable.snapshot_laid base world.memory
      have hlive := ModuleImage.snapshot_live base size sections world.memory
      rw [← himage] at hlaid hlive
      obtain ⟨prepared, planned, hprepare, hforall⟩ :=
        prepare_patches_cases os image (.from_file_size module.file_size) config Patch.all loaded
      have hplanner : ∀ patches, (prepare_patches os image (.from_file_size module.file_size) config patches
          loaded).2.memory = world.memory := fun patches =>
        Eq.trans (prepare_patches_memory os image _ config hlaid patches loaded) hmemory
      have hplanned : planned.memory = world.memory := by
        have hkept := hplanner Patch.all
        rwa [hprepare] at hkept
      have hfinds : ∀ ready ∈ prepared, ready.Finds (config.enabled · = true) planned.memory := by
        intro ready hmem plan hplan
        obtain ⟨patch, _, early, _, _, hready⟩ := mem_of_forall₂ hforall hmem
        cases hready with
        | disabled | failed => cases hplan
        | ready henabled hmade =>
          obtain rfl := List.mem_singleton.mp hplan
          rw [hplanned]
          exact Patch.plan_finds hlaid hlive henabled (hplanner early) hmade
      obtain ⟨outcomes, world', happly, hstamped, hsettles⟩ := apply_patches_settles planned hfinds
      obtain ⟨report, rfl, hrun⟩ := run_of_stages hload hprepare happly
      rw [hplanned] at hstamped
      refine ⟨report, world', hrun, hstamped, (forall₂_join hforall.flip hsettles).imp ?_⟩
      rintro patch outcome ⟨ready, _, ⟨early, late, hsplit, hready⟩, hsettled⟩
      cases hready with
      | disabled hdisabled =>
        cases hsettled
        exact .disabled hdisabled
      | failed henabled _ =>
        cases hsettled
        exact .failed henabled _
      | ready henabled hmade =>
        cases hsettled with
        | failed => exact .failed henabled _
        | succeeded _ hstatus hpatched =>
          exact .succeeded henabled hstatus
            ⟨module, image, loaded, early, late, _, rfl, hload, hsplit, hmade⟩ hpatched

end systemdetection.patches
