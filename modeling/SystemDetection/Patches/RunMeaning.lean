import SystemDetection.Patches.ApplyRun
import SystemDetection.Patches.Run
import SystemDetection.Sigscan.ModuleReads

open effect store systemdetection.patches.memory systemdetection.patches.sigscan

namespace systemdetection.patches

variable {σ : Type} {os : Os σ} {usable : σ → Prop}

/-- What the preparation of a patch says about it: `plans` holds of the plan
that its planner returns. -/
inductive Prepares (config : PatchConfig) (plans : Patch → PatchPlan → Prop) :
    Patch → PreparedPatch → Prop where
  | disabled {patch : Patch} (hdisabled : config.enabled patch = false) :
      Prepares config plans patch (.Disabled patch.name)
  | ready {patch : Patch} {plan : PatchPlan} (henabled : config.enabled patch = true)
      (hplan : plans patch plan) : Prepares config plans patch (.Ready patch.name plan)
  | failed {patch : Patch} {error : PatchError} (henabled : config.enabled patch = true)
      (hnone : ∀ plan, ¬ plans patch plan) : Prepares config plans patch (.Failed patch.name error)

/-- Over readable memory a patch is prepared as its planner yields. -/
theorem prepare_patch_reads {memory : Store UInt8} (config : PatchConfig)
    {plans : Patch → PatchPlan → Prop} {patch : Patch} {build : Action (World σ) PatchError PatchPlan}
    (hyields : Yields usable memory build (plans patch)) :
    ∃ prepared, Reads usable memory (prepare_patch patch.name (config.enabled patch) build) (.ok prepared) ∧
      Prepares config plans patch prepared := by
  unfold prepare_patch
  cases henabled : config.enabled patch with
  | false => exact ⟨_, reads_pure _, .disabled henabled⟩
  | true =>
    obtain ⟨result, hreads, haccepts⟩ := hyields
    cases result with
    | ok plan => exact ⟨_, hreads.attempt.bind (reads_pure _), .ready henabled ((haccepts plan).mp rfl)⟩
    | error error =>
      exact ⟨_, hreads.attempt.bind (reads_pure _), .failed henabled fun plan hplan =>
        nomatch (haccepts plan).mpr hplan⟩

/-- Every patch is prepared against the same memory, since planning only reads. -/
theorem prepare_patches_reads {memory : Store UInt8} {image : ModuleImage} {build : DuniaBuild}
    {plans : Patch → PatchPlan → Prop}
    (hyields : ∀ patch, Yields usable memory (patch.plan os image build) (plans patch))
    (config : PatchConfig) (patches : List Patch) :
    ∃ prepared, Reads usable memory (prepare_patches os image build config patches) (.ok prepared) ∧
      List.Forall₂ (Prepares config plans) patches prepared := by
  induction patches with
  | nil => exact ⟨[], reads_pure _, .nil⟩
  | cons patch rest ih =>
    obtain ⟨first, hfirst, hprepares⟩ := prepare_patch_reads config (hyields patch)
    obtain ⟨others, hothers, hforall⟩ := ih
    exact ⟨first :: others, hfirst.bind (hothers.bind (reads_pure _)), .cons hprepares hforall⟩

/-- The plans that are ready to be applied. -/
def PreparedPatch.plans : PreparedPatch → List PatchPlan
  | .Ready _ plan => [plan]
  | .Disabled _ | .Failed _ _ => []

/-- What applying a prepared patch may report when its plan cannot fail. -/
inductive Reports : PreparedPatch → PatchOutcome → Prop where
  | disabled (name : String) : Reports (.Disabled name) ⟨name, .Disabled⟩
  | failed (name : String) (error : PatchError) :
      Reports (.Failed name error) ⟨name, .Failed error.to_string⟩
  | applied (name : String) (plan : PatchPlan) : Reports (.Ready name plan) ⟨name, .Applied⟩
  | already (name : String) (plan : PatchPlan) : Reports (.Ready name plan) ⟨name, .AlreadyApplied⟩

/-- The plan was made for the original memory and its writes can be carried out. -/
structure PatchPlan.Sound (os : Os σ) (usable : σ → Prop) (image : ModuleImage) (origin : Store UInt8)
    (build : DuniaBuild) (plan : PatchPlan) : Prop where
  follows : ∃ patch : Patch, plan.Follows image origin (patch.sites build)
  cooperative : ∀ write ∈ plan.writes, write.Cooperative os usable

section Apply

variable {image : ModuleImage} {origin : Store UInt8} {build : DuniaBuild}

/-- A sound plan is applied or found applied, and leaves the system usable. -/
theorem PreparedPatch.apply_succeeds {prepared : PreparedPatch}
    (hsound : ∀ plan ∈ prepared.plans, plan.Sound os usable image origin build) {world : World σ}
    (hstamped : StampedFrom origin world.memory) (husable : usable world.os) :
    ∃ outcome world', prepared.apply os world = (.ok outcome, world') ∧ Reports prepared outcome ∧
      usable world'.os ∧ StampedFrom origin world'.memory ∧
      world'.memory = write_all (prepared.plans.flatMap PatchPlan.writes) world.memory ∧
      (outcome.status ≠ .Applied → world'.memory = world.memory) := by
  cases prepared with
  | Disabled name => exact ⟨_, world, rfl, .disabled name, husable, hstamped, rfl, fun _ => rfl⟩
  | Failed name error => exact ⟨_, world, rfl, .failed name error, husable, hstamped, rfl, fun _ => rfl⟩
  | Ready name plan =>
    obtain ⟨⟨patch, hfollows⟩, hcooperative⟩ := hsound plan (by simp [plans])
    obtain ⟨state, world', hplan, husable', hstamped', hmemory, halready⟩ :=
      hfollows.apply_succeeds hcooperative hstamped husable
    have hwrites : plan.writes = (PreparedPatch.Ready name plan).plans.flatMap PatchPlan.writes := by
      simp [plans]
    rw [hwrites] at hmemory
    have happly : ∀ outcome, (match state with
        | .Applied => ⟨name, .Applied⟩
        | .AlreadyApplied => ⟨name, .AlreadyApplied⟩) = outcome →
        (PreparedPatch.Ready name plan).apply os world = (.ok outcome, world') := by
      rintro outcome rfl
      rw [PreparedPatch.apply, Action.bind_of_ok (Action.attempt_of_eq hplan)]
      cases state <;> rfl
    cases state with
    | Applied => exact ⟨_, world', happly _ rfl, .applied name plan, husable', hstamped', hmemory, by simp⟩
    | AlreadyApplied =>
      exact ⟨_, world', happly _ rfl, .already name plan, husable', hstamped', hmemory, fun _ => halready rfl⟩

/-- Whatever the order, every sound plan succeeds, memory ends as if all their
writes had been made, and what changed is inside a plan reported `Applied`. -/
theorem apply_patches_succeeds {order : List PreparedPatch}
    (hsound : ∀ prepared ∈ order, ∀ plan ∈ prepared.plans, plan.Sound os usable image origin build)
    {world : World σ} (hstamped : StampedFrom origin world.memory) (husable : usable world.os) :
    ∃ outcomes world', apply_patches os order world = (.ok outcomes, world') ∧
      List.Forall₂ Reports order outcomes ∧
      world'.memory = write_all ((order.flatMap PreparedPatch.plans).flatMap PatchPlan.writes) world.memory ∧
      (∀ position, world'.memory position ≠ world.memory position →
        ∃ name plan, .Ready name plan ∈ order ∧ ⟨name, .Applied⟩ ∈ outcomes ∧
          ∃ write ∈ plan.writes, write.address ≤ position ∧
            position < write.address + write.replacement.length) := by
  induction order generalizing world with
  | nil => exact ⟨[], world, rfl, .nil, rfl, fun _ hchanged => absurd rfl hchanged⟩
  | cons prepared rest ih =>
    rw [List.forall_mem_cons] at hsound
    obtain ⟨outcome, next, happly, hreports, hnext, hstampedNext, hmemory, hquiet⟩ :=
      PreparedPatch.apply_succeeds hsound.1 hstamped husable
    obtain ⟨outcomes, world', hrest, hforall, hfinal, hchanges⟩ := ih hsound.2 hstampedNext hnext
    refine ⟨outcome :: outcomes, world', ?_, .cons hreports hforall, ?_, fun position hchanged => ?_⟩
    · rw [apply_patches, Action.bind_of_ok happly, Action.bind_of_ok hrest]
      rfl
    · rw [hfinal, hmemory, List.flatMap_cons, List.flatMap_append, write_all_append]
    · by_cases hlater : world'.memory position = next.memory position
      · rw [hlater] at hchanged
        have happlied : outcome.status = .Applied := by
          by_contra hother
          exact hchanged (congrFun (hquiet hother) position)
        rw [hmemory] at hchanged
        obtain ⟨write, hwrite, hcovers⟩ := write_all_changed hchanged
        cases hreports with
        | applied name plan =>
          exact ⟨name, plan, by simp, by simp, write, by simpa [PreparedPatch.plans] using hwrite, hcovers⟩
        | disabled | failed | already => cases happlied
      · obtain ⟨name, plan, hready, hreported, hwrites⟩ := hchanges position hlater
        exact ⟨name, plan, by simp [hready], by simp [hreported], hwrites⟩

/-- Sound plans, each with the patch that it was made for. -/
theorem sound_entries {plans : List PatchPlan}
    (hsound : ∀ plan ∈ plans, plan.Sound os usable image origin build) :
    ∃ patch_of : PatchPlan → Patch, ∀ others : List PatchPlan, (∀ plan ∈ others, plan ∈ plans) →
      Planned image origin build (others.map fun plan => (patch_of plan, plan)) := by
  have hpatch : ∀ plan, ∃ patch : Patch, plan ∈ plans → plan.Follows image origin (patch.sites build) := by
    intro plan
    by_cases hmem : plan ∈ plans
    · obtain ⟨patch, hfollows⟩ := (hsound plan hmem).follows
      exact ⟨patch, fun _ => hfollows⟩
    · exact ⟨.machetes, fun hin => absurd hin hmem⟩
  choose patch_of hfollows using hpatch
  refine ⟨patch_of, fun others hothers entry hentry => ?_⟩
  obtain ⟨plan, hplan, rfl⟩ := List.mem_map.mp hentry
  exact hfollows plan (hothers plan hplan)

/-- The memory after sound plans depends on which they are, not on their order,
and holds the replacement of each of their writes. -/
theorem sound_writes_settle {plans others : List PatchPlan}
    (hsound : ∀ plan ∈ plans, plan.Sound os usable image origin build)
    (hsame : ∀ plan, plan ∈ others ↔ plan ∈ plans) :
    write_all (others.flatMap PatchPlan.writes) origin = write_all (plans.flatMap PatchPlan.writes) origin ∧
      ∀ plan ∈ plans, ∀ write ∈ plan.writes,
        write.InForce (write_all (plans.flatMap PatchPlan.writes) origin) image := by
  obtain ⟨patch_of, hentries⟩ := sound_entries hsound
  have hplanned := hentries plans fun _ => id
  have hothers := hentries others fun plan => (hsame plan).mp
  have hmemory := hplanned.write_all_eq origin
  have hmemory' := hothers.write_all_eq origin
  rw [List.flatMap_map] at hmemory hmemory'
  refine ⟨?_, fun plan hplan write hwrite => ?_⟩
  · refine hmemory'.trans (Eq.trans ?_ hmemory.symm)
    refine stamp_all_congr patch_templates_independent hplanned.members hplanned.stands fun placement => ?_
    simp [all_placements, hsame]
  · have hforce := hplanned.in_force (patch_of plan, plan)
      (List.mem_map.mpr ⟨plan, hplan, rfl⟩) write hwrite
    rwa [← hmemory] at hforce

end Apply

/-- Each outcome comes from the preparation of one patch. -/
theorem outcome_of_patch {config : PatchConfig} {plans : Patch → PatchPlan → Prop}
    {patches : List Patch} {order : List PreparedPatch} {outcomes : List PatchOutcome}
    (hprepares : List.Forall₂ (Prepares config plans) patches order)
    (hreports : List.Forall₂ Reports order outcomes) :
    List.Forall₂ (fun patch outcome => outcome.name = patch.name ∧
      ∃ prepared ∈ order, Prepares config plans patch prepared ∧ Reports prepared outcome) patches outcomes := by
  induction hprepares generalizing outcomes with
  | nil =>
    cases hreports
    exact .nil
  | @cons patch prepared patches order hpatch _ ih =>
    cases hreports with
    | @cons _ outcome _ outcomes hreport hrest =>
      have hname : outcome.name = patch.name := by
        cases hpatch <;> cases hreport <;> rfl
      refine .cons ⟨hname, prepared, by simp, hpatch, hreport⟩ ((ih hrest).imp ?_)
      rintro other reported ⟨hother, found, hfound, hboth⟩
      exact ⟨hother, found, by simp [hfound], hboth⟩

section Run

variable {module : LoadedModule} {base size : Nat} {world : World σ} {image : ModuleImage}
  {config : PatchConfig}

/-- A run is its three stages one after the other. -/
theorem run_of_stages {loaded planned world' : World σ} {prepared : List PreparedPatch}
    {outcomes : List PatchOutcome} (himage : ModuleImage.from_module os module world = (.ok image, loaded))
    (hprepare : prepare_patches os image (.from_file_size module.file_size) config Patch.all loaded =
      (.ok prepared, planned))
    (happly : apply_patches os prepared planned = (.ok outcomes, world')) :
    ∃ report : PatchReport, report.outcomes = outcomes ∧
      run os (.ok module) config world = (.ok report, world') := by
  unfold run
  dsimp only
  rw [Action.bind_of_ok (Action.attempt_of_eq himage)]
  dsimp only
  rw [Action.bind_of_ok (Action.infallible_of_ok hprepare), Action.bind_of_ok (Action.infallible_of_ok happly)]
  exact ⟨_, rfl, rfl⟩

/-- The three stages of a run on a module whose image is accepted. -/
theorem run_stages (hqueries : Queryable os usable) (hinformation : module.information = .ok (base, size))
    (hlimit : base + size < USIZE_LIMIT) (husable : usable world.os)
    (himage : (ModuleImage.from_module os module world).1 = .ok image) (hreadable : image.Readable os usable)
    (hwritable : ∀ (patch : Patch) (plan : PatchPlan), config.enabled patch = true →
      plan.Follows image world.memory (patch.sites (.from_file_size module.file_size)) →
      ∀ write ∈ plan.writes, Writable os usable write.address write.replacement.length) :
    ∃ prepared planned report world',
      prepare_patches os image (.from_file_size module.file_size) config Patch.all
        (ModuleImage.from_module os module world).2 = (.ok prepared, planned) ∧
      planned.memory = world.memory ∧ usable planned.os ∧
      List.Forall₂ (Prepares config fun patch plan =>
        plan.Follows image world.memory (patch.sites (.from_file_size module.file_size))) Patch.all prepared ∧
      (∀ ready ∈ prepared, ∀ plan ∈ ready.plans,
        plan.Sound os usable image world.memory (.from_file_size module.file_size)) ∧
      apply_patches os prepared planned = (.ok report.outcomes, world') ∧
      run os (.ok module) config world = (.ok report, world') := by
  obtain ⟨loaded, sections, hrun, hmemory, hloaded, hsnapshots⟩ :=
    ModuleImage.from_module_snapshots hqueries husable hinformation himage
  obtain ⟨hvalid, hlive⟩ := hsnapshots.valid hlimit
  rw [hrun]
  obtain ⟨prepared, hprepare, hforall⟩ := prepare_patches_reads
    (Patch.plan_yields hvalid hreadable hlive (.from_file_size module.file_size)) config Patch.all
  obtain ⟨planned, hplanned, hplannedMemory, hplannedUsable⟩ := hprepare loaded hmemory hloaded
  have hsound : ∀ ready ∈ prepared, ∀ plan ∈ ready.plans,
      plan.Sound os usable image world.memory (.from_file_size module.file_size) := by
    intro ready hready plan hplan
    obtain ⟨patch, _, hprepares⟩ := mem_of_forall₂ hforall hready
    cases hprepares with
    | disabled | failed => simp [PreparedPatch.plans] at hplan
    | ready henabled hfollows =>
      obtain rfl := List.mem_singleton.mp hplan
      refine ⟨⟨patch, hfollows⟩, fun write hwrite => ?_⟩
      obtain ⟨site, _, haccepts', _⟩ := hfollows.of_write write hwrite
      exact haccepts'.cooperative hreadable (hwritable patch _ henabled hfollows write hwrite)
  have hstamped : StampedFrom world.memory planned.memory := by
    rw [hplannedMemory]
    exact .refl _
  obtain ⟨outcomes, world', happly, _⟩ := apply_patches_succeeds hsound hstamped hplannedUsable
  obtain ⟨report, rfl, hreport⟩ := run_of_stages hrun hplanned happly
  exact ⟨prepared, planned, report, world', hplanned, hplannedMemory, hplannedUsable, hforall, hsound,
    happly, hreport⟩

end Run

end systemdetection.patches
