import SystemDetection.Patches.RunMeaning

open effect store systemdetection.patches.memory systemdetection.patches.sigscan

namespace systemdetection.patches

variable {σ : Type}

/-- What a report may say of a run that found memory as `before` and left it as
`after`, when `plans` holds of the plans that the enabled planners returned. -/
structure PatchReport.Truthful (plans : Patch → PatchPlan → Prop) (before after : Store UInt8)
    (report : PatchReport) : Prop where
  complete : report.outcomes.map PatchOutcome.name = Patch.all.map Patch.name
  succeeded : ∀ patch plan, plans patch plan → ∀ outcome ∈ report.outcomes, outcome.name = patch.name →
    outcome.status = .Applied ∨ outcome.status = .AlreadyApplied
  in_force : ∀ outcome ∈ report.outcomes, outcome.status = .Applied ∨ outcome.status = .AlreadyApplied →
    ∃ patch plan, outcome.name = patch.name ∧ plans patch plan ∧ ∀ write ∈ plan.writes,
      after.read write.address write.replacement.length = write.replacement
  explained : ∀ position, after position ≠ before position →
    ∃ patch plan, plans patch plan ∧ ⟨patch.name, .Applied⟩ ∈ report.outcomes ∧ ∃ write ∈ plan.writes,
      write.address ≤ position ∧ position < write.address + write.replacement.length ∧
      before.read write.address write.replacement.length = write.expected ∧
      after.read write.address write.replacement.length = write.replacement

theorem Site.Accepts.guarded {image : ModuleImage} {memory : Store UInt8} {site : Site}
    {write : CheckedWrite} (haccepts : site.Accepts image memory write) :
    memory.read write.address write.replacement.length = write.expected ∨
      memory.read write.address write.replacement.length = write.replacement := by
  have hguarded := haccepts.1.guarded
  rw [site.guard.lengths] at hguarded
  rwa [haccepts.2.1, haccepts.2.2]

/-- What is known of the two stages makes the report truthful. -/
theorem truthful_of_stages {config : PatchConfig} {image : ModuleImage} {build : DuniaBuild}
    {before after : Store UInt8} {prepared : List PreparedPatch} {report : PatchReport}
    (hprepares : List.Forall₂ (Prepares config fun patch plan =>
      plan.Follows image before (patch.sites build)) Patch.all prepared)
    (hreports : List.Forall₂ Reports prepared report.outcomes)
    (hforce : ∀ ready ∈ prepared, ∀ plan ∈ ready.plans, ∀ write ∈ plan.writes,
      after.read write.address write.replacement.length = write.replacement)
    (hchanges : ∀ position, after position ≠ before position →
      ∃ name plan, .Ready name plan ∈ prepared ∧ ⟨name, .Applied⟩ ∈ report.outcomes ∧
        ∃ write ∈ plan.writes, write.address ≤ position ∧
          position < write.address + write.replacement.length) :
    report.Truthful (fun patch plan => config.enabled patch = true ∧
      plan.Follows image before (patch.sites build)) before after := by
  have houtcomes := outcome_of_patch hprepares hreports
  refine ⟨?_, ?_, ?_, ?_⟩
  · have hnames := houtcomes.imp fun patch outcome hboth => hboth.1
    rw [← List.forall₂_eq_eq_eq, List.forall₂_map_left_iff, List.forall₂_map_right_iff]
    exact hnames.flip.imp fun _ _ => id
  · rintro patch plan ⟨henabled, hplan⟩ outcome hmem hname
    obtain ⟨other, _, hother, ready, _, hpatch, hreport⟩ := mem_of_forall₂ houtcomes hmem
    obtain rfl := Patch.name_injective (hname.symm.trans hother)
    cases hpatch with
    | disabled hdisabled => simp [henabled] at hdisabled
    | failed _ hnone => exact absurd hplan (hnone plan)
    | ready _ _ =>
      cases hreport with
      | applied => exact .inl rfl
      | already => exact .inr rfl
  · intro outcome hmem hstatus
    obtain ⟨patch, _, hname, ready, hready, hpatch, hreport⟩ := mem_of_forall₂ houtcomes hmem
    cases hpatch with
    | disabled | failed =>
      cases hreport
      simp at hstatus
    | @ready plan henabled hplan =>
      exact ⟨patch, plan, hname, ⟨henabled, hplan⟩, hforce _ hready plan (by simp [PreparedPatch.plans])⟩
  · intro position hchanged
    obtain ⟨name, plan, hready, happlied, write, hwrite, hlo, hhi⟩ := hchanges position hchanged
    obtain ⟨patch, _, hpatch⟩ := mem_of_forall₂ hprepares hready
    cases hpatch with
    | ready henabled hplan =>
      obtain ⟨site, _, haccepts, _⟩ := hplan.of_write write hwrite
      have hheld := hforce _ hready plan (by simp [PreparedPatch.plans]) write hwrite
      refine ⟨patch, plan, ⟨henabled, hplan⟩, happlied, write, hwrite, hlo, hhi, ?_, hheld⟩
      obtain hexpected | hreplaced := haccepts.guarded
      · exact hexpected
      · -- a target that already held its replacement has not changed
        have hsame := Store.cell_of_read_eq (hheld.trans hreplaced.symm)
          (show position - write.address < _ by omega)
        rw [Nat.add_sub_cancel' hlo] at hsame
        exact absurd hsame hchanged

/-- A run on cooperating memory reports the truth, and the plans that it
prepared lead to the same memory in every order. -/
theorem run_report_truthful (os : Os σ) (usable : σ → Prop) (module : LoadedModule) (base size : Nat)
    (hinformation : module.information = .ok (base, size)) (hlimit : base + size < USIZE_LIMIT)
    (hqueries : Queryable os usable) (config : PatchConfig) (world : World σ) (husable : usable world.os)
    (image : ModuleImage) (himage : (ModuleImage.from_module os module world).1 = .ok image)
    (hreadable : image.Readable os usable)
    (hwritable : ∀ (patch : Patch) (plan : PatchPlan), config.enabled patch = true →
      (patch.plan os image (.from_file_size module.file_size) world).1 = .ok plan →
      ∀ write ∈ plan.writes, Writable os usable write.address write.replacement.length) :
    let build := DuniaBuild.from_file_size module.file_size
    let plans patch plan := config.enabled patch = true ∧ (Patch.plan os image build patch world).1 = .ok plan
    ∃ prepared planned report world',
      prepare_patches os image build config Patch.all (ModuleImage.from_module os module world).2 =
        (.ok prepared, planned) ∧
      run os (.ok module) config world = (.ok report, world') ∧
      report.Truthful plans world.memory world'.memory ∧
      ∀ order, order.Perm prepared → ∃ outcomes reordered,
        apply_patches os order planned = (.ok outcomes, reordered) ∧ reordered.memory = world'.memory := by
  intro build plans
  obtain ⟨_, sections, _, _, _, hsnapshots⟩ :=
    ModuleImage.from_module_snapshots hqueries husable hinformation himage
  obtain ⟨hvalid, hlive⟩ := hsnapshots.valid hlimit
  have hfollows : ∀ patch plan, (Patch.plan os image build patch world).1 = .ok plan ↔
      plan.Follows image world.memory (patch.sites build) := fun patch plan =>
    (Patch.plan_yields hvalid hreadable hlive build patch).run_ok_iff rfl husable
  obtain ⟨prepared, planned, report, world', hprepare, hmemory, husable', hprepares, hsound, happly, hrun⟩ :=
    run_stages hqueries hinformation hlimit husable himage hreadable fun patch plan henabled hplan =>
      hwritable patch plan henabled ((hfollows patch plan).mpr hplan)
  have hstamped : StampedFrom world.memory planned.memory := hmemory ▸ .refl _
  obtain ⟨outcomes, final, happly', hreports, hfinal, hchanges⟩ :=
    apply_patches_succeeds hsound hstamped husable'
  rw [happly'] at happly
  cases happly
  rw [hmemory] at hfinal hchanges
  have hready : ∀ plan ∈ prepared.flatMap PreparedPatch.plans,
      plan.Sound os usable image world.memory build := by
    intro plan hplan
    obtain ⟨ready, hmem, hplan⟩ := List.mem_flatMap.mp hplan
    exact hsound ready hmem plan hplan
  have hplans : plans = fun patch plan => config.enabled patch = true ∧
      plan.Follows image world.memory (patch.sites build) := by
    funext patch plan
    simp only [plans, hfollows]
  refine ⟨prepared, planned, report, world', hprepare, hrun, ?_, fun order horder => ?_⟩
  · rw [hplans]
    refine truthful_of_stages hprepares hreports (fun ready hmem plan hplan write hwrite => ?_) hchanges
    have hforce := (sound_writes_settle hready fun _ => Iff.rfl).2 plan
      (List.mem_flatMap.mpr ⟨ready, hmem, hplan⟩) write hwrite
    rw [hfinal, ← hforce.lengths]
    exact hforce.held
  · obtain ⟨reordered, last, hagain, _, hlast, _⟩ := apply_patches_succeeds
      (fun ready hmem => hsound ready (horder.mem_iff.mp hmem)) hstamped husable'
    refine ⟨reordered, last, hagain, ?_⟩
    rw [hlast, hfinal, hmemory]
    refine (sound_writes_settle hready fun plan => ?_).1
    simp only [List.mem_flatMap, horder.mem_iff]

def sample_module : LoadedModule where
  information := .ok (0x1000_0000, 0x3000)
  portex _ := .done (.ok sample_headers)
  file_size := some 0x800
  size_le _ _ hinformation := by
    cases hinformation
    decide

theorem sample_module_loads {world : World PageMap} (hpages : sample_pages world.os) :
    (ModuleImage.from_module page_table sample_module world).1 =
      .ok (.snapshot 0x1000_0000 0x3000 sample_sections world.memory) := by
  refine ModuleImage.from_module_loads (page_table_granting.queryable sample_pages) hpages rfl (by decide)
    (by decide) rfl sample_sections_valid (sample_snapshot_readable world.memory) ?_
  simp [ModuleImage.snapshot, sample_sections, PeSection.is_loaded]

/-- Every plan for the sample module writes to its pages. -/
theorem sample_plan_writable {world : World PageMap} (hpages : sample_pages world.os) {build : DuniaBuild}
    {patch : Patch} {plan : PatchPlan} (hplan : (patch.plan page_table
      (.snapshot 0x1000_0000 0x3000 sample_sections world.memory) build world).1 = .ok plan) :
    ∀ write ∈ plan.writes, Writable page_table sample_pages write.address write.replacement.length := by
  have hvalid := (validate_pe_sections_ok sample_sections_valid).snapshot_valid
    (show 0x1000_0000 + 0x3000 < USIZE_LIMIT by decide) world.memory
  have hfollows := ((Patch.plan_yields hvalid (sample_snapshot_readable _) (ModuleImage.snapshot_live _ _ _ _)
    build patch).run_ok_iff rfl hpages).mp hplan
  intro write hwrite
  obtain ⟨hlength, hlo, hhi⟩ := hfollows.in_image hvalid.toLaid write hwrite
  exact mapped_writable page_table_granting execute_read_accessible (by decide) hlength hlo hhi

theorem sample_plans_tapes : (Patch.jackal_tapes.plan page_table (.snapshot 0x1000_0000 0x3000
    sample_sections sample_world.memory) (.from_file_size sample_module.file_size) sample_world).1 =
      .ok sample_tapes :=
  eq_ok_of_writes (by decide +kernel)

/-- The tapes of the sample are applied, and no other patch changes anything unreported. -/
theorem run_report_truthful_on_sample :
    ∃ report world', run page_table (.ok sample_module) .default sample_world = (.ok report, world') ∧
      (∀ outcome ∈ report.outcomes, outcome.name = "jackal_tapes" →
        outcome.status = .Applied ∨ outcome.status = .AlreadyApplied) ∧
      ∀ position, world'.memory position ≠ sample_world.memory position →
        ∃ patch : Patch, ⟨patch.name, .Applied⟩ ∈ report.outcomes := by
  obtain ⟨_, _, report, world', _, hrun, htruthful, _⟩ := run_report_truthful page_table sample_pages
    sample_module 0x1000_0000 0x3000 rfl (by decide) (page_table_granting.queryable sample_pages) .default
    sample_world sample_world_pages _ (sample_module_loads sample_world_pages) (sample_snapshot_readable _)
    fun _ _ _ hplan => sample_plan_writable sample_world_pages hplan
  refine ⟨report, world', hrun, htruthful.succeeded .jackal_tapes sample_tapes ⟨rfl, sample_plans_tapes⟩,
    fun position hchanged => ?_⟩
  obtain ⟨patch, _, _, happlied, _⟩ := htruthful.explained position hchanged
  exact ⟨patch, happlied⟩

end systemdetection.patches
