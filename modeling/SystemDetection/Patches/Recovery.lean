import SystemDetection.Patches.FaultyRun
import SystemDetection.Patches.RunReport

open effect store systemdetection.patches.memory systemdetection.patches.sigscan

namespace systemdetection.patches

variable {σ : Type} {allowed : Patch → Prop} {origin memory : Store UInt8}

/-- The memory after any number of runs that enable allowed patches only. Each run
may find its own module, configuration and system, which may fail anywhere. -/
inductive Runs (allowed : Patch → Prop) (origin : Store UInt8) : Store UInt8 → Prop where
  | start : Runs allowed origin origin
  | run {σ : Type} (os : Os σ) (dunia : Except String LoadedModule) (config : PatchConfig) (world : World σ)
      (hallowed : ∀ patch, config.enabled patch = true → allowed patch)
      (hearlier : Runs allowed origin world.memory) :
      Runs allowed origin (run os dunia config world).2.memory

/-- After any number of runs the memory is the original one, stamped at places. -/
theorem Runs.stamped (hruns : Runs allowed origin memory) : StampedBy (PlaceOf allowed) origin memory := by
  induction hruns with
  | start => exact .refl _ _
  | run os dunia config world hallowed _ ih =>
    obtain ⟨report, world', hrun, hstamped, _⟩ := run_tells os dunia config world
    rw [hrun]
    refine ih.trans patch_templates_independent PlaceOf.mem (hstamped.mono fun placement hplace => ?_)
    obtain ⟨patch, build, site, hsite, henabled, htemplate⟩ := hplace
    exact ⟨patch, build, site, hsite, hallowed patch henabled, htemplate⟩

/-- Runs under failures replace whole targets or nothing of them. A byte that
changed lies in the target of an allowed patch, at a place of its template that
held the old bytes and now holds all the new ones; and no place of any patch is
made or lost. -/
theorem runs_replace_whole_targets (hruns : Runs allowed origin memory) :
    (∀ position, memory position ≠ origin position → ∃ patch build, ∃ site ∈ Patch.sites build patch,
      ∃ start, allowed patch ∧ start + site.template.offset ≤ position ∧
        position < start + site.template.offset + site.guard.expected.length ∧
        site.template.original.Meets origin start ∧ site.template.patched.Meets memory start) ∧
    ∀ patch build, ∀ site ∈ Patch.sites build patch, ∀ start,
      site.template.Stands memory start ↔ site.template.Stands origin start := by
  have hstamped := hruns.stamped
  refine ⟨fun position hchanged => ?_, fun patch build site hsite start =>
    hstamped.stands_iff patch_templates_independent PlaceOf.mem (Patch.template_mem hsite) start⟩
  obtain ⟨placement, ⟨patch, build, site, hsite, hallowed, htemplate⟩, ⟨hlo, hhi⟩, horiginal, hpatched⟩ :=
    hstamped.changed patch_templates_independent PlaceOf.mem hchanged
  rw [Placement.Original, htemplate] at horiginal
  rw [Placement.Patched, htemplate] at hpatched
  rw [Placement.target, htemplate] at hlo hhi
  rw [Site.template_before] at hhi
  exact ⟨patch, build, site, hsite, placement.start, hallowed, hlo, hhi, horiginal, hpatched⟩

/-- What a run reports stays true. A patch reported as applied, or as applied
already, has all its targets replaced at the end of the run, whatever failed
before or after, and after any later runs and their failures. -/
theorem reported_success_endures (os : Os σ) (dunia : Except String LoadedModule) (config : PatchConfig)
    (world : World σ) :
    ∃ report world', run os dunia config world = (.ok report, world') ∧
      ∀ allowed memory, Runs allowed world'.memory memory →
        List.Forall₂ (Tells os dunia config world fun write =>
          memory.read write.address write.replacement.length = write.replacement)
          Patch.all report.outcomes := by
  obtain ⟨report, world', hrun, _, htells⟩ := run_tells os dunia config world
  refine ⟨report, world', hrun, fun allowed memory hruns => htells.imp fun patch outcome htell => ?_⟩
  refine htell.imp fun write hfinds => (hfinds.imp fun placement hplace hpatched => ?_).held
  exact hruns.stamped.patched patch_templates_independent PlaceOf.mem hplace.mem hpatched

/-- A page table under a system that refuses every cache flush, so that each write fails after
its copy. -/
def refusing_flushes : Os PageMap :=
  { page_table with FlushInstructionCache := fun _ _ state => (.error "access denied", state) }

theorem refusing_flushes_run (origin : Store UInt8) (world : World PageMap) (hworld : world.memory = origin) :
    Runs (PatchConfig.default.enabled · = true) origin
      (run refusing_flushes (.ok sample_module) .default world).2.memory :=
  .run _ _ _ _ (fun _ => id) (hworld ▸ .start)

/-- After a run that failed at every flush the tapes still stand at their place. -/
theorem runs_replace_whole_targets_on_sample :
    jackal_tapes_recipe.template.Stands
      (run refusing_flushes (.ok sample_module) .default sample_world).2.memory 0x1000_1000 := by
  have hcells : ∀ cell ∈ jackal_tapes_recipe.template.original,
      sample_world.memory (0x1000_1000 + cell.1) = cell.2 := by decide +kernel
  exact ((runs_replace_whole_targets (refusing_flushes_run _ sample_world rfl)).2 .jackal_tapes (.Unknown none)
    (.unique jackal_tapes_recipe) (by simp [Patch.sites]) 0x1000_1000).mpr (.inl hcells)

/-- On the memory that the runs have left each site selects what it selected at first. -/
theorem Runs.resolves_iff (hruns : Runs allowed origin memory) {image image' : ModuleImage}
    (hbase : image'.base = image.base) (hsections : image.SameSections image') {patch : Patch}
    {build : DuniaBuild} {site : Site} (hsite : site ∈ patch.sites build) (target : Nat) :
    site.Resolves image origin target ↔ site.Resolves image' memory target := by
  have hstands := hruns.stamped.stands_iff patch_templates_independent PlaceOf.mem (Patch.template_mem hsite)
  have htransfer : ∀ rva, site.Resolves image origin (image.base + rva) ↔
      site.Resolves image' memory (image'.base + rva) := by
    refine Site.resolves_transfer hsections fun rva _ => ?_
    rw [hbase]
    exact (hstands (image.base + rva)).symm
  rw [hbase] at htransfer
  constructor
  · intro hresolves
    obtain ⟨rva, rfl⟩ := Nat.exists_eq_add_of_le hresolves.in_scope.base_le
    exact (htransfer rva).mp hresolves
  · intro hresolves
    have hle := hresolves.in_scope.base_le
    rw [hbase] at hle
    obtain ⟨rva, rfl⟩ := Nat.exists_eq_add_of_le hle
    exact (htransfer rva).mpr hresolves

section Cooperative

variable {os : Os σ} {usable : σ → Prop} {module : LoadedModule} {base size : Nat} {image : ModuleImage}
  {config : PatchConfig} {world : World σ}

/-- What a run on cooperating memory reports of an enabled patch depends on
whether its sites can be resolved, and all the writes that resolve are in force
at the end. -/
theorem run_settles_plans (hqueries : Queryable os usable) (hinformation : module.information = .ok (base, size))
    (hlimit : base + size < USIZE_LIMIT) (husable : usable world.os)
    (himage : (ModuleImage.from_module os module world).1 = .ok image) (hreadable : image.Readable os usable)
    (hwritable : ∀ (patch : Patch) (plan : PatchPlan), config.enabled patch = true →
      plan.Follows image world.memory (patch.sites (.from_file_size module.file_size)) →
      ∀ write ∈ plan.writes, Writable os usable write.address write.replacement.length) :
    ∃ report world', run os (.ok module) config world = (.ok report, world') ∧
      ∀ patch, config.enabled patch = true →
        let follows plan := PatchPlan.Follows plan image world.memory
          (patch.sites (.from_file_size module.file_size))
        (∀ plan, follows plan →
          (⟨patch.name, .Applied⟩ ∈ report.outcomes ∨ ⟨patch.name, .AlreadyApplied⟩ ∈ report.outcomes) ∧
          ∀ write ∈ plan.writes,
            world'.memory.read write.address write.replacement.length = write.replacement) ∧
        ((∀ plan, ¬ follows plan) → ∃ reason, ⟨patch.name, .Failed reason⟩ ∈ report.outcomes) := by
  obtain ⟨prepared, planned, report, world', _, hmemory, husable', hprepares, hsound, happly, hrun⟩ :=
    run_stages hqueries hinformation hlimit husable himage hreadable hwritable
  have hstamped : StampedFrom world.memory planned.memory := hmemory ▸ .refl _
  obtain ⟨outcomes, final, happly', hreports, hfinal, _⟩ := apply_patches_succeeds hsound hstamped husable'
  rw [happly'] at happly
  cases happly
  rw [hmemory] at hfinal
  refine ⟨report, world', hrun, fun patch henabled => ?_⟩
  have hall : patch ∈ Patch.all := by cases patch <;> simp [Patch.all]
  obtain ⟨outcome, houtcome, hname, ready, hready, hpatch, hreport⟩ :=
    mem_of_forall₂ (outcome_of_patch hprepares hreports).flip hall
  cases hpatch with
  | disabled hdisabled => simp [henabled] at hdisabled
  | failed _ hnone =>
    cases hreport
    exact ⟨fun plan hplan => absurd hplan (hnone plan), fun _ => ⟨_, houtcome⟩⟩
  | @ready plan _ hplan =>
    refine ⟨fun other hother => ?_, fun hnone => absurd hplan (hnone plan)⟩
    obtain rfl := hother.unique hplan
    constructor
    · cases hreport with
      | applied => exact .inl houtcome
      | already => exact .inr houtcome
    · intro write hwrite
      have hready' : ∀ plan ∈ prepared.flatMap PreparedPatch.plans, plan.Sound os usable image world.memory
          (.from_file_size module.file_size) := by
        intro plan hmem
        obtain ⟨other, hother, hmem⟩ := List.mem_flatMap.mp hmem
        exact hsound other hother plan hmem
      have hforce := (sound_writes_settle hready' fun _ => Iff.rfl).2 other
        (List.mem_flatMap.mpr ⟨_, hready, List.mem_singleton_self other⟩) write hwrite
      rw [hfinal, ← hforce.lengths]
      exact hforce.held

end Cooperative

/-- Recovery from failures. After any number of runs, whatever failed in them, a
run that the system does not hinder brings the enabled patches to the state that
the original memory calls for: what could be planned there is reported as
applied and in force, and what could not is reported as failed. -/
theorem faulty_runs_recover (os : Os σ) (usable : σ → Prop) (module : LoadedModule) (base size : Nat)
    (hinformation : module.information = .ok (base, size)) (hlimit : base + size < USIZE_LIMIT)
    (hqueries : Queryable os usable) (config : PatchConfig) (start : World σ) (hstart : usable start.os)
    (original : ModuleImage) (horiginal : (ModuleImage.from_module os module start).1 = .ok original)
    (hreadable : original.Readable os usable)
    (hwritable : ∀ (patch : Patch) (plan : PatchPlan), config.enabled patch = true →
      (patch.plan os original (.from_file_size module.file_size) start).1 = .ok plan →
      ∀ write ∈ plan.writes, Writable os usable write.address write.replacement.length)
    (world : World σ) (hruns : Runs allowed start.memory world.memory) (husable : usable world.os)
    (image : ModuleImage) (himage : (ModuleImage.from_module os module world).1 = .ok image)
    (hsections : original.SameSections image) :
    ∃ report world', run os (.ok module) config world = (.ok report, world') ∧
      ∀ patch, config.enabled patch = true →
        let first := (patch.plan os original (.from_file_size module.file_size) start).1
        (∀ plan, first = .ok plan →
          (⟨patch.name, .Applied⟩ ∈ report.outcomes ∨ ⟨patch.name, .AlreadyApplied⟩ ∈ report.outcomes) ∧
          ∀ write ∈ plan.writes,
            world'.memory.read write.address write.replacement.length = write.replacement) ∧
        ∀ error, first = .error error → ∃ reason, ⟨patch.name, .Failed reason⟩ ∈ report.outcomes := by
  obtain ⟨_, _, _, _, _, hfirst⟩ := ModuleImage.from_module_snapshots hqueries hstart hinformation horiginal
  obtain ⟨hvalid, hlive⟩ := hfirst.valid hlimit
  obtain ⟨_, _, _, _, _, hsecond⟩ := ModuleImage.from_module_snapshots hqueries husable hinformation himage
  have hbase : image.base = original.base := by rw [hfirst.image_eq, hsecond.image_eq]; rfl
  have hfollows : ∀ patch plan,
      (Patch.plan os original (.from_file_size module.file_size) patch start).1 = .ok plan ↔
        plan.Follows image world.memory (patch.sites (.from_file_size module.file_size)) := by
    intro patch plan
    rw [(Patch.plan_yields hvalid hreadable hlive _ patch).run_ok_iff rfl hstart]
    exact follows_congr (fun site hsite => hruns.resolves_iff hbase hsections hsite) plan
  obtain ⟨report, world', hrun, hreport⟩ := run_settles_plans hqueries hinformation hlimit husable himage
    (hreadable.of_sameSections hbase hsections) fun patch plan henabled hplan =>
      hwritable patch plan henabled ((hfollows patch plan).mpr hplan)
  refine ⟨report, world', hrun, fun patch henabled => ?_⟩
  obtain ⟨hplanned, hunplanned⟩ := hreport patch henabled
  refine ⟨fun plan hplan => hplanned plan ((hfollows patch plan).mp hplan), fun error herror => ?_⟩
  refine hunplanned fun plan hplan => ?_
  have hok := (hfollows patch plan).mpr hplan
  rw [herror] at hok
  cases hok

/-- What the failed run has left is usable: every protection was given back. -/
theorem refusing_flushes_pages :
    sample_pages (run refusing_flushes (.ok sample_module) .default sample_world).2.os :=
  mapped_of_pages (by decide) (by decide +kernel) (by decide +kernel)

/-- After that run, one on which nothing fails applies the tapes. -/
theorem faulty_runs_recover_on_sample :
    let faulty := (run refusing_flushes (.ok sample_module) .default sample_world).2
    ∃ report world', run page_table (.ok sample_module) .default faulty = (.ok report, world') ∧
      (⟨"jackal_tapes", .Applied⟩ ∈ report.outcomes ∨ ⟨"jackal_tapes", .AlreadyApplied⟩ ∈ report.outcomes) ∧
      world'.memory.read 0x1000_1005 1 = [0x14] := by
  intro faulty
  obtain ⟨report, world', hrun, hreport⟩ := faulty_runs_recover page_table sample_pages
    sample_module 0x1000_0000 0x3000 rfl (by decide) (page_table_granting.queryable sample_pages) .default
    sample_world sample_world_pages _ (sample_module_loads sample_world_pages) (sample_snapshot_readable _)
    (fun _ _ _ hplan => sample_plan_writable sample_world_pages hplan) faulty
    (refusing_flushes_run _ sample_world rfl) refusing_flushes_pages _
    (sample_module_loads refusing_flushes_pages) (ModuleImage.snapshot_sameSections _ _ _ _ _)
  obtain ⟨hstatus, hheld⟩ := (hreport .jackal_tapes rfl).1 sample_tapes sample_plans_tapes
  exact ⟨report, world', hrun, hstatus, hheld _ (List.mem_singleton_self _)⟩

end systemdetection.patches
