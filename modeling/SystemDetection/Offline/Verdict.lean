import SystemDetection.Offline.Failures
import SystemDetection.Patches.Recovery

open effect store systemdetection.patches.memory systemdetection.patches.sigscan

namespace systemdetection.patches.offline

variable {σ σ' : Type} {os : Os σ} {usable : σ → Prop}

/-- What a run reports of a patch, and the memory it leaves in a module at
`base'`, agree with the verdict on an image of the module at `base`. -/
structure Agrees (report : PatchReport) (memory : Store UInt8) (base base' : Nat) (patch : Patch)
    (verdict : Except PatchError PatchPlan) : Prop where
  planned : ∀ plan, verdict = .ok plan →
    (⟨patch.name, .Applied⟩ ∈ report.outcomes ∨ ⟨patch.name, .AlreadyApplied⟩ ∈ report.outcomes) ∧
    ∀ write ∈ plan.writes,
      memory.read (base' + (write.address - base)) write.replacement.length = write.replacement
  refused : ∀ error, verdict = .error error → ∃ reason, ⟨patch.name, .Failed reason⟩ ∈ report.outcomes

section Moved

variable {left right : ModuleImage} {memory start memory' : Store UInt8} {allowed : Patch → Prop}
  {patch : Patch} {build : DuniaBuild}

theorem mirrored_address {write write' : CheckedWrite}
    (hmirrored : CheckedWrite.Mirrored left right write write') :
    write'.address = right.base + (write.address - left.base) ∧
      write.address = left.base + (write'.address - right.base) := by
  obtain ⟨rva, hrva, hrva'⟩ := hmirrored.rva
  omega

variable (hmirrors : Mirrors left right memory start) (hruns : Runs allowed start memory')
include hmirrors hruns

/-- The plan for an image, moved to a mirror of it, is still the plan there
after any runs. -/
theorem follows_moved {plan : PatchPlan} (hfollows : plan.Follows left memory (patch.sites build)) :
    ∃ plan' : PatchPlan, plan'.Follows right memory' (patch.sites build) ∧
      List.Forall₂ (CheckedWrite.Mirrored left right) plan.writes plan'.writes := by
  obtain ⟨plan', hplan', hmirrored⟩ := hfollows.mirrored hmirrors
  exact ⟨plan', (follows_congr (fun _ hsite => hruns.resolves_iff rfl rfl hsite) plan').mp hplan', hmirrored⟩

/-- And a plan for the mirror after the runs was one for the image. -/
theorem follows_moved_back {plan' : PatchPlan} (hfollows : plan'.Follows right memory' (patch.sites build)) :
    ∃ plan : PatchPlan, plan.Follows left memory (patch.sites build) ∧
      List.Forall₂ (CheckedWrite.Mirrored right left) plan'.writes plan.writes := by
  have hstart : plan'.Follows right start (patch.sites build) :=
    (follows_congr (fun _ hsite => hruns.resolves_iff rfl rfl hsite) plan').mpr hfollows
  exact hstart.mirrored hmirrors.symm

variable {verdict : Except PatchError PatchPlan}
  (hverdict : ∀ plan, verdict = .ok plan ↔ plan.Follows left memory (patch.sites build))
include hverdict

/-- Memory that can be written where the verdict plans to, once moved, can be
written where the run plans to. -/
theorem writable_moved
    (hwritable : ∀ plan, verdict = .ok plan → ∀ write ∈ plan.writes,
      Writable os usable (right.base + (write.address - left.base)) write.replacement.length)
    {plan' : PatchPlan} (hfollows : plan'.Follows right memory' (patch.sites build)) :
    ∀ write' ∈ plan'.writes, Writable os usable write'.address write'.replacement.length := by
  intro write' hwrite'
  obtain ⟨plan, hplan, hmirrored⟩ := follows_moved_back hmirrors hruns hfollows
  obtain ⟨write, hwrite, hsame⟩ := mem_of_forall₂ hmirrored.flip hwrite'
  rw [(mirrored_address hsame).2, ← hsame.replacement]
  exact hwritable plan ((hverdict plan).mpr hplan) write hwrite

/-- A run that settles the plans for the mirror agrees with the verdict. -/
theorem agrees_of_settled {report : PatchReport} {final : Store UInt8}
    (hsettled : ∀ plan : PatchPlan, plan.Follows right memory' (patch.sites build) →
      (⟨patch.name, .Applied⟩ ∈ report.outcomes ∨ ⟨patch.name, .AlreadyApplied⟩ ∈ report.outcomes) ∧
      ∀ write ∈ plan.writes, final.read write.address write.replacement.length = write.replacement)
    (hunplanned : (∀ plan : PatchPlan, ¬ plan.Follows right memory' (patch.sites build)) →
      ∃ reason, ⟨patch.name, .Failed reason⟩ ∈ report.outcomes) :
    Agrees report final left.base right.base patch verdict := by
  constructor
  · intro plan hplan
    obtain ⟨plan', hplan', hmirrored⟩ := follows_moved hmirrors hruns ((hverdict plan).mp hplan)
    obtain ⟨hstatus, hheld⟩ := hsettled plan' hplan'
    refine ⟨hstatus, fun write hwrite => ?_⟩
    obtain ⟨write', hwrite', hsame⟩ := mem_of_forall₂ hmirrored.flip hwrite
    rw [← (mirrored_address hsame).1, ← hsame.replacement]
    exact hheld write' hwrite'
  · intro error herror
    refine hunplanned fun plan' hplan' => ?_
    obtain ⟨plan, hplan, _⟩ := follows_moved_back hmirrors hruns hplan'
    have hok := (hverdict plan).mpr hplan
    rw [herror] at hok
    cases hok

end Moved

/-- The offline verdict on a patch is the verdict of the game, for better and for
worse. A module has the sections of the mapped file at any base. After any number
of runs, whatever failed in them, a run that the system does not hinder succeeds
with the patches that are planned on the mapping, with the planned bytes in force
at the same RVAs, and fails with the others. So it succeeds with every enabled
patch when the file is validated, and on a build without known RVAs the file is
validated when a run with all patches fails with none. -/
theorem offline_verdict_is_final (os : Os σ) (usable : σ → Prop)
    (portex : List UInt8 → Except String PEHeaders) (base : Nat) (path : String) (file : List UInt8)
    (mapped : FileMappedModule) (hmapped : ModuleImage.from_pe_file portex base file = .ok mapped)
    (world : World σ) (hanswers : MappingAnswers os usable world file mapped) (husable : usable world.os)
    (os' : Os σ') (usable' : σ' → Prop) (hqueries : Queryable os' usable') (module : LoadedModule)
    (base' size : Nat) (hinformation : module.information = .ok (base', size))
    (hlimit : base' + size < USIZE_LIMIT) (hfile : module.file_size = some file.length) (config : PatchConfig)
    (hwritable : ∀ (patch : Patch) (plan : PatchPlan), config.enabled patch = true →
      planned_on_mapping os world file mapped patch = .ok plan → ∀ write ∈ plan.writes,
        Writable os' usable' (base' + (write.address - base)) write.replacement.length)
    (allowed : Patch → Prop) (start : Store UInt8)
    (hstart : ∀ loaded ∈ mapped.image.sections,
      start.read (base' + loaded.metadata.rva) loaded.metadata.size = loaded.bytes)
    (world' : World σ') (hruns : Runs allowed start world'.memory) (husable' : usable' world'.os)
    (image : ModuleImage) (himage : (ModuleImage.from_module os' module world').1 = .ok image)
    (hreadable : image.Readable os' usable') (hsections : mapped.image.SameSections image) :
    ∃ report final, run os' (.ok module) config world' = (.ok report, final) ∧
      (∀ patch, config.enabled patch = true →
        Agrees report final.memory base base' patch (planned_on_mapping os world file mapped patch)) ∧
      ((∃ validation, (validate_dunia_file os portex base path (.ok file) world).1 = .ok validation) →
        ∀ patch, config.enabled patch = true →
          ⟨patch.name, .Applied⟩ ∈ report.outcomes ∨ ⟨patch.name, .AlreadyApplied⟩ ∈ report.outcomes) ∧
      (known_rvas (.from_file_size (some file.length)) = [] → (∀ patch, config.enabled patch = true) →
        (∀ (patch : Patch) reason, ⟨patch.name, .Failed reason⟩ ∉ report.outcomes) →
        ∃ validation, (validate_dunia_file os portex base path (.ok file) world).1 = .ok validation) := by
  obtain ⟨_, _, _, _, _, hsnapshots⟩ :=
    ModuleImage.from_module_snapshots hqueries husable' hinformation himage
  have hverdict := planned_on_mapping_iff hmapped husable hanswers.toMappingReads
  obtain rfl : mapped.image.base = base := mapped_image_base hmapped
  obtain rfl : image.base = base' := by rw [hsnapshots.image_eq]; rfl
  have hmirrors : Mirrors mapped.image image (world.memory.write mapped.image.base mapped.mapping) start :=
    mirrors_of_live hsections (mapped_image_valid hmapped hanswers.top world.memory).2 hstart
  rw [← hfile] at hverdict
  obtain ⟨report, final, hrun, hreport⟩ :=
    run_settles_plans hqueries hinformation hlimit husable' himage hreadable fun patch plan henabled hplan =>
      writable_moved hmirrors hruns (hverdict patch) (hwritable patch · henabled) hplan
  have hagrees : ∀ patch, config.enabled patch = true → Agrees report final.memory mapped.image.base
      image.base patch (planned_on_mapping os world file mapped patch) := by
    intro patch henabled
    obtain ⟨hsettled, hunplanned⟩ := hreport patch henabled
    exact agrees_of_settled hmirrors hruns (hverdict patch) hsettled hunplanned
  refine ⟨report, final, hrun, hagrees, fun hvalidated patch henabled => ?_,
    fun hunknown hall hsucceeds => ?_⟩
  · obtain ⟨validation, hvalidate⟩ := hvalidated
    obtain ⟨plans, hplans⟩ := validate_dunia_file_planned hmapped husable hanswers.toMappingReads hvalidate
    exact ((hagrees patch henabled).planned _ (hplans patch).1).1
  · have hplans : ∀ patch, ∃ plan, planned_on_mapping os world file mapped patch = .ok plan := by
      intro patch
      cases hverdict : planned_on_mapping os world file mapped patch with
      | ok plan => exact ⟨plan, rfl⟩
      | error error =>
        obtain ⟨reason, hfailed⟩ := (hagrees patch (hall patch)).refused error hverdict
        exact absurd hfailed (hsucceeds patch reason)
    choose plans hplans using hplans
    have hknown : ∀ patch, KnownTargets (.from_file_size (some file.length)) mapped.image.base patch
        (plans patch) := by
      intro patch known hknown
      rw [hunknown] at hknown
      cases hknown
    obtain ⟨validation, hvalidate, _⟩ := validate_dunia_file_succeeds hmapped husable hanswers path
      fun patch => ⟨hplans patch, hknown patch⟩
    exact ⟨validation, hvalidate⟩

def sample_file_sections : List PeSection := sample_mapped.image.sections.map LoadedSection.metadata

theorem sample_file_sections_valid :
    validate_pe_sections sample_file_headers 0x100 = .ok sample_file_sections := by decide +kernel

theorem sample_file_readable (memory : Store UInt8) :
    (ModuleImage.snapshot 0x1000_0000 0x100 sample_file_sections memory).Readable page_table module_pages := by
  have hlaid := (validate_pe_sections_ok sample_file_sections_valid).snapshot_laid 0x1000_0000 memory
  exact hlaid.readable (module_readable (Nat.le_refl _) (Nat.le_refl _))

theorem sample_file_module_loads {world : World PageMap} (hpages : module_pages world.os) :
    (ModuleImage.from_module page_table sample_file_module world).1 =
      .ok (.snapshot 0x1000_0000 0x100 sample_file_sections world.memory) := by
  refine ModuleImage.from_module_loads (page_table_granting.queryable module_pages) hpages rfl (by decide)
    (by decide) rfl sample_file_sections_valid (sample_file_readable world.memory) ?_
  simp [ModuleImage.snapshot, sample_file_sections, sample_mapped, PeSection.is_loaded]

/-- What is planned on the mapping can be written at the same places of the module. -/
theorem sample_verdict_writable {patch : Patch} {plan : PatchPlan}
    (hplan : planned_on_mapping page_table sample_heap_world sample_file sample_mapped patch = .ok plan) :
    ∀ write ∈ plan.writes, Writable page_table module_pages (0x1000_0000 + (write.address - 0x2_0000))
      write.replacement.length := by
  have hreads := mapping_reads_of_pages sample_file_maps rfl
  intro write hwrite
  obtain ⟨hlength, hlo, hhi⟩ := ((planned_on_mapping_iff sample_file_maps sample_heap_pages hreads patch
    plan).mp hplan).in_image (mapped_image_laid sample_file_maps fun _ => 0).1 write hwrite
  rw [show sample_mapped.image.base = 0x2_0000 from rfl] at hlo hhi
  rw [show sample_mapped.image.size = 0x100 from rfl] at hhi
  exact module_writable hlength (Nat.le_add_right _ _) (by omega)

/-- The run that fails at every flush leaves the pages of the module as they were. -/
theorem refusing_flushes_module_pages :
    module_pages (run refusing_flushes (.ok sample_file_module) .default sample_file_world).2.os :=
  mapped_of_pages (by decide) (by decide +kernel) (by decide +kernel)

/-- After a run that failed at every flush, a run succeeds with what the validator planned. -/
theorem offline_verdict_is_final_on_sample :
    let faulty := (run refusing_flushes (.ok sample_file_module) .default sample_file_world).2
    ∃ report final, run page_table (.ok sample_file_module) .default faulty = (.ok report, final) ∧
      (⟨"machetes", .Applied⟩ ∈ report.outcomes ∨ ⟨"machetes", .AlreadyApplied⟩ ∈ report.outcomes) ∧
      final.memory.read 0x1000_0095 2 = [0xB0, 0x01] := by
  intro faulty
  have hanswers : MappingAnswers page_table mapping_pages sample_heap_world sample_file sample_mapped :=
    mapping_answers_of_pages sample_file_maps rfl sample_heap_pages
  have hruns : Runs (PatchConfig.default.enabled · = true) sample_file_world.memory faulty.memory :=
    .run _ _ _ _ (fun _ => id) .start
  obtain ⟨report, final, hrun, hagrees, _⟩ := offline_verdict_is_final page_table mapping_pages
    (fun _ => .ok sample_file_headers) 0x2_0000 "Dunia.dll" sample_file sample_mapped sample_file_maps
    sample_heap_world hanswers sample_heap_pages page_table module_pages
    (page_table_granting.queryable module_pages) sample_file_module 0x1000_0000 0x100 rfl (by decide)
    (by decide +kernel) .default (fun _ _ _ hplan => sample_verdict_writable hplan) _
    sample_file_world.memory (by decide +kernel) faulty hruns refusing_flushes_module_pages _
    (sample_file_module_loads refusing_flushes_module_pages) (sample_file_readable _) rfl
  have hmachetes : planned_on_mapping page_table sample_heap_world sample_file sample_mapped .machetes =
      .ok ⟨[⟨0x2_0095, [0x8A, 0xC3], [0xB0, 0x01]⟩], by decide⟩ := eq_ok_of_writes (by decide +kernel)
  obtain ⟨hstatus, hheld⟩ := (hagrees .machetes rfl).planned _ hmachetes
  have htarget := hheld ⟨0x2_0095, [0x8A, 0xC3], [0xB0, 0x01]⟩ (List.mem_singleton_self _)
  exact ⟨report, final, hrun, hstatus, htarget⟩

end systemdetection.patches.offline
