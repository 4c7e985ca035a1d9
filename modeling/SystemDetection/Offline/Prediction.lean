import SystemDetection.Memory.Granting
import SystemDetection.Offline.Stages
import SystemDetection.Patches.Mirror
import SystemDetection.Patches.RunMeaning

open effect store systemdetection.patches.memory systemdetection.patches.sigscan

namespace systemdetection.patches.offline

variable {σ σ' : Type}

/-- What the report of a run says where the validation of the file says this. -/
def OfflinePatchState.status : OfflinePatchState → PatchStatus
  | .AppliedToCopy => .Applied
  | .AlreadyPresent => .AlreadyApplied

section Apply

variable {os : Os σ} {os' : Os σ'} {usable : σ' → Prop} {left right : ModuleImage}

/-- The plan that a run prepared is the one that the validation prepared, moved
to the module, and there only its byte guards could refuse it. -/
def Moved (os : Os σ') (usable : σ' → Prop) (left right : ModuleImage) (ready : PreparedPatch)
    (ready' : patches.PreparedPatch) : Prop :=
  ∃ plan : PatchPlan, ready' = .Ready ready.name plan ∧
    List.Forall₂ (CheckedWrite.Mirrored left right) ready.plan.writes plan.writes ∧
    ∀ write ∈ plan.writes, write.Cooperative os usable

/-- Applied to the module, the moved plans succeed as they did on the copy. -/
theorem apply_patches_mirrored {prepared : List PreparedPatch} {prepared' : List patches.PreparedPatch}
    (hmoved : List.Forall₂ (Moved os' usable left right) prepared prepared')
    {patches : List ValidatedPatch} {world copied : World σ}
    (happly : apply_to_copy os prepared world = (.ok patches, copied)) {world' : World σ'}
    (hmirrors : Mirrors left right world.memory world'.memory) (husable : usable world'.os) :
    ∃ final, apply_patches os' prepared' world' =
      (.ok (patches.map fun validated => ⟨validated.name, validated.state.status⟩), final) := by
  induction hmoved generalizing patches world copied world' with
  | nil =>
    cases happly
    exact ⟨world', rfl⟩
  | @cons ready ready' prepared prepared' hfirst _ ih =>
    obtain ⟨plan, rfl, hwrites, hcooperative⟩ := hfirst
    obtain ⟨state, next, hplan, happly⟩ := Action.bind_eq_ok_iff.mp happly
    obtain ⟨others, last, hrest, happly⟩ := Action.bind_eq_ok_iff.mp happly
    obtain ⟨next', hplan', hnext', hmirrors'⟩ := PatchPlan.apply_mirrored
      (Action.map_err_eq_ok_iff.mp hplan) hwrites hcooperative hmirrors husable
    obtain ⟨final, hothers⟩ := ih hrest hmirrors' hnext'
    cases happly
    refine ⟨final, ?_⟩
    have houtcome : ∃ status, (patches.PreparedPatch.Ready ready.name plan).apply os' world' =
        (.ok ⟨ready.name, status⟩, next') ∧ status = (OfflinePatchState.of_write state).status := by
      rw [patches.PreparedPatch.apply, Action.bind_of_ok (Action.attempt_of_eq hplan')]
      cases state with
      | Applied => exact ⟨.Applied, rfl, rfl⟩
      | AlreadyApplied => exact ⟨.AlreadyApplied, rfl, rfl⟩
    obtain ⟨_, hrun, rfl⟩ := houtcome
    rw [apply_patches, Action.bind_of_ok hrun, Action.bind_of_ok hothers]
    rfl

end Apply

section Moved

variable {left right : ModuleImage}

/-- The moved writes go to the same RVAs with the same replacements. -/
theorem mirrored_rows {writes writes' : List CheckedWrite}
    (hmirrored : List.Forall₂ (CheckedWrite.Mirrored left right) writes writes') {rvas : List Nat}
    (hrvas : writes.map CheckedWrite.address = rvas.map (left.base + ·)) :
    List.Forall₂ (fun target (write' : CheckedWrite) =>
        write'.address = right.base + target.1 ∧ write'.replacement = target.2)
      (rvas.zip (writes.map CheckedWrite.replacement)) writes' := by
  induction hmirrored generalizing rvas with
  | nil =>
    rw [List.map_nil, List.zip_nil_right]
    exact .nil
  | @cons write write' writes writes' hfirst _ ih =>
    cases rvas with
    | nil => cases hrvas
    | cons rva rest =>
      obtain ⟨other, hother, hother'⟩ := hfirst.rva
      obtain ⟨haddress, hrest⟩ := List.cons.inj hrvas
      dsimp only at haddress
      obtain rfl : other = rva := by omega
      exact .cons ⟨hother', hfirst.replacement⟩ (ih hrest)

/-- Mirrored writes lie at the same RVAs. -/
theorem mirrored_addresses {writes writes' : List CheckedWrite}
    (hmirrored : List.Forall₂ (CheckedWrite.Mirrored left right) writes writes') {rvas : List Nat}
    (hrvas : writes.map CheckedWrite.address = rvas.map (left.base + ·)) :
    writes'.map CheckedWrite.address = rvas.map (right.base + ·) := by
  have hlength : rvas.length = (writes.map CheckedWrite.replacement).length := by
    simpa using (congrArg List.length hrvas).symm
  have hfirsts : (rvas.zip (writes.map CheckedWrite.replacement)).map Prod.fst = rvas :=
    List.map_fst_zip hlength.le
  rw [← hfirsts, List.map_map, eq_comm, ← List.forall₂_eq_eq_eq, List.forall₂_map_left_iff,
    List.forall₂_map_right_iff]
  exact (mirrored_rows hmirrored hrvas).imp fun target write' hrow => hrow.1.symm

variable {os : Os σ'} {usable : σ' → Prop} {memory memory' : Store UInt8}
  (hmirrors : Mirrors left right memory memory')
include hmirrors

/-- What the run prepares for a patch is what the validation prepared, moved. -/
theorem moved_of_prepares {build : DuniaBuild} {config : PatchConfig} {patch : Patch}
    {ready : PreparedPatch} {ready' : patches.PreparedPatch} (hreadable : right.Readable os usable)
    (hfollows : ready.plan.Follows left memory (patch.sites build)) (hname : ready.name = patch.name)
    (hrvas : ready.plan.writes.map CheckedWrite.address = ready.rvas.map (left.base + ·))
    (hwritable : ∀ target ∈ ready.rvas.zip (ready.plan.writes.map CheckedWrite.replacement),
      Writable os usable (right.base + target.1) target.2.length)
    (hprepares : Prepares config (fun patch plan => plan.Follows right memory' (patch.sites build)) patch
      ready') (henabled : config.enabled patch = true) :
    Moved os usable left right ready ready' ∧
      ∃ plan : PatchPlan, ready' = .Ready ready.name plan ∧
        plan.writes.map CheckedWrite.address = ready.rvas.map (right.base + ·) := by
  obtain ⟨plan, hplan, hmirrored⟩ := hfollows.mirrored hmirrors
  cases hprepares with
  | disabled hdisabled => simp [henabled] at hdisabled
  | failed _ hnone => exact absurd hplan (hnone plan)
  | ready _ hother =>
    obtain rfl := hplan.unique hother
    refine ⟨⟨plan, by rw [hname], hmirrored, fun write hwrite => ?_⟩, plan, by rw [hname],
      mirrored_addresses hmirrored hrvas⟩
    obtain ⟨site, _, haccepts, _⟩ := hplan.of_write write hwrite
    obtain ⟨target, htarget, haddress, hreplacement⟩ := mem_of_forall₂ (mirrored_rows hmirrored hrvas) hwrite
    refine haccepts.cooperative hreadable ?_
    rw [haddress, hreplacement]
    exact hwritable target htarget

end Moved

/-- A module with the headers and the section bytes of the mapped file is
accepted, and its image mirrors the mapping. -/
theorem mapped_mirrors_module {os : Os σ} {usable : σ → Prop} (hqueries : Queryable os usable)
    {portex : List UInt8 → Except String PEHeaders} {base base' : Nat} {file : List UInt8}
    {mapped : FileMappedModule} {headers : PEHeaders} {sections : List PeSection}
    (hsnapshots : mapped.Snapshots portex base file headers sections)
    {copy : Store UInt8} (hcopy : copy.read base mapped.mapping.length = mapped.mapping)
    {module : LoadedModule} (hinformation : module.information = .ok (base', headers.size_of_image.toNat))
    (hbase : base' ≠ 0) (htop : base' + headers.size_of_image.toNat < USIZE_LIMIT)
    (hreadable : ∀ loaded ∈ mapped.image.sections, Readable os usable (base' + loaded.metadata.rva)
      (base' + loaded.metadata.rva + loaded.metadata.size)) {world : World σ} (husable : usable world.os)
    (hheaders : ((module.portex headers.size_of_image.toNat).read_from os
      ⟨base', headers.size_of_image.toNat⟩ world).1 = .ok headers)
    (hbytes : ∀ loaded ∈ mapped.image.sections,
      world.memory.read (base' + loaded.metadata.rva) loaded.metadata.size = loaded.bytes) :
    let image := ModuleImage.snapshot base' headers.size_of_image.toNat sections world.memory
    (ModuleImage.from_module os module world).1 = .ok image ∧ image.Readable os usable ∧
      Mirrors mapped.image image copy world.memory := by
  intro image
  have himage := hsnapshots.image_eq copy hcopy
  have hnonempty := hsnapshots.nonempty
  rw [himage] at hbytes hreadable hnonempty ⊢
  have hreadable' : image.Readable os usable := by
    intro loaded hmem
    obtain ⟨pe_section, hsection, rfl⟩ := List.mem_map.mp hmem
    exact hreadable ⟨pe_section, copy.read (base + pe_section.rva) pe_section.size⟩
      (List.mem_map.mpr ⟨pe_section, hsection, rfl⟩)
  have hsome : image.sections ≠ [] := by
    simpa [image, ModuleImage.snapshot] using hnonempty
  refine ⟨ModuleImage.from_module_loads hqueries husable hinformation hbase htop hheaders hsnapshots.table
    hreadable' hsome, hreadable', mirrors_snapshots fun pe_section hmem => ?_⟩
  exact (hbytes ⟨pe_section, copy.read (base + pe_section.rva) pe_section.size⟩
    (List.mem_map.mpr ⟨pe_section, hmem, rfl⟩)).symm

/-- The validation of a file predicts a run with all patches on a module that
was loaded from it at any base: the run plans the reported RVAs, and applies or
finds applied what the validation did. -/
theorem validation_predicts_run (os : Os σ) (usable : σ → Prop) (portex : List UInt8 → Except String PEHeaders)
    (base : Nat) (path : String) (file : List UInt8) (mapped : FileMappedModule) (headers : PEHeaders)
    (hmapped : ModuleImage.from_pe_file portex base file = .ok mapped)
    (hheaders : portex file = .ok headers) (htop : base + mapped.image.size < USIZE_LIMIT)
    (hreadable : mapped.image.Readable os usable) (world validated : World σ)
    (husable : usable world.os) (validation : DuniaFileValidation)
    (hvalidate : validate_dunia_file os portex base path (.ok file) world = (.ok validation, validated))
    (os' : Os σ') (usable' : σ' → Prop) (hqueries : Queryable os' usable') (module : LoadedModule)
    (base' : Nat) (hbase : base' ≠ 0) (hinformation : module.information = .ok (base', mapped.image.size))
    (htop' : base' + mapped.image.size < USIZE_LIMIT)
    (hreadable' : ∀ loaded ∈ mapped.image.sections, Readable os' usable' (base' + loaded.metadata.rva)
      (base' + loaded.metadata.rva + loaded.metadata.size)) (world' : World σ') (husable' : usable' world'.os)
    (hheaders' : ((module.portex mapped.image.size).read_from os' ⟨base', mapped.image.size⟩ world').1 =
      .ok headers)
    (hfile : module.file_size = some file.length)
    (hbytes : ∀ loaded ∈ mapped.image.sections,
      world'.memory.read (base' + loaded.metadata.rva) loaded.metadata.size = loaded.bytes)
    (hwritable : ∀ patch ∈ validation.patches, ∀ target ∈ patch.rvas.zip patch.replacement_bytes,
      Writable os' usable' (base' + target.1) target.2.length)
    (config : PatchConfig) (hconfig : ∀ patch, config.enabled patch = true) :
    ∃ image loaded prepared planned report final,
      ModuleImage.from_module os' module world' = (.ok image, loaded) ∧
      prepare_patches os' image (.from_file_size module.file_size) config Patch.all loaded =
        (.ok prepared, planned) ∧
      run os' (.ok module) config world' = (.ok report, final) ∧
      List.Forall₂ (fun (validated : ValidatedPatch) ready => ∃ plan : PatchPlan,
        ready = .Ready validated.name plan ∧
          plan.writes.map CheckedWrite.address = validated.rvas.map (base' + ·))
        validation.patches prepared ∧
      report.outcomes = validation.patches.map fun validated => ⟨validated.name, validated.state.status⟩ := by
  obtain ⟨parsed, sections, hsnapshots⟩ := ModuleImage.from_pe_file_ok hmapped
  obtain rfl : headers = parsed := by
    have hsame := hheaders.symm.trans hsnapshots.headers
    cases hsame
    rfl
  have hcopy := Store.read_write_self world.memory base mapped.mapping
  have hsize : mapped.image.size = headers.size_of_image.toNat := by
    rw [hsnapshots.image_eq _ hcopy]
    rfl
  obtain ⟨prepared, described, copied, hdescribed, _, happly, hplans⟩ :=
    validate_dunia_file_plans hmapped htop hreadable husable hvalidate
  rw [hsize] at hinformation htop' hheaders'
  obtain ⟨hload, hreads, hmirrors⟩ := mapped_mirrors_module hqueries hsnapshots hcopy hinformation hbase htop'
    hreadable' husable' hheaders' hbytes
  obtain ⟨loaded, _, himage, hloaded, hloadedUsable, hmodule⟩ :=
    ModuleImage.from_module_snapshots hqueries husable' hinformation hload
  obtain ⟨hvalid, hlive⟩ := hmodule.valid htop'
  obtain ⟨prepared', hprepare, hprepares⟩ := prepare_patches_reads
    (Patch.plan_yields hvalid hreads hlive (.from_file_size module.file_size)) config Patch.all
  obtain ⟨planned, hplanned, hplannedMemory, hplannedUsable⟩ := hprepare loaded hloaded hloadedUsable
  have hreports := apply_to_copy_reports happly
  have htargets : ∀ ready ∈ prepared, ∀ target ∈ ready.rvas.zip ready.replacement_bytes,
      Writable os' usable' (base' + target.1) target.2.length := by
    intro ready hmem
    obtain ⟨validated, hvalidated, _, hrvas, _, hreplacements⟩ := mem_of_forall₂ hreports.flip hmem
    rw [← hrvas, ← hreplacements]
    exact hwritable validated hvalidated
  rw [← hfile] at hplans
  have hmoved : List.Forall₂ (fun ready ready' =>
      Moved os' usable' mapped.image (.snapshot base' headers.size_of_image.toNat sections world'.memory)
        ready ready' ∧ ∃ plan : PatchPlan, ready' = .Ready ready.name plan ∧
          plan.writes.map CheckedWrite.address = ready.rvas.map (base' + ·)) prepared prepared' := by
    refine ((List.forall₂_and_left _ _).mpr ⟨htargets, forall₂_join hplans hprepares⟩).imp ?_
    rintro ready ready' ⟨hready, patch, _, ⟨hname, hfollows, hdescribes⟩, hprepared⟩
    rw [hdescribes.replacement_bytes] at hready
    exact moved_of_prepares hmirrors hreads hfollows hname hdescribes.rvas hready hprepared
      (hconfig patch)
  have hstart : Mirrors mapped.image (.snapshot base' headers.size_of_image.toNat sections world'.memory)
      described.memory planned.memory := by
    rw [hdescribed, hplannedMemory]
    exact hmirrors
  obtain ⟨final, hrun⟩ :=
    apply_patches_mirrored (hmoved.imp fun _ _ hboth => hboth.1) happly hstart hplannedUsable
  obtain ⟨report, houtcomes, hreport⟩ := run_of_stages himage hplanned hrun
  refine ⟨_, loaded, prepared', planned, report, final, himage, hplanned, hreport,
    (forall₂_join hreports hmoved).imp ?_, houtcomes⟩
  rintro validated ready' ⟨ready, _, ⟨hname, hrvas, _⟩, _, plan, rfl, haddresses⟩
  exact ⟨plan, by rw [hname], by rw [hrvas, haddresses]⟩

/-- A small file with every place of the five patches, the first one patched already. -/
def sample_file : List UInt8 := List.replicate 0x10 0 ++ sample_code.set 5 0x14 ++ sample_data

def sample_file_headers : PEHeaders where
  is_64bit := false
  coff_header := ⟨0x14C, some .I386, true⟩
  size_of_image := 0x100
  section_headers :=
    [⟨".text", 0x87, 0x10, 0x87, 0x10, true, true, false⟩,
      ⟨".rdata", 0x37, 0xA0, 0x37, 0x97, false, true, false⟩]

def sample_mapped : FileMappedModule where
  image := ⟨0x2_0000, 0x100, [⟨⟨".text", 0x10, 0x87, true, true, false⟩, sample_code.set 5 0x14⟩,
    ⟨⟨".rdata", 0xA0, 0x37, false, true, false⟩, sample_data⟩]⟩
  mapping := List.replicate 0x10 0 ++ sample_code.set 5 0x14 ++ List.replicate 9 0 ++ sample_data ++
    List.replicate 0x29 0

def sample_validation : DuniaFileValidation where
  build := "unknown build (file size 206)"
  file_size := 206
  image_size := 256
  patches := [⟨"jackal_tapes", [0x15], [[0x14]], [[0x14]], .AlreadyPresent⟩,
    ⟨"devmode_always_on", [0x21], [[0x75]], [[0xEB]], .AppliedToCopy⟩,
    ⟨"predecessor_tapes", [0x27], [[0x74, 0x16]], [[0xEB, 0x0E]], .AppliedToCopy⟩,
    ⟨"machetes", [0x95], [[0x8A, 0xC3]], [[0xB0, 0x01]], .AppliedToCopy⟩,
    ⟨"no_blinking_items", [0xA4, 0xB6, 0xD6], [[0x5F], [0x6B], [0x00]], [[0x2E], [0x2E], [0x2E]],
      .AppliedToCopy⟩]

def sample_file_module : LoadedModule where
  information := .ok (0x1000_0000, 0x100)
  portex _ := .done (.ok sample_file_headers)
  file_size := some 206
  size_le _ _ hinformation := by
    cases hinformation
    decide

/-- The pages of the mapping in the heap of the validator, and those of the module in the game. -/
def mapping_pages : PageMap → Prop := Mapped 0x2_0000 0x100 PAGE_READWRITE
def module_pages : PageMap → Prop := Mapped 0x1000_0000 0x100 PAGE_EXECUTE_READ

def sample_heap_world : World PageMap := ⟨fun _ => 0, mapped_pages 0x2_0000 0x100 PAGE_READWRITE, []⟩

def sample_file_world : World PageMap where
  memory :=
    let blank : Store UInt8 := fun _ => 0
    (blank.write 0x1000_0010 (sample_code.set 5 0x14)).write 0x1000_00A0 sample_data
  os := mapped_pages 0x1000_0000 0x100 PAGE_EXECUTE_READ
  accesses := []

theorem sample_heap_pages : mapping_pages sample_heap_world.os := mapped_pages_mapped (by decide)

theorem sample_file_pages : module_pages sample_file_world.os := mapped_pages_mapped (by decide)

theorem sample_file_maps :
    ModuleImage.from_pe_file (fun _ => .ok sample_file_headers) 0x2_0000 sample_file = .ok sample_mapped :=
  eq_ok_of_toOption (by decide +kernel)

theorem mapping_readable {address length : Nat} (hstart : 0x2_0000 ≤ address)
    (hstop : address + length ≤ 0x2_0000 + 0x100) :
    Readable page_table mapping_pages address (address + length) :=
  (mapped_readable page_table_granting readwrite_accessible (by decide)).mono hstart hstop

theorem module_readable {address length : Nat} (hstart : 0x1000_0000 ≤ address)
    (hstop : address + length ≤ 0x1000_0000 + 0x100) :
    Readable page_table module_pages address (address + length) :=
  (mapped_readable page_table_granting execute_read_accessible (by decide)).mono hstart hstop

theorem module_writable {address length : Nat} (hlength : 0 < length) (hstart : 0x1000_0000 ≤ address)
    (hstop : address + length ≤ 0x1000_0000 + 0x100) : Writable page_table module_pages address length :=
  mapped_writable page_table_granting execute_read_accessible (by decide) hlength hstart hstop

theorem sample_mapped_readable : sample_mapped.image.Readable page_table mapping_pages := by
  intro loaded hmem
  have hbounds : ∀ loaded ∈ sample_mapped.image.sections,
      0x2_0000 + loaded.metadata.rva + loaded.metadata.size ≤ 0x2_0000 + 0x100 := by decide
  exact mapping_readable (Nat.le_add_right _ _) (hbounds loaded hmem)

theorem sample_sections_readable : ∀ loaded ∈ sample_mapped.image.sections,
    Readable page_table module_pages (0x1000_0000 + loaded.metadata.rva)
      (0x1000_0000 + loaded.metadata.rva + loaded.metadata.size) := by
  intro loaded hmem
  have hbounds : ∀ loaded ∈ sample_mapped.image.sections,
      0x1000_0000 + loaded.metadata.rva + loaded.metadata.size ≤ 0x1000_0000 + 0x100 := by decide
  exact module_readable (Nat.le_add_right _ _) (hbounds loaded hmem)

/-- The sample file with its tapes applied, validated in the heap and run in the game. -/
theorem validation_predicts_run_on_sample :
    ∃ report final, run page_table (.ok sample_file_module) ⟨true, true, true, true, true⟩
        sample_file_world = (.ok report, final) ∧
      report.outcomes = [⟨"jackal_tapes", .AlreadyApplied⟩, ⟨"devmode_always_on", .Applied⟩,
        ⟨"predecessor_tapes", .Applied⟩, ⟨"machetes", .Applied⟩, ⟨"no_blinking_items", .Applied⟩] := by
  let portex : List UInt8 → Except String PEHeaders := fun _ => .ok sample_file_headers
  have hvalidate : validate_dunia_file page_table portex 0x2_0000 "Dunia.dll" (.ok sample_file)
      sample_heap_world = (.ok sample_validation, (validate_dunia_file page_table portex 0x2_0000 "Dunia.dll"
        (.ok sample_file) sample_heap_world).2) :=
    Action.eq_of_result (eq_ok_of_toOption (by decide +kernel))
  have hwritable : ∀ patch ∈ sample_validation.patches, ∀ target ∈ patch.rvas.zip patch.replacement_bytes,
      Writable page_table module_pages (0x1000_0000 + target.1) target.2.length := by
    intro patch hpatch target htarget
    have hbounds : ∀ patch ∈ sample_validation.patches, ∀ target ∈ patch.rvas.zip patch.replacement_bytes,
        0 < target.2.length ∧ 0x1000_0000 + target.1 + target.2.length ≤ 0x1000_0000 + 0x100 := by decide
    obtain ⟨hlength, hstop⟩ := hbounds patch hpatch target htarget
    exact module_writable hlength (Nat.le_add_right _ _) hstop
  obtain ⟨_, _, _, _, report, final, _, _, hrun, _, houtcomes⟩ := validation_predicts_run page_table
    mapping_pages portex 0x2_0000 "Dunia.dll" sample_file sample_mapped sample_file_headers sample_file_maps rfl
    (by decide) sample_mapped_readable sample_heap_world _ sample_heap_pages sample_validation hvalidate
    page_table module_pages (page_table_granting.queryable module_pages) sample_file_module 0x1000_0000
    (by decide) rfl (by decide) sample_sections_readable sample_file_world sample_file_pages rfl
    (by decide +kernel) (by decide +kernel) hwritable ⟨true, true, true, true, true⟩
    (by intro patch; cases patch <;> rfl)
  exact ⟨report, final, hrun, houtcomes⟩

end systemdetection.patches.offline
