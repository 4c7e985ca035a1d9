import SystemDetection.Memory.WriteCases
import SystemDetection.Offline.Validate
import SystemDetection.Patches.PlanMeaning
import SystemDetection.Sigscan.FileMeaning

open effect store systemdetection.patches.memory systemdetection.patches.sigscan

namespace systemdetection.patches.offline

variable {σ : Type} {os : Os σ}

/-- What is noted of a plan agrees with its writes and with the memory at the time. -/
structure PreparedPatch.Describes (image : ModuleImage) (memory : Store UInt8)
    (prepared : PreparedPatch) : Prop where
  rvas : prepared.plan.writes.map CheckedWrite.address = prepared.rvas.map (image.base + ·)
  original_bytes : prepared.original_bytes =
    prepared.plan.writes.map fun write => memory.read write.address write.expected.length
  replacement_bytes : prepared.replacement_bytes = prepared.plan.writes.map CheckedWrite.replacement

/-- Describing a plan leaves the memory alone, and has a row for each write. -/
theorem describe_writes_ok {image : ModuleImage} {name : String} {writes : List CheckedWrite}
    {world world' : World σ} {rows : List (Nat × List UInt8 × List UInt8)}
    (hdescribe : describe_writes os image name writes world = (.ok rows, world')) :
    world'.memory = world.memory ∧
      writes.map CheckedWrite.address = (rows.map fun row => row.1).map (image.base + ·) ∧
      (rows.map fun row => row.2.1) =
        writes.map (fun write => world.memory.read write.address write.expected.length) ∧
      (rows.map fun row => row.2.2) = writes.map CheckedWrite.replacement := by
  induction writes generalizing world world' rows with
  | nil =>
    cases hdescribe
    simp
  | cons write rest ih =>
    obtain ⟨rva, next, hrva, hdescribe⟩ := Action.bind_eq_ok_iff.mp hdescribe
    obtain ⟨original, middle, hread, hdescribe⟩ := Action.bind_eq_ok_iff.mp hdescribe
    obtain ⟨others, last, hrest, hdescribe⟩ := Action.bind_eq_ok_iff.mp hdescribe
    rw [Action.lift_apply, Prod.mk.injEq, usize_sub_eq_ok_iff] at hrva
    obtain ⟨hrva, rfl⟩ := hrva
    obtain ⟨rfl, hmiddle⟩ := read_bytes_ok (Action.map_err_eq_ok_iff.mp hread)
    obtain ⟨hlast, haddresses, horiginals, hreplacements⟩ := ih hrest
    cases hdescribe
    rw [hmiddle] at hlast horiginals
    exact ⟨hlast, by simp [hrva, haddresses], by simp [horiginals], by simp [hreplacements]⟩

/-- When no plan failed, the prepared patches are the plans, each with its description. -/
theorem collect_plans_ok {image : ModuleImage} {plans : List (String × Except PatchError PatchPlan)}
    {world world' : World σ} {prepared : List PreparedPatch}
    (hcollect : collect_plans os image plans world = (.ok ([], prepared), world')) :
    world'.memory = world.memory ∧
      List.Forall₂ (fun entry (ready : PreparedPatch) => entry = (ready.name, .ok ready.plan) ∧
        ready.Describes image world.memory) plans prepared := by
  induction plans generalizing world world' prepared with
  | nil =>
    cases hcollect
    exact ⟨rfl, .nil⟩
  | cons entry rest ih =>
    obtain ⟨name, error | plan⟩ := entry
    · obtain ⟨diagnostics, next, _, hcollect⟩ := Action.bind_eq_ok_iff.mp hcollect
      obtain ⟨⟨failures, others⟩, last, _, hcollect⟩ := Action.bind_eq_ok_iff.mp hcollect
      cases hcollect
    · obtain ⟨rows, next, hdescribe, hcollect⟩ := Action.bind_eq_ok_iff.mp hcollect
      obtain ⟨⟨failures, others⟩, last, hrest, hcollect⟩ := Action.bind_eq_ok_iff.mp hcollect
      cases hcollect
      obtain ⟨hmemory, hrows⟩ := describe_writes_ok hdescribe
      obtain ⟨hlast, hforall⟩ := ih hrest
      rw [hmemory] at hlast hforall
      exact ⟨hlast, .cons ⟨rfl, hrows.1, hrows.2.1, hrows.2.2⟩ hforall⟩

/-- The stages of a validation that succeeded, up to the applied copy. -/
theorem validate_dunia_file_ok {portex : List UInt8 → Except String PEHeaders} {base : Nat}
    {path : String} {read : Except String (List UInt8)} {world world' : World σ}
    {validation : DuniaFileValidation}
    (hvalidate : validate_dunia_file os portex base path read world = (.ok validation, world')) :
    ∃ file mapped planned plans prepared described copied,
      read = .ok file ∧ ModuleImage.from_pe_file portex base file = .ok mapped ∧
      make_plans os mapped.image (.from_file_size (some file.length))
        { world with memory := world.memory.write mapped.image.base mapped.mapping } =
          ((.ok plans : Except (Stop String) _), planned) ∧
      collect_plans os mapped.image plans planned = (.ok ([], prepared), described) ∧
      validate_known_rvas (.from_file_size (some file.length)) prepared = .ok () ∧
      apply_to_copy os prepared described = (.ok validation.patches, copied) := by
  cases read with
  | error error => cases hvalidate
  | ok file =>
    rw [validate_dunia_file] at hvalidate
    rcases hmapped : ModuleImage.from_pe_file portex base file with (error | reason) | mapped
    · rw [hmapped] at hvalidate
      cases hvalidate
    · rw [hmapped] at hvalidate
      cases hvalidate
    · rw [hmapped] at hvalidate
      obtain ⟨_, start, hallocate, hvalidate⟩ := Action.bind_eq_ok_iff.mp hvalidate
      obtain ⟨patches, copied, hpatch, hvalidate⟩ := Action.bind_eq_ok_iff.mp hvalidate
      obtain ⟨replanned, again, _, hvalidate⟩ := Action.bind_eq_ok_iff.mp hvalidate
      obtain ⟨_, last, _, hvalidate⟩ := Action.bind_eq_ok_iff.mp hvalidate
      obtain ⟨plans, planned, hplans, hpatch⟩ := Action.bind_eq_ok_iff.mp hpatch
      obtain ⟨⟨failures, prepared⟩, described, hcollect, hpatch⟩ := Action.bind_eq_ok_iff.mp hpatch
      cases failures with
      | cons failure others => cases hpatch
      | nil =>
        obtain ⟨_, known, hknown, happly⟩ := Action.bind_eq_ok_iff.mp hpatch
        cases hvalidate
        cases hallocate
        rw [Action.lift_apply, Prod.mk.injEq, mapError_eq_ok_iff] at hknown
        obtain ⟨hknown, rfl⟩ := hknown
        exact ⟨file, mapped, planned, plans, prepared, described, copied, rfl, hmapped, hplans, hcollect,
          hknown, happly⟩

/-- What is reported of a patch is what was prepared for it. -/
theorem apply_to_copy_reports {prepared : List PreparedPatch} {patches : List ValidatedPatch}
    {world world' : World σ} (happly : apply_to_copy os prepared world = (.ok patches, world')) :
    List.Forall₂ (fun (ready : PreparedPatch) (validated : ValidatedPatch) =>
      validated.name = ready.name ∧ validated.rvas = ready.rvas ∧
        validated.original_bytes = ready.original_bytes ∧
        validated.replacement_bytes = ready.replacement_bytes) prepared patches := by
  induction prepared generalizing world world' patches with
  | nil =>
    cases happly
    exact .nil
  | cons ready rest ih =>
    obtain ⟨state, next, _, happly⟩ := Action.bind_eq_ok_iff.mp happly
    obtain ⟨others, last, hrest, happly⟩ := Action.bind_eq_ok_iff.mp happly
    cases happly
    exact .cons ⟨rfl, rfl, rfl, rfl⟩ (ih hrest)

section Planning

variable {usable : σ → Prop} {memory : Store UInt8} {image : ModuleImage} {build : DuniaBuild}

/-- The planners return what they accept, all over the same memory. -/
theorem plan_all_reads (ε : Type) {plans : Patch → PatchPlan → Prop}
    (hyields : ∀ patch, Yields usable memory (patch.plan os image build) (plans patch))
    (patches : List Patch) :
    ∃ results, Reads usable memory (plan_all os image build patches : Action (World σ) ε _) (.ok results) ∧
      List.Forall₂ (fun (entry : String × Except PatchError PatchPlan) (patch : Patch) =>
        entry.1 = patch.name ∧ ∀ plan, entry.2 = .ok plan ↔ plans patch plan) results patches := by
  induction patches with
  | nil => exact ⟨[], reads_pure _, .nil⟩
  | cons patch rest ih =>
    obtain ⟨result, hreads, haccepts⟩ := hyields patch
    obtain ⟨others, hothers, hforall⟩ := ih
    exact ⟨(patch.name, result) :: others, hreads.attempt.bind (hothers.bind (reads_pure _)),
      .cons ⟨rfl, haccepts⟩ hforall⟩

end Planning

/-- The image of an accepted file is laid out in its range, and live where the mapping is placed. -/
theorem mapped_image_laid {portex : List UInt8 → Except String PEHeaders} {base : Nat} {file : List UInt8}
    {mapped : FileMappedModule} (hmapped : ModuleImage.from_pe_file portex base file = .ok mapped)
    (memory : Store UInt8) : mapped.image.Laid ∧ mapped.image.Live (memory.write base mapped.mapping) := by
  obtain ⟨parsed, sections, hsnapshots⟩ := ModuleImage.from_pe_file_ok hmapped
  rw [hsnapshots.image_eq (memory.write base mapped.mapping) (Store.read_write_self _ _ _)]
  exact ⟨(validate_pe_sections_ok hsnapshots.table).snapshot_laid base _,
    ModuleImage.snapshot_live _ _ _ _⟩

/-- The image of a mapped file is valid below the top of the address space. -/
theorem mapped_image_valid {portex : List UInt8 → Except String PEHeaders} {base : Nat}
    {file : List UInt8} {mapped : FileMappedModule}
    (hmapped : ModuleImage.from_pe_file portex base file = .ok mapped)
    (htop : base + mapped.image.size < USIZE_LIMIT) (memory : Store UInt8) :
    mapped.image.Valid ∧ mapped.image.Live (memory.write base mapped.mapping) := by
  obtain ⟨hlaid, hlive⟩ := mapped_image_laid hmapped memory
  refine ⟨⟨hlaid, ?_⟩, hlive⟩
  obtain ⟨_, _, hsnapshots⟩ := ModuleImage.from_pe_file_ok hmapped
  rwa [hsnapshots.range.1]

theorem mapped_image_base {portex : List UInt8 → Except String PEHeaders} {base : Nat}
    {file : List UInt8} {mapped : FileMappedModule}
    (hmapped : ModuleImage.from_pe_file portex base file = .ok mapped) : mapped.image.base = base := by
  obtain ⟨_, _, hsnapshots⟩ := ModuleImage.from_pe_file_ok hmapped
  exact hsnapshots.range.1

/-- On a readable mapping the prepared plans of a successful validation are
those of the five patches, made for the memory that holds the mapping. -/
theorem validate_dunia_file_plans {usable : σ → Prop} {portex : List UInt8 → Except String PEHeaders}
    {base : Nat} {path : String} {file : List UInt8} {mapped : FileMappedModule}
    (hmapped : ModuleImage.from_pe_file portex base file = .ok mapped)
    (htop : base + mapped.image.size < USIZE_LIMIT)
    (hreadable : mapped.image.Readable os usable) {world world' : World σ}
    (husable : usable world.os) {validation : DuniaFileValidation}
    (hvalidate : validate_dunia_file os portex base path (.ok file) world = (.ok validation, world')) :
    ∃ prepared described copied,
      described.memory = world.memory.write base mapped.mapping ∧
      validate_known_rvas (.from_file_size (some file.length)) prepared = .ok () ∧
      apply_to_copy os prepared described = (.ok validation.patches, copied) ∧
      List.Forall₂ (fun (patch : Patch) (ready : PreparedPatch) => ready.name = patch.name ∧
        ready.plan.Follows mapped.image (world.memory.write base mapped.mapping)
          (patch.sites (.from_file_size (some file.length))) ∧
        ready.Describes mapped.image (world.memory.write base mapped.mapping)) Patch.all prepared := by
  obtain ⟨_, _, planned, plans, prepared, described, copied, hread, hmapped', hplans, hcollect, hknown,
    happly⟩ := validate_dunia_file_ok hvalidate
  cases hread
  rw [hmapped] at hmapped'
  cases hmapped'
  have hbase := mapped_image_base hmapped
  obtain ⟨hvalid, hlive⟩ := mapped_image_valid hmapped htop world.memory
  rw [hbase] at hplans
  obtain ⟨results, hreads, hforall⟩ := plan_all_reads (Stop String)
    (Patch.plan_yields hvalid hreadable hlive (.from_file_size (some file.length))) Patch.all
  obtain ⟨planned', hrun, hmemory, _⟩ := hreads
    { world with memory := world.memory.write base mapped.mapping } rfl husable
  obtain ⟨hresults, rfl⟩ := Prod.mk.inj (hplans.symm.trans hrun)
  cases hresults
  obtain ⟨hdescribed, hcollected⟩ := collect_plans_ok hcollect
  rw [hmemory] at hdescribed hcollected
  refine ⟨prepared, described, copied, hdescribed, hknown, happly, (forall₂_join hforall hcollected).imp ?_⟩
  rintro patch ready ⟨entry, _, ⟨hname, haccepts⟩, rfl, hdescribes⟩
  exact ⟨hname, (haccepts ready.plan).mp rfl, hdescribes⟩

end systemdetection.patches.offline
