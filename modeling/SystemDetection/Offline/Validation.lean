import SystemDetection.Offline.Prediction
import SystemDetection.Patches.Separation

open effect store systemdetection.patches.memory systemdetection.patches.sigscan

namespace systemdetection.patches.offline

variable {σ : Type} {os : Os σ} {usable : σ → Prop}

section Known

variable {image : ModuleImage} {memory : Store UInt8} {build : DuniaBuild}

/-- On a recognised build the plan goes to the RVAs that are known for the patch. -/
def KnownTargets (build : DuniaBuild) (base : Nat) (patch : Patch) (plan : PatchPlan) : Prop :=
  ∀ known ∈ known_rvas build, known.1 = patch.name →
    plan.writes.map CheckedWrite.address = known.2.map (base + ·)

/-- A patch with one known RVA writes there. -/
theorem KnownTargets.address_eq {base : Nat} {patch : Patch} {plan : PatchPlan}
    (hknown : KnownTargets build base patch plan) (rva : Nat)
    (hmem : (patch.name, [rva]) ∈ known_rvas build) {write : CheckedWrite} (hwrite : write ∈ plan.writes) :
    write.address = base + rva := by
  have haddresses := hknown _ hmem rfl
  have hlisted : write.address ∈ plan.writes.map CheckedWrite.address := List.mem_map_of_mem hwrite
  rw [haddresses] at hlisted
  exact List.mem_singleton.mp hlisted

/-- What is prepared of a patch in an image over a memory. -/
def PreparedPatch.Prepares (image : ModuleImage) (memory : Store UInt8) (build : DuniaBuild)
    (patch : Patch) (ready : PreparedPatch) : Prop :=
  ready.name = patch.name ∧ ready.plan.Follows image memory (patch.sites build) ∧
    ready.Describes image memory

/-- The check passes when each known patch was planned at its known RVAs. -/
theorem check_known_rvas_eq_ok_iff {prepared : List PreparedPatch} {known : List (String × List Nat)} :
    check_known_rvas build prepared known = .ok () ↔ ∀ entry ∈ known, ∃ candidate,
      prepared.find? (fun candidate => candidate.name = entry.1) = some candidate ∧
        candidate.rvas = entry.2 := by
  induction known with
  | nil => simp [check_known_rvas]
  | cons entry rest ih =>
    obtain ⟨name, expected⟩ := entry
    rw [check_known_rvas, List.forall_mem_cons, ← ih]
    dsimp only
    cases prepared.find? fun candidate => candidate.name = name with
    | none => simp
    | some candidate =>
      by_cases hrvas : candidate.rvas = expected
      · simp [hrvas]
      · simp [hrvas]

/-- Known RVAs are those of patches. -/
theorem known_rvas_names : ∀ known ∈ known_rvas build, ∃ patch ∈ Patch.all, known.1 = Patch.name patch := by
  cases build with
  | Steam => decide
  | Retail => decide
  | Ubisoft => decide
  | Unknown _ => exact List.forall_mem_nil _

theorem PreparedPatch.Describes.rvas_eq_iff {ready : PreparedPatch} (hdescribes : ready.Describes image memory)
    {rvas : List Nat} :
    ready.rvas = rvas ↔ ready.plan.writes.map CheckedWrite.address = rvas.map (image.base + ·) := by
  rw [hdescribes.rvas]
  exact (List.map_injective_iff.mpr fun _ _ hsame => Nat.add_left_cancel hsame).eq_iff.symm

section Prepared

variable {prepared : List PreparedPatch}
  (hprepared : List.Forall₂ (PreparedPatch.Prepares image memory build) Patch.all prepared)
include hprepared

/-- The known RVAs are accepted exactly when the plans go there. -/
theorem validate_known_rvas_eq_ok_iff :
    validate_known_rvas build prepared = .ok () ↔
      ∀ (patch : Patch) (plan : PatchPlan), plan.Follows image memory (patch.sites build) →
        KnownTargets build image.base patch plan := by
  have hfound : ∀ (patch : Patch) (candidate : PreparedPatch),
      prepared.find? (fun candidate => candidate.name = patch.name) = some candidate →
        PreparedPatch.Prepares image memory build patch candidate := by
    intro patch candidate hfind
    obtain ⟨patch', _, hprepares⟩ := mem_of_forall₂ hprepared (List.mem_of_find?_eq_some hfind)
    have hname := List.find?_some hfind
    rw [decide_eq_true_eq, hprepares.1] at hname
    obtain rfl := Patch.name_injective hname
    exact hprepares
  rw [validate_known_rvas, check_known_rvas_eq_ok_iff]
  constructor
  · intro hcheck patch plan hplan known hknown hname
    obtain ⟨candidate, hfind, hrvas⟩ := hcheck known hknown
    rw [hname] at hfind
    obtain ⟨_, hfollows, hdescribes⟩ := hfound patch candidate hfind
    obtain rfl := hplan.unique hfollows
    exact hdescribes.rvas_eq_iff.mp hrvas
  · intro hplans known hknown
    obtain ⟨patch, hpatch, hname⟩ := known_rvas_names known hknown
    obtain ⟨ready, hready, hnamed, _⟩ := mem_of_forall₂ hprepared.flip hpatch
    have hsome : (prepared.find? fun candidate => candidate.name = patch.name).isSome :=
      List.find?_isSome.mpr ⟨ready, hready, decide_eq_true hnamed⟩
    obtain ⟨candidate, hfind⟩ := Option.isSome_iff_exists.mp hsome
    obtain ⟨_, hfollows, hdescribes⟩ := hfound patch candidate hfind
    rw [hname]
    exact ⟨candidate, hfind, hdescribes.rvas_eq_iff.mpr (hplans patch _ hfollows known hknown hname)⟩

/-- No write is made for two patches, since the only two patches that look for
the same bytes are kept apart by their known RVAs. -/
theorem prepared_apart (hknown : ∀ (patch : Patch) (plan : PatchPlan),
      plan.Follows image memory (patch.sites build) → KnownTargets build image.base patch plan) :
    prepared.Pairwise fun earlier later => earlier.plan.Apart later.plan := by
  have hdistinct : Patch.all.Pairwise fun patch patch' => patch ≠ patch' := by decide
  refine pairwise_of_forall₂ hprepared hdistinct ?_
  intro patch patch' ready ready' hne hready hready' write hwrite write' hwrite'
  obtain ⟨site, hsite, haccepts, _⟩ := hready.2.1.of_write write hwrite
  obtain ⟨site', hsite', haccepts', _⟩ := hready'.2.1.of_write write' hwrite'
  refine planned_writes_apart hsite hsite' haccepts haccepts' ?_
  rintro rfl
  have hexpected : site.guard.expected = site'.guard.expected := by rw [← haccepts.2.1, haccepts'.2.1]
  have hfirst := hknown patch ready.plan hready.2.1
  have hsecond := hknown patch' ready'.plan hready'.2.1
  obtain hsame | ⟨rfl, ⟨rfl, rfl⟩ | ⟨rfl, rfl⟩⟩ := Patch.shared_guard hsite hsite' hexpected
  · exact hne hsame
  · have haddress := hfirst.address_eq RETAIL_PREDECESSOR_RVA (by decide) hwrite
    have haddress' := hsecond.address_eq 0x0004_8A09 (by decide) hwrite'
    rw [haddress, RETAIL_PREDECESSOR_RVA] at haddress'
    omega
  · have haddress := hfirst.address_eq 0x0004_8A09 (by decide) hwrite
    have haddress' := hsecond.address_eq RETAIL_PREDECESSOR_RVA (by decide) hwrite'
    rw [haddress, RETAIL_PREDECESSOR_RVA] at haddress'
    omega

end Prepared

end Known

section Stages

variable {image : ModuleImage} {memory : Store UInt8}

/-- Over readable memory every plan inside the sections is described. -/
theorem describe_writes_reads (hreadable : image.Readable os usable) (name : String)
    {writes : List CheckedWrite}
    (hinside : ∀ write ∈ writes, ∃ scope, image.InScope scope write.address write.expected.length) :
    ∃ rows, Reads usable memory (describe_writes os image name writes) (.ok rows) := by
  induction writes with
  | nil => exact ⟨[], reads_pure _⟩
  | cons write rest ih =>
    rw [List.forall_mem_cons] at hinside
    obtain ⟨⟨scope, hscope⟩, hrest⟩ := hinside
    obtain ⟨rows, hrows⟩ := ih hrest
    have hrva : usize_sub write.address image.base = (.ok (write.address - image.base) : Except (Stop String) _) :=
      usize_sub_eq_ok_iff.mpr (Nat.add_sub_cancel' hscope.base_le).symm
    have hread := (hreadable.in_scope hscope).read_bytes_reads memory (Nat.le_refl _) (Nat.le_refl _)
    refine ⟨(write.address - image.base, memory.read write.address write.expected.length,
      write.replacement) :: rows, ?_⟩
    rw [describe_writes, hrva]
    exact (reads_lift _).bind ((hread.map_err _).bind (hrows.bind (reads_pure _)))

/-- When everything was planned, every plan is collected. -/
theorem collect_plans_reads (hreadable : image.Readable os usable)
    {plans : List (String × Except PatchError PatchPlan)}
    (hplans : ∀ entry ∈ plans, ∃ plan, entry.2 = .ok plan ∧ ∀ write ∈ plan.writes,
      ∃ scope, image.InScope scope write.address write.expected.length) :
    ∃ prepared, Reads usable memory (collect_plans os image plans) (.ok ([], prepared)) := by
  induction plans with
  | nil => exact ⟨[], reads_pure _⟩
  | cons entry rest ih =>
    rw [List.forall_mem_cons] at hplans
    obtain ⟨⟨plan, hplan, hinside⟩, hrest⟩ := hplans
    obtain ⟨name, result⟩ := entry
    obtain rfl : result = .ok plan := hplan
    obtain ⟨rows, hrows⟩ : ∃ rows, Reads usable memory (describe_writes os image name plan.writes) (.ok rows) :=
      describe_writes_reads hreadable name hinside
    obtain ⟨prepared, hprepared⟩ := ih hrest
    exact ⟨_ :: prepared, hrows.bind (hprepared.bind (reads_pure _))⟩

/-- Plans whose replacements are all there are found idempotent. -/
theorem reapply_to_copy_reads (hreadable : image.Readable os usable)
    {plans : List (String × Except PatchError PatchPlan)}
    (hplans : ∀ entry ∈ plans, ∃ plan, entry.2 = .ok plan ∧
      ∀ write ∈ plan.writes, write.InForce memory image) :
    Reads usable memory (reapply_to_copy os plans) (.ok ()) := by
  induction plans with
  | nil => exact reads_pure ()
  | cons entry rest ih =>
    rw [List.forall_mem_cons] at hplans
    obtain ⟨⟨plan, hplan, hforce⟩, hrest⟩ := hplans
    obtain ⟨name, result⟩ := entry
    obtain rfl : result = .ok plan := hplan
    exact ((PatchPlan.apply_in_force hreadable hforce).map_err _).bind (ih hrest)

end Stages

section Apply

variable {image : ModuleImage} {origin : Store UInt8} {build : DuniaBuild}

/-- What is reported as already present was there before any patch. -/
def ValidatedPatch.Truthful (validated : ValidatedPatch) : Prop :=
  validated.state = .AlreadyPresent ↔ validated.original_bytes = validated.replacement_bytes

theorem PreparedPatch.Describes.already_iff {ready : PreparedPatch} (hdescribes : ready.Describes image origin)
    (hlengths : ∀ write ∈ ready.plan.writes, write.expected.length = write.replacement.length) :
    ready.original_bytes = ready.replacement_bytes ↔ ∀ write ∈ ready.plan.writes,
      origin.read write.address write.replacement.length = write.replacement := by
  rw [hdescribes.original_bytes, hdescribes.replacement_bytes, List.map_inj_left]
  refine forall₂_congr fun write hwrite => ?_
  rw [hlengths write hwrite]

/-- The memory still holds the original bytes at the targets of a plan. -/
def Untouched (origin memory : Store UInt8) (plan : PatchPlan) : Prop :=
  ∀ write ∈ plan.writes,
    memory.read write.address write.expected.length = origin.read write.address write.expected.length

/-- Plans with their targets apart are all applied to the copy. Each of them
finds its own targets as they were when it was prepared, so its state tells of
the original bytes. -/
theorem apply_to_copy_succeeds {prepared : List PreparedPatch}
    (hsound : ∀ ready ∈ prepared, ready.plan.Sound os usable image origin build ∧
      ready.Describes image origin)
    (hapart : prepared.Pairwise fun earlier later => earlier.plan.Apart later.plan) {world : World σ}
    (hstamped : StampedFrom origin world.memory) (husable : usable world.os)
    (huntouched : ∀ ready ∈ prepared, Untouched origin world.memory ready.plan) :
    ∃ patches world', apply_to_copy os prepared world = (.ok patches, world') ∧ usable world'.os ∧
      world'.memory = write_all (prepared.flatMap fun ready => ready.plan.writes) world.memory ∧
      ∀ validated ∈ patches, validated.Truthful := by
  induction prepared generalizing world with
  | nil => exact ⟨[], world, rfl, husable, rfl, by simp⟩
  | cons ready rest ih =>
    rw [List.forall_mem_cons] at hsound huntouched
    obtain ⟨⟨⟨⟨patch, hfollows⟩, hcooperative⟩, hdescribes⟩, hrest⟩ := hsound
    obtain ⟨hfirst, hlater⟩ := List.pairwise_cons.mp hapart
    obtain ⟨state, next, hplan, hnext, hstampedNext, hmemory, _⟩ :=
      hfollows.apply_succeeds hcooperative hstamped husable
    have hlengths : ∀ write ∈ ready.plan.writes, write.expected.length = write.replacement.length :=
      fun write hwrite => (hcooperative write hwrite).lengths
    have huntouchedNext : ∀ other ∈ rest, Untouched origin next.memory other.plan := by
      intro other hother write' hwrite'
      rw [hmemory, read_write_all_apart fun write hwrite => ?_]
      · exact huntouched.2 other hother write' hwrite'
      · rw [← hlengths write hwrite]
        exact hfirst other hother write hwrite write' hwrite'
    obtain ⟨others, world', hothers, husable', hfinal, htruthful⟩ :=
      ih hrest hlater hstampedNext hnext huntouchedNext
    refine ⟨⟨ready.name, ready.rvas, ready.original_bytes, ready.replacement_bytes, .of_write state⟩ ::
      others, world', ?_, husable', ?_, List.forall_mem_cons.mpr ⟨?_, htruthful⟩⟩
    · rw [apply_to_copy, Action.bind_of_ok (Action.map_err_eq_ok_iff.mpr hplan), Action.bind_of_ok hothers]
      rfl
    · rw [hfinal, hmemory, List.flatMap_cons, write_all_append]
    · have hstate : OfflinePatchState.of_write state = .AlreadyPresent ↔ state = .AlreadyApplied := by
        cases state with
        | Applied => simp [OfflinePatchState.of_write]
        | AlreadyApplied => simp [OfflinePatchState.of_write]
      rw [ValidatedPatch.Truthful, hstate, hdescribes.already_iff hlengths, PatchPlan.apply_already_iff hplan]
      refine forall₂_congr fun write hwrite => ?_
      rw [← hlengths write hwrite, huntouched.1 write hwrite]

end Apply

/-- The plans of all patches, by patch. -/
def every_plan (plans : Patch → PatchPlan) : List (Patch × PatchPlan) :=
  Patch.all.map fun patch => (patch, plans patch)

section Mapped

variable {image : ModuleImage} {origin : Store UInt8} {build : DuniaBuild} (hvalid : image.Valid)
  (hreadable : image.Readable os usable) (hlive : image.Live origin)
  {plans : Patch → PatchPlan} (hplans : ∀ patch, (plans patch).Follows image origin (patch.sites build))
include hplans

theorem every_plan_planned : Planned image origin build (every_plan plans) := by
  intro entry hentry
  obtain ⟨patch, _, rfl⟩ := List.mem_map.mp hentry
  exact hplans patch

include hvalid hreadable hlive

/-- The plans made again after the patches were applied are those made before,
although the image still holds the sections as they were then, and they are
found idempotent. -/
theorem reapply_succeeds {copied : World σ}
    (hcopied : copied.memory = stamp_all (all_placements build (every_plan plans)) origin)
    (husable : usable copied.os) :
    ∃ replanned again last, make_plans os image build copied = ((.ok replanned : Except (Stop String) _), again) ∧
      reapply_to_copy os replanned again = (.ok (), last) := by
  have hplanned := every_plan_planned hplans
  obtain ⟨replanned, hreplanned, hforall⟩ := plan_all_reads (Stop String) (fun patch =>
    Patch.plan_yields_of_guards hvalid hreadable hlive build patch fun _ => hplanned.keeps_guards) Patch.all
  have hentries : ∀ entry ∈ replanned, ∃ plan, entry.2 = .ok plan ∧ ∀ write ∈ plan.writes,
      write.InForce (stamp_all (all_placements build (every_plan plans)) origin) image := by
    intro entry hentry
    obtain ⟨patch, hpatch, _, haccepts⟩ := mem_of_forall₂ hforall.flip hentry
    exact ⟨plans patch, (haccepts _).mpr (hplans patch),
      hplanned.in_force (patch, plans patch) (List.mem_map.mpr ⟨patch, hpatch, rfl⟩)⟩
  obtain ⟨again, hagain, hagainMemory, hagainUsable⟩ := hreplanned copied hcopied husable
  obtain ⟨last, hlast, _⟩ := reapply_to_copy_reads hreadable hentries again hagainMemory hagainUsable
  exact ⟨replanned, again, last, hagain, hlast⟩

variable (hknown : ∀ patch, KnownTargets build image.base patch (plans patch))
  (hwritable : ∀ patch, ∀ write ∈ (plans patch).writes,
    Writable os usable write.address write.replacement.length)
  {world : World σ} (hworld : world.memory = origin) (husable : usable world.os)
include hknown hwritable hworld husable

omit hvalid hlive in
/-- Planned patches that go where they are known to be are all applied. -/
theorem apply_prepared_succeeds {prepared : List PreparedPatch}
    (hprepared : List.Forall₂ (PreparedPatch.Prepares image origin build) Patch.all prepared) :
    ∃ patches copied, apply_to_copy os prepared world = (.ok patches, copied) ∧ usable copied.os ∧
      copied.memory = stamp_all (all_placements build (every_plan plans)) origin ∧
      ∀ validated ∈ patches, validated.Truthful := by
  have hsame : Patch.all.map plans = prepared.map PreparedPatch.plan := by
    rw [← List.forall₂_eq_eq_eq, List.forall₂_map_left_iff, List.forall₂_map_right_iff]
    exact hprepared.imp fun patch ready hprepares => (hplans patch).unique hprepares.2.1
  have hsound : ∀ ready ∈ prepared, ready.plan.Sound os usable image origin build ∧
      ready.Describes image origin := by
    intro ready hready
    obtain ⟨patch, _, _, hfollows, hdescribes⟩ := mem_of_forall₂ hprepared hready
    have hplan := hfollows.unique (hplans patch)
    refine ⟨⟨⟨patch, hfollows⟩, fun write hwrite => ?_⟩, hdescribes⟩
    obtain ⟨site, _, haccepts, _⟩ := hfollows.of_write write hwrite
    rw [hplan] at hwrite
    exact haccepts.cooperative hreadable (hwritable patch write hwrite)
  have hapart := prepared_apart hprepared fun patch plan hplan => by
    rw [hplan.unique (hplans patch)]
    exact hknown patch
  have hstamped : StampedFrom origin world.memory := by
    rw [hworld]
    exact .refl _
  obtain ⟨patches, copied, happly, hcopied, hmemory, htruthful⟩ :=
    apply_to_copy_succeeds hsound hapart hstamped husable fun _ _ _ _ => by rw [hworld]
  refine ⟨patches, copied, happly, hcopied, ?_, htruthful⟩
  have hwrites : (prepared.flatMap fun ready => ready.plan.writes) =
      (every_plan plans).flatMap fun entry => entry.2.writes := by
    calc prepared.flatMap (fun ready => ready.plan.writes)
      _ = (prepared.map PreparedPatch.plan).flatMap PatchPlan.writes := by rw [List.flatMap_map]
      _ = (Patch.all.map plans).flatMap PatchPlan.writes := by rw [hsame]
      _ = (every_plan plans).flatMap fun entry => entry.2.writes := by
        rw [every_plan, List.flatMap_map, List.flatMap_map]
  rw [hmemory, hworld, hwrites, (every_plan_planned hplans).write_all_eq]

/-- Everything up to the patched copy succeeds. -/
theorem patch_mapped_succeeds (path : String) :
    ∃ patches copied, patch_mapped os path build image world = (.ok patches, copied) ∧ usable copied.os ∧
      copied.memory = stamp_all (all_placements build (every_plan plans)) origin ∧
      ∀ validated ∈ patches, validated.Truthful := by
  obtain ⟨results, hresults, hforall⟩ := plan_all_reads (Stop String)
    (Patch.plan_yields hvalid hreadable hlive build) Patch.all
  have hentries : ∀ entry ∈ results, ∃ plan, entry.2 = .ok plan ∧ ∀ write ∈ plan.writes,
      ∃ scope, image.InScope scope write.address write.expected.length := by
    intro entry hentry
    obtain ⟨patch, _, _, haccepts⟩ := mem_of_forall₂ hforall.flip hentry
    refine ⟨plans patch, (haccepts _).mpr (hplans patch), fun write hwrite => ?_⟩
    obtain ⟨site, _, haccepts', _⟩ := (hplans patch).of_write write hwrite
    rw [haccepts'.2.1]
    exact ⟨site.scope, haccepts'.1.in_scope⟩
  obtain ⟨planned, hplanned, hplannedMemory, hplannedUsable⟩ := hresults world hworld husable
  obtain ⟨prepared, hprepared⟩ : ∃ prepared,
      Reads usable origin (collect_plans os image results) (.ok ([], prepared)) :=
    collect_plans_reads hreadable hentries
  obtain ⟨described, hcollect, hdescribed, hdescribedUsable⟩ :=
    hprepared planned hplannedMemory hplannedUsable
  obtain ⟨_, hcollected⟩ := collect_plans_ok hcollect
  rw [hplannedMemory] at hcollected
  have hprepares : List.Forall₂ (PreparedPatch.Prepares image origin build) Patch.all prepared := by
    refine (forall₂_join hforall hcollected).imp ?_
    rintro patch ready ⟨entry, _, ⟨hname, haccepts⟩, rfl, hdescribes⟩
    exact ⟨hname, (haccepts ready.plan).mp rfl, hdescribes⟩
  have hvalidated : validate_known_rvas build prepared = .ok () := by
    refine (validate_known_rvas_eq_ok_iff hprepares).mpr fun patch plan hplan => ?_
    rw [hplan.unique (hplans patch)]
    exact hknown patch
  obtain ⟨patches, copied, happly, hcopied⟩ := apply_prepared_succeeds hreadable hplans hknown
    hwritable hdescribed hdescribedUsable hprepares
  refine ⟨patches, copied, ?_, hcopied⟩
  rw [patch_mapped, make_plans, Action.bind_of_ok hplanned, Action.bind_of_ok hcollect]
  dsimp only
  rw [if_neg (by simp), hvalidated]
  exact happly

/-- Once every patch is planned, and planned where it is known to be, nothing
can fail any more and the report is truthful. -/
theorem validate_mapped_succeeds (path : String) (file_size : Nat) :
    ∃ validation, (validate_mapped os path build file_size image world).1 = .ok validation ∧
      ∀ validated ∈ validation.patches, validated.Truthful := by
  obtain ⟨patches, copied, hpatch, hcopiedUsable, hcopied, htruthful⟩ :=
    patch_mapped_succeeds hvalid hreadable hlive hplans hknown hwritable hworld husable path
  obtain ⟨replanned, again, last, hagain, hlast⟩ :=
    reapply_succeeds hvalid hreadable hlive hplans hcopied hcopiedUsable
  refine ⟨⟨build.to_string, file_size, image.size, patches⟩, ?_, htruthful⟩
  rw [validate_mapped, Action.bind_of_ok hpatch, Action.bind_of_ok hagain, Action.bind_of_ok hlast]
  rfl

end Mapped

/-- What the planner of a patch returns on the mapping of a file. -/
def planned_on_mapping (os : Os σ) (world : World σ) (file : List UInt8) (mapped : FileMappedModule)
    (patch : Patch) : Except PatchError PatchPlan :=
  (patch.plan os mapped.image (.from_file_size (some file.length))
    { world with memory := world.memory.write mapped.image.base mapped.mapping }).1

/-- The sections of the mapping, which ends below the top of the address space, can be read. -/
structure MappingReads (os : Os σ) (usable : σ → Prop) (mapped : FileMappedModule) : Prop where
  top : mapped.image.base + mapped.image.size < USIZE_LIMIT
  readable : mapped.image.Readable os usable

/-- The memory calls on the mapping succeed: it can be read, and written where
the planners plan to. -/
structure MappingAnswers (os : Os σ) (usable : σ → Prop) (world : World σ)
    (file : List UInt8) (mapped : FileMappedModule) : Prop extends MappingReads os usable mapped where
  writable : ∀ patch plan, planned_on_mapping os world file mapped patch = .ok plan →
    ∀ write ∈ plan.writes, Writable os usable write.address write.replacement.length

section File

variable {portex : List UInt8 → Except String PEHeaders} {base : Nat} {file : List UInt8}
  {mapped : FileMappedModule} {world : World σ}
  (hmapped : ModuleImage.from_pe_file portex base file = .ok mapped) (husable : usable world.os)
include hmapped husable

/-- A patch is planned on the mapping exactly as the file calls for. -/
theorem planned_on_mapping_iff (hreads : MappingReads os usable mapped) (patch : Patch) (plan : PatchPlan) :
    planned_on_mapping os world file mapped patch = .ok plan ↔
      plan.Follows mapped.image (world.memory.write base mapped.mapping)
        (patch.sites (.from_file_size (some file.length))) := by
  have htop := hreads.top
  have hbase := mapped_image_base hmapped
  rw [hbase] at htop
  obtain ⟨hvalid, hlive⟩ := mapped_image_valid hmapped htop world.memory
  rw [planned_on_mapping, hbase]
  apply (Patch.plan_yields hvalid hreads.readable hlive _ patch).run_ok_iff
  · rfl
  · exact husable

/-- The plans behind a validation that succeeded. -/
theorem validate_dunia_file_planned (hreads : MappingReads os usable mapped) {path : String}
    {validation : DuniaFileValidation}
    (hvalidate : (validate_dunia_file os portex base path (.ok file) world).1 = .ok validation) :
    ∃ plans : Patch → PatchPlan, ∀ patch, planned_on_mapping os world file mapped patch = .ok (plans patch) ∧
      KnownTargets (.from_file_size (some file.length)) mapped.image.base patch (plans patch) := by
  have htop := hreads.top
  rw [mapped_image_base hmapped] at htop
  obtain ⟨prepared, _, _, _, hknown, _, hprepared⟩ :=
    validate_dunia_file_plans hmapped htop hreads.readable husable (Action.eq_of_result hvalidate)
  have hplanned : ∀ patch, ∃ plan : PatchPlan, plan.Follows mapped.image
      (world.memory.write base mapped.mapping) (Patch.sites (.from_file_size (some file.length)) patch) := by
    intro patch
    have hlisted : patch ∈ Patch.all := by cases patch <;> decide
    obtain ⟨ready, _, _, hfollows, _⟩ := mem_of_forall₂ hprepared.flip hlisted
    exact ⟨ready.plan, hfollows⟩
  choose plans hplans using hplanned
  exact ⟨plans, fun patch => ⟨(planned_on_mapping_iff hmapped husable hreads patch _).mpr (hplans patch),
    (validate_known_rvas_eq_ok_iff hprepared).mp hknown patch _ (hplans patch)⟩⟩

/-- A file whose patches are all planned, at the known RVAs, is validated. -/
theorem validate_dunia_file_succeeds (hanswers : MappingAnswers os usable world file mapped) (path : String)
    {plans : Patch → PatchPlan}
    (hplans : ∀ patch, planned_on_mapping os world file mapped patch = .ok (plans patch) ∧
      KnownTargets (.from_file_size (some file.length)) mapped.image.base patch (plans patch)) :
    ∃ validation, (validate_dunia_file os portex base path (.ok file) world).1 = .ok validation ∧
      ∀ validated ∈ validation.patches, validated.Truthful := by
  have hiff := planned_on_mapping_iff hmapped husable hanswers.toMappingReads
  obtain ⟨⟨htop, hreadable⟩, hwritable⟩ := hanswers
  have hbase := mapped_image_base hmapped
  rw [hbase] at htop
  obtain ⟨hvalid, hlive⟩ := mapped_image_valid hmapped htop world.memory
  obtain ⟨validation, hrun, htruthful⟩ := validate_mapped_succeeds hvalid hreadable hlive
    (fun patch => (hiff patch _).mp (hplans patch).1) (fun patch => (hplans patch).2)
    (fun patch => hwritable patch _ (hplans patch).1)
    (show ({ world with memory := world.memory.write base mapped.mapping } : World σ).memory = _ from rfl)
    husable path file.length
  refine ⟨validation, ?_, htruthful⟩
  rw [validate_dunia_file, hmapped]
  dsimp only
  rw [Action.bind_of_ok (show allocate mapped.image.base mapped.mapping world = (.ok (), _) from rfl), hbase]
  exact hrun

end File

section Pages

variable {portex : List UInt8 → Except String PEHeaders} {file : List UInt8} {mapped : FileMappedModule}
  (hmapped : ModuleImage.from_pe_file portex 0x2_0000 file = .ok mapped) (hsize : mapped.image.size = 0x100)
include hmapped hsize

/-- A file that is mapped to the pages can be read there. -/
theorem mapping_reads_of_pages : MappingReads page_table mapping_pages mapped := by
  have hbase := mapped_image_base hmapped
  refine ⟨?_, (mapped_image_laid hmapped fun _ => 0).1.readable ?_⟩
  · rw [hbase, hsize]
    decide
  · rw [hbase, hsize]
    exact mapping_readable (Nat.le_refl _) (Nat.le_refl _)

/-- And written, wherever a planner plans to. -/
theorem mapping_answers_of_pages {world : World PageMap} (hpages : mapping_pages world.os) :
    MappingAnswers page_table mapping_pages world file mapped := by
  have hreads := mapping_reads_of_pages hmapped hsize
  refine ⟨hreads, fun patch plan hplan write hwrite => ?_⟩
  obtain ⟨hlength, hlo, hhi⟩ := ((planned_on_mapping_iff hmapped hpages hreads patch plan).mp hplan).in_image
    (mapped_image_laid hmapped world.memory).1 write hwrite
  rw [mapped_image_base hmapped] at hlo hhi
  rw [hsize] at hhi
  exact mapped_writable page_table_granting readwrite_accessible (by decide) hlength hlo hhi

end Pages

end systemdetection.patches.offline
