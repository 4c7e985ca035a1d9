import SystemDetection.Offline.Validate
import SystemDetection.Patches.Containment
import SystemDetection.Sigscan.FileMeaning

open effect store systemdetection.patches.memory systemdetection.patches.sigscan

namespace systemdetection.patches.offline

variable {σ : Type} {os : Os σ} {image : ModuleImage} {build : DuniaBuild} {permitted : Access → Prop}

theorem read_bytes_accesses {address length : Nat} (hpermitted : permitted ⟨.read, address, length⟩) :
    (read_bytes os address length).Relates (World.Accesses permitted) :=
  read_bytes_relates (accesses_calls os permitted).toQueries address length
    fun world => ⟨[⟨.read, address, length⟩], rfl, by simpa using hpermitted⟩

/-- The description of the candidates reads one byte of each. -/
theorem describe_candidates_accesses {offset : Nat} {starts : List Nat}
    (hpermitted : ∀ start ∈ starts, permitted ⟨.read, start + offset, 1⟩) :
    (describe_candidates os image offset starts).Relates (World.Accesses permitted) := by
  induction starts with
  | nil => exact accesses_pure _
  | cons start rest ih =>
    obtain ⟨hstart, hrest⟩ := List.forall_mem_cons.mp hpermitted
    unfold describe_candidates
    split
    · exact ih hrest
    · rename_i target htarget
      obtain ⟨rfl, _⟩ := checked_add_eq_some_iff.mp htarget
      refine accesses_bind (read_bytes_accesses hstart).attempt fun result => ?_
      cases result with
      | error error => exact ih hrest
      | ok bytes =>
        exact accesses_bind (accesses_lift _) fun _ => accesses_bind (accesses_lift _) fun _ =>
          accesses_bind (accesses_lift _) fun _ => accesses_bind (ih hrest) fun _ => accesses_pure _

/-- The description of a plan reads the targets of its writes. -/
theorem describe_writes_accesses {name : String} {writes : List CheckedWrite}
    (hpermitted : ∀ write ∈ writes, permitted ⟨.read, write.address, write.expected.length⟩) :
    (describe_writes os image name writes).Relates (World.Accesses permitted) := by
  induction writes with
  | nil => exact accesses_pure _
  | cons write rest ih =>
    obtain ⟨hwrite, hrest⟩ := List.forall_mem_cons.mp hpermitted
    exact accesses_bind (accesses_lift _) fun _ =>
      accesses_bind ((read_bytes_accesses hwrite).map_err _) fun _ =>
      accesses_bind (ih hrest) fun _ => accesses_pure _

/-- The description of a plan stays within the plan. -/
theorem describe_plan_accesses {plan : PatchPlan} (hwithin : plan.Within permitted)
    (name : String) : (describe_writes os image name plan.writes).Relates (World.Accesses permitted) := by
  refine describe_writes_accesses fun write hmem => ?_
  obtain ⟨hlength, hpermitted⟩ := hwithin write hmem
  rw [hlength]
  exact hpermitted .read

section Stages

variable (hlaid : image.Laid) (hreads : ∀ scope address length, image.InScope scope address length →
  permitted ⟨.read, address, length⟩)
include hlaid hreads

/-- The diagnostics read one byte of each match without asking where it lies;
it lies in the match. -/
theorem diagnose_signatures_accesses {signatures : List (String × String × Nat)}
    (hoffsets : ∀ entry ∈ signatures, ∀ pattern, Pattern.parse entry.2.1 = .ok pattern →
      entry.2.2 < pattern.len) :
    (diagnose_signatures os image signatures).Relates (World.Accesses permitted) := by
  induction signatures with
  | nil => exact accesses_pure _
  | cons entry rest ih =>
    obtain ⟨name, signature, offset⟩ := entry
    obtain ⟨hoffset, hrest⟩ := List.forall_mem_cons.mp hoffsets
    unfold diagnose_signatures
    refine accesses_bind (describe_candidates_accesses fun start hstart => ?_)
      fun _ => accesses_bind (ih hrest) fun _ => accesses_pure _
    cases hparse : Pattern.parse signature with
    | error error =>
      rw [hparse] at hstart
      cases hstart
    | ok pattern =>
      rw [hparse] at hstart
      obtain ⟨loaded, hmem, hfound⟩ := List.mem_flatMap.mp hstart
      have hwindow := LoadedSection.holds_of_mem_scan hlaid hmem hfound
      have hinside := hoffset pattern hparse
      dsimp only at hinside
      refine hreads .ReadOnlyData _ _ ⟨loaded, hmem, (LoadedSection.mem_scan_iff.mp hfound).1, ?_⟩
      simp only [PeSection.Holds] at hwindow ⊢
      omega

/-- The diagnostics of a failed patch read the targets of its signatures. -/
theorem failure_diagnostics_accesses (name : String) :
    (failure_diagnostics os image name).Relates (World.Accesses permitted) := by
  unfold failure_diagnostics
  split
  · refine accesses_bind (accesses_bind (diagnose_signatures_accesses hlaid hreads ?_) fun _ =>
      accesses_pure _) fun _ => accesses_pure _
    simp only [List.forall_mem_cons, List.not_mem_nil, IsEmpty.forall_iff, implies_true, and_true]
    refine ⟨fun pattern hparse => ?_, fun pattern hparse => ?_, fun pattern hparse => ?_⟩
    · cases hparse.symm.trans mesh_highlight_recipe.parses
      decide
    · cases hparse.symm.trans arch_blink_recipe.parses
      decide
    · cases hparse.symm.trans save_disk_recipe.parses
      decide
  · exact accesses_pure _

/-- Collecting the plans reads what the descriptions of the plans do. -/
theorem collect_plans_accesses {plans : List (String × Except PatchError PatchPlan)}
    (hwithin : ∀ entry ∈ plans, ∀ plan, entry.2 = .ok plan → plan.Within permitted) :
    (collect_plans os image plans).Relates (World.Accesses permitted) := by
  induction plans with
  | nil => exact accesses_pure _
  | cons entry rest ih =>
    obtain ⟨hentry, hrest⟩ := List.forall_mem_cons.mp hwithin
    obtain ⟨name, error | plan⟩ := entry
    · exact accesses_bind (failure_diagnostics_accesses hlaid hreads name) fun _ =>
        accesses_bind (ih hrest) fun _ => accesses_pure _
    · exact accesses_bind (describe_plan_accesses (hentry plan rfl) name) fun _ =>
        accesses_bind (ih hrest) fun _ => accesses_pure _

variable {snapshot : Store UInt8} (hlive : image.Live snapshot)
include hlive

/-- Each planner is called in the world that the planners before it have left. -/
theorem plan_all_contained {patches : List Patch} {world next : World σ}
    {result : Except (Stop String) (List (String × Except PatchError PatchPlan))}
    (hpermits : ∀ early patch late, patches = early ++ patch :: late →
      patch.Permits os image snapshot build permitted
        (plan_all os image build early world : Except (Stop String) _ × World σ).2)
    (hplans : plan_all os image build patches world = (result, next)) :
    world.Accesses permitted next ∧ ∃ plans, result = .ok plans ∧
      ∀ entry ∈ plans, ∀ plan, entry.2 = .ok plan → plan.Within permitted := by
  induction patches generalizing world next result with
  | nil =>
    cases hplans
    exact ⟨World.Accesses.refl permitted world, _, rfl, nofun⟩
  | cons patch rest ih =>
    have hearlier := (Patch.plan_confined os hlaid hreads world.memory build patch world rfl).1
    rcases hplan : patch.plan os image build world with ⟨first, middle⟩
    rw [hplan] at hearlier
    have hattempt : (patch.plan os image build).attempt world =
        ((.ok first : Except (Stop String) _), middle) := Action.attempt_of_eq hplan
    have hstart : ∀ early, (plan_all os image build (patch :: early) world :
        Except (Stop String) _ × World σ).2 =
        (plan_all os image build early middle : Except (Stop String) _ × World σ).2 := fun early => by
      rw [plan_all, Action.bind_of_ok hattempt]
      rcases hearly : (plan_all os image build early middle : Except (Stop String) _ × World σ)
        with ⟨error | others, last⟩
      · rw [Action.bind_of_error hearly]
      · rw [Action.bind_of_ok hearly]
        rfl
    rcases hrest : (plan_all os image build rest middle : Except (Stop String) _ × World σ)
      with ⟨others, last⟩
    obtain ⟨hlater, others, rfl, hothers⟩ := ih (fun early patch' late hsplit => by
      rw [← hstart]
      exact hpermits (patch :: early) patch' late (by rw [hsplit, List.cons_append])) hrest
    rw [plan_all, Action.bind_of_ok hattempt, Action.bind_of_ok hrest] at hplans
    cases hplans
    refine ⟨World.Accesses.trans _ _ _ _ hearlier hlater, _, rfl,
      List.forall_mem_cons.mpr ⟨fun plan hfirst => ?_, hothers⟩⟩
    dsimp only at hfirst
    rw [hfirst] at hplan
    exact (hpermits [] patch rest rfl).plan_within hlaid hlive hplan

end Stages

/-- The first pass over the copy stays within the plans. -/
theorem apply_to_copy_accesses {prepared : List PreparedPatch}
    (hwithin : ∀ ready ∈ prepared, ready.plan.Within permitted) :
    (apply_to_copy os prepared).Relates (World.Accesses permitted) := by
  induction prepared with
  | nil => exact accesses_pure _
  | cons ready rest ih =>
    obtain ⟨hready, hrest⟩ := List.forall_mem_cons.mp hwithin
    exact accesses_bind (hready.apply_accesses.map_err _) fun _ =>
      accesses_bind (ih hrest) fun _ => accesses_pure _

/-- So does the second pass. -/
theorem reapply_to_copy_accesses {plans : List (String × Except PatchError PatchPlan)}
    (hwithin : ∀ entry ∈ plans, ∀ plan, entry.2 = .ok plan → plan.Within permitted) :
    (reapply_to_copy os plans).Relates (World.Accesses permitted) := by
  induction plans with
  | nil => exact accesses_pure _
  | cons entry rest ih =>
    obtain ⟨hentry, hrest⟩ := List.forall_mem_cons.mp hwithin
    obtain ⟨name, error | plan⟩ := entry
    · exact accesses_throw _
    · refine accesses_bind ((hentry plan rfl).apply_accesses.map_err _) fun state => ?_
      split
      · exact accesses_throw _
      · exact ih hrest

/-- What is prepared are the plans that were made. -/
theorem collect_plans_plans {plans : List (String × Except PatchError PatchPlan)}
    {failures : List String} {prepared : List PreparedPatch} {world next : World σ}
    (hcollect : collect_plans os image plans world = (.ok (failures, prepared), next)) :
    ∀ ready ∈ prepared, ∃ entry ∈ plans, entry.2 = .ok ready.plan := by
  induction plans generalizing world next failures prepared with
  | nil =>
    cases hcollect
    exact nofun
  | cons entry rest ih =>
    obtain ⟨name, error | plan⟩ := entry
    · obtain ⟨_, middle, _, hcollect⟩ := Action.bind_eq_ok_iff.mp hcollect
      obtain ⟨⟨others, ready⟩, last, hrest, hcollect⟩ := Action.bind_eq_ok_iff.mp hcollect
      cases hcollect
      intro candidate hmem
      obtain ⟨entry, hentry, hplan⟩ := ih hrest candidate hmem
      exact ⟨entry, List.mem_cons_of_mem _ hentry, hplan⟩
    · obtain ⟨_, middle, _, hcollect⟩ := Action.bind_eq_ok_iff.mp hcollect
      obtain ⟨⟨others, ready⟩, last, hrest, hcollect⟩ := Action.bind_eq_ok_iff.mp hcollect
      cases hcollect
      rw [List.forall_mem_cons]
      refine ⟨⟨_, List.mem_cons_self, rfl⟩, fun candidate hmem => ?_⟩
      obtain ⟨entry, hentry, hplan⟩ := ih hrest candidate hmem
      exact ⟨entry, List.mem_cons_of_mem _ hentry, hplan⟩

section Mapped

variable {path : String} (hlaid : image.Laid) {snapshot : Store UInt8} (hlive : image.Live snapshot)
  (hreads : ∀ scope address length, image.InScope scope address length →
    permitted ⟨.read, address, length⟩)
include hlaid hlive hreads

/-- Planning, describing and applying stay within what each planner was permitted. -/
theorem patch_mapped_contained {start : World σ}
    (hpermits : ∀ early patch late, Patch.all = early ++ patch :: late →
      patch.Permits os image snapshot build permitted
        (plan_all os image build early start : Except (Stop String) _ × World σ).2) :
    start.Accesses permitted (patch_mapped os path build image start).2 := by
  rcases hplans : (make_plans os image build start : Except (Stop String) _ × World σ)
    with ⟨result, planned⟩
  obtain ⟨haccesses, plans, rfl, hwithin⟩ := plan_all_contained hlaid hreads hlive hpermits hplans
  rw [patch_mapped, Action.bind_of_ok hplans]
  refine World.Accesses.trans _ _ _ _ haccesses ?_
  refine Action.relates_bind_of (World.Accesses.trans permitted)
    (collect_plans_accesses hlaid hreads hwithin) (fun before described collected hcollect => ?_) planned
  obtain ⟨failures, prepared⟩ := collected
  dsimp only
  split
  · exact World.Accesses.refl permitted described
  · refine accesses_bind (accesses_lift _) (fun _ => apply_to_copy_accesses fun ready hready => ?_) described
    obtain ⟨entry, hentry, hplan⟩ := collect_plans_plans hcollect ready hready
    exact hwithin entry hentry ready.plan hplan

/-- So does the whole validation of a mapping, with its second planning. -/
theorem validate_mapped_contained {file_size : Nat} {start : World σ}
    (hpermits : ∀ planner, planner = start ∨ planner = (patch_mapped os path build image start).2 →
      ∀ early patch late, Patch.all = early ++ patch :: late →
        patch.Permits os image snapshot build permitted
          (plan_all os image build early planner : Except (Stop String) _ × World σ).2) :
    start.Accesses permitted (validate_mapped os path build file_size image start).2 := by
  have hpatched : start.Accesses permitted (patch_mapped os path build image start).2 :=
    patch_mapped_contained hlaid hlive hreads (hpermits start (.inl rfl))
  rcases hpatch : patch_mapped os path build image start with ⟨error | patches, copied⟩
  · rw [hpatch] at hpatched
    rw [validate_mapped, Action.bind_of_error hpatch]
    exact hpatched
  · rw [hpatch] at hpatched hpermits
    rcases hplans : (make_plans os image build copied : Except (Stop String) _ × World σ)
      with ⟨result, replanned⟩
    obtain ⟨haccesses, plans, rfl, hwithin⟩ :=
      plan_all_contained hlaid hreads hlive (hpermits copied (.inr rfl)) hplans
    rw [validate_mapped, Action.bind_of_ok hpatch, Action.bind_of_ok hplans]
    refine World.Accesses.trans _ _ _ _ hpatched (World.Accesses.trans _ _ _ _ haccesses ?_)
    exact accesses_bind (reapply_to_copy_accesses hwithin) (fun _ => accesses_pure _) replanned

end Mapped

/-- What `validate_dunia_file` may access: ranges inside the disposable mapping,
and to be written only those that a planner selects in it, called on the fresh
mapping or on the patched one. -/
def MayAccess (os : Os σ) (portex : List UInt8 → Except String PEHeaders) (base : Nat) (path : String)
    (file : List UInt8) (world : World σ) (access : Access) : Prop :=
  ∃ mapped, ModuleImage.from_pe_file portex base file = .ok mapped ∧
    access.Inside base mapped.mapping.length ∧
    (access.kind = .write →
      let build := DuniaBuild.from_file_size (some file.length)
      let start := { world with memory := world.memory.write base mapped.mapping }
      ∃ parsed sections planner early patch late,
        SectionTable parsed mapped.mapping.length sections ∧
        mapped.image = .snapshot base mapped.mapping.length sections start.memory ∧
        (planner = start ∨ planner = (patch_mapped os path build mapped.image start).2) ∧
        Patch.all = early ++ patch :: late ∧
        patch.MayWrite os mapped.image start.memory build
          (plan_all os mapped.image build early planner : Except (Stop String) _ × World σ).2 access)

/-- Whatever Portex and the system say, the validation accesses only what it may. -/
theorem validate_dunia_file_accesses (os : Os σ) (portex : List UInt8 → Except String PEHeaders)
    (base : Nat) (path : String) (file : List UInt8) (world : World σ) :
    world.Accesses (MayAccess os portex base path file world)
      (validate_dunia_file os portex base path (.ok file) world).2 := by
  rw [validate_dunia_file]
  rcases hmapped : ModuleImage.from_pe_file portex base file with (error | reason) | mapped
  · exact World.Accesses.refl _ world
  · exact World.Accesses.refl _ world
  · obtain ⟨parsed, sections, hsnapshots⟩ := ModuleImage.from_pe_file_ok hmapped
    have htable := validate_pe_sections_ok hsnapshots.table
    have himage := hsnapshots.image_eq (world.memory.write base mapped.mapping)
      (Store.read_write_self _ _ _)
    rw [← hsnapshots.length] at htable himage
    have hlaid := htable.snapshot_laid base (world.memory.write base mapped.mapping)
    have hlive := ModuleImage.snapshot_live base mapped.mapping.length sections
      (world.memory.write base mapped.mapping)
    rw [← himage] at hlaid hlive
    have hrange := hsnapshots.range
    have hreads : ∀ scope address length, mapped.image.InScope scope address length →
        MayAccess os portex base path file world ⟨.read, address, length⟩ :=
      fun scope address length hscope => by
        have hinside := hscope.in_image hlaid
        rw [hrange.1, hrange.2] at hinside
        exact ⟨mapped, hmapped, hinside, nofun⟩
    dsimp only
    rw [hrange.1]
    refine validate_mapped_contained hlaid hlive hreads fun planner hplanner early patch late hsplit =>
      ⟨hreads, fun address length hwrite => ?_⟩
    have hinside := hwrite.inside hlaid
    rw [hrange.1, hrange.2] at hinside
    exact ⟨mapped, hmapped, hinside, fun _ =>
      ⟨parsed, sections, planner, early, patch, late, htable, himage, hplanner, hsplit, hwrite⟩⟩

/-- Containment and provenance of every access through a raw pointer, in a run
and in an offline validation, whatever the configuration, the file size, the
headers, the memory and the answers of the system: it stays inside the module or
the mapping, and a write goes to one section of its patch, to a target that was
selected as the only guarded one of a signature or, for a recognised file size
only, at a fixed guarded RVA. -/
theorem accesses_contained (os : Os σ) :
    (∀ dunia config (world : World σ),
      world.Accesses (fun access => ∃ module, dunia = .ok module ∧
        patches.MayAccess os module config world access) (run os dunia config world).2) ∧
    (∀ portex base path read (world : World σ),
      world.Accesses (fun access => ∃ file, read = .ok file ∧
        MayAccess os portex base path file world access)
        (validate_dunia_file os portex base path read world).2) ∧
    ∀ file_size patch, ∀ site ∈ Patch.sites (.from_file_size file_size) patch,
      (∃ recipe, site = .unique recipe) ∨
        (file_size = some STEAM_DUNIA_FILE_SIZE ∨ file_size = some RETAIL_DUNIA_FILE_SIZE ∨
          file_size = some UBISOFT_DUNIA_FILE_SIZE) ∧
        (patch = .no_blinking_items → ∃ recipe target_rva, site = .known recipe target_rva) := by
  refine ⟨fun dunia config world => ?_, fun portex base path read world => ?_,
    fun file_size patch site => Patch.site_recognised⟩
  · cases dunia with
    | error error => exact World.Accesses.refl _ world
    | ok module =>
      exact (run_accesses os module config world).mono fun access haccess => ⟨module, rfl, haccess⟩
  · cases read with
    | error error => exact World.Accesses.refl _ world
    | ok file =>
      exact (validate_dunia_file_accesses os portex base path file world).mono
        fun access haccess => ⟨file, rfl, haccess⟩

end systemdetection.patches.offline
