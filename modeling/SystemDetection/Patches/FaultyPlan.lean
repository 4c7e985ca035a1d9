import SystemDetection.Patches.Provenance
import SystemDetection.Patches.Separation
import SystemDetection.Store.Stamped

open effect store systemdetection.patches.memory systemdetection.patches.sigscan

namespace systemdetection.patches

variable {σ : Type} {os : Os σ}

/-- A place for a target of one of the allowed patches, in some build. -/
def PlaceOf (allowed : Patch → Prop) (placement : Placement UInt8) : Prop :=
  ∃ patch build, ∃ site ∈ Patch.sites build patch, allowed patch ∧ placement.template = site.template

variable {allowed : Patch → Prop}

theorem PlaceOf.mem (placement : Placement UInt8) (hplace : PlaceOf allowed placement) :
    placement.template ∈ patch_templates := by
  obtain ⟨_, _, _, hsite, _, htemplate⟩ := hplace
  rw [htemplate]
  exact Patch.template_mem hsite

/-- The checked write that replaces the target of a place. -/
def place_write (placement : Placement UInt8) : CheckedWrite :=
  ⟨placement.target, placement.template.before, placement.template.after⟩

/-- The write replaces the target of an allowed place that is in the given state. -/
def CheckedWrite.Finds (allowed : Patch → Prop) (state : Placement UInt8 → Prop) (write : CheckedWrite) :
    Prop :=
  ∃ placement, PlaceOf allowed placement ∧ state placement ∧ write = place_write placement

theorem CheckedWrite.Finds.imp {state state' : Placement UInt8 → Prop} {write : CheckedWrite}
    (hfinds : write.Finds allowed state)
    (himp : ∀ placement, PlaceOf allowed placement → state placement → state' placement) :
    write.Finds allowed state' := by
  obtain ⟨placement, hplace, hstate, hwrite⟩ := hfinds
  exact ⟨placement, hplace, himp placement hplace hstate, hwrite⟩

theorem CheckedWrite.Finds.held {memory : Store UInt8} {write : CheckedWrite}
    (hfinds : write.Finds allowed (·.Patched memory)) :
    memory.read write.address write.replacement.length = write.replacement := by
  obtain ⟨placement, _, hpatched, rfl⟩ := hfinds
  have hheld := Placement.read_of_patched hpatched
  rwa [← placement.template.same_length] at hheld

section Selected

variable {image : ModuleImage} {before after : World σ}

/-- A target that a site selects in live memory has its place there. -/
theorem Site.Selects.placed {site : Site} {target : Nat}
    (hselects : site.Selects os image before.memory before after target) :
    (site.placement target).target = target ∧ (site.placement target).Stands before.memory := by
  cases site with
  | unique recipe =>
    obtain ⟨_, start, _, _, _, rfl, hguarded, _⟩ := hselects
    refine ⟨Nat.sub_add_cancel (Nat.le_add_left _ _), ?_⟩
    change recipe.template.Stands before.memory (start + recipe.target_offset - recipe.target_offset)
    rw [Nat.add_sub_cancel]
    exact Recipe.stands_iff.mpr ⟨hguarded.matches_at, hguarded.held⟩
  | known recipe target_rva =>
    obtain ⟨_, start, rfl, _, hmatches, _, hheld⟩ := hselects
    refine ⟨Nat.sub_add_cancel (Nat.le_add_left _ _), ?_⟩
    change recipe.template.Stands before.memory (start + recipe.target_offset - recipe.target_offset)
    rw [Nat.add_sub_cancel]
    exact Recipe.stands_iff.mpr ⟨hmatches, hheld⟩
  | fixed guard scope target_rva => exact ⟨rfl, Guard.stands_iff.mpr hselects.2.2⟩

/-- What a planner has selected stands in the memory it read. -/
theorem Selections.finds {snapshot : Store UInt8} {sites : List Site} {writes : List CheckedWrite}
    (hselections : Selections os image snapshot before sites writes) (hmemory : before.memory = snapshot)
    (hsites : ∀ site ∈ sites, ∃ patch build, site ∈ Patch.sites build patch ∧ allowed patch) :
    ∀ write ∈ writes, write.Finds allowed (·.Stands snapshot) := by
  induction hselections with
  | nil world => simp
  | @cons before after site sites target writes hselects hsame hrest ih =>
    subst hmemory
    rw [List.forall_mem_cons] at hsites ⊢
    obtain ⟨⟨patch, build, hsite, hallowed⟩, hsites⟩ := hsites
    obtain ⟨htarget, hstands⟩ := hselects.placed
    refine ⟨⟨site.placement target, ⟨patch, build, site, hsite, hallowed, rfl⟩, hstands, ?_⟩, ih hsame hsites⟩
    rw [place_write, htarget, Guard.write, Site.placement, Site.template_before, Site.template_after]

/-- The writes of a plan made over live memory go to places that stand there,
whatever the system answered while it was made. -/
theorem Patch.plan_finds (hlaid : image.Laid) {snapshot : Store UInt8} (hlive : image.Live snapshot)
    {build : DuniaBuild} {patch : Patch} (hallowed : allowed patch) {plan : PatchPlan}
    (hmemory : before.memory = snapshot) (hplan : patch.plan os image build before = (.ok plan, after)) :
    ∀ write ∈ plan.writes, write.Finds allowed (·.Stands snapshot) :=
  (Patch.plan_selects hlaid hlive hplan).finds hmemory fun _ hsite => ⟨patch, build, hsite, hallowed⟩

end Selected

/-- A checked write leaves its replacement or nothing, whatever fails on the way. -/
theorem write_checked_memory {address : Nat} {expected replacement : List UInt8} {world world' : World σ}
    {result : Except MemoryError WriteState}
    (hwrite : write_checked os address expected replacement world = (result, world')) :
    world'.memory = world.memory ∨ world'.memory = world.memory.write address replacement := by
  obtain ⟨_, hvalid⟩ | ⟨_, huntouched, _⟩ | ⟨_, _, hcopies, hfinish⟩ := write_checked_cases hwrite
  · exact .inl (validate_bytes_ok hvalid).2.2.2
  · exact .inl huntouched.memory_eq
  · exact .inr ((finish_write_cases hfinish).2.trans hcopies.memory_eq)

section Stamped

variable {origin : Store UInt8} {write : CheckedWrite} {world next : World σ}
  (hstamped : StampedBy (PlaceOf allowed) origin world.memory)
include hstamped

/-- Whatever comes of a write that finds its place, the memory is stamped by places. -/
theorem CheckedWrite.Finds.apply_stamped (hfinds : write.Finds allowed (·.Stands origin))
    {result : Except PatchError WriteState} (hwrite : write.apply os world = (result, next)) :
    StampedBy (PlaceOf allowed) origin next.memory := by
  obtain ⟨placement, hplace, hstands, rfl⟩ := hfinds
  rcases hchecked : write_checked os _ _ _ world with ⟨checked, world'⟩
  rw [CheckedWrite.apply, Action.map_err_apply, hchecked] at hwrite
  cases hwrite
  obtain hmemory | hmemory := write_checked_memory hchecked <;> rw [hmemory]
  · exact hstamped
  · exact hstamped.stamp hplace hstands

/-- Undoing a write keeps the replacements of the other places. -/
theorem CheckedWrite.Finds.rollback_stamped (hfinds : write.Finds allowed (·.Original origin))
    {result : Except PatchError WriteState} (hwrite : write.rollback os world = (result, next)) :
    StampedBy (PlaceOf allowed) origin next.memory := by
  obtain ⟨placement, hplace, horiginal, rfl⟩ := hfinds
  rcases hchecked : write_checked os _ _ _ world with ⟨checked, world'⟩
  rw [CheckedWrite.rollback, Action.map_err_apply, hchecked] at hwrite
  cases hwrite
  obtain hmemory | hmemory := write_checked_memory hchecked <;> rw [hmemory]
  · exact hstamped
  · exact hstamped.unstamp patch_templates_independent PlaceOf.mem patch_templates_rewrite hplace.mem horiginal

/-- A write that had to be applied found the old bytes in the original memory too. -/
theorem CheckedWrite.Finds.original_of_applied (hfinds : write.Finds allowed (·.Stands origin))
    (hwrite : write.apply os world = (.ok .Applied, next)) :
    write.Finds allowed (·.Original origin) := by
  obtain ⟨placement, hplace, horiginal | hpatched, rfl⟩ := hfinds
  · exact ⟨placement, hplace, horiginal, rfl⟩
  · have hstill : placement.Patched world.memory :=
      hstamped.patched patch_templates_independent PlaceOf.mem hplace.mem hpatched
    obtain ⟨_, _, hheld, hdiffers, _⟩ := CheckedWrite.apply_applied hwrite
    exact absurd (hheld.symm.trans (Placement.read_of_patched hstill)) hdiffers

/-- The successful writes at the start of a plan, however the system behaves. -/
theorem Forward.stamped {writes applied : List CheckedWrite}
    (hforward : Forward os world writes applied next)
    (hfinds : ∀ write ∈ writes, write.Finds allowed (·.Stands origin)) :
    StampedBy (PlaceOf allowed) origin next.memory ∧
      ∀ write ∈ applied, write.Finds allowed (·.Original origin) := by
  induction hforward with
  | nil world => exact ⟨hstamped, by simp⟩
  | applied hwrite _ ih =>
    rw [List.forall_mem_cons] at hfinds
    obtain ⟨hreached, hrest⟩ := ih (hfinds.1.apply_stamped hstamped hwrite) hfinds.2
    exact ⟨hreached, List.forall_mem_cons.mpr ⟨hfinds.1.original_of_applied hstamped hwrite, hrest⟩⟩
  | already hwrite _ ih =>
    rw [List.forall_mem_cons] at hfinds
    exact ih (hfinds.1.apply_stamped hstamped hwrite) hfinds.2

/-- Whatever comes of a rollback, the memory stays stamped by the same places. -/
theorem rollback_all_stamped {writes : List CheckedWrite}
    (hfinds : ∀ write ∈ writes, write.Finds allowed (·.Original origin))
    {rollback_errors : List PatchError}
    (hrollback : rollback_all os writes world = (.ok rollback_errors, next)) :
    StampedBy (PlaceOf allowed) origin next.memory := by
  induction writes generalizing world rollback_errors with
  | nil =>
    cases hrollback
    exact hstamped
  | cons write rest ih =>
    rw [List.forall_mem_cons] at hfinds
    rcases hwrite : write.rollback os world with ⟨result, undone⟩
    obtain ⟨errors, final, hrest⟩ := rollback_all_ok os rest undone
    rw [rollback_all, Action.bind_of_ok (Action.attempt_of_eq hwrite), Action.bind_of_ok hrest] at hrollback
    have hfinal := @ih undone (hfinds.1.rollback_stamped hstamped hwrite) hfinds.2 errors
    cases result <;>
    · cases hrollback
      exact hfinal hrest

end Stamped

/-- Writes that find their places, as those places. -/
theorem places_of_writes {memory : Store UInt8} {writes : List CheckedWrite}
    (hfinds : ∀ write ∈ writes, write.Finds allowed (·.Stands memory)) :
    ∃ placements : List (Placement UInt8),
      (∀ placement ∈ placements, PlaceOf allowed placement ∧ placement.Stands memory) ∧
        writes = placements.map place_write := by
  induction writes with
  | nil => exact ⟨[], by simp, rfl⟩
  | cons write rest ih =>
    rw [List.forall_mem_cons] at hfinds
    obtain ⟨⟨placement, hplace, hstands, rfl⟩, hrest⟩ := hfinds
    obtain ⟨placements, hplacements, rfl⟩ := ih hrest
    exact ⟨placement :: placements, List.forall_mem_cons.mpr ⟨⟨hplace, hstands⟩, hplacements⟩, rfl⟩

theorem write_all_places (placements : List (Placement UInt8)) (memory : Store UInt8) :
    write_all (placements.map place_write) memory = stamp_all placements memory :=
  List.foldl_map

/-- Writes that have all succeeded leave all their places patched. -/
theorem Forward.patched {world reached : World σ} {writes applied : List CheckedWrite}
    (hforward : Forward os world writes applied reached)
    (hfinds : ∀ write ∈ writes, write.Finds allowed (·.Stands world.memory)) :
    ∀ write ∈ writes, write.Finds allowed (·.Patched reached.memory) := by
  obtain ⟨placements, hplacements, rfl⟩ := places_of_writes hfinds
  have hpatched := stamp_all_patched patch_templates_independent
    (fun placement hmem => (hplacements placement hmem).1.mem) fun placement hmem => (hplacements placement hmem).2
  rw [hforward.memory_eq, write_all_places]
  intro write hwrite
  obtain ⟨placement, hmem, rfl⟩ := List.mem_map.mp hwrite
  exact ⟨placement, (hplacements placement hmem).1, hpatched placement hmem, rfl⟩

/-- Applying a plan replaces whole targets or nothing of them, whatever fails and
wherever, and undoes only what it did itself. If it succeeds, all its targets
hold their replacements. -/
theorem PatchPlan.apply_stamped {plan : PatchPlan} {world world' : World σ}
    {result : Except PatchError WriteState}
    (hfinds : ∀ write ∈ plan.writes, write.Finds allowed (·.Stands world.memory))
    (happly : plan.apply os world = (result, world')) :
    StampedBy (PlaceOf allowed) world.memory world'.memory ∧
      ∀ state, result = .ok state → ∀ write ∈ plan.writes, write.Finds allowed (·.Patched world'.memory) := by
  have hrefl : StampedBy (PlaceOf allowed) world.memory world.memory := .refl _ _
  rcases apply_loop_cases 0 0 [] plan.writes happly with ⟨applied, hforward, rfl⟩ |
    ⟨done, write, rest, applied, reached, failed, error, rollback_errors, hwrites, hforward, hwrite,
      hrollback, rfl⟩
  · exact ⟨(hforward.stamped hrefl hfinds).1, fun _ _ => hforward.patched hfinds⟩
  · rw [hwrites, List.forall_mem_append, List.forall_mem_cons] at hfinds
    obtain ⟨hreached, happlied⟩ := hforward.stamped hrefl hfinds.1
    have hfailed := hfinds.2.1.apply_stamped hreached hwrite
    exact ⟨rollback_all_stamped hfailed (fun other hmem => happlied other (by simpa using hmem)) hrollback, nofun⟩

end systemdetection.patches
