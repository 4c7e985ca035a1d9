import SystemDetection.Patches.Exactness
import SystemDetection.Patches.Rediscovery

open effect store systemdetection.patches.memory systemdetection.patches.sigscan

namespace systemdetection.patches

variable {σ : Type} {os : Os σ} {usable : σ → Prop}

/-- Memory reached from `origin` by stamping places that stood there. -/
def StampedFrom (origin memory : Store UInt8) : Prop :=
  ∃ placements, (∀ placement ∈ placements, placement.Stands origin) ∧
    (∀ placement ∈ placements, placement.template ∈ patch_templates) ∧
    memory = stamp_all placements origin

theorem StampedFrom.refl (memory : Store UInt8) : StampedFrom memory memory :=
  ⟨[], by simp, by simp, rfl⟩

section Site

variable {image : ModuleImage} {origin memory : Store UInt8} {build : DuniaBuild} {patch : Patch}
  {site : Site} (hstamped : StampedFrom origin memory) (hsite : site ∈ patch.sites build)
include hstamped hsite

/-- A site resolved in the original memory still finds its guard bytes. -/
theorem StampedFrom.guarded {target : Nat} (hresolves : site.Resolves image origin target) :
    memory.read target site.guard.expected.length = site.guard.expected ∨
      memory.read target site.guard.expected.length = site.guard.replacement := by
  obtain ⟨placements, hstands, hmembers, rfl⟩ := hstamped
  obtain ⟨htarget, hplaced⟩ := hresolves.placed
  have hstill := (stamp_all_stands patch_templates_independent hmembers hstands
    (Patch.template_mem hsite) _).1.mpr hplaced
  have hguarded := (Template.stands_iff.mp hstill).2
  rw [← Site.template_before, ← Site.template_after, ← htarget]
  exact hguarded

/-- A write that the planner accepts leaves the memory stamped. -/
theorem StampedFrom.write {write : CheckedWrite} (haccepts : site.Accepts image origin write) :
    StampedFrom origin (memory.write write.address write.replacement) := by
  obtain ⟨placements, hstands, hmembers, rfl⟩ := hstamped
  obtain ⟨htarget, hplaced⟩ := haccepts.1.placed
  refine ⟨placements ++ [site.placement write.address], ?_, ?_, ?_⟩
  · simpa [or_imp, forall_and] using ⟨hstands, hplaced⟩
  · simpa [or_imp, forall_and] using ⟨hmembers, Patch.template_mem hsite⟩
  · rw [stamp_all_append, stamp_all_cons, stamp_all_nil, Template.stamp, haccepts.2.2,
      ← Site.template_after]
    exact congrArg (fun address => (stamp_all placements origin).write address _) htarget.symm

end Site

section Accepts

variable {image : ModuleImage} {memory : Store UInt8} {site : Site} {write : CheckedWrite}
  (haccepts : site.Accepts image memory write)
include haccepts

theorem Site.Accepts.length_pos : 0 < write.replacement.length := by
  rw [haccepts.2.2, List.length_pos_iff]
  exact site.guard.nonempty

theorem Site.Accepts.in_scope : image.InScope site.scope write.address write.replacement.length := by
  obtain ⟨hresolves, _, hreplacement⟩ := haccepts
  rw [hreplacement, ← site.guard.lengths]
  exact hresolves.in_scope

/-- A write that a site accepts lies in readable memory. -/
theorem Site.Accepts.cooperative (hreadable : image.Readable os usable)
    (hwritable : Writable os usable write.address write.replacement.length) :
    write.Cooperative os usable := by
  have hread := hreadable.in_scope haccepts.in_scope
  refine ⟨List.length_pos_iff.mp haccepts.length_pos, ?_, hread, hwritable⟩
  rw [haccepts.2.1, haccepts.2.2]
  exact site.guard.lengths

end Accepts

/-- Every write of a plan has bytes, and lies in the image. -/
theorem PatchPlan.Follows.in_image {image : ModuleImage} {memory : Store UInt8} {sites : List Site}
    {plan : PatchPlan} (hfollows : plan.Follows image memory sites) (hlaid : image.Laid) :
    ∀ write ∈ plan.writes, 0 < write.replacement.length ∧ image.base ≤ write.address ∧
      write.address + write.replacement.length ≤ image.base + image.size := by
  intro write hwrite
  obtain ⟨site, _, haccepts, _⟩ := hfollows.of_write write hwrite
  exact ⟨haccepts.length_pos, haccepts.in_scope.in_image hlaid⟩

section Planned

variable {image : ModuleImage} {origin : Store UInt8} {build : DuniaBuild} {patch : Patch}

/-- A planned write succeeds after any other planned writes: the places that
they changed left its guard intact. -/
theorem planned_write_succeeds {site : Site} (hsite : site ∈ patch.sites build) {write : CheckedWrite}
    (haccepts : site.Accepts image origin write) (hcooperative : write.Cooperative os usable)
    {world : World σ} (hstamped : StampedFrom origin world.memory) (husable : usable world.os) :
    ∃ state world', write.apply os world = (.ok state, world') ∧ usable world'.os := by
  obtain ⟨world', hrun, husable', _⟩ := hcooperative.apply_eq world husable
  have hguarded := hstamped.guarded hsite haccepts.1
  rw [← haccepts.2.1, ← haccepts.2.2, ← classify_bytes_isOk_iff write.address] at hguarded
  obtain ⟨state, hclassify⟩ := hguarded
  rw [hclassify] at hrun
  exact ⟨state, world', hrun, husable'⟩

/-- All writes of a plan succeed. -/
theorem planned_writes_succeed {sites : List Site} {writes : List CheckedWrite}
    (hforall : List.Forall₂ (Site.Accepts image origin) sites writes)
    (hsites : ∀ site ∈ sites, site ∈ patch.sites build)
    (hcooperative : ∀ write ∈ writes, write.Cooperative os usable)
    {world : World σ} (hstamped : StampedFrom origin world.memory) (husable : usable world.os) :
    ∃ applied world', Forward os world writes applied world' ∧ usable world'.os ∧
      StampedFrom origin world'.memory := by
  induction hforall generalizing world with
  | nil => exact ⟨[], world, .nil world, husable, hstamped⟩
  | @cons site write sites writes haccepts _ ih =>
    rw [List.forall_mem_cons] at hsites hcooperative
    obtain ⟨state, next, hwrite, hnext⟩ :=
      planned_write_succeeds hsites.1 haccepts hcooperative.1 hstamped husable
    have hwritten := hstamped.write hsites.1 haccepts
    cases state with
    | Applied =>
      rw [← (CheckedWrite.apply_applied hwrite).2.2.2.2] at hwritten
      obtain ⟨applied, world', hforward, hworld'⟩ := ih hsites.2 hcooperative.2 hwritten hnext
      exact ⟨write :: applied, world', .applied hwrite hforward, hworld'⟩
    | AlreadyApplied =>
      obtain ⟨hheld, hsame⟩ := CheckedWrite.apply_already hwrite
      rw [Store.write_of_read hheld, ← hsame] at hwritten
      obtain ⟨applied, world', hforward, hworld'⟩ := ih hsites.2 hcooperative.2 hwritten hnext
      exact ⟨applied, world', .already hwrite hforward, hworld'⟩

/-- A planned plan succeeds after any other plans, leaves memory as if its
writes had been made, and claims `AlreadyApplied` only when it changed nothing. -/
theorem PatchPlan.Follows.apply_succeeds {plan : PatchPlan}
    (hfollows : plan.Follows image origin (patch.sites build))
    (hcooperative : ∀ write ∈ plan.writes, write.Cooperative os usable)
    {world : World σ} (hstamped : StampedFrom origin world.memory) (husable : usable world.os) :
    ∃ state world', plan.apply os world = (.ok state, world') ∧ usable world'.os ∧
      StampedFrom origin world'.memory ∧ world'.memory = write_all plan.writes world.memory ∧
      (state = .AlreadyApplied → world'.memory = world.memory) := by
  obtain ⟨applied, world', hforward, husable', hstamped'⟩ :=
    planned_writes_succeed hfollows (fun _ => id) hcooperative hstamped husable
  refine ⟨_, world', apply_loop_of_forward hforward 0 0 [], husable', hstamped', hforward.memory_eq,
    fun halready => ?_⟩
  cases applied with
  | nil => exact hforward.memory_of_none rfl
  | cons write others => simp at halready

end Planned

end systemdetection.patches
