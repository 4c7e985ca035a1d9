import SystemDetection.Patches.ApplyRun
import SystemDetection.Patches.Run
import SystemDetection.Store.Guards

open effect store systemdetection.patches.memory systemdetection.patches.sigscan

namespace systemdetection.patches

variable {σ : Type}

theorem patch_templates_rewrite : ∀ template ∈ patch_templates, template.Rewrites := by decide +kernel

/-- No patch makes a place of a stale snapshot look guarded when it was not, or
unguarded when it was. -/
theorem patch_templates_cannot_forge :
    ∀ self ∈ patch_templates, ∀ other ∈ patch_templates, self.cannot_forge other = true := by
  decide +kernel

section Planned

variable {image : ModuleImage} {memory : Store UInt8} {build : DuniaBuild}
  {entries : List (Patch × PatchPlan)} (hplanned : Planned image memory build entries)
include hplanned

/-- After the writes of any planned patches the guards at the places of the
snapshot still tell what they told before. -/
theorem Planned.keeps_guards {patch : Patch} {site : Site} (hsite : site ∈ patch.sites build) :
    site.template.KeepsGuards memory (stamp_all (all_placements build entries) memory) :=
  stamp_all_keeps_guards patch_templates_independent hplanned.members hplanned.stands
    patch_templates_cannot_forge (Patch.template_mem hsite)

end Planned

/-- The targets of the writes do not meet. -/
def CheckedWrite.Apart (write write' : CheckedWrite) : Prop :=
  write.address + write.expected.length ≤ write'.address ∨
    write'.address + write'.expected.length ≤ write.address

def PatchPlan.Apart (plan plan' : PatchPlan) : Prop :=
  ∀ write ∈ plan.writes, ∀ write' ∈ plan'.writes, write.Apart write'

section Apart

variable {image : ModuleImage} {memory : Store UInt8} {build : DuniaBuild} {patch patch' : Patch}
  {site other : Site} {write write' : CheckedWrite} (hsite : site ∈ patch.sites build)
  (hother : other ∈ patch'.sites build) (haccepts : site.Accepts image memory write)
  (haccepts' : other.Accepts image memory write')

/-- The place of an accepted write covers the bytes that the write replaces. -/
theorem Site.Accepts.covers_iff {position : Nat} (haccepts : site.Accepts image memory write) :
    (site.placement write.address).Covers position ↔
      write.address ≤ position ∧ position < write.address + write.expected.length := by
  have htarget := haccepts.1.placed.1
  have hbefore : (site.placement write.address).template.before = write.expected := by
    rw [haccepts.2.1]
    exact site.template_before
  rw [Placement.Covers, htarget, hbefore]

include hsite hother haccepts haccepts'

/-- Two different planned writes have their targets apart. -/
theorem planned_writes_apart (hdiffers : write ≠ write') : write.Apart write' := by
  by_contra hmeet
  rw [CheckedWrite.Apart] at hmeet
  have hpositive : ∀ {site : Site} {write : CheckedWrite}, site.Accepts image memory write →
      write.expected.length ≠ 0 := fun {site write} haccepts hzero => by
    rw [haccepts.2.1, site.guard.lengths] at hzero
    exact site.guard.nonempty (List.length_eq_zero_iff.mp hzero)
  have hfirst := hpositive haccepts
  have hsecond := hpositive haccepts'
  have hcovers : (site.placement write.address).Covers (max write.address write'.address) :=
    haccepts.covers_iff.mpr (by omega)
  have hcovers' : (other.placement write'.address).Covers (max write.address write'.address) :=
    haccepts'.covers_iff.mpr (by omega)
  have hmember := Patch.template_mem hsite
  obtain ⟨htarget, hbefore, hafter⟩ := Placement.apart_or_same (patch_templates_rewrite _ hmember)
    (harmless_of_independent patch_templates_independent hmember (Patch.template_mem hother))
    haccepts.1.placed.2 haccepts'.1.placed.2 hcovers hcovers'
  apply hdiffers
  obtain ⟨target, hresolves, rfl⟩ := Site.accepts_iff.mp haccepts
  obtain ⟨target', hresolves', rfl⟩ := Site.accepts_iff.mp haccepts'
  have hsame : target = target' := by
    rw [← hresolves.placed.1, ← hresolves'.placed.1]
    exact htarget
  change site.template.before = other.template.before at hbefore
  change site.template.after = other.template.after at hafter
  rw [Site.template_before, Site.template_before] at hbefore
  rw [Site.template_after, Site.template_after] at hafter
  rw [Guard.write, Guard.write, hsame, hbefore, hafter]

end Apart

/-- An unknown build is planned alike whatever its file size. -/
theorem Patch.sites_unknown (file_size : Option Nat) (patch : Patch) :
    patch.sites (.Unknown file_size) = patch.sites (.Unknown none) := by
  cases patch <;> rfl

/-- Only on Retail do two patches look for the same bytes. -/
theorem Patch.shared_guard {build : DuniaBuild} {patch patch' : Patch} {site other : Site}
    (hsite : site ∈ patch.sites build) (hother : other ∈ patch'.sites build)
    (hexpected : site.guard.expected = other.guard.expected) :
    patch = patch' ∨ build = .Retail ∧
      (patch = .predecessor_tapes ∧ patch' = .machetes ∨ patch = .machetes ∧ patch' = .predecessor_tapes) := by
  have hlisted : ∀ patch : Patch, patch ∈ Patch.all := fun patch => by cases patch <;> decide
  have hcheck : ∀ build ∈ [DuniaBuild.Steam, .Retail, .Ubisoft, .Unknown none],
      ∀ patch ∈ Patch.all, ∀ patch' ∈ Patch.all, ∀ site ∈ Patch.sites build patch,
      ∀ other ∈ Patch.sites build patch', site.guard.expected = other.guard.expected →
      patch = patch' ∨ build = .Retail ∧ (patch = .predecessor_tapes ∧ patch' = .machetes ∨
        patch = .machetes ∧ patch' = .predecessor_tapes) := by decide +kernel
  have hbuild : ∀ build ∈ [DuniaBuild.Steam, .Retail, .Ubisoft, .Unknown none],
      site ∈ patch.sites build → other ∈ patch'.sites build → _ := fun build hbuild hsite hother =>
    hcheck build hbuild patch (hlisted patch) patch' (hlisted patch') site hsite other hother hexpected
  cases build with
  | Steam => exact hbuild .Steam (by simp) hsite hother
  | Retail => exact hbuild .Retail (by simp) hsite hother
  | Ubisoft => exact hbuild .Ubisoft (by simp) hsite hother
  | Unknown file_size =>
    rw [Patch.sites_unknown] at hsite hother
    obtain hsame | ⟨hretail, _⟩ := hbuild (.Unknown none) (by simp) hsite hother
    · exact .inl hsame
    · cases hretail

section State

variable {os : Os σ}

/-- A successful run applied no write exactly when all replacements were there before it. -/
theorem Forward.applied_nil_iff_held {world reached : World σ} {writes applied : List CheckedWrite}
    (hforward : Forward os world writes applied reached) :
    applied = [] ↔ ∀ write ∈ writes,
      world.memory.read write.address write.replacement.length = write.replacement := by
  induction hforward with
  | nil world => simp
  | @applied world next reached write writes applied hwrite _ _ =>
    obtain ⟨_, hlength, hheld, hdiffers, _⟩ := CheckedWrite.apply_applied hwrite
    refine iff_of_false (List.cons_ne_nil _ _) fun hall => hdiffers ?_
    rw [← hheld, ← hlength]
    exact hall write (by simp)
  | @already world next reached write writes applied hwrite _ ih =>
    obtain ⟨hheld, hsame⟩ := CheckedWrite.apply_already hwrite
    rw [ih, hsame, List.forall_mem_cons]
    exact ⟨fun hrest => ⟨hheld, hrest⟩, fun hall => hall.2⟩

/-- A plan is found applied exactly when all its replacements were there. -/
theorem PatchPlan.apply_already_iff {plan : PatchPlan} {world world' : World σ} {state : WriteState}
    (happly : plan.apply os world = (.ok state, world')) :
    state = .AlreadyApplied ↔ ∀ write ∈ plan.writes,
      world.memory.read write.address write.replacement.length = write.replacement := by
  obtain ⟨applied, hforward, hstate⟩ := PatchPlan.apply_ok happly
  rw [← hforward.applied_nil_iff_held]
  cases state with
  | Applied => simpa using hstate
  | AlreadyApplied => simpa using hstate

end State

/-- Writes beside a range leave what it holds. -/
theorem read_write_all_apart {writes : List CheckedWrite} {memory : Store UInt8} {address length : Nat}
    (hapart : ∀ write ∈ writes,
      write.address + write.replacement.length ≤ address ∨ address + length ≤ write.address) :
    (write_all writes memory).read address length = memory.read address length := by
  apply Store.read_congr
  intro position hlo hhi
  by_contra hchanged
  obtain ⟨write, hmem, hstart, hstop⟩ := write_all_changed hchanged
  have := hapart write hmem
  omega

end systemdetection.patches
