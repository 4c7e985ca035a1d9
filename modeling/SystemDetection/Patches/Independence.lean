import SystemDetection.Patches.Rollback
import SystemDetection.Patches.Transfer

open effect store systemdetection.patches.memory systemdetection.patches.sigscan

namespace systemdetection.patches

variable {σ : Type}

/-- The templates of all sites, over all patches and builds. -/
def patch_templates : List (Template UInt8) :=
  [jackal_tapes_recipe.template, devmode_always_on_recipe.template, predecessor_tapes_recipe.template,
    machetes_recipe.template, mesh_highlight_recipe.template, arch_blink_recipe.template,
    save_disk_recipe.template, retail_predecessor_guard.template]

/-- No patch can make, break or reword a place of its own or of another patch:
every overlap of two of their footprints is contradictory or is one replacement. -/
theorem patch_templates_independent : independent patch_templates = true := by decide +kernel

/-- The templates of all sites are in the list of the patch templates. -/
theorem Patch.template_mem {build : DuniaBuild} {patch : Patch} {site : Site}
    (hsite : site ∈ patch.sites build) : site.template ∈ patch_templates := by
  have htemplates : patch_templates = patch_recipes.map Recipe.template ++ [retail_predecessor_guard.template] :=
    rfl
  rw [htemplates]
  obtain ⟨recipe, hmem, rfl | ⟨_, rfl⟩⟩ | rfl := Patch.site_cases hsite
  · exact List.mem_append_left _ (List.mem_map_of_mem hmem)
  · exact List.mem_append_left _ (List.mem_map_of_mem hmem)
  · exact List.mem_append_right _ (List.mem_singleton_self _)

/-- The replacements of a list of writes, made one after another. -/
def write_all (writes : List CheckedWrite) (memory : Store UInt8) : Store UInt8 :=
  writes.foldl (fun memory write => memory.write write.address write.replacement) memory

/-- A byte changes only inside one of the writes. -/
theorem write_all_changed {writes : List CheckedWrite} {memory : Store UInt8} {position : Nat}
    (hchanged : write_all writes memory position ≠ memory position) :
    ∃ write ∈ writes, write.address ≤ position ∧ position < write.address + write.replacement.length := by
  induction writes generalizing memory with
  | nil => exact absurd rfl hchanged
  | cons write rest ih =>
    by_cases hcovers : write.address ≤ position ∧ position < write.address + write.replacement.length
    · exact ⟨write, by simp, hcovers⟩
    · have houtside : memory.write write.address write.replacement position = memory position :=
        Store.write_outside memory (by omega)
      rw [write_all, List.foldl_cons, ← houtside] at hchanged
      obtain ⟨other, hother, hin⟩ := ih hchanged
      exact ⟨other, by simp [hother], hin⟩

theorem write_all_append (first second : List CheckedWrite) (memory : Store UInt8) :
    write_all (first ++ second) memory = write_all second (write_all first memory) :=
  List.foldl_append

/-- Whether a successful write was applied or already there, memory is as if it
had been made. -/
theorem Forward.memory_eq {os : Os σ} {world reached : World σ} {writes applied : List CheckedWrite}
    (hforward : Forward os world writes applied reached) :
    reached.memory = write_all writes world.memory := by
  induction hforward with
  | nil world => rfl
  | applied hwrite _ ih =>
    rw [ih, (CheckedWrite.apply_applied hwrite).2.2.2.2]
    rfl
  | already hwrite _ ih =>
    obtain ⟨hheld, hsame⟩ := CheckedWrite.apply_already hwrite
    rw [ih, hsame, write_all, write_all, List.foldl_cons, Store.write_of_read hheld]

/-- A plan that succeeds has gone through all its writes. -/
theorem PatchPlan.apply_ok {os : Os σ} {plan : PatchPlan} {world world' : World σ} {state : WriteState}
    (happly : plan.apply os world = (.ok state, world')) :
    ∃ applied, Forward os world plan.writes applied world' ∧
      (state = .Applied ↔ applied ≠ []) := by
  rcases apply_loop_cases 0 0 [] plan.writes happly with ⟨applied, hforward, hstate⟩ |
    ⟨_, _, _, _, _, _, _, _, _, _, _, _, hresult⟩
  · refine ⟨applied, hforward, ?_⟩
    have hpositive : plan.writes.length ≠ 0 := by simpa using plan.writes_ne_nil
    rw [Except.ok.injEq] at hstate
    subst hstate
    cases applied with
    | nil => simp [plan.writes_ne_nil]
    | cons first rest => simp
  · cases hresult

/-- The places of the sites of a plan, at the targets of its writes. -/
def PatchPlan.placements (sites : List Site) (plan : PatchPlan) : List (Placement UInt8) :=
  List.zipWith (fun site write => site.placement write.address) sites plan.writes

section Follows

variable {image : ModuleImage} {memory : Store UInt8} {sites : List Site} {plan : PatchPlan}

/-- The writes of a plan lie at places where the templates of its sites stand. -/
theorem PatchPlan.Follows.placed (hfollows : plan.Follows image memory sites) :
    ∀ placement ∈ plan.placements sites, placement.Stands memory ∧
      ∃ site ∈ sites, placement.template = site.template := by
  have hplaced : ∀ sites writes, List.Forall₂ (Site.Accepts image memory) sites writes →
      ∀ placement ∈ List.zipWith (fun site (write : CheckedWrite) => site.placement write.address) sites
        writes, placement.Stands memory ∧ ∃ site ∈ sites, placement.template = site.template := by
    intro sites writes hforall
    induction hforall with
    | nil => simp
    | @cons site write sites writes haccepts _ ih =>
      rw [List.zipWith_cons_cons, List.forall_mem_cons]
      refine ⟨⟨haccepts.1.placed.2, site, by simp, rfl⟩, fun placement hmem => ?_⟩
      obtain ⟨hstands, other, hother, htemplate⟩ := ih placement hmem
      exact ⟨hstands, other, by simp [hother], htemplate⟩
  exact hplaced sites plan.writes hfollows

/-- Making the writes of a plan stamps its places. -/
theorem PatchPlan.Follows.write_all_eq (hfollows : plan.Follows image memory sites)
    (start : Store UInt8) : write_all plan.writes start = stamp_all (plan.placements sites) start := by
  have hstamp : ∀ sites writes, List.Forall₂ (Site.Accepts image memory) sites writes →
      ∀ start, write_all writes start = stamp_all (List.zipWith
        (fun site (write : CheckedWrite) => site.placement write.address) sites writes) start := by
    intro sites writes hforall
    induction hforall with
    | nil => exact fun _ => rfl
    | @cons site write sites writes haccepts _ ih =>
      intro start
      have htarget : (site.placement write.address).start + (site.placement write.address).template.offset =
          write.address := haccepts.1.placed.1
      rw [List.zipWith_cons_cons, stamp_all_cons, ← ih, Template.stamp, htarget]
      have hafter : (site.placement write.address).template.after = write.replacement := by
        rw [haccepts.2.2]
        exact site.template_after
      rw [hafter]
      rfl
  exact hstamp sites plan.writes hfollows start

end Follows

/-- Plans applied successfully one after another. -/
inductive Succeeds (os : Os σ) : World σ → List PatchPlan → World σ → Prop where
  | nil (world : World σ) : Succeeds os world [] world
  | cons {world next reached : World σ} {plan : PatchPlan} {plans : List PatchPlan} {state : WriteState}
      (hplan : plan.apply os world = (.ok state, next)) (hrest : Succeeds os next plans reached) :
      Succeeds os world (plan :: plans) reached

/-- Plans that succeed one after the other write all their bytes. -/
theorem Succeeds.memory_eq {os : Os σ} {world reached : World σ} {plans : List PatchPlan}
    (hsucceeds : Succeeds os world plans reached) :
    reached.memory = write_all (plans.flatMap PatchPlan.writes) world.memory := by
  induction hsucceeds with
  | nil world => rfl
  | cons hplan _ ih =>
    obtain ⟨_, hforward, _⟩ := PatchPlan.apply_ok hplan
    rw [ih, hforward.memory_eq, List.flatMap_cons, write_all, write_all, write_all, List.foldl_append]

end systemdetection.patches
