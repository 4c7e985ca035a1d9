import SystemDetection.Patches.ApplyRun

open effect store systemdetection.patches.memory systemdetection.patches.sigscan

namespace systemdetection.patches

/-- Two images with the same sections over memories that hold the same bytes in
the sections of both scopes. Nothing is said of where the images are. -/
structure Mirrors (left right : ModuleImage) (memory memory' : Store UInt8) : Prop where
  sections : left.SameSections right
  bytes : ∀ scope rva, left.InScope scope (left.base + rva) 1 →
    memory (left.base + rva) = memory' (right.base + rva)

/-- Snapshots of the same sections mirror each other where those hold the same bytes. -/
theorem mirrors_snapshots {base base' size size' : Nat} {sections : List PeSection}
    {memory memory' : Store UInt8}
    (hsame : ∀ pe_section ∈ sections.filter PeSection.is_loaded,
      memory.read (base + pe_section.rva) pe_section.size =
        memory'.read (base' + pe_section.rva) pe_section.size) :
    Mirrors (.snapshot base size sections memory) (.snapshot base' size' sections memory') memory memory' where
  sections := by simp [ModuleImage.SameSections, ModuleImage.snapshot]
  bytes scope rva hscope := by
    obtain ⟨loaded, hmem, _, hlo, hhi⟩ := hscope
    obtain ⟨pe_section, hsection, rfl⟩ := List.mem_map.mp hmem
    change base + pe_section.rva ≤ base + rva at hlo
    change base + rva + 1 ≤ base + pe_section.rva + pe_section.size at hhi
    have hcell := Store.cell_of_read_eq (hsame pe_section hsection)
      (show rva - pe_section.rva < pe_section.size by omega)
    have hposition : ∀ base, base + pe_section.rva + (rva - pe_section.rva) = base + rva := by omega
    rwa [hposition, hposition] at hcell

/-- An image mirrors a live one where memory holds the section bytes of that one. -/
theorem mirrors_of_live {left right : ModuleImage} {memory memory' : Store UInt8}
    (hsections : left.SameSections right) (hlive : left.Live memory)
    (hbytes : ∀ loaded ∈ left.sections,
      memory'.read (right.base + loaded.metadata.rva) loaded.metadata.size = loaded.bytes) :
    Mirrors left right memory memory' where
  sections := hsections
  bytes scope rva hscope := by
    obtain ⟨loaded, hmem, _, hlo, hhi⟩ := hscope
    have hcell := Store.cell_of_read_eq ((hlive loaded hmem).trans (hbytes loaded hmem).symm)
      (show rva - loaded.metadata.rva < loaded.metadata.size by omega)
    have hposition : ∀ base, base + loaded.metadata.rva + (rva - loaded.metadata.rva) = base + rva := by omega
    rwa [hposition, hposition] at hcell

theorem Mirrors.symm {left right : ModuleImage} {memory memory' : Store UInt8}
    (hmirrors : Mirrors left right memory memory') : Mirrors right left memory' memory where
  sections := Eq.symm hmirrors.sections
  bytes scope rva hscope := (hmirrors.bytes scope rva (hmirrors.sections.in_scope_iff.mpr hscope)).symm

section Mirrors

variable {left right : ModuleImage} {memory memory' : Store UInt8}
  (hmirrors : Mirrors left right memory memory')
include hmirrors

/-- Mirrored images hold the same bytes at the same RVAs. -/
theorem Mirrors.read {scope : ScanScope} {rva length : Nat}
    (hscope : left.InScope scope (left.base + rva) length) :
    memory.read (left.base + rva) length = memory'.read (right.base + rva) length := by
  rw [Store.read_eq_iff]
  refine ⟨Store.length_read _ _ _, fun offset hoffset => ?_⟩
  rw [Store.length_read] at hoffset
  rw [Store.getElem_read, Nat.add_assoc, Nat.add_assoc]
  refine hmirrors.bytes scope _ ?_
  obtain ⟨loaded, hmem, hin, hlo, hhi⟩ := hscope
  exact ⟨loaded, hmem, hin, by omega, by omega⟩

/-- Writing the same bytes at the same RVA keeps the mirror. -/
theorem Mirrors.write (rva : Nat) (values : List UInt8) :
    Mirrors left right (memory.write (left.base + rva) values) (memory'.write (right.base + rva) values) where
  sections := hmirrors.sections
  bytes scope position hscope := by
    have hsame := hmirrors.bytes scope position hscope
    by_cases hin : rva ≤ position ∧ position - rva < values.length
    · rw [Store.write_inside _ (by omega) (by omega), Store.write_inside _ (by omega) (by omega)]
      simp only [Nat.add_sub_add_left]
    · rw [Store.write_outside _ (by omega), Store.write_outside _ (by omega), hsame]

/-- So a template stands in both or in neither. -/
theorem Mirrors.stands {site : Site} {rva : Nat} (hplace : site.InPlace left (left.base + rva)) :
    site.template.Stands memory (left.base + rva) ↔ site.template.Stands memory' (right.base + rva) := by
  have hrecipe : ∀ recipe : Recipe, left.InScope recipe.scope (left.base + rva) recipe.pattern.len →
      left.InScope recipe.scope (left.base + rva + recipe.target_offset) recipe.expected.length →
      (recipe.template.Stands memory (left.base + rva) ↔
        recipe.template.Stands memory' (right.base + rva)) := by
    intro recipe hscope htarget
    rw [Nat.add_assoc] at htarget
    rw [Recipe.stands_iff, Recipe.stands_iff, ← Pattern.matches_read_iff, ← Pattern.matches_read_iff,
      hmirrors.read hscope, Nat.add_assoc, Nat.add_assoc, hmirrors.read htarget]
  cases site with
  | unique recipe => exact hrecipe recipe hplace.1 hplace.2
  | known recipe target_rva => exact hrecipe recipe hplace.1 hplace.2
  | fixed guard scope target_rva =>
    change guard.template.Stands _ _ ↔ guard.template.Stands _ _
    rw [Guard.stands_iff, Guard.stands_iff, hmirrors.read hplace]

end Mirrors

/-- The same write at the same RVA of the other image. -/
structure CheckedWrite.Mirrored (left right : ModuleImage) (write write' : CheckedWrite) : Prop where
  rva : ∃ rva, write.address = left.base + rva ∧ write'.address = right.base + rva
  expected : write'.expected = write.expected
  replacement : write'.replacement = write.replacement
  in_scope : ∃ scope, left.InScope scope write.address write.expected.length

section Plans

variable {σ σ' : Type} {os : Os σ} {os' : Os σ'} {usable : σ' → Prop} {left right : ModuleImage}

/-- The plan for one image, moved to the other, is the plan for the other. -/
theorem PatchPlan.Follows.mirrored {memory memory' : Store UInt8} {sites : List Site} {plan : PatchPlan}
    (hmirrors : Mirrors left right memory memory') (hfollows : plan.Follows left memory sites) :
    ∃ plan' : PatchPlan, plan'.Follows right memory' sites ∧
      List.Forall₂ (CheckedWrite.Mirrored left right) plan.writes plan'.writes := by
  have hwrites : ∀ sites writes, List.Forall₂ (Site.Accepts left memory) sites writes →
      ∃ writes', List.Forall₂ (Site.Accepts right memory') sites writes' ∧
        List.Forall₂ (CheckedWrite.Mirrored left right) writes writes' := by
    intro sites writes hforall
    induction hforall with
    | nil => exact ⟨[], .nil, .nil⟩
    | @cons site write sites writes haccepts _ ih =>
      obtain ⟨writes', haccepts', hmirrored⟩ := ih
      obtain ⟨hresolves, hexpected, hreplacement⟩ := haccepts
      obtain ⟨rva, hrva⟩ := Nat.exists_eq_add_of_le hresolves.in_scope.base_le
      have hscope := hresolves.in_scope
      rw [← hexpected] at hscope
      rw [hrva, Site.resolves_transfer hmirrors.sections fun _ => hmirrors.stands] at hresolves
      exact ⟨⟨right.base + rva, write.expected, write.replacement⟩ :: writes',
        .cons ⟨hresolves, hexpected, hreplacement⟩ haccepts',
        .cons ⟨⟨rva, hrva, rfl⟩, rfl, rfl, site.scope, hscope⟩ hmirrored⟩
  obtain ⟨writes', haccepts', hmirrored⟩ := hwrites sites plan.writes hfollows
  have hne : writes' ≠ [] := by
    intro hempty
    rw [hempty, List.forall₂_nil_right_iff] at hmirrored
    exact plan.writes_ne_nil hmirrored
  exact ⟨⟨writes', hne⟩, haccepts', hmirrored⟩

/-- A write that succeeded on one image succeeds in the same way on the other,
where only its byte guard could refuse it. -/
theorem CheckedWrite.Mirrored.apply_eq {write write' : CheckedWrite}
    (hmirrored : CheckedWrite.Mirrored left right write write')
    (hcooperative : write'.Cooperative os' usable) {world next : World σ} {world' : World σ'}
    (hmirrors : Mirrors left right world.memory world'.memory) (husable : usable world'.os)
    {state : WriteState} (hwrite : write.apply os world = (.ok state, next)) :
    ∃ next', write'.apply os' world' = (.ok state, next') ∧ usable next'.os ∧
      Mirrors left right next.memory next'.memory := by
  obtain ⟨next', hrun, hnext', hmemory⟩ := hcooperative.apply_eq world' husable
  obtain ⟨⟨rva, hrva, hrva'⟩, hexpected, hreplacement, scope, hscope⟩ := hmirrored
  rw [hrva] at hscope
  have hsame := hmirrors.read hscope
  rw [hrva', hexpected, hreplacement, ← hsame, ← hrva] at hrun hmemory
  have hlengths := hcooperative.lengths
  rw [hexpected, hreplacement] at hlengths
  cases state with
  | Applied =>
    obtain ⟨_, _, hheld, hdiffers, hchanged⟩ := CheckedWrite.apply_applied hwrite
    have hclassify : ∀ address, classify_bytes address write.expected write.replacement
        (world.memory.read write.address write.expected.length) = .ok .Applied := by
      intro address
      rw [hheld, classify_bytes, if_neg hdiffers, if_pos rfl]
    rw [hclassify] at hrun hmemory
    refine ⟨next', hrun, hnext', ?_⟩
    rw [hchanged, hmemory, if_pos rfl, hrva]
    exact hmirrors.write rva write.replacement
  | AlreadyApplied =>
    obtain ⟨hheld, hkept⟩ := CheckedWrite.apply_already hwrite
    rw [← hlengths] at hheld
    have hclassify : ∀ address, classify_bytes address write.expected write.replacement
        (world.memory.read write.address write.expected.length) = .ok .AlreadyApplied := by
      intro address
      rw [hheld, classify_bytes, if_pos rfl]
    rw [hclassify] at hrun hmemory
    refine ⟨next', hrun, hnext', ?_⟩
    rw [hkept, hmemory]
    exact hmirrors

/-- Writes that succeed on one image succeed in the same way on its mirror. -/
theorem Forward.mirrored {writes applied writes' : List CheckedWrite} {world reached : World σ}
    (hforward : Forward os world writes applied reached)
    (hwrites : List.Forall₂ (CheckedWrite.Mirrored left right) writes writes')
    (hcooperative : ∀ write' ∈ writes', write'.Cooperative os' usable) {world' : World σ'}
    (hmirrors : Mirrors left right world.memory world'.memory) (husable : usable world'.os) :
    ∃ applied' reached', Forward os' world' writes' applied' reached' ∧
      applied'.length = applied.length ∧ usable reached'.os ∧
      Mirrors left right reached.memory reached'.memory := by
  induction hforward generalizing writes' world' with
  | nil world =>
    cases hwrites
    exact ⟨[], world', .nil world', rfl, husable, hmirrors⟩
  | @applied world next reached write writes applied hwrite _ ih =>
    cases hwrites with
    | @cons _ write' _ writes' hfirst hrest =>
      rw [List.forall_mem_cons] at hcooperative
      obtain ⟨next', hwrite', hnext', hmirrors'⟩ :=
        hfirst.apply_eq hcooperative.1 hmirrors husable hwrite
      obtain ⟨applied', reached', hforward', hcount, hreached'⟩ :=
        ih hrest hcooperative.2 hmirrors' hnext'
      exact ⟨write' :: applied', reached', .applied hwrite' hforward', by simp [hcount], hreached'⟩
  | @already world next reached write writes applied hwrite _ ih =>
    cases hwrites with
    | @cons _ write' _ writes' hfirst hrest =>
      rw [List.forall_mem_cons] at hcooperative
      obtain ⟨next', hwrite', hnext', hmirrors'⟩ :=
        hfirst.apply_eq hcooperative.1 hmirrors husable hwrite
      obtain ⟨applied', reached', hforward', hcount, hreached'⟩ :=
        ih hrest hcooperative.2 hmirrors' hnext'
      exact ⟨applied', reached', .already hwrite' hforward', hcount, hreached'⟩

/-- A plan that succeeded on one image has the same success on the other. -/
theorem PatchPlan.apply_mirrored {plan plan' : PatchPlan} {world reached : World σ} {state : WriteState}
    (happly : plan.apply os world = (.ok state, reached))
    (hwrites : List.Forall₂ (CheckedWrite.Mirrored left right) plan.writes plan'.writes)
    (hcooperative : ∀ write' ∈ plan'.writes, write'.Cooperative os' usable) {world' : World σ'}
    (hmirrors : Mirrors left right world.memory world'.memory) (husable : usable world'.os) :
    ∃ reached', plan'.apply os' world' = (.ok state, reached') ∧ usable reached'.os ∧
      Mirrors left right reached.memory reached'.memory := by
  obtain ⟨applied, hforward, _⟩ := PatchPlan.apply_ok happly
  obtain ⟨applied', reached', hforward', hcount, husable', hmirrors'⟩ :=
    hforward.mirrored hwrites hcooperative hmirrors husable
  have hrun := apply_loop_of_forward hforward 0 0 []
  have hrun' := apply_loop_of_forward hforward' 0 0 []
  rw [hcount, ← hwrites.length_eq] at hrun'
  have hsame := (happly.symm.trans hrun).symm
  rw [Prod.mk.injEq] at hsame
  rw [hsame.1] at hrun'
  exact ⟨reached', hrun', husable', hmirrors'⟩

end Plans

end systemdetection.patches
