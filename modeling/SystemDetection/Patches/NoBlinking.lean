import SystemDetection.Memory.Granting
import SystemDetection.Patches.PlanMeaning

open effect store systemdetection.patches.memory systemdetection.patches.sigscan

namespace systemdetection.patches

variable {σ : Type}

section Sites

variable {image : ModuleImage} {memory : Store UInt8} {recipe : Recipe} {target_rva target : Nat}

/-- A known RVA is the target of a candidate when the pattern spans the target:
the section that holds the match then holds the target too. -/
theorem known_candidate (hspans : recipe.target_offset + recipe.expected.length ≤ recipe.pattern.len)
    (hknown : (Site.known recipe target_rva).Resolves image memory target) :
    ∃ start ∈ recipe.candidates image memory, target = start + recipe.target_offset := by
  obtain ⟨_, start, rfl, _, ⟨loaded, hmem, hscope, hlo, hhi⟩, _, hstands⟩ := hknown
  have hholds : loaded.metadata.Holds image.base (start + recipe.target_offset) recipe.expected.length :=
    ⟨by omega, by omega⟩
  exact ⟨start, Recipe.mem_candidates_iff.mpr ⟨⟨loaded, hmem, hscope, ⟨hlo, hhi⟩, hholds⟩, hstands⟩, rfl⟩

/-- Both ways of selecting a target agree wherever both succeed. -/
theorem known_eq_unique (hspans : recipe.target_offset + recipe.expected.length ≤ recipe.pattern.len)
    (hknown : (Site.known recipe target_rva).Resolves image memory target) {other : Nat}
    (hunique : (Site.unique recipe).Resolves image memory other) : target = other := by
  obtain ⟨start, hcandidate, rfl⟩ := known_candidate hspans hknown
  obtain ⟨only, hone, rfl⟩ := hunique
  rw [hone] at hcandidate
  rw [Set.mem_singleton_iff.mp hcandidate]

/-- A unique target that lies at a known RVA passes the checks made there. -/
theorem known_of_unique (hvalid : image.Valid)
    (hunique : (Site.unique recipe).Resolves image memory target)
    (htarget : target = image.base + target_rva) :
    (Site.known recipe target_rva).Resolves image memory target := by
  obtain ⟨start, hone, rfl⟩ := hunique
  obtain ⟨⟨loaded, hmem, hscope, hholds, hholds'⟩, hstands⟩ :=
    Recipe.mem_candidates_iff.mp (hone.ge rfl)
  have hstart : image.InScope recipe.scope start recipe.pattern.len := ⟨loaded, hmem, hscope, hholds⟩
  exact ⟨htarget, start, rfl, (hstart.in_image hvalid.toLaid).1, hstart, ⟨loaded, hmem, hscope, hholds'⟩, hstands⟩

/-- The known site and the signature of a recipe accept the same write. -/
theorem known_accepts_eq (hspans : recipe.target_offset + recipe.expected.length ≤ recipe.pattern.len)
    {write write' : CheckedWrite} (hknown : (Site.known recipe target_rva).Accepts image memory write)
    (hunique : (Site.unique recipe).Accepts image memory write') : write = write' := by
  obtain ⟨target, hresolves, rfl⟩ := Site.accepts_iff.mp hknown
  obtain ⟨target', hresolves', rfl⟩ := Site.accepts_iff.mp hunique
  rw [known_eq_unique hspans hresolves hresolves']
  rfl

theorem known_accepts_of_unique (hvalid : image.Valid) {write : CheckedWrite}
    (hunique : (Site.unique recipe).Accepts image memory write)
    (htarget : write.address = image.base + target_rva) :
    (Site.known recipe target_rva).Accepts image memory write :=
  ⟨known_of_unique hvalid hunique.1 htarget, hunique.2⟩

end Sites

/-- On a recognised build the known-RVA path and the signature fallback of
`plan_no_blinking_items` agree: when both plan, they plan the same writes, and a
fallback plan at the three known RVAs is also the known-RVA plan. -/
theorem plan_no_blinking_items_agrees (os : Os σ) (usable : σ → Prop) (image : ModuleImage)
    (hvalid : image.Valid) (hreadable : image.Readable os usable) (build : DuniaBuild)
    (mesh_rva arch_rva save_rva : Nat) (hbuild : no_blink_rvas build = some (mesh_rva, arch_rva, save_rva)) (file_size : Option Nat)
    (world : World σ) (hlive : image.Live world.memory) (husable : usable world.os) :
    let known := (plan_no_blinking_items os image build world).1
    let fallback := (plan_no_blinking_items os image (.Unknown file_size) world).1
    (∀ plan plan', known = .ok plan → fallback = .ok plan' → plan.writes = plan'.writes) ∧
    (∀ plan', fallback = .ok plan' →
      plan'.writes.map CheckedWrite.address =
        [image.base + mesh_rva, image.base + arch_rva, image.base + save_rva] →
      ∃ plan, known = .ok plan) := by
  have hknown : ∀ plan, (plan_no_blinking_items os image build world).1 = .ok plan ↔
      plan.Follows image world.memory [.known mesh_highlight_recipe mesh_rva,
        .known arch_blink_recipe arch_rva, .known save_disk_recipe save_rva] := fun plan => by
    have hyields := Patch.plan_yields hvalid hreadable hlive build .no_blinking_items
    simp only [Patch.sites, hbuild] at hyields
    exact hyields.run_ok_iff rfl husable
  have hfallback : ∀ plan, (plan_no_blinking_items os image (.Unknown file_size) world).1 = .ok plan ↔
      plan.Follows image world.memory [.unique mesh_highlight_recipe, .unique arch_blink_recipe,
        .unique save_disk_recipe] := fun plan =>
    (Patch.plan_yields hvalid hreadable hlive (.Unknown file_size) .no_blinking_items).run_ok_iff rfl husable
  dsimp only
  constructor
  · intro plan plan' hplan hplan'
    obtain ⟨_, _, hmesh, ⟨_, _, harch, ⟨_, _, hsave, rfl, rfl⟩, rfl⟩, hwrites⟩ := by
      simpa only [PatchPlan.Follows, List.forall₂_cons_left_iff, List.forall₂_nil_left_iff]
        using (hknown plan).mp hplan
    obtain ⟨_, _, hmesh', ⟨_, _, harch', ⟨_, _, hsave', rfl, rfl⟩, rfl⟩, hwrites'⟩ := by
      simpa only [PatchPlan.Follows, List.forall₂_cons_left_iff, List.forall₂_nil_left_iff]
        using (hfallback plan').mp hplan'
    rw [hwrites, hwrites', known_accepts_eq (by decide) hmesh hmesh', known_accepts_eq (by decide) harch harch',
      known_accepts_eq (by decide) hsave hsave']
  · intro plan' hplan' htargets
    obtain ⟨_, _, hmesh, ⟨_, _, harch, ⟨_, _, hsave, rfl, rfl⟩, rfl⟩, hwrites⟩ := by
      simpa only [PatchPlan.Follows, List.forall₂_cons_left_iff, List.forall₂_nil_left_iff]
        using (hfallback plan').mp hplan'
    rw [hwrites] at htargets
    simp only [List.map_cons, List.map_nil, List.cons.injEq, and_true] at htargets
    obtain ⟨hmeshTarget, harchTarget, hsaveTarget⟩ := htargets
    refine ⟨plan', (hknown plan').mpr ?_⟩
    rw [PatchPlan.Follows, hwrites]
    exact .cons (known_accepts_of_unique hvalid hmesh hmeshTarget)
      (.cons (known_accepts_of_unique hvalid harch harchTarget)
        (.cons (known_accepts_of_unique hvalid hsave hsaveTarget) .nil))

/-- Three read-only sections, one for each string at its Retail RVA. -/
def no_blink_sections : List PeSection :=
  [⟨".mesh", 0x00DC_1A90, 14, false, true, false⟩, ⟨".arch", 0x00D8_B3A8, 9, false, true, false⟩,
    ⟨".save", 0x00E0_AFA3, 32, false, true, false⟩]

def no_blink_headers : PEHeaders where
  is_64bit := false
  coff_header := ⟨0x14C, some .I386, true⟩
  size_of_image := 0x00E1_0000
  section_headers := no_blink_sections.map fun pe_section =>
    ⟨pe_section.name, pe_section.size.toUInt32, pe_section.rva.toUInt32, 0, 0, false, true, false⟩

def no_blink_memory : Store UInt8 :=
  let blank : Store UInt8 := fun _ => 0
  ((blank.write 0x10DC_1A90 "Mesh_Highlight".toUTF8.toList).write 0x10D8_B3A8
    "archBlink".toUTF8.toList).write 0x10E0_AFA3 "gadgets.ObjectiveIcons.SaveDisk".toUTF8.toList

def no_blink_world : World PageMap := ⟨no_blink_memory, mapped_pages 0x1000_0000 0x00E1_0000 PAGE_READONLY, []⟩

/-- A Retail image with the items at the known RVAs, where they are planned. -/
theorem plan_no_blinking_items_agrees_on_retail :
    ∃ plan, (plan_no_blinking_items page_table
      (.snapshot 0x1000_0000 0x00E1_0000 no_blink_sections no_blink_memory) .Retail no_blink_world).1 =
        .ok plan := by
  have hsections : validate_pe_sections no_blink_headers 0x00E1_0000 = .ok no_blink_sections := by
    decide +kernel
  have hvalid : (ModuleImage.snapshot 0x1000_0000 0x00E1_0000 no_blink_sections no_blink_memory).Valid :=
    (validate_pe_sections_ok hsections).snapshot_valid (by decide) no_blink_memory
  have hpages : Mapped 0x1000_0000 0x00E1_0000 PAGE_READONLY no_blink_world.os := mapped_pages_mapped (by decide)
  have hreadable : Readable page_table (Mapped 0x1000_0000 0x00E1_0000 PAGE_READONLY) 0x1000_0000
      (0x1000_0000 + 0x00E1_0000) :=
    mapped_readable page_table_granting ⟨rfl, by decide, by decide⟩ (by decide)
  have hagrees := plan_no_blinking_items_agrees page_table (Mapped 0x1000_0000 0x00E1_0000 PAGE_READONLY) _
    hvalid (hvalid.toLaid.readable hreadable) .Retail _ _ _ rfl none no_blink_world
    (ModuleImage.snapshot_live _ _ _ _) hpages
  have htargets : ((plan_no_blinking_items page_table
      (.snapshot 0x1000_0000 0x00E1_0000 no_blink_sections no_blink_memory) (.Unknown none)
      no_blink_world).1.map fun plan => plan.writes.map CheckedWrite.address).toOption =
        some [0x10DC_1A94, 0x10D8_B3B0, 0x10E0_AFC2] := by
    decide +kernel
  cases hfallback : (plan_no_blinking_items page_table
      (.snapshot 0x1000_0000 0x00E1_0000 no_blink_sections no_blink_memory) (.Unknown none) no_blink_world).1 with
  | error error => simp [hfallback, Except.map, Except.toOption] at htargets
  | ok plan =>
    rw [hfallback] at htargets
    exact hagrees.2 plan hfallback (Option.some.inj htargets)

end systemdetection.patches
