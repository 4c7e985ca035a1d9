import SystemDetection.Patches.PlanMeaning

open effect store systemdetection.patches.memory systemdetection.patches.sigscan

namespace systemdetection.patches

/-- A recipe fits at the same RVAs of images with the same sections. -/
theorem fits_transfer {left right : ModuleImage} (hsections : left.SameSections right)
    {recipe : Recipe} {rva : Nat} :
    recipe.Fits left (left.base + rva) ↔ recipe.Fits right (right.base + rva) := by
  have hmetadata : ∀ image : ModuleImage, recipe.Fits image (image.base + rva) ↔
      ∃ pe_section ∈ image.sections.map LoadedSection.metadata,
        pe_section.is_in_scope recipe.scope = true ∧
        (pe_section.rva ≤ rva ∧ rva + recipe.pattern.len ≤ pe_section.rva + pe_section.size) ∧
        pe_section.rva ≤ rva + recipe.target_offset ∧
        rva + recipe.target_offset + recipe.expected.length ≤ pe_section.rva + pe_section.size := by
    intro image
    simp only [Recipe.Fits, List.mem_map, exists_exists_and_eq_and, PeSection.Holds]
    refine exists_congr fun loaded => and_congr_right fun _ => and_congr_right fun _ => ?_
    omega
  rw [hmetadata, hmetadata, hsections]

/-- The ranges that a site looks at lie in sections of its scope. -/
def Site.InPlace (image : ModuleImage) : Site → Nat → Prop
  | .unique recipe, start | .known recipe _, start =>
    image.InScope recipe.scope start recipe.pattern.len ∧
      image.InScope recipe.scope (start + recipe.target_offset) recipe.expected.length
  | .fixed guard scope _, start => image.InScope scope start guard.expected.length

theorem Recipe.Fits.in_place {recipe : Recipe} {image : ModuleImage} {start : Nat}
    (hfits : recipe.Fits image start) :
    image.InScope recipe.scope start recipe.pattern.len ∧
      image.InScope recipe.scope (start + recipe.target_offset) recipe.expected.length := by
  obtain ⟨loaded, hmem, hscope, hholds, hholds'⟩ := hfits
  exact ⟨⟨loaded, hmem, hscope, hholds⟩, ⟨loaded, hmem, hscope, hholds'⟩⟩

/-- A set of addresses has one element exactly when its RVAs have one. -/
theorem eq_singleton_shift_iff {starts : Set Nat} {base s : Nat} (hle : ∀ start ∈ starts, base ≤ start) :
    starts = {base + s} ↔ ∀ r, base + r ∈ starts ↔ r = s := by
  constructor
  · rintro rfl r
    rw [Set.mem_singleton_iff, Nat.add_left_cancel_iff]
  · intro honly
    refine Set.eq_singleton_iff_unique_mem.mpr ⟨(honly s).mpr rfl, fun start hstart => ?_⟩
    obtain ⟨r, rfl⟩ := Nat.exists_eq_add_of_le (hle start hstart)
    rw [(honly r).mp hstart]

section Transfer

variable {left right : ModuleImage} {memory memory' : Store UInt8} {site : Site}
  (hsections : left.SameSections right)
  (hstands : ∀ rva, site.InPlace left (left.base + rva) →
    (site.template.Stands memory (left.base + rva) ↔ site.template.Stands memory' (right.base + rva)))
include hsections hstands

/-- If two images have the same sections, and the template of a site stands at
the same RVAs over both memories, then the site selects the same RVA in both. -/
theorem Site.resolves_transfer (rva : Nat) :
    site.Resolves left memory (left.base + rva) ↔ site.Resolves right memory' (right.base + rva) := by
  cases site with
  | unique recipe =>
    have hcandidates : ∀ rva, left.base + rva ∈ recipe.candidates left memory ↔
        right.base + rva ∈ recipe.candidates right memory' := by
      intro rva
      rw [Recipe.mem_candidates_iff, Recipe.mem_candidates_iff, fits_transfer hsections]
      refine and_congr_right fun hfits => hstands rva ?_
      exact ((fits_transfer hsections).mpr hfits).in_place
    have hresolves : ∀ (image : ModuleImage) (memory : Store UInt8),
        (Site.unique recipe).Resolves image memory (image.base + rva) ↔
          ∃ s, rva = s + recipe.target_offset ∧
            ∀ r, image.base + r ∈ recipe.candidates image memory ↔ r = s := by
      intro image memory
      have hle : ∀ start ∈ recipe.candidates image memory, image.base ≤ start := fun start hstart =>
        (Recipe.mem_candidates_iff.mp hstart).1.in_place.1.base_le
      constructor
      · rintro ⟨start, hone, htarget⟩
        obtain ⟨s, rfl⟩ := Nat.exists_eq_add_of_le (hle start (hone.ge rfl))
        exact ⟨s, by omega, (eq_singleton_shift_iff hle).mp hone⟩
      · rintro ⟨s, rfl, honly⟩
        exact ⟨image.base + s, (eq_singleton_shift_iff hle).mpr honly, by omega⟩
    rw [hresolves, hresolves]
    simp only [hcandidates]
  | known recipe target_rva =>
    have hresolves : ∀ (image : ModuleImage) (memory : Store UInt8),
        (Site.known recipe target_rva).Resolves image memory (image.base + rva) ↔
          rva = target_rva ∧ ∃ s, rva = s + recipe.target_offset ∧
            (Site.known recipe target_rva).InPlace image (image.base + s) ∧
            recipe.template.Stands memory (image.base + s) := by
      intro image memory
      simp only [Site.Resolves, Site.InPlace, Nat.add_left_cancel_iff]
      refine and_congr_right fun _ => ?_
      constructor
      · rintro ⟨start, htarget, hle, hscope, hscope', hstands⟩
        obtain ⟨s, rfl⟩ := Nat.exists_eq_add_of_le hle
        exact ⟨s, by omega, ⟨hscope, htarget ▸ hscope'⟩, hstands⟩
      · rintro ⟨s, rfl, ⟨hscope, hscope'⟩, hstands⟩
        exact ⟨image.base + s, by omega, Nat.le_add_right _ _, hscope, Nat.add_assoc _ _ _ ▸ hscope', hstands⟩
    rw [hresolves, hresolves]
    refine and_congr_right fun _ => exists_congr fun s => and_congr_right fun _ => ?_
    have hinPlace : (Site.known recipe target_rva).InPlace left (left.base + s) ↔
        (Site.known recipe target_rva).InPlace right (right.base + s) := by
      simp only [Site.InPlace, Nat.add_assoc, hsections.in_scope_iff]
    rw [← hinPlace]
    exact and_congr_right fun hplace => hstands s hplace
  | fixed guard scope target_rva =>
    simp only [Site.Resolves, Nat.add_left_cancel_iff, hsections.in_scope_iff]
    refine and_congr_right fun _ => and_congr_right fun hscope => hstands rva ?_
    exact hsections.in_scope_iff.mpr hscope

end Transfer

end systemdetection.patches
