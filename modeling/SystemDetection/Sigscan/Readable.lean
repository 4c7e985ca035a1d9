import SystemDetection.Memory.Reliable
import SystemDetection.Sigscan.Image

open store systemdetection.patches.memory

namespace systemdetection.patches.sigscan

variable {σ : Type} {os : Os σ} {usable : σ → Prop} {image : ModuleImage} {scope : ScanScope}
  {address length : Nat}

/-- Every snapshotted section is readable memory. Nothing is asked of the rest of
the image, such as its headers or the gaps between its sections. -/
def ModuleImage.Readable (self : ModuleImage) (os : Os σ) (usable : σ → Prop) : Prop :=
  ∀ loaded ∈ self.sections, memory.Readable os usable (self.base + loaded.metadata.rva)
    (self.base + loaded.metadata.rva + loaded.metadata.size)

/-- What a section of the scope holds can be read. -/
theorem ModuleImage.Readable.in_scope (hreadable : image.Readable os usable)
    (hscope : image.InScope scope address length) :
    memory.Readable os usable address (address + length) := by
  obtain ⟨loaded, hmem, _, hlo, hhi⟩ := hscope
  exact (hreadable loaded hmem).mono hlo hhi

/-- A part of a range in the scope is in the scope. -/
theorem ModuleImage.InScope.sub (hscope : image.InScope scope address length) {offset count : Nat}
    (hinside : offset + count ≤ length) : image.InScope scope (address + offset) count := by
  obtain ⟨loaded, hmem, hin, hlo, hhi⟩ := hscope
  refine ⟨loaded, hmem, hin, ?_, ?_⟩
  · exact Nat.le_trans hlo (Nat.le_add_right _ _)
  · omega

/-- An image that lies in readable memory is readable. -/
theorem ModuleImage.Laid.readable (hlaid : image.Laid)
    (hreadable : memory.Readable os usable image.base (image.base + image.size)) :
    image.Readable os usable := by
  intro loaded hmem
  have hbounds := hlaid.in_bounds loaded hmem
  exact hreadable.mono (by omega) (by omega)

/-- Whether an image is readable does not depend on what its sections hold. -/
theorem ModuleImage.Readable.of_sameSections (hreadable : image.Readable os usable) {image' : ModuleImage}
    (hbase : image'.base = image.base) (hsections : image.SameSections image') :
    image'.Readable os usable := by
  intro loaded hmem
  have hmetadata : loaded.metadata ∈ image.sections.map LoadedSection.metadata := by
    rw [hsections]
    exact List.mem_map_of_mem hmem
  obtain ⟨other, hother, hsame⟩ := List.mem_map.mp hmetadata
  rw [hbase, ← hsame]
  exact hreadable other hother

end systemdetection.patches.sigscan
