import SystemDetection.Effect.Action
import SystemDetection.Sigscan.File

open effect store

namespace systemdetection.patches.sigscan

/-- The copies change the bytes of the mapping, not its length. -/
theorem map_sections_length {file : List UInt8} {pairs : List (PeSection × SectionHeader)}
    {mapping mapped : List UInt8} (hmap : map_sections file pairs mapping = .ok mapped) :
    mapped.length = mapping.length := by
  induction pairs generalizing mapping with
  | nil =>
    cases hmap
    rfl
  | cons pair rest ih =>
    obtain ⟨pe_section, header⟩ := pair
    simp only [map_sections] at hmap
    split at hmap
    · exact ih hmap
    split at hmap
    · cases hmap
    split at hmap
    · cases hmap
    split at hmap
    · cases hmap
    split at hmap
    · cases hmap
    split at hmap
    · cases hmap
    obtain ⟨raw, _, hmap⟩ := except_bind_eq_ok_iff.mp hmap
    obtain ⟨copied, hcopy, hmap⟩ := except_bind_eq_ok_iff.mp hmap
    obtain ⟨rfl, hstart, hstop, hlength⟩ := copy_from_slice_eq_ok_iff.mp hcopy
    rw [ih hmap, List.length_append, List.length_append, List.length_take, List.length_drop]
    omega

/-- With the mapping in memory, the kept sections are its snapshot. -/
theorem snapshot_sections_eq {base : Nat} (size : Nat) {memory : Store UInt8} {mapping : List UInt8}
    (hmapping : memory.read base mapping.length = mapping) {sections : List PeSection}
    {loaded_sections : List LoadedSection}
    (hsnapshot : snapshot_sections mapping sections = .ok loaded_sections) :
    loaded_sections = (ModuleImage.snapshot base size sections memory).sections := by
  induction sections generalizing loaded_sections with
  | nil =>
    cases hsnapshot
    rfl
  | cons pe_section rest ih =>
    simp only [snapshot_sections] at hsnapshot
    split at hsnapshot
    · rename_i hloaded
      obtain ⟨stop, hstop, hsnapshot⟩ := except_bind_eq_ok_iff.mp hsnapshot
      obtain ⟨part, hpart, hsnapshot⟩ := except_bind_eq_ok_iff.mp hsnapshot
      obtain ⟨bytes, hbytes, hsnapshot⟩ := except_bind_eq_ok_iff.mp hsnapshot
      obtain ⟨others, hothers, hsnapshot⟩ := except_bind_eq_ok_iff.mp hsnapshot
      obtain ⟨rfl, _⟩ := usize_add_eq_ok_iff.mp hstop
      obtain ⟨rfl, hstart, hfits⟩ := slice_eq_ok_iff.mp hpart
      obtain ⟨rfl, _⟩ := to_vec_eq_ok_iff.mp hbytes
      have hpart := Store.read_part hmapping hstart hfits
      rw [Nat.add_sub_cancel_left] at hpart
      cases hsnapshot
      rw [ih hothers, ← hpart]
      simp [ModuleImage.snapshot, hloaded]
    · rename_i hskipped
      rw [ih hsnapshot]
      simp [ModuleImage.snapshot, hskipped]

/-- What an accepted file is: its headers pass the checks of a loaded module,
and its image is the snapshot of the mapping, once that is in memory. -/
structure FileMappedModule.Snapshots (portex : List UInt8 → Except String PEHeaders) (base : Nat)
    (file : List UInt8) (parsed : PEHeaders) (sections : List PeSection) (mapped : FileMappedModule) :
    Prop where
  headers : portex file = .ok parsed
  table : validate_pe_sections parsed parsed.size_of_image.toNat = .ok sections
  length : mapped.mapping.length = parsed.size_of_image.toNat
  image_eq : ∀ memory : Store UInt8, memory.read base mapped.mapping.length = mapped.mapping →
    mapped.image = .snapshot base parsed.size_of_image.toNat sections memory
  nonempty : mapped.image.sections ≠ []

/-- The image starts at the base and is as large as the mapping. -/
theorem FileMappedModule.Snapshots.range {portex : List UInt8 → Except String PEHeaders} {base : Nat}
    {file : List UInt8} {parsed : PEHeaders} {sections : List PeSection} {mapped : FileMappedModule}
    (hsnapshots : mapped.Snapshots portex base file parsed sections) :
    mapped.image.base = base ∧ mapped.image.size = mapped.mapping.length := by
  have himage := hsnapshots.image_eq (Store.write (fun _ => 0) base mapped.mapping)
    (Store.read_write_self _ _ _)
  rw [himage, hsnapshots.length]
  exact ⟨rfl, rfl⟩

/-- A file that is mapped has passed every check, and is laid out as its headers say. -/
theorem ModuleImage.from_pe_file_ok {portex : List UInt8 → Except String PEHeaders} {base : Nat}
    {file : List UInt8} {mapped : FileMappedModule}
    (hmapped : ModuleImage.from_pe_file portex base file = .ok mapped) :
    ∃ parsed sections, mapped.Snapshots portex base file parsed sections := by
  unfold ModuleImage.from_pe_file at hmapped
  split at hmapped
  · cases hmapped
  · rename_i parsed hparsed
    obtain ⟨sections, hsections, hmapped⟩ := except_bind_eq_ok_iff.mp hmapped
    obtain ⟨zeroed, hzeroed, hmapped⟩ := except_bind_eq_ok_iff.mp hmapped
    obtain ⟨mapping, hmapping, hmapped⟩ := except_bind_eq_ok_iff.mp hmapped
    obtain ⟨loaded_sections, hloaded, hmapped⟩ := except_bind_eq_ok_iff.mp hmapped
    obtain ⟨hblank, _⟩ := vec_zeroed_eq_ok_iff.mp hzeroed
    split at hmapped
    · cases hmapped
    · rename_i hnonempty
      cases hmapped
      have htable := machine.validate_pe_sections_ok_iff.mp hsections
      refine ⟨parsed, sections, hparsed, htable, ?_, fun memory hmemory => ?_, ?_⟩
      · rw [map_sections_length hmapping, hblank, List.length_replicate]
      · rw [snapshot_sections_eq parsed.size_of_image.toNat hmemory hloaded]
        rfl
      · simpa using hnonempty

end systemdetection.patches.sigscan
