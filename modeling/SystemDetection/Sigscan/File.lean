import SystemDetection.Sigscan.Image
import SystemDetection.Sigscan.Machine

namespace systemdetection.patches.sigscan

/-- An image over a mapping in ordinary heap memory, with the bytes of the mapping. -/
structure FileMappedModule where
  image : ModuleImage
  mapping : List UInt8
  deriving DecidableEq

/-- The loop of `from_pe_file` that copies the raw data of each section. -/
def map_sections (file : List UInt8) :
    List (PeSection × SectionHeader) → List UInt8 → Except (Stop ScanError) (List UInt8)
  | [], mapping => .ok mapping
  | (pe_section, header) :: rest, mapping =>
    let raw_size := header.size_of_raw_data.toNat
    let raw_start := header.pointer_to_raw_data.toNat
    let section_text := "section " ++ debug_str pe_section.name
    if raw_size = 0 then
      map_sections file rest mapping
    else if raw_start = 0 then
      .error (.error (.InvalidPe (section_text ++ " has raw data at file offset zero")))
    else
      match checked_add raw_start raw_size with
      | none => .error (.error (.InvalidPe (section_text ++ " raw range overflow")))
      | some raw_end =>
        if file.length < raw_end then
          .error (.error (.InvalidPe (section_text ++ " raw data ends outside the file")))
        else
          match checked_add pe_section.rva raw_size with
          | none => .error (.error (.InvalidPe (section_text ++ " mapped range overflow")))
          | some mapped_end =>
            if mapping.length < mapped_end ∨ pe_section.size < raw_size then
              .error (.error (.InvalidPe (section_text ++ " raw data ends outside its mapped range")))
            else do
              let raw ← slice file raw_start raw_end
              let mapping ← copy_from_slice mapping pe_section.rva mapped_end raw
              map_sections file rest mapping

/-- The sections that are kept, with their bytes in the mapping. -/
def snapshot_sections (mapping : List UInt8) : List PeSection → Except (Stop ScanError) (List LoadedSection)
  | [] => .ok []
  | pe_section :: rest =>
    if pe_section.is_loaded then do
      let stop ← usize_add pe_section.rva pe_section.size
      let part ← slice mapping pe_section.rva stop
      let bytes ← to_vec part
      let loaded_sections ← snapshot_sections mapping rest
      .ok (⟨pe_section, bytes⟩ :: loaded_sections)
    else
      snapshot_sections mapping rest

/-- Parse an on-disk PE with Portex and reconstruct its loaded section layout in
ordinary heap memory, which the allocator places at `base`. -/
def ModuleImage.from_pe_file (portex : List UInt8 → Except String PEHeaders) (base : Nat)
    (file : List UInt8) : Except (Stop ScanError) FileMappedModule :=
  match portex file with
  | .error error => .error (.error (.InvalidPe s!"Portex rejected the file: {error}"))
  | .ok headers => do
    let image_size := headers.size_of_image.toNat
    let sections ← machine.validate_pe_sections headers image_size
    let zeroed ← vec_zeroed image_size
    let mapping ← map_sections file (sections.zip headers.section_headers) zeroed
    let loaded_sections ← snapshot_sections mapping sections
    if loaded_sections.isEmpty then
      .error (.error (.InvalidPe "PE image has no readable code or data sections"))
    else
      .ok ⟨⟨base, image_size, loaded_sections⟩, mapping⟩

end systemdetection.patches.sigscan
