import SystemDetection.Effect.Action
import SystemDetection.Platform.Panic
import SystemDetection.Sigscan.Headers

open effect

namespace systemdetection.patches.sigscan

/-- The addresses of a section by its header, as a mathematical range. -/
def SectionHeader.Holds (header : SectionHeader) (address : Nat) : Prop :=
  header.virtual_address.toNat ≤ address ∧
    address < header.virtual_address.toNat + max header.virtual_size.toNat header.size_of_raw_data.toNat

/-- A 32-bit i386 DLL whose section table has a sane length, lies inside the
image and gives no address to two sections. -/
structure PEHeaders.WellFormed (parsed : PEHeaders) (module_size : Nat) : Prop
    extends parsed.Checked module_size where
  in_bounds : ∀ header ∈ parsed.section_headers,
    header.virtual_address.toNat + max header.virtual_size.toNat header.size_of_raw_data.toNat ≤
      parsed.size_of_image.toNat
  apart : parsed.section_headers.Pairwise fun left right =>
    ∀ address, ¬(left.Holds address ∧ right.Holds address)

/-- The entry of a section table that stands for a header: its range and permissions. -/
structure PeSection.Lists (pe_section : PeSection) (header : SectionHeader) : Prop where
  name : pe_section.name = header.name_str
  rva : pe_section.rva = header.virtual_address.toNat
  size : pe_section.size = max header.virtual_size.toNat header.size_of_raw_data.toNat
  executable : pe_section.executable = header.is_executable
  readable : pe_section.readable = header.is_readable
  writable : pe_section.writable = header.is_writable

/-- A section is as large as the larger of its two sizes. -/
theorem SectionHeader.size_eq (header : SectionHeader) :
    header.pe_section.size = max header.virtual_size.toNat header.size_of_raw_data.toNat := by
  change (max header.virtual_size header.size_of_raw_data).toNat = _
  rw [UInt32.max_def]
  split
  · rename_i hle
    rw [UInt32.le_iff_toNat_le] at hle
    omega
  · rename_i hlt
    rw [UInt32.le_iff_toNat_le] at hlt
    omega

/-- The section of a header lists what the header says. -/
theorem SectionHeader.pe_section_lists (header : SectionHeader) : header.pe_section.Lists header where
  name := rfl
  rva := rfl
  size := header.size_eq
  executable := rfl
  readable := rfl
  writable := rfl

/-- Two sections are apart exactly when no address lies in both. -/
theorem SectionHeader.apart_iff (left right : SectionHeader) :
    left.pe_section.Apart right.pe_section ↔ ∀ address, ¬(left.Holds address ∧ right.Holds address) := by
  have hleft := left.size_eq
  have hright := right.size_eq
  have hstart : left.pe_section.rva = left.virtual_address.toNat := rfl
  have hstart' : right.pe_section.rva = right.virtual_address.toNat := rfl
  simp only [PeSection.Apart, SectionHeader.Holds]
  constructor
  · rintro hapart address
    omega
  · intro hclear
    -- The higher of the two first addresses belongs to both sections when they overlap.
    have hfirst := hclear (max left.virtual_address.toNat right.virtual_address.toNat)
    omega

/-- Headers inside the image are all collected. -/
theorem collect_sections_of_in_bounds {image_size : Nat} (hlimit : image_size < USIZE_LIMIT) :
    {headers : List SectionHeader} →
    (∀ header ∈ headers, header.pe_section.rva + header.pe_section.size ≤ image_size) →
    collect_sections image_size headers = .ok (headers.map SectionHeader.pe_section)
  | [], _ => rfl
  | header :: rest, hinside => by
    have hhead := hinside header List.mem_cons_self
    have htail := collect_sections_of_in_bounds hlimit fun other hmem =>
      hinside other (List.mem_cons_of_mem header hmem)
    simp only [collect_sections, checked_add_of_lt (Nat.lt_of_le_of_lt hhead hlimit),
      if_neg (Nat.not_lt.mpr hhead), htail]
    rfl

/-- The headers pass exactly when they are well formed. -/
theorem validate_pe_sections_eq_ok_iff {parsed : PEHeaders} {module_size : Nat} {sections : List PeSection} :
    validate_pe_sections parsed module_size = .ok sections ↔
      parsed.WellFormed module_size ∧ sections = parsed.section_headers.map SectionHeader.pe_section := by
  constructor
  · intro hvalid
    obtain ⟨hchecked, hcollect, hoverlaps⟩ := validate_pe_sections_checks.mp hvalid
    obtain ⟨hmap, hbounds⟩ := collect_sections_eq_ok hcollect
    have hapart := (check_all_overlaps_eq_ok_iff sections).mp hoverlaps
    rw [hmap, List.pairwise_map] at hapart
    refine ⟨⟨hchecked, fun header hmem => ?_, ?_⟩, hmap⟩
    · have hinside := hbounds header.pe_section (hmap ▸ List.mem_map_of_mem hmem)
      rwa [header.size_eq] at hinside
    · exact hapart.imp (SectionHeader.apart_iff _ _).mp
  · rintro ⟨hwell, rfl⟩
    refine validate_pe_sections_checks.mpr ⟨hwell.toChecked, ?_, ?_⟩
    · refine collect_sections_of_in_bounds (UInt32.toNat_lt _) fun header hmem => ?_
      rw [header.size_eq]
      exact hwell.in_bounds header hmem
    · rw [check_all_overlaps_eq_ok_iff, List.pairwise_map]
      exact hwell.apart.imp (SectionHeader.apart_iff _ _).mpr

/-! The checks with the additions of a 32-bit machine, where an overflow panics. -/

namespace machine

/-- One round of the overlap loop, from the end of `self` on. -/
def check_overlaps (self : PeSection) (section_end : Nat) : List PeSection → Except (Stop ScanError) Unit
  | [] => .ok ()
  | other :: rest =>
    if other.size = 0 then
      check_overlaps self section_end rest
    else do
      let other_end ← usize_add other.rva other.size
      if self.rva < other_end ∧ other.rva < section_end then
        .error (.error (.InvalidPe ("sections " ++ debug_str self.name ++ " and " ++ debug_str other.name
          ++ " overlap in memory")))
      else
        check_overlaps self section_end rest

def check_all_overlaps : List PeSection → Except (Stop ScanError) Unit
  | [] => .ok ()
  | pe_section :: rest =>
    if pe_section.size = 0 then
      check_all_overlaps rest
    else do
      let section_end ← usize_add pe_section.rva pe_section.size
      check_overlaps pe_section section_end rest
      check_all_overlaps rest

def validate_pe_sections (parsed : PEHeaders) (module_size : Nat) :
    Except (Stop ScanError) (List PeSection) :=
  let number_of_sections := parsed.section_headers.length
  let image_size := parsed.size_of_image.toNat
  if parsed.is_64bit then
    .error (.error (.InvalidPe "Dunia.dll is not a 32-bit PE image"))
  else if parsed.coff_header.machine_type ≠ some .I386 then
    .error (.error (.InvalidPe
      s!"Dunia.dll has unsupported machine type 0x{upper_hex 4 parsed.coff_header.machine.toNat}"))
  else if !parsed.coff_header.is_dll then
    .error (.error (.InvalidPe "loaded image is not marked as a DLL"))
  else if number_of_sections = 0 ∨ 96 < number_of_sections then
    .error (.error (.InvalidPe s!"invalid section count {number_of_sections}"))
  else if image_size = 0 ∨ image_size ≠ module_size then
    .error (.error (.InvalidPe
      s!"header SizeOfImage 0x{upper_hex 0 image_size} differs from mapped size 0x{upper_hex 0 module_size}"))
  else do
    let sections ← (collect_sections image_size parsed.section_headers).mapError Stop.error
    check_all_overlaps sections
    .ok sections

/-- On sections that end below the limit the machine additions are those of the model. -/
theorem check_overlaps_eq (self : PeSection) {others : List PeSection}
    (hfits : ∀ other ∈ others, other.rva + other.size < USIZE_LIMIT) :
    check_overlaps self (self.rva + self.size) others = (self.check_overlaps others).mapError Stop.error := by
  induction others with
  | nil => rfl
  | cons other rest ih =>
    have htail := ih fun later hmem => hfits later (List.mem_cons_of_mem other hmem)
    rw [check_overlaps, PeSection.check_overlaps]
    split
    · exact htail
    · rw [usize_add_eq_ok_iff.mpr ⟨rfl, hfits other List.mem_cons_self⟩]
      simp only [bind, Except.bind]
      split
      · rfl
      · exact htail

/-- So the check of all pairs panics nowhere. -/
theorem check_all_overlaps_eq {sections : List PeSection}
    (hfits : ∀ pe_section ∈ sections, pe_section.rva + pe_section.size < USIZE_LIMIT) :
    check_all_overlaps sections = (sigscan.check_all_overlaps sections).mapError Stop.error := by
  induction sections with
  | nil => rfl
  | cons pe_section rest ih =>
    have hrest : ∀ later ∈ rest, later.rva + later.size < USIZE_LIMIT := fun later hmem =>
      hfits later (List.mem_cons_of_mem pe_section hmem)
    rw [check_all_overlaps, sigscan.check_all_overlaps]
    split
    · exact ih hrest
    · rw [usize_add_eq_ok_iff.mpr ⟨rfl, hfits pe_section List.mem_cons_self⟩]
      simp only [bind, Except.bind]
      rw [check_overlaps_eq pe_section hrest]
      cases pe_section.check_overlaps rest with
      | error error => rfl
      | ok _ => exact ih hrest

/-- Every section has been bounded by the image size before the overlap loop
adds its start and size again, so that no addition overflows. -/
theorem validate_pe_sections_eq (parsed : PEHeaders) (module_size : Nat) :
    validate_pe_sections parsed module_size =
      (sigscan.validate_pe_sections parsed module_size).mapError Stop.error := by
  unfold validate_pe_sections sigscan.validate_pe_sections
  dsimp only
  split
  · rfl
  split
  · rfl
  split
  · rfl
  split
  · rfl
  split
  · rfl
  cases hcollect : collect_sections parsed.size_of_image.toNat parsed.section_headers with
  | error error => rfl
  | ok sections =>
    have hlimit : parsed.size_of_image.toNat < USIZE_LIMIT := UInt32.toNat_lt _
    have hfits : ∀ pe_section ∈ sections, pe_section.rva + pe_section.size < USIZE_LIMIT :=
      fun pe_section hmem => Nat.lt_of_le_of_lt ((collect_sections_eq_ok hcollect).2 pe_section hmem) hlimit
    simp only [bind, Except.bind, Except.mapError, check_all_overlaps_eq hfits]
    cases sigscan.check_all_overlaps sections <;> rfl

theorem validate_pe_sections_ok_iff {parsed : PEHeaders} {module_size : Nat} {sections : List PeSection} :
    validate_pe_sections parsed module_size = .ok sections ↔
      sigscan.validate_pe_sections parsed module_size = .ok sections := by
  rw [validate_pe_sections_eq, mapError_eq_ok_iff]

/-- The check accepts exactly the well-formed section tables, lists their sections
in header order, and none of its unchecked additions overflows. -/
theorem validate_pe_sections_accepts (parsed : PEHeaders) (module_size : Nat) :
    ((∃ sections, validate_pe_sections parsed module_size = .ok sections) ↔ parsed.WellFormed module_size) ∧
      (∀ sections, validate_pe_sections parsed module_size = .ok sections →
        List.Forall₂ PeSection.Lists sections parsed.section_headers) ∧
      ∀ reason, validate_pe_sections parsed module_size ≠ .error (.panic reason) := by
  refine ⟨⟨?_, fun hwell => ?_⟩, fun sections hvalid => ?_, fun reason => ?_⟩
  · rintro ⟨sections, hvalid⟩
    exact (validate_pe_sections_eq_ok_iff.mp (validate_pe_sections_ok_iff.mp hvalid)).1
  · exact ⟨_, validate_pe_sections_ok_iff.mpr (validate_pe_sections_eq_ok_iff.mpr ⟨hwell, rfl⟩)⟩
  · obtain ⟨_, rfl⟩ := validate_pe_sections_eq_ok_iff.mp (validate_pe_sections_ok_iff.mp hvalid)
    rw [List.forall₂_map_left_iff, List.forall₂_same]
    exact fun header _ => header.pe_section_lists
  · rw [validate_pe_sections_eq]
    cases sigscan.validate_pe_sections parsed module_size <;> simp [Except.mapError]

end machine

end systemdetection.patches.sigscan
