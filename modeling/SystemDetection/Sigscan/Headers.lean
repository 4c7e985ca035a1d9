import SystemDetection.Platform.Word
import SystemDetection.Sigscan.Pattern

namespace systemdetection.patches.sigscan

inductive MachineType where
  | I386
  | other (machine : UInt16)
  deriving DecidableEq

structure CoffHeader where
  machine : UInt16
  machine_type : Option MachineType
  is_dll : Bool

/-- A section header with the answers Portex derives from its name and characteristics. -/
structure SectionHeader where
  name_str : String
  virtual_size : UInt32
  virtual_address : UInt32
  size_of_raw_data : UInt32
  pointer_to_raw_data : UInt32
  is_executable : Bool
  is_readable : Bool
  is_writable : Bool

/-- What Portex hands over of the headers. Nothing is assumed of the fields. -/
structure PEHeaders where
  is_64bit : Bool
  coff_header : CoffHeader
  size_of_image : UInt32
  section_headers : List SectionHeader

structure PeSection where
  name : String
  rva : Nat
  size : Nat
  executable : Bool
  readable : Bool
  writable : Bool
  deriving DecidableEq

def PeSection.is_in_scope (self : PeSection) : ScanScope → Bool
  | .Code => self.executable
  | .ReadOnlyData => self.readable && !self.writable && !self.executable

def SectionHeader.pe_section (header : SectionHeader) : PeSection where
  name := header.name_str
  rva := header.virtual_address.toNat
  size := (max header.virtual_size header.size_of_raw_data).toNat
  executable := header.is_executable
  readable := header.is_readable
  writable := header.is_writable

/-- The first loop of `validate_pe_sections`. -/
def collect_sections (image_size : Nat) : List SectionHeader → Except ScanError (List PeSection)
  | [] => .ok []
  | header :: rest =>
    let pe_section := header.pe_section
    match checked_add pe_section.rva pe_section.size with
    | none => .error (.InvalidPe ("section " ++ debug_str pe_section.name ++ " range overflow"))
    | some stop =>
      if image_size < stop then
        .error (.InvalidPe ("section " ++ debug_str pe_section.name ++ " ends outside SizeOfImage"))
      else do
        let sections ← collect_sections image_size rest
        .ok (pe_section :: sections)

/-- One round of the overlap loop: `self` against every later section. -/
def PeSection.check_overlaps (self : PeSection) : List PeSection → Except ScanError Unit
  | [] => .ok ()
  | other :: rest =>
    if other.size = 0 then
      self.check_overlaps rest
    else if self.rva < other.rva + other.size ∧ other.rva < self.rva + self.size then
      .error (.InvalidPe ("sections " ++ debug_str self.name ++ " and " ++ debug_str other.name
        ++ " overlap in memory"))
    else
      self.check_overlaps rest

def check_all_overlaps : List PeSection → Except ScanError Unit
  | [] => .ok ()
  | pe_section :: rest =>
    if pe_section.size = 0 then
      check_all_overlaps rest
    else do
      pe_section.check_overlaps rest
      check_all_overlaps rest

def validate_pe_sections (parsed : PEHeaders) (module_size : Nat) : Except ScanError (List PeSection) :=
  let number_of_sections := parsed.section_headers.length
  let image_size := parsed.size_of_image.toNat
  if parsed.is_64bit then
    .error (.InvalidPe "Dunia.dll is not a 32-bit PE image")
  else if parsed.coff_header.machine_type ≠ some .I386 then
    .error (.InvalidPe s!"Dunia.dll has unsupported machine type 0x{upper_hex 4 parsed.coff_header.machine.toNat}")
  else if !parsed.coff_header.is_dll then
    .error (.InvalidPe "loaded image is not marked as a DLL")
  else if number_of_sections = 0 ∨ 96 < number_of_sections then
    .error (.InvalidPe s!"invalid section count {number_of_sections}")
  else if image_size = 0 ∨ image_size ≠ module_size then
    .error (.InvalidPe s!"header SizeOfImage 0x{upper_hex 0 image_size} differs from mapped size 0x{upper_hex 0 module_size}")
  else do
    let sections ← collect_sections image_size parsed.section_headers
    check_all_overlaps sections
    .ok sections

/-- No address belongs to both sections. -/
def PeSection.Apart (left right : PeSection) : Prop :=
  left.size = 0 ∨ right.size = 0 ∨ left.rva + left.size ≤ right.rva ∨ right.rva + right.size ≤ left.rva

/-- The collected sections are those of the headers, in their order, inside the image. -/
theorem collect_sections_eq_ok {image_size : Nat} {headers : List SectionHeader}
    {sections : List PeSection} (hcollect : collect_sections image_size headers = .ok sections) :
    sections = headers.map SectionHeader.pe_section ∧
      ∀ pe_section ∈ sections, pe_section.rva + pe_section.size ≤ image_size := by
  induction headers generalizing sections with
  | nil =>
    cases hcollect
    simp
  | cons header rest ih =>
    simp only [collect_sections] at hcollect
    split at hcollect
    · cases hcollect
    · rename_i stop hstop
      obtain ⟨rfl, _⟩ := checked_add_eq_some_iff.mp hstop
      split at hcollect
      · cases hcollect
      · rename_i hinside
        cases htail : collect_sections image_size rest with
        | error error =>
          rw [htail] at hcollect
          cases hcollect
        | ok others =>
          rw [htail] at hcollect
          cases hcollect
          obtain ⟨hmap, hbounds⟩ := ih htail
          refine ⟨by rw [hmap, List.map_cons], fun pe_section hmem => ?_⟩
          obtain rfl | hrest := List.mem_cons.mp hmem
          · omega
          · exact hbounds pe_section hrest

/-- A section passes its check when it is apart from the others. -/
theorem PeSection.check_overlaps_eq_ok_iff {self : PeSection} (hsize : self.size ≠ 0)
    (others : List PeSection) :
    self.check_overlaps others = .ok () ↔ ∀ other ∈ others, self.Apart other := by
  induction others with
  | nil => simp [PeSection.check_overlaps]
  | cons other rest ih =>
    rw [PeSection.check_overlaps, List.forall_mem_cons]
    split
    · rename_i hempty
      rw [ih]
      simp [PeSection.Apart, hempty]
    · rename_i hfull
      split
      · rename_i hoverlap
        simp only [reduceCtorEq, false_iff, not_and]
        intro hapart
        simp only [PeSection.Apart] at hapart
        omega
      · rename_i hclear
        have hapart : self.Apart other := by
          simp only [PeSection.Apart]
          omega
        simp [ih, hapart]

/-- All sections pass when every two of them are apart. -/
theorem check_all_overlaps_eq_ok_iff (sections : List PeSection) :
    check_all_overlaps sections = .ok () ↔ sections.Pairwise PeSection.Apart := by
  induction sections with
  | nil => simp [check_all_overlaps]
  | cons pe_section rest ih =>
    rw [check_all_overlaps, List.pairwise_cons]
    split
    · rename_i hempty
      rw [ih]
      simp [PeSection.Apart, hempty]
    · rename_i hfull
      rw [← ih, ← PeSection.check_overlaps_eq_ok_iff hfull]
      rcases hcheck : pe_section.check_overlaps rest with error | _
      · simp [bind, Except.bind]
      · simp [bind, Except.bind]

/-- Accepted section tables list the headers in order, stay inside the image
and give no address to two sections. -/
structure SectionTable (parsed : PEHeaders) (module_size : Nat) (sections : List PeSection) : Prop where
  image_size : parsed.size_of_image.toNat = module_size
  positive : 0 < module_size
  headers : sections = parsed.section_headers.map SectionHeader.pe_section
  in_bounds : ∀ pe_section ∈ sections, pe_section.rva + pe_section.size ≤ module_size
  apart : sections.Pairwise PeSection.Apart

/-- What `validate_pe_sections` checks before its two loops. -/
structure PEHeaders.Checked (parsed : PEHeaders) (module_size : Nat) : Prop where
  is_32bit : parsed.is_64bit = false
  machine_type : parsed.coff_header.machine_type = some .I386
  is_dll : parsed.coff_header.is_dll = true
  count : 1 ≤ parsed.section_headers.length ∧ parsed.section_headers.length ≤ 96
  image_size : parsed.size_of_image.toNat ≠ 0 ∧ parsed.size_of_image.toNat = module_size

/-- The headers pass exactly when each of their checks does. -/
theorem validate_pe_sections_checks {parsed : PEHeaders} {module_size : Nat} {sections : List PeSection} :
    validate_pe_sections parsed module_size = .ok sections ↔
      parsed.Checked module_size ∧
        collect_sections parsed.size_of_image.toNat parsed.section_headers = .ok sections ∧
        check_all_overlaps sections = .ok () := by
  unfold validate_pe_sections
  dsimp only
  split
  · rename_i hbits
    exact iff_of_false (by simp) fun hvalid => by simp [hvalid.1.is_32bit] at hbits
  split
  · rename_i hmachine
    exact iff_of_false (by simp) fun hvalid => hmachine hvalid.1.machine_type
  split
  · rename_i hdll
    exact iff_of_false (by simp) fun hvalid => by simp [hvalid.1.is_dll] at hdll
  split
  · rename_i hcount
    refine iff_of_false (by simp) fun hvalid => ?_
    have hsane := hvalid.1.count
    omega
  split
  · rename_i hsize
    refine iff_of_false (by simp) fun hvalid => ?_
    have hmapped := hvalid.1.image_size
    omega
  rename_i hbits hmachine hdll hcount hsize
  have hchecked : parsed.Checked module_size :=
    ⟨by simpa using hbits, by simpa using hmachine, by simpa using hdll, by omega, by omega⟩
  simp only [hchecked, true_and]
  obtain error | collected := collect_sections parsed.size_of_image.toNat parsed.section_headers
  · simp [bind, Except.bind]
  rcases hoverlaps : check_all_overlaps collected with error | _
  · simp only [bind, Except.bind, hoverlaps, reduceCtorEq, Except.ok.injEq, false_iff, not_and]
    rintro rfl
    simp [hoverlaps]
  · simp only [bind, Except.bind, hoverlaps, Except.ok.injEq]
    refine ⟨?_, And.left⟩
    rintro rfl
    exact ⟨rfl, hoverlaps⟩

/-- Sections that pass are those of the headers, inside the image and apart. -/
theorem validate_pe_sections_ok {parsed : PEHeaders} {module_size : Nat} {sections : List PeSection}
    (hvalid : validate_pe_sections parsed module_size = .ok sections) :
    SectionTable parsed module_size sections := by
  obtain ⟨hchecked, hcollect, hoverlaps⟩ := validate_pe_sections_checks.mp hvalid
  obtain ⟨hmap, hbounds⟩ := collect_sections_eq_ok hcollect
  obtain ⟨hpositive, himage⟩ := hchecked.image_size
  rw [himage] at hbounds
  exact ⟨himage, by omega, hmap, hbounds, (check_all_overlaps_eq_ok_iff sections).mp hoverlaps⟩

end systemdetection.patches.sigscan
