import Mathlib.Data.List.Pairwise
import SystemDetection.Sigscan.FileMeaning
import SystemDetection.Store.Pieces

open effect store

namespace systemdetection.patches.sigscan

/-- The raw data of a section, if it has any, lies inside the file. -/
def SectionHeader.RawInside (header : SectionHeader) (file : List UInt8) : Prop :=
  header.size_of_raw_data.toNat ≠ 0 →
    header.pointer_to_raw_data.toNat ≠ 0 ∧
      header.pointer_to_raw_data.toNat + header.size_of_raw_data.toNat ≤ file.length

instance (header : SectionHeader) (file : List UInt8) : Decidable (header.RawInside file) :=
  inferInstanceAs (Decidable (_ → _))

def SectionHeader.raw_data (header : SectionHeader) (file : List UInt8) : List UInt8 :=
  (file.drop header.pointer_to_raw_data.toNat).take header.size_of_raw_data.toNat

/-- What the loader makes of a section: its raw data, followed by zeros. -/
def SectionHeader.contents (header : SectionHeader) (file : List UInt8) : List UInt8 :=
  header.raw_data file ++ List.replicate
    (max header.virtual_size.toNat header.size_of_raw_data.toNat - header.size_of_raw_data.toNat) 0

/-- Non-empty, and readable or executable. -/
def SectionHeader.loadable (header : SectionHeader) : Bool :=
  max header.virtual_size.toNat header.size_of_raw_data.toNat != 0 &&
    (header.is_readable || header.is_executable)

def SectionHeader.raw_piece (header : SectionHeader) (file : List UInt8) : Piece UInt8 where
  start := header.virtual_address.toNat
  values := header.raw_data file

/-- Raw data inside the file has the size that the header says. -/
theorem SectionHeader.RawInside.length_raw_data {header : SectionHeader} {file : List UInt8}
    (hraw : header.RawInside file) : (header.raw_data file).length = header.size_of_raw_data.toNat := by
  rw [SectionHeader.raw_data, List.length_take, List.length_drop]
  by_cases hempty : header.size_of_raw_data.toNat = 0
  · omega
  · have hinside := hraw hempty
    omega

theorem SectionHeader.RawInside.length_contents {header : SectionHeader} {file : List UInt8}
    (hraw : header.RawInside file) :
    (header.contents file).length = max header.virtual_size.toNat header.size_of_raw_data.toNat := by
  rw [SectionHeader.contents, List.length_append, hraw.length_raw_data, List.length_replicate]
  omega

theorem SectionHeader.RawInside.raw_piece_fits {header : SectionHeader} {file mapping : List UInt8}
    (hraw : header.RawInside file)
    (hinside : header.virtual_address.toNat + max header.virtual_size.toNat header.size_of_raw_data.toNat ≤
      mapping.length) : (header.raw_piece file).Fits mapping := by
  have hlength := hraw.length_raw_data
  change header.virtual_address.toNat + (header.raw_data file).length ≤ mapping.length
  omega

/-- A section holds every address that its raw bytes are copied to. -/
theorem SectionHeader.RawInside.holds_of_covers {header : SectionHeader} {file : List UInt8}
    (hraw : header.RawInside file) {address : Nat} (hcovers : (header.raw_piece file).Covers address) :
    header.Holds address := by
  obtain ⟨hstart, hstop⟩ := hcovers
  have hlength : (header.raw_piece file).values.length = _ := hraw.length_raw_data
  rw [hlength] at hstop
  change header.virtual_address.toNat ≤ address at hstart
  change address < header.virtual_address.toNat + _ at hstop
  exact ⟨hstart, by omega⟩

/-- Why a section's raw data can be refused, once its headers are accepted. -/
def raw_errors : List String :=
  [" has raw data at file offset zero", " raw range overflow", " raw data ends outside the file"]

/-- One round of the copying loop: it refuses the raw range or copies the raw data. -/
theorem map_sections_cases (file : List UInt8) {mapping : List UInt8} {header : SectionHeader}
    (rest : List (PeSection × SectionHeader))
    (hinside : header.virtual_address.toNat + max header.virtual_size.toNat header.size_of_raw_data.toNat ≤
      mapping.length) (hlimit : mapping.length < USIZE_LIMIT) :
    (header.RawInside file ∧ map_sections file ((header.pe_section, header) :: rest) mapping =
      map_sections file rest (Piece.copy_to mapping (header.raw_piece file))) ∨
    ((file.length < USIZE_LIMIT → ¬header.RawInside file) ∧ ∃ reason ∈ raw_errors,
      map_sections file ((header.pe_section, header) :: rest) mapping =
        .error (.error (.InvalidPe ("section " ++ debug_str header.name_str ++ reason)))) := by
  have hsize := header.size_eq
  have hstart : header.pe_section.rva = header.virtual_address.toNat := rfl
  rw [map_sections]
  split
  · rename_i hempty
    refine .inl ⟨fun hraw => absurd hempty hraw, ?_⟩
    have hnothing : header.raw_data file = [] := by simp [SectionHeader.raw_data, hempty]
    simp [Piece.copy_to, SectionHeader.raw_piece, hnothing]
  rename_i hraw
  split
  · rename_i hzero
    exact .inr ⟨fun _ hinside => (hinside hraw).1 hzero, " has raw data at file offset zero",
        by simp [raw_errors], rfl⟩
  rename_i hpointer
  cases hend : checked_add header.pointer_to_raw_data.toNat header.size_of_raw_data.toNat with
  | none =>
    have hoverflow := checked_add_eq_none_iff.mp hend
    refine .inr ⟨fun hfile hinside => ?_, " raw range overflow", by simp [raw_errors], rfl⟩
    have hbound := (hinside hraw).2
    omega
  | some raw_end =>
    obtain ⟨rfl, _⟩ := checked_add_eq_some_iff.mp hend
    dsimp only
    split
    · rename_i houtside
      refine .inr ⟨fun _ hinside => ?_, " raw data ends outside the file", by simp [raw_errors], rfl⟩
      have hbound := (hinside hraw).2
      omega
    rename_i hfile
    refine .inl ⟨fun _ => ⟨hpointer, by omega⟩, ?_⟩
    rw [checked_add_of_lt (by omega)]
    dsimp only
    rw [if_neg (by omega)]
    have hcopied : (file.take (header.pointer_to_raw_data.toNat + header.size_of_raw_data.toNat)).drop
        header.pointer_to_raw_data.toNat = header.raw_data file := by
      rw [List.drop_take, Nat.add_sub_cancel_left, SectionHeader.raw_data]
    have hlength : (header.raw_data file).length = header.size_of_raw_data.toNat :=
      SectionHeader.RawInside.length_raw_data fun _ => ⟨hpointer, by omega⟩
    rw [slice_eq_ok_iff.mpr ⟨rfl, by omega, by omega⟩, hcopied]
    simp only [bind, Except.bind]
    rw [copy_from_slice_eq_ok_iff.mpr ⟨rfl, by omega, by omega, by omega⟩]
    simp only [Piece.copy_to, SectionHeader.raw_piece, hlength, hstart]

/-- The pairs the copying loop goes over. -/
theorem zip_pe_sections (headers : List SectionHeader) :
    (headers.map SectionHeader.pe_section).zip headers =
      headers.map fun header => (header.pe_section, header) := by
  induction headers with
  | nil => rfl
  | cons header rest ih => simp [ih]

/-- The whole copying loop, over headers that lie inside the mapping: it copies the
raw data of every section, or refuses the first raw range that is wrong. -/
theorem map_sections_run (file : List UInt8) (headers : List SectionHeader) (mapping : List UInt8)
    (hinside : ∀ header ∈ headers, header.virtual_address.toNat +
      max header.virtual_size.toNat header.size_of_raw_data.toNat ≤ mapping.length)
    (hlimit : mapping.length < USIZE_LIMIT) :
    ((∀ header ∈ headers, header.RawInside file) ∧
      map_sections file (headers.map fun header => (header.pe_section, header)) mapping =
        .ok (Piece.copy_all mapping (headers.map fun header => header.raw_piece file))) ∨
    ((file.length < USIZE_LIMIT → ¬∀ header ∈ headers, header.RawInside file) ∧
      ∃ name, ∃ reason ∈ raw_errors,
        map_sections file (headers.map fun header => (header.pe_section, header)) mapping =
          .error (.error (.InvalidPe ("section " ++ debug_str name ++ reason)))) := by
  induction headers generalizing mapping with
  | nil => exact .inl ⟨by simp, rfl⟩
  | cons header rest ih =>
    rw [List.map_cons, List.map_cons]
    obtain ⟨hraw, hcopied⟩ | ⟨hraw, reason, hreason, hrefused⟩ := map_sections_cases
      file (rest.map fun header => (header.pe_section, header))
      (hinside header List.mem_cons_self) hlimit
    · have hlength := Piece.length_copy_to (hraw.raw_piece_fits (hinside header List.mem_cons_self))
      rw [hcopied]
      obtain ⟨hall, hrun⟩ | ⟨hnot, hrun⟩ := ih (Piece.copy_to mapping (header.raw_piece file))
        (fun other hmem => by rw [hlength]; exact hinside other (List.mem_cons_of_mem header hmem))
        (by rwa [hlength])
      · exact .inl ⟨List.forall_mem_cons.mpr ⟨hraw, hall⟩, hrun⟩
      · exact .inr ⟨fun hfile hall => hnot hfile (List.forall_mem_cons.mp hall).2, hrun⟩
    · exact .inr ⟨fun hfile hall => hraw hfile (hall header List.mem_cons_self), header.name_str, reason,
        hreason, hrefused⟩

/-- Sections inside a small enough mapping are copied out of it without a panic. -/
theorem snapshot_sections_run {mapping : List UInt8} {sections : List PeSection}
    (hinside : ∀ pe_section ∈ sections, pe_section.rva + pe_section.size ≤ mapping.length)
    (hlimit : mapping.length ≤ ISIZE_MAX) :
    snapshot_sections mapping sections = .ok ((sections.filter PeSection.is_loaded).map fun pe_section =>
      ⟨pe_section, (mapping.take (pe_section.rva + pe_section.size)).drop pe_section.rva⟩) := by
  have hfits : ISIZE_MAX < USIZE_LIMIT := by decide
  induction sections with
  | nil => rfl
  | cons pe_section rest ih =>
    have hhead := hinside pe_section List.mem_cons_self
    have htail := ih fun other hmem => hinside other (List.mem_cons_of_mem pe_section hmem)
    rw [snapshot_sections]
    split
    · rename_i hloaded
      rw [usize_add_eq_ok_iff.mpr ⟨rfl, by omega⟩]
      simp only [bind, Except.bind]
      rw [slice_eq_ok_iff.mpr ⟨rfl, by omega, hhead⟩]
      dsimp only
      rw [to_vec_eq_ok_iff.mpr ⟨rfl, by rw [List.length_drop, List.length_take]; omega⟩, htail]
      simp [hloaded]
    · rename_i hskipped
      rw [htail]
      simp [hskipped]

theorem SectionHeader.is_loaded_eq (header : SectionHeader) :
    header.pe_section.is_loaded = header.loadable := by
  unfold PeSection.is_loaded SectionHeader.loadable
  rw [header.size_eq]
  rfl

/-- The buffer of the mapping, once the raw data of every section is in it. -/
def PEHeaders.mapping (parsed : PEHeaders) (file : List UInt8) : List UInt8 :=
  Piece.copy_all (List.replicate parsed.size_of_image.toNat 0)
    (parsed.section_headers.map fun header => header.raw_piece file)

/-- So it fits into the image. -/
theorem PEHeaders.WellFormed.raw_pieces_fit {parsed : PEHeaders} {module_size : Nat} {file : List UInt8}
    (hwell : parsed.WellFormed module_size) (hraw : ∀ header ∈ parsed.section_headers, header.RawInside file) :
    ∀ piece ∈ parsed.section_headers.map fun header => header.raw_piece file,
      piece.Fits (List.replicate parsed.size_of_image.toNat 0) := by
  intro piece hmem
  obtain ⟨header, hheader, rfl⟩ := List.mem_map.mp hmem
  refine (hraw header hheader).raw_piece_fits ?_
  rw [List.length_replicate]
  exact hwell.in_bounds header hheader

theorem PEHeaders.WellFormed.length_mapping {parsed : PEHeaders} {module_size : Nat} {file : List UInt8}
    (hwell : parsed.WellFormed module_size) (hraw : ∀ header ∈ parsed.section_headers, header.RawInside file) :
    (parsed.mapping file).length = parsed.size_of_image.toNat := by
  rw [PEHeaders.mapping, Piece.length_copy_all (hwell.raw_pieces_fit hraw), List.length_replicate]

/-- The module that `from_pe_file` makes of headers and raw data that are in order. -/
def PEHeaders.mapped_module (parsed : PEHeaders) (base : Nat) (file : List UInt8) : FileMappedModule where
  image :=
    { base, size := parsed.size_of_image.toNat,
      sections := ((parsed.section_headers.map SectionHeader.pe_section).filter PeSection.is_loaded).map
        fun pe_section => ⟨pe_section, ((parsed.mapping file).take
          (pe_section.rva + pe_section.size)).drop pe_section.rva⟩ }
  mapping := parsed.mapping file

theorem PEHeaders.mapped_module_empty_iff (parsed : PEHeaders) (base : Nat) (file : List UInt8) :
    (parsed.mapped_module base file).image.sections = [] ↔
      ¬∃ header ∈ parsed.section_headers, header.loadable = true := by
  simp [PEHeaders.mapped_module, SectionHeader.is_loaded_eq]

section accepted

variable {portex : List UInt8 → Except String PEHeaders} (base : Nat) {file : List UInt8}
  {parsed : PEHeaders}

/-- A file whose headers are accepted, up to the request for the buffer. -/
theorem from_pe_file_of_accepted (hparsed : portex file = .ok parsed)
    (hwell : parsed.WellFormed parsed.size_of_image.toNat) :
    ModuleImage.from_pe_file portex base file = (do
      let zeroed ← vec_zeroed parsed.size_of_image.toNat
      let mapping ← map_sections file
        (parsed.section_headers.map fun header => (header.pe_section, header)) zeroed
      let loaded_sections ← snapshot_sections mapping (parsed.section_headers.map SectionHeader.pe_section)
      if loaded_sections.isEmpty then
        .error (.error (.InvalidPe "PE image has no readable code or data sections"))
      else
        .ok ⟨⟨base, parsed.size_of_image.toNat, loaded_sections⟩, mapping⟩) := by
  have haccepted := machine.validate_pe_sections_ok_iff.mpr (validate_pe_sections_eq_ok_iff.mpr ⟨hwell, rfl⟩)
  unfold ModuleImage.from_pe_file
  rw [hparsed]
  dsimp only
  rw [haccepted, ← zip_pe_sections]
  rfl

/-- An image size that no buffer can have. -/
theorem from_pe_file_of_oversized (hparsed : portex file = .ok parsed)
    (hwell : parsed.WellFormed parsed.size_of_image.toNat) (hsize : ISIZE_MAX < parsed.size_of_image.toNat) :
    ModuleImage.from_pe_file portex base file = .error (.panic "capacity overflow") := by
  rw [from_pe_file_of_accepted base hparsed hwell, vec_zeroed, if_pos hsize]
  rfl

/-- The three ways in which a file with accepted headers ends, when its image
size is one that a buffer can have. -/
theorem from_pe_file_cases (hparsed : portex file = .ok parsed)
    (hwell : parsed.WellFormed parsed.size_of_image.toNat) (hsize : parsed.size_of_image.toNat ≤ ISIZE_MAX) :
    ((∀ header ∈ parsed.section_headers, header.RawInside file) ∧
      (∃ header ∈ parsed.section_headers, header.loadable = true) ∧
      ModuleImage.from_pe_file portex base file = .ok (parsed.mapped_module base file)) ∨
    ((¬∃ header ∈ parsed.section_headers, header.loadable = true) ∧
      ModuleImage.from_pe_file portex base file =
        .error (.error (.InvalidPe "PE image has no readable code or data sections"))) ∨
    ((file.length < USIZE_LIMIT → ¬∀ header ∈ parsed.section_headers, header.RawInside file) ∧
      ∃ name, ∃ reason ∈ raw_errors, ModuleImage.from_pe_file portex base file =
        .error (.error (.InvalidPe ("section " ++ debug_str name ++ reason)))) := by
  have hfits : ISIZE_MAX < USIZE_LIMIT := by decide
  have hblank : (List.replicate parsed.size_of_image.toNat (0 : UInt8)).length =
      parsed.size_of_image.toNat := List.length_replicate
  rw [from_pe_file_of_accepted base hparsed hwell, vec_zeroed_eq_ok_iff.mpr ⟨rfl, hsize⟩]
  simp only [bind, Except.bind]
  obtain ⟨hraw, hrun⟩ | ⟨hraw, name, reason, hreason, hrun⟩ := map_sections_run file
    parsed.section_headers (List.replicate parsed.size_of_image.toNat 0)
    (by rw [hblank]; exact hwell.in_bounds) (by rw [hblank]; omega)
  · have hmapped : map_sections file (parsed.section_headers.map fun header => (header.pe_section, header))
        (List.replicate parsed.size_of_image.toNat 0) = .ok (parsed.mapping file) := hrun
    have hlength := hwell.length_mapping hraw
    have hsnapshot : snapshot_sections (parsed.mapping file)
        (parsed.section_headers.map SectionHeader.pe_section) =
          .ok (parsed.mapped_module base file).image.sections := by
      refine snapshot_sections_run (fun pe_section hmem => ?_) (by omega)
      obtain ⟨header, hheader, rfl⟩ := List.mem_map.mp hmem
      rw [hlength, header.size_eq]
      exact hwell.in_bounds header hheader
    rw [hmapped]
    dsimp only
    rw [hsnapshot]
    dsimp only
    by_cases hloadable : ∃ header ∈ parsed.section_headers, header.loadable = true
    · refine .inl ⟨hraw, hloadable, ?_⟩
      rw [if_neg]
      · rfl
      · rw [List.isEmpty_iff, parsed.mapped_module_empty_iff base file]
        exact not_not.mpr hloadable
    · refine .inr (.inl ⟨hloadable, ?_⟩)
      rw [if_pos (List.isEmpty_iff.mpr ((parsed.mapped_module_empty_iff base file).mpr hloadable))]
  · refine .inr (.inr ⟨hraw, name, reason, hreason, ?_⟩)
    rw [hrun]

end accepted

/-- No copy disturbs another section: each one ends up with its own contents,
whatever the order, the sizes and the raw ranges. -/
theorem PEHeaders.WellFormed.mapping_contents {parsed : PEHeaders} {module_size : Nat} {file : List UInt8}
    (hwell : parsed.WellFormed module_size) (hraw : ∀ header ∈ parsed.section_headers, header.RawInside file)
    {header : SectionHeader} (hheader : header ∈ parsed.section_headers) :
    ((parsed.mapping file).drop header.virtual_address.toNat).take
      (max header.virtual_size.toNat header.size_of_raw_data.toNat) = header.contents file := by
  have hbounds := hwell.in_bounds header hheader
  have hlength := (hraw header hheader).length_raw_data
  apply List.ext_getElem?
  intro index
  rw [List.getElem?_take]
  split
  · rename_i hindex
    rw [List.getElem?_drop, SectionHeader.contents]
    by_cases hcopied : index < header.size_of_raw_data.toNat
    · have hapart : (parsed.section_headers.map fun header => header.raw_piece file).Pairwise
          fun left right => ∀ address, ¬(left.Covers address ∧ right.Covers address) := by
        rw [List.pairwise_map]
        refine hwell.apart.imp_of_mem fun hleft hright hclear address hboth => hclear address ?_
        exact ⟨(hraw _ hleft).holds_of_covers hboth.1, (hraw _ hright).holds_of_covers hboth.2⟩
      rw [List.getElem?_append_left (by omega)]
      exact Piece.copy_all_inside (hwell.raw_pieces_fit hraw) hapart (List.mem_map_of_mem hheader)
        (show index < (header.raw_data file).length by omega)
    · -- Past its own raw data, an address of the section is in no other section's raw data.
      have hclear : ∀ piece ∈ parsed.section_headers.map fun header => header.raw_piece file,
          ¬piece.Covers (header.virtual_address.toNat + index) := by
        intro piece hmem hcovers
        obtain ⟨other, hother, rfl⟩ := List.mem_map.mp hmem
        by_cases hsame : other = header
        · subst hsame
          have hstop : _ < other.virtual_address.toNat + (other.raw_data file).length := hcovers.2
          omega
        · have hholds : header.Holds (header.virtual_address.toNat + index) := ⟨by omega, by omega⟩
          have hsymmetric : Std.Symm fun left right : SectionHeader =>
              ∀ address, ¬(left.Holds address ∧ right.Holds address) :=
            ⟨fun left right hnone address hboth => hnone address hboth.symm⟩
          exact hwell.apart.forall hother hheader hsame _ ⟨(hraw other hother).holds_of_covers hcovers, hholds⟩
      rw [PEHeaders.mapping, Piece.copy_all_outside (hwell.raw_pieces_fit hraw) hclear,
        List.getElem?_replicate_of_lt (by omega), List.getElem?_append_right (by omega),
        List.getElem?_replicate_of_lt (by omega)]
  · rename_i hindex
    rw [List.getElem?_eq_none]
    rw [(hraw header hheader).length_contents]
    omega

/-- The mapped module holds the loaded layout of the file: the loadable sections in
header order, each with its own contents, inside the image and apart. -/
structure FileMappedModule.Reconstructs (mapped : FileMappedModule) (base : Nat) (file : List UInt8)
    (parsed : PEHeaders) : Prop where
  base : mapped.image.base = base
  size : mapped.image.size = parsed.size_of_image.toNat
  length : mapped.mapping.length = parsed.size_of_image.toNat
  contents : ∀ header ∈ parsed.section_headers, (mapped.mapping.drop header.virtual_address.toNat).take
    (max header.virtual_size.toNat header.size_of_raw_data.toNat) = header.contents file
  sections : mapped.image.sections = (parsed.section_headers.filter SectionHeader.loadable).map
    fun header => ⟨header.pe_section, header.contents file⟩
  lengths : ∀ loaded ∈ mapped.image.sections, loaded.bytes.length = loaded.metadata.size
  in_bounds : ∀ loaded ∈ mapped.image.sections, loaded.metadata.rva + loaded.metadata.size ≤ mapped.image.size
  apart : mapped.image.sections.Pairwise fun left right => ∀ address,
    ¬((left.metadata.rva ≤ address ∧ address < left.metadata.rva + left.metadata.size) ∧
      right.metadata.rva ≤ address ∧ address < right.metadata.rva + right.metadata.size)

/-- A well-formed file is laid out section by section, with zeros between. -/
theorem PEHeaders.WellFormed.reconstructs {parsed : PEHeaders} {module_size : Nat} {file : List UInt8}
    (hwell : parsed.WellFormed module_size) (hraw : ∀ header ∈ parsed.section_headers, header.RawInside file)
    (base : Nat) : (parsed.mapped_module base file).Reconstructs base file parsed := by
  have hsections : (parsed.mapped_module base file).image.sections =
      (parsed.section_headers.filter SectionHeader.loadable).map
        fun header => ⟨header.pe_section, header.contents file⟩ := by
    have hfilter : (parsed.section_headers.map SectionHeader.pe_section).filter PeSection.is_loaded =
        (parsed.section_headers.filter SectionHeader.loadable).map SectionHeader.pe_section := by
      rw [List.filter_map]
      congr 2
      exact funext SectionHeader.is_loaded_eq
    simp only [PEHeaders.mapped_module, hfilter, List.map_map]
    refine List.map_congr_left fun header hmem => ?_
    have hcontents := hwell.mapping_contents hraw (List.mem_of_mem_filter hmem)
    simp only [Function.comp_apply, LoadedSection.mk.injEq, true_and]
    rw [List.drop_take, Nat.add_sub_cancel_left, header.size_eq]
    exact hcontents
  have hmembers : ∀ loaded ∈ (parsed.mapped_module base file).image.sections,
      ∃ header ∈ parsed.section_headers, loaded = ⟨header.pe_section, header.contents file⟩ := by
    intro loaded hmem
    rw [hsections] at hmem
    obtain ⟨header, hheader, rfl⟩ := List.mem_map.mp hmem
    exact ⟨header, List.mem_of_mem_filter hheader, rfl⟩
  refine ⟨rfl, rfl, hwell.length_mapping hraw, fun header => hwell.mapping_contents hraw, hsections, ?_, ?_, ?_⟩
  · intro loaded hmem
    obtain ⟨header, hheader, rfl⟩ := hmembers loaded hmem
    exact (hraw header hheader).length_contents.trans header.size_eq.symm
  · intro loaded hmem
    obtain ⟨header, hheader, rfl⟩ := hmembers loaded hmem
    have hinside := hwell.in_bounds header hheader
    rwa [← header.size_eq] at hinside
  · rw [hsections, List.pairwise_map]
    refine (hwell.apart.filter SectionHeader.loadable).imp fun {left right} hclear address hboth => ?_
    dsimp only at hboth
    rw [left.size_eq, right.size_eq] at hboth
    exact hclear address hboth

/-- The last three characters of a message are those of its last part. -/
theorem message_ending (start reason : String) (hlength : 3 ≤ reason.toList.length) :
    (start ++ reason).toList.reverse.take 3 = reason.toList.reverse.take 3 := by
  rw [String.toList_append, List.reverse_append, List.take_append_of_le_length]
  rwa [List.length_reverse]

theorem message_ne_of_ending (start start' : String) {reason reason' : String} (hlength : 3 ≤ reason.toList.length)
    (hlength' : 3 ≤ reason'.toList.length)
    (hending : reason.toList.reverse.take 3 ≠ reason'.toList.reverse.take 3) :
    start ++ reason ≠ start' ++ reason' := by
  intro hsame
  apply hending
  rw [← message_ending start reason hlength, ← message_ending start' reason' hlength', hsame]

/-- None of the refusals is about the mapped range. -/
theorem mapped_range_unreported (name other : String) {reason : String} (hreason : reason ∈ raw_errors) :
    "section " ++ debug_str name ++ reason ≠
      "section " ++ debug_str other ++ " raw data ends outside its mapped range" := by
  have hendings : ∀ reason ∈ raw_errors, 3 ≤ reason.toList.length ∧ reason.toList.reverse.take 3 ≠
      " raw data ends outside its mapped range".toList.reverse.take 3 := by decide
  obtain ⟨hlength, hending⟩ := hendings reason hreason
  exact message_ne_of_ending _ _ hlength (by decide) hending

/-- Accepted headers and a file: the layout is reconstructed exactly. -/
structure PEHeaders.LoadsExactly (parsed : PEHeaders) (portex : List UInt8 → Except String PEHeaders)
    (base : Nat) (file : List UInt8) : Prop where
  accepts : (∃ mapped, ModuleImage.from_pe_file portex base file = .ok mapped) ↔
    (∀ header ∈ parsed.section_headers, header.RawInside file) ∧
      ∃ header ∈ parsed.section_headers, header.loadable = true
  layout : ∀ mapped, ModuleImage.from_pe_file portex base file = .ok mapped →
    mapped.Reconstructs base file parsed
  mapped_range : ∀ name, ModuleImage.from_pe_file portex base file ≠ .error (.error (.InvalidPe
    ("section " ++ debug_str name ++ " raw data ends outside its mapped range")))

/-- With headers that `validate_pe_sections` accepts, the layout is reconstructed exactly
unless the file is in order and its image is larger than any buffer may be. -/
theorem ModuleImage.from_pe_file_exact_iff {portex : List UInt8 → Except String PEHeaders} {base : Nat}
    {file : List UInt8} {parsed : PEHeaders} (hfile : file.length ≤ ISIZE_MAX)
    (hparsed : portex file = .ok parsed)
    (haccepted : ∃ sections, machine.validate_pe_sections parsed parsed.size_of_image.toNat = .ok sections) :
    parsed.LoadsExactly portex base file ↔
      (parsed.size_of_image.toNat ≤ ISIZE_MAX ∨
        ¬((∀ header ∈ parsed.section_headers, header.RawInside file) ∧
          ∃ header ∈ parsed.section_headers, header.loadable = true)) := by
  obtain ⟨sections, hsections⟩ := haccepted
  have hwell := (validate_pe_sections_eq_ok_iff.mp (machine.validate_pe_sections_ok_iff.mp hsections)).1
  by_cases hsize : parsed.size_of_image.toNat ≤ ISIZE_MAX
  · have hlimit : ISIZE_MAX < USIZE_LIMIT := by decide
    simp only [hsize, true_or, iff_true]
    obtain ⟨hraw, hloadable, hresult⟩ | ⟨hloadable, hresult⟩ | ⟨hraw, name, reason, hreason, hresult⟩ :=
      from_pe_file_cases base hparsed hwell hsize
    · refine ⟨iff_of_true ⟨_, hresult⟩ ⟨hraw, hloadable⟩, fun mapped hmapped => ?_, fun name => ?_⟩
      · rw [hresult] at hmapped
        cases hmapped
        exact hwell.reconstructs hraw base
      · simp [hresult]
    · refine ⟨iff_of_false (by simp [hresult]) fun hboth => hloadable hboth.2, by simp [hresult], fun name => ?_⟩
      rw [hresult]
      intro hsame
      simp only [Except.error.injEq, Stop.error.injEq, ScanError.InvalidPe.injEq] at hsame
      have hending := congrArg (fun message : String => message.toList.reverse.take 3) hsame
      rw [message_ending _ _ (by decide)] at hending
      revert hending
      decide
    · refine ⟨iff_of_false (by simp [hresult]) fun hboth => hraw (by omega) hboth.1, by simp [hresult],
        fun other => ?_⟩
      rw [hresult]
      intro hsame
      simp only [Except.error.injEq, Stop.error.injEq, ScanError.InvalidPe.injEq] at hsame
      exact mapped_range_unreported name other hreason hsame
  · have hresult := from_pe_file_of_oversized base hparsed hwell (by omega)
    constructor
    · intro hexact
      refine .inr fun hboth => ?_
      obtain ⟨mapped, hmapped⟩ := hexact.accepts.mpr hboth
      simp [hresult] at hmapped
    · rintro (hsmall | hrefused)
      · exact absurd hsmall hsize
      · exact ⟨iff_of_false (by simp [hresult]) hrefused, by simp [hresult], by simp [hresult]⟩

/-- The file of the source's tests, with its raw data inside: a `.text` and a `.rdata` section. -/
def synthetic_pe_file (size_of_image : List UInt8) : List UInt8 :=
  Piece.copy_all (List.replicate 0x400 0)
    [⟨0, [0x4D, 0x5A]⟩, ⟨0x3C, [0x80, 0, 0, 0]⟩, ⟨0x80, [0x50, 0x45, 0, 0]⟩, ⟨0x84, [0x4C, 0x01]⟩,
      ⟨0x86, [2, 0]⟩, ⟨0x94, [0xE0, 0]⟩, ⟨0x96, [0x02, 0x21]⟩, ⟨0x98, [0x0B, 0x01]⟩, ⟨0xD0, size_of_image⟩,
      ⟨0x178, [0x2E, 0x74, 0x65, 0x78, 0x74]⟩, ⟨0x180, [0, 1, 0, 0]⟩, ⟨0x184, [0, 0x10, 0, 0]⟩,
      ⟨0x188, [0, 1, 0, 0]⟩, ⟨0x18C, [0, 2, 0, 0]⟩, ⟨0x19C, [0x20, 0, 0, 0x60]⟩,
      ⟨0x1A0, [0x2E, 0x72, 0x64, 0x61, 0x74, 0x61]⟩, ⟨0x1A8, [0x80, 0, 0, 0]⟩, ⟨0x1AC, [0, 0x20, 0, 0]⟩,
      ⟨0x1B0, [0x80, 0, 0, 0]⟩, ⟨0x1B4, [0, 3, 0, 0]⟩, ⟨0x1C4, [0, 0, 0, 0x40]⟩]

def synthetic_headers (size_of_image : UInt32) : PEHeaders where
  is_64bit := false
  coff_header := ⟨0x14C, some .I386, true⟩
  size_of_image
  section_headers :=
    [⟨".text", 0x100, 0x1000, 0x100, 0x200, true, true, false⟩,
      ⟨".rdata", 0x80, 0x2000, 0x80, 0x300, false, true, false⟩]

/-- The synthetic headers are well formed for every large enough image. -/
theorem synthetic_headers_accepted {size_of_image : UInt32} (hsize : 0x2080 ≤ size_of_image.toNat) :
    (synthetic_headers size_of_image).WellFormed size_of_image.toNat where
  is_32bit := rfl
  machine_type := rfl
  is_dll := rfl
  count := by simp [synthetic_headers]
  image_size := ⟨show size_of_image.toNat ≠ 0 by omega, rfl⟩
  in_bounds header hmem := by
    have hbound : ∀ header ∈ (synthetic_headers size_of_image).section_headers, header.virtual_address.toNat +
        max header.virtual_size.toNat header.size_of_raw_data.toNat ≤ 0x2080 := by
      simp only [synthetic_headers]
      decide
    exact (hbound header hmem).trans hsize
  apart := by
    simp only [synthetic_headers, List.pairwise_cons, List.mem_cons, List.not_mem_nil, or_false,
      forall_eq, false_implies, implies_true, List.Pairwise.nil, and_true]
    rintro address ⟨⟨_, hleft⟩, hright, _⟩
    change address < 0x1000 + max 0x100 0x100 at hleft
    change 0x2000 ≤ address at hright
    omega

/-- The synthetic file is one kibibyte long. -/
theorem synthetic_file_length (size_of_image : List UInt8) (hsize : size_of_image.length = 4) :
    (synthetic_pe_file size_of_image).length = 0x400 := by
  rw [synthetic_pe_file, Piece.length_copy_all, List.length_replicate]
  simp only [List.mem_cons, List.not_mem_nil, or_false, forall_eq_or_imp, forall_eq, Piece.Fits,
    List.length_replicate, hsize]
  decide

theorem synthetic_file_loads_exactly :
    (synthetic_headers 0x3000).LoadsExactly (fun _ => .ok (synthetic_headers 0x3000)) 0x1_0000
      (synthetic_pe_file [0, 0x30, 0, 0]) :=
  (ModuleImage.from_pe_file_exact_iff (by rw [synthetic_file_length _ rfl]; decide) rfl
    ⟨_, machine.validate_pe_sections_ok_iff.mpr (validate_pe_sections_eq_ok_iff.mpr
      ⟨synthetic_headers_accepted (by decide), rfl⟩)⟩).mpr (.inl (by decide))

/-- The same file with an image size of 2 GiB: its headers and raw data are in order. -/
theorem oversized_file_not_loaded :
    (synthetic_headers 0x8000_0000).WellFormed 0x8000_0000 ∧
      ¬(synthetic_headers 0x8000_0000).LoadsExactly (fun _ => .ok (synthetic_headers 0x8000_0000)) 0x1_0000
        (synthetic_pe_file [0, 0, 0, 0x80]) := by
  have hwell : (synthetic_headers 0x8000_0000).WellFormed (0x8000_0000 : UInt32).toNat :=
    synthetic_headers_accepted (by decide)
  refine ⟨hwell, fun hexact => ?_⟩
  obtain ⟨mapped, hmapped⟩ := hexact.accepts.mpr (by
    simp only [synthetic_headers, List.mem_cons, List.not_mem_nil, or_false, forall_eq_or_imp, forall_eq,
      SectionHeader.RawInside, synthetic_file_length [0, 0, 0, 0x80] rfl]
    refine ⟨by decide, _, .inl rfl, by decide⟩)
  rw [from_pe_file_of_oversized _ rfl hwell (by decide)] at hmapped
  cases hmapped

/-- A file is rejected or accepted, never a panic, exactly when its image size is one
that a buffer can have, or its headers are refused before the buffer is asked for. -/
theorem ModuleImage.from_pe_file_panics_iff (portex : List UInt8 → Except String PEHeaders) (base : Nat)
    (file : List UInt8) :
    (∀ reason, ModuleImage.from_pe_file portex base file ≠ .error (.panic reason)) ↔
      ∀ parsed, portex file = .ok parsed → parsed.WellFormed parsed.size_of_image.toNat →
        parsed.size_of_image.toNat ≤ ISIZE_MAX := by
  constructor
  · intro hcalm parsed hparsed hwell
    by_contra hsize
    exact hcalm _ (from_pe_file_of_oversized base hparsed hwell (by omega))
  · intro hsize reason
    cases hparsed : portex file with
    | error error => simp [ModuleImage.from_pe_file, hparsed]
    | ok parsed =>
      cases haccepted : validate_pe_sections parsed parsed.size_of_image.toNat with
      | error error =>
        simp [ModuleImage.from_pe_file, hparsed, machine.validate_pe_sections_eq, haccepted, Except.mapError,
          bind, Except.bind]
      | ok sections =>
        have hwell := (validate_pe_sections_eq_ok_iff.mp haccepted).1
        obtain ⟨_, _, hresult⟩ | ⟨_, hresult⟩ | ⟨_, _, _, _, hresult⟩ :=
          from_pe_file_cases base hparsed hwell (hsize parsed hparsed hwell)
        · simp [hresult]
        · simp [hresult]
        · simp [hresult]

/-- The file with an image size of 2 GiB stops the program. -/
theorem oversized_file_panics :
    ModuleImage.from_pe_file (fun _ => .ok (synthetic_headers 0x8000_0000)) 0x1_0000
      (synthetic_pe_file [0, 0, 0, 0x80]) = .error (.panic "capacity overflow") :=
  from_pe_file_of_oversized _ rfl (synthetic_headers_accepted (by decide)) (by decide)

end systemdetection.patches.sigscan
