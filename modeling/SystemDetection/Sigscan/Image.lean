import SystemDetection.Sigscan.Headers

open store

namespace systemdetection.patches.sigscan

structure LoadedSection where
  metadata : PeSection
  bytes : List UInt8
  deriving DecidableEq

/-- A validated snapshot of the readable sections in a loaded PE image. -/
structure ModuleImage where
  base : Nat
  size : Nat
  sections : List LoadedSection
  deriving DecidableEq

/-- The matches in one section, as absolute addresses. -/
def LoadedSection.scan (self : LoadedSection) (base : Nat) (pattern : Pattern) (scope : ScanScope) :
    List Nat :=
  if !self.metadata.is_in_scope scope then
    []
  else
    match checked_add base self.metadata.rva with
    | none => []
    | some section_address => (pattern.find_offsets self.bytes).filterMap (checked_add section_address)

/-- Return every match in the selected PE section class. -/
def ModuleImage.scan (self : ModuleImage) (pattern : Pattern) (scope : ScanScope) : List Nat :=
  self.sections.flatMap fun loaded => loaded.scan self.base pattern scope

def ModuleImage.address_from_rva (self : ModuleImage) (rva length : Nat) (scope : ScanScope) :
    Except ScanError Nat :=
  match checked_add rva length with
  | none => .error (.InvalidPe "RVA range overflow")
  | some stop =>
    if self.size < stop then
      .error (.AddressOutsideImage rva length)
    else
      let in_section := self.sections.any fun loaded =>
        loaded.metadata.is_in_scope scope &&
          match checked_add loaded.metadata.rva loaded.metadata.size with
          | none => false
          | some section_end => decide (loaded.metadata.rva ≤ rva) && decide (stop ≤ section_end)
      if !in_section then
        .error (.AddressOutsideScope rva length scope)
      else
        match checked_add self.base rva with
        | none => .error (.InvalidPe "RVA address overflow")
        | some address => .ok address

def ModuleImage.contains_relative_target (self : ModuleImage) (match_address target_address length : Nat)
    (scope : ScanScope) : Bool :=
  match checked_sub match_address self.base, checked_sub target_address self.base with
  | some match_rva, some target_rva =>
    match checked_add target_rva length with
    | none => false
    | some target_end => self.sections.any fun loaded =>
      loaded.metadata.is_in_scope scope &&
        match checked_add loaded.metadata.rva loaded.metadata.size with
        | none => false
        | some section_end =>
          decide (loaded.metadata.rva ≤ match_rva) && decide (match_rva < section_end)
            && decide (loaded.metadata.rva ≤ target_rva) && decide (target_end ≤ section_end)
  | _, _ => false

/-- The range lies in the section laid out at `base`. -/
def PeSection.Holds (self : PeSection) (base address length : Nat) : Prop :=
  base + self.rva ≤ address ∧ address + length ≤ base + self.rva + self.size

/-- Some section of the scope holds the whole range. -/
def ModuleImage.InScope (self : ModuleImage) (scope : ScanScope) (address length : Nat) : Prop :=
  ∃ loaded ∈ self.sections, loaded.metadata.is_in_scope scope = true ∧
    loaded.metadata.Holds self.base address length

/-- Sections lie in the image, share no address and are as long as their
metadata says. -/
structure ModuleImage.Laid (image : ModuleImage) : Prop where
  in_bounds : ∀ loaded ∈ image.sections, loaded.metadata.rva + loaded.metadata.size ≤ image.size
  apart : image.sections.Pairwise fun left right => left.metadata.Apart right.metadata
  lengths : ∀ loaded ∈ image.sections, loaded.bytes.length = loaded.metadata.size
  size_lt : image.size < USIZE_LIMIT

/-- The image moreover ends below the top of the address space. -/
structure ModuleImage.Valid (image : ModuleImage) : Prop extends image.Laid where
  below_top : image.base + image.size < USIZE_LIMIT

/-- The snapshot agrees with the memory it was taken from. -/
def ModuleImage.Live (self : ModuleImage) (memory : Store UInt8) : Prop :=
  ∀ loaded ∈ self.sections,
    memory.read (self.base + loaded.metadata.rva) loaded.metadata.size = loaded.bytes

theorem ModuleImage.InScope.in_image {self : ModuleImage} (hlaid : self.Laid) {scope : ScanScope}
    {address length : Nat} (hscope : self.InScope scope address length) :
    self.base ≤ address ∧ address + length ≤ self.base + self.size := by
  obtain ⟨loaded, hmem, _, hlo, hhi⟩ := hscope
  have := hlaid.in_bounds loaded hmem
  omega

theorem ModuleImage.InScope.base_le {image : ModuleImage} {scope : ScanScope} {address length : Nat}
    (hscope : image.InScope scope address length) : image.base ≤ address := by
  obtain ⟨loaded, _, _, hlo, _⟩ := hscope
  omega

/-- The same sections, wherever the two images are loaded. -/
def ModuleImage.SameSections (left right : ModuleImage) : Prop :=
  left.sections.map LoadedSection.metadata = right.sections.map LoadedSection.metadata

/-- Both images lay a range, given by its RVA, in a section of the scope or neither does. -/
theorem ModuleImage.SameSections.in_scope_iff {left right : ModuleImage} (hsections : left.SameSections right)
    {scope : ScanScope} {rva length : Nat} :
    left.InScope scope (left.base + rva) length ↔ right.InScope scope (right.base + rva) length := by
  have hmetadata : ∀ image : ModuleImage, image.InScope scope (image.base + rva) length ↔
      ∃ pe_section ∈ image.sections.map LoadedSection.metadata, pe_section.is_in_scope scope = true ∧
        pe_section.rva ≤ rva ∧ rva + length ≤ pe_section.rva + pe_section.size := by
    intro image
    simp only [ModuleImage.InScope, List.mem_map, exists_exists_and_eq_and, PeSection.Holds]
    refine exists_congr fun loaded => and_congr_right fun _ => and_congr_right fun _ => ?_
    omega
  rw [hmetadata, hmetadata, hsections]

/-- A nonempty range lies in at most one section. -/
theorem ModuleImage.Laid.section_unique {self : ModuleImage} (hlaid : self.Laid)
    {left right : LoadedSection} (hleft : left ∈ self.sections) (hright : right ∈ self.sections)
    {address : Nat} (hinLeft : left.metadata.Holds self.base address 1)
    (hinRight : right.metadata.Holds self.base address 1) : left = right := by
  by_contra hne
  have hapart : left.metadata.Apart right.metadata ∨ right.metadata.Apart left.metadata := by
    obtain ⟨i, hi, rfl⟩ := List.mem_iff_getElem.mp hleft
    obtain ⟨j, hj, rfl⟩ := List.mem_iff_getElem.mp hright
    have hpair := List.pairwise_iff_getElem.mp hlaid.apart
    obtain h | h | h := Nat.lt_trichotomy i j
    · exact .inl (hpair i j hi hj h)
    · subst h
      exact absurd rfl hne
    · exact .inr (hpair j i hj hi h)
  simp only [PeSection.Holds] at hinLeft hinRight
  simp only [PeSection.Apart] at hapart
  omega

/-- The range check of a section says that it ends below the limit and holds the range. -/
theorem PeSection.in_section_iff {pe_section : PeSection} {base rva length : Nat} :
    (match checked_add pe_section.rva pe_section.size with
      | none => false
      | some section_end => decide (pe_section.rva ≤ rva) && decide (rva + length ≤ section_end)) = true ↔
    pe_section.rva + pe_section.size < USIZE_LIMIT ∧ pe_section.Holds base (base + rva) length := by
  by_cases hfits : pe_section.rva + pe_section.size < USIZE_LIMIT
  · rw [checked_add_of_lt hfits]
    simp only [Bool.and_eq_true, decide_eq_true_eq, PeSection.Holds]
    omega
  · rw [checked_add_eq_none_iff.mpr (by omega)]
    simp [hfits]

/-- An RVA that is accepted lies with its range in a section of the scope. -/
theorem ModuleImage.address_from_rva_ok {self : ModuleImage} {rva length address : Nat}
    {scope : ScanScope} (hok : self.address_from_rva rva length scope = .ok address) :
    address = self.base + rva ∧ self.InScope scope (self.base + rva) length := by
  unfold ModuleImage.address_from_rva at hok
  split at hok
  · cases hok
  · rename_i stop hstop
    obtain ⟨rfl, _⟩ := checked_add_eq_some_iff.mp hstop
    split at hok
    · cases hok
    · dsimp only at hok
      split at hok
      · cases hok
      · rename_i hin
        simp only [Bool.not_eq_true', Bool.not_eq_false] at hin
        obtain ⟨loaded, hmem, hloaded⟩ := List.any_eq_true.mp hin
        obtain ⟨hscope, hholds⟩ := Bool.and_eq_true_iff.mp hloaded
        split at hok
        · cases hok
        · rename_i sum hsum
          obtain ⟨rfl, _⟩ := checked_add_eq_some_iff.mp hsum
          cases hok
          exact ⟨rfl, loaded, hmem, hscope, (PeSection.in_section_iff.mp hholds).2⟩

/-- `address_from_rva` accepts exactly the ranges that one section of the scope holds. -/
theorem ModuleImage.address_from_rva_eq_ok_iff {self : ModuleImage} (hvalid : self.Valid)
    {rva length address : Nat} {scope : ScanScope} :
    self.address_from_rva rva length scope = .ok address ↔
      address = self.base + rva ∧ self.InScope scope (self.base + rva) length := by
  refine ⟨ModuleImage.address_from_rva_ok, ?_⟩
  rintro ⟨rfl, hscope⟩
  have htop := hvalid.below_top
  obtain ⟨_, hend⟩ := hscope.in_image hvalid.toLaid
  have hsections : (self.sections.any fun loaded =>
      loaded.metadata.is_in_scope scope &&
        match checked_add loaded.metadata.rva loaded.metadata.size with
        | none => false
        | some section_end =>
          decide (loaded.metadata.rva ≤ rva) && decide (rva + length ≤ section_end)) = true := by
    obtain ⟨loaded, hmem, hin, hholds⟩ := hscope
    have hbounds := hvalid.in_bounds loaded hmem
    exact List.any_eq_true.mpr
      ⟨loaded, hmem, Bool.and_eq_true_iff.mpr ⟨hin, PeSection.in_section_iff.mpr ⟨by omega, hholds⟩⟩⟩
  unfold ModuleImage.address_from_rva
  rw [checked_add_of_lt (by omega)]
  dsimp only
  rw [if_neg (by omega), hsections, checked_add_of_lt (by omega)]
  rfl

/-- `contains_relative_target` holds exactly when the section of the match
also holds the whole target. -/
theorem ModuleImage.contains_relative_target_iff {self : ModuleImage} (hlaid : self.Laid)
    {match_address target_address length : Nat} {scope : ScanScope} :
    self.contains_relative_target match_address target_address length scope = true ↔
      ∃ loaded ∈ self.sections, loaded.metadata.is_in_scope scope = true ∧
        loaded.metadata.Holds self.base match_address 1 ∧
        loaded.metadata.Holds self.base target_address length := by
  have hsize := hlaid.size_lt
  unfold ModuleImage.contains_relative_target
  constructor
  · intro hcontains
    split at hcontains
    · rename_i match_rva target_rva hmatch htarget
      rw [checked_sub_eq_some_iff] at hmatch htarget
      split at hcontains
      · cases hcontains
      · rename_i target_end hend
        obtain ⟨rfl, _⟩ := checked_add_eq_some_iff.mp hend
        obtain ⟨loaded, hmem, hloaded⟩ := List.any_eq_true.mp hcontains
        have hbounds := hlaid.in_bounds loaded hmem
        rw [Bool.and_eq_true, checked_add_of_lt (by omega)] at hloaded
        simp only [Bool.and_eq_true, decide_eq_true_eq] at hloaded
        refine ⟨loaded, hmem, hloaded.1, ?_, ?_⟩
        · simp only [PeSection.Holds]
          omega
        · simp only [PeSection.Holds]
          omega
    · cases hcontains
  · rintro ⟨loaded, hmem, hin, hmatch, htarget⟩
    have hbounds := hlaid.in_bounds loaded hmem
    simp only [PeSection.Holds] at hmatch htarget
    rw [checked_sub_of_le (show self.base ≤ match_address by omega),
      checked_sub_of_le (show self.base ≤ target_address by omega)]
    dsimp only
    rw [checked_add_of_lt (by omega)]
    rw [List.any_eq_true]
    refine ⟨loaded, hmem, ?_⟩
    rw [Bool.and_eq_true, checked_add_of_lt (by omega)]
    simp only [Bool.and_eq_true, decide_eq_true_eq]
    exact ⟨hin, ⟨⟨⟨by omega, by omega⟩, by omega⟩, by omega⟩⟩

/-- The sections that are snapshotted. -/
def PeSection.is_loaded (self : PeSection) : Bool :=
  self.size != 0 && (self.readable || self.executable)

theorem PeSection.is_loaded_eq_false_iff {pe_section : PeSection} :
    pe_section.is_loaded = false ↔
      pe_section.size = 0 ∨ (!pe_section.readable && !pe_section.executable) = true := by
  unfold PeSection.is_loaded
  cases pe_section.readable <;> cases pe_section.executable <;> simp

/-- The image of a module whose readable sections hold what memory holds. -/
def ModuleImage.snapshot (base size : Nat) (sections : List PeSection) (memory : Store UInt8) :
    ModuleImage where
  base := base
  size := size
  sections := (sections.filter PeSection.is_loaded).map fun pe_section =>
    ⟨pe_section, memory.read (base + pe_section.rva) pe_section.size⟩

theorem ModuleImage.snapshot_live (base size : Nat) (sections : List PeSection) (memory : Store UInt8) :
    (ModuleImage.snapshot base size sections memory).Live memory := by
  intro loaded hmem
  obtain ⟨pe_section, _, rfl⟩ := List.mem_map.mp hmem
  rfl

/-- An accepted section table lays out snapshots, whatever memory holds. -/
theorem SectionTable.snapshot_laid {parsed : PEHeaders} {size : Nat} {sections : List PeSection}
    (htable : SectionTable parsed size sections) (base : Nat) (memory : Store UInt8) :
    (ModuleImage.snapshot base size sections memory).Laid where
  in_bounds loaded hmem := by
    obtain ⟨pe_section, hsection, rfl⟩ := List.mem_map.mp hmem
    exact htable.in_bounds pe_section (List.mem_of_mem_filter hsection)
  apart := (htable.apart.filter PeSection.is_loaded).map _ fun _ _ => id
  lengths loaded hmem := by
    obtain ⟨pe_section, _, rfl⟩ := List.mem_map.mp hmem
    exact Store.length_read _ _ _
  size_lt := by
    change size < USIZE_LIMIT
    rw [← htable.image_size]
    exact parsed.size_of_image.toNat_lt

theorem SectionTable.snapshot_valid {parsed : PEHeaders} {base size : Nat} {sections : List PeSection}
    (htable : SectionTable parsed size sections) (htop : base + size < USIZE_LIMIT)
    (memory : Store UInt8) : (ModuleImage.snapshot base size sections memory).Valid :=
  ⟨htable.snapshot_laid base memory, htop⟩

/-- An image with one section. -/
def ModuleImage.for_test_section (base rva : Nat) (bytes : List UInt8) (scope : ScanScope) :
    ModuleImage where
  base := base
  size := rva + bytes.length
  sections := match scope with
    | .Code => [⟨⟨".text", rva, bytes.length, true, true, false⟩, bytes⟩]
    | .ReadOnlyData => [⟨⟨".rdata", rva, bytes.length, false, true, false⟩, bytes⟩]

theorem ModuleImage.for_test_section_valid {base rva : Nat} {bytes : List UInt8} {scope : ScanScope}
    (hlimit : base + (rva + bytes.length) < USIZE_LIMIT) :
    (ModuleImage.for_test_section base rva bytes scope).Valid := by
  cases scope <;> exact ⟨⟨by simp [for_test_section], by simp [for_test_section],
    by simp [for_test_section], Nat.lt_of_le_of_lt (Nat.le_add_left _ base) hlimit⟩, hlimit⟩

theorem ModuleImage.for_test_section_live {base rva : Nat} {bytes : List UInt8} {scope : ScanScope}
    (memory : Store UInt8) :
    (ModuleImage.for_test_section base rva bytes scope).Live (memory.write (base + rva) bytes) := by
  cases scope <;> simp [for_test_section, ModuleImage.Live]

end systemdetection.patches.sigscan
