import SystemDetection.Sigscan.Image
import SystemDetection.Store.Listing

open store

namespace systemdetection.patches.sigscan

/-- A match lies inside the bytes. -/
theorem Pattern.fits_of_mem_find_offsets {pattern : Pattern} {bytes : List UInt8} {offset : Nat}
    (hmem : offset ∈ pattern.find_offsets bytes) : offset + pattern.len ≤ bytes.length := by
  unfold Pattern.find_offsets at hmem
  split at hmem
  · simp at hmem
  · have := (mem_window_starts_iff.mp hmem).1
    omega

/-- The whole pattern stands at `start`, inside one section of the scope. -/
def ModuleImage.Matched (image : ModuleImage) (memory : Store UInt8) (pattern : Pattern)
    (scope : ScanScope) (start : Nat) : Prop :=
  image.InScope scope start pattern.len ∧ pattern.MatchesAt memory start

/-- A match whose target, at the given offset, lies in the section of the match
and holds the original or the replacement bytes. -/
structure ModuleImage.Candidate (image : ModuleImage) (memory : Store UInt8) (pattern : Pattern)
    (scope : ScanScope) (target_offset : Nat) (expected replacement : List UInt8) (start : Nat) :
    Prop where
  same_section : ∃ loaded ∈ image.sections, loaded.metadata.is_in_scope scope = true ∧
    loaded.metadata.Holds image.base start pattern.len ∧
    loaded.metadata.Holds image.base (start + target_offset) expected.length
  matches_at : pattern.MatchesAt memory start
  guarded : memory.read (start + target_offset) expected.length = expected ∨
    memory.read (start + target_offset) expected.length = replacement

/-- The matches whose target is guarded, in the section of the match. -/
def ModuleImage.candidates (image : ModuleImage) (memory : Store UInt8) (pattern : Pattern)
    (scope : ScanScope) (target_offset : Nat) (expected replacement : List UInt8) : Set Nat :=
  {start | image.Candidate memory pattern scope target_offset expected replacement start}

theorem ModuleImage.Candidate.matched {image : ModuleImage} {memory : Store UInt8} {pattern : Pattern}
    {scope : ScanScope} {target_offset start : Nat} {expected replacement : List UInt8}
    (hcandidate : image.Candidate memory pattern scope target_offset expected replacement start) :
    image.Matched memory pattern scope start := by
  obtain ⟨loaded, hmem, hscope, hholds, _⟩ := hcandidate.same_section
  exact ⟨⟨loaded, hmem, hscope, hholds⟩, hcandidate.matches_at⟩

section Scan

variable {image : ModuleImage} {pattern : Pattern} {scope : ScanScope}

/-- Offsets whose address overflows are dropped. -/
theorem LoadedSection.mem_scan_iff {loaded : LoadedSection} {base start : Nat} :
    start ∈ loaded.scan base pattern scope ↔
      loaded.metadata.is_in_scope scope = true ∧ start < USIZE_LIMIT ∧
        ∃ offset ∈ pattern.find_offsets loaded.bytes, start = base + loaded.metadata.rva + offset := by
  unfold LoadedSection.scan
  cases hscope : loaded.metadata.is_in_scope scope with
  | false => simp
  | true =>
    by_cases hfits : base + loaded.metadata.rva < USIZE_LIMIT
    · rw [checked_add_of_lt hfits]
      simp only [Bool.not_true, Bool.false_eq_true, ↓reduceIte, List.mem_filterMap, true_and,
        checked_add_eq_some_iff]
      constructor
      · rintro ⟨offset, hoffset, rfl, hlimit⟩
        exact ⟨hlimit, offset, hoffset, rfl⟩
      · rintro ⟨hlimit, offset, hoffset, rfl⟩
        exact ⟨offset, hoffset, rfl, hlimit⟩
    · rw [checked_add_eq_none_iff.mpr (by omega)]
      simp only [Bool.not_true, Bool.false_eq_true, ↓reduceIte, List.not_mem_nil, true_and, false_iff]
      rintro ⟨hlimit, offset, _, rfl⟩
      omega

/-- A match found in a section has its whole window there. -/
theorem LoadedSection.holds_of_mem_scan (hlaid : image.Laid) {loaded : LoadedSection}
    (hmem : loaded ∈ image.sections) {start : Nat}
    (hstart : start ∈ loaded.scan image.base pattern scope) :
    loaded.metadata.Holds image.base start pattern.len := by
  obtain ⟨_, _, offset, hoffset, rfl⟩ := LoadedSection.mem_scan_iff.mp hstart
  have hfits := Pattern.fits_of_mem_find_offsets hoffset
  have hlength := hlaid.lengths loaded hmem
  simp only [PeSection.Holds]
  omega

theorem PeSection.Holds.first {pe_section : PeSection} {base address length : Nat}
    (hholds : pe_section.Holds base address length) (hlength : 0 < length) :
    pe_section.Holds base address 1 := by
  simp only [PeSection.Holds] at hholds ⊢
  omega

/-- On a live snapshot the scan finds exactly the representable addresses where
the whole pattern matches inside one section of the scope. -/
theorem ModuleImage.Laid.mem_scan_iff (hlaid : image.Laid) {memory : Store UInt8}
    (hlive : image.Live memory) {start : Nat} :
    start ∈ image.scan pattern scope ↔
      start < USIZE_LIMIT ∧ image.Matched memory pattern scope start := by
  unfold ModuleImage.scan
  rw [List.mem_flatMap]
  constructor
  · rintro ⟨loaded, hmem, hstart⟩
    have hholds := LoadedSection.holds_of_mem_scan hlaid hmem hstart
    obtain ⟨hscope, hlimit, offset, hoffset, rfl⟩ := LoadedSection.mem_scan_iff.mp hstart
    rw [← hlive loaded hmem, Pattern.mem_find_offsets_iff] at hoffset
    exact ⟨hlimit, ⟨loaded, hmem, hscope, hholds⟩, hoffset.2⟩
  · rintro ⟨hlimit, ⟨loaded, hmem, hscope, hlo, hhi⟩, hmatch⟩
    refine ⟨loaded, hmem, LoadedSection.mem_scan_iff.mpr ⟨hscope, hlimit, ?_⟩⟩
    refine ⟨start - (image.base + loaded.metadata.rva), ?_, by omega⟩
    rw [← hlive loaded hmem, Pattern.mem_find_offsets_iff]
    refine ⟨by omega, ?_⟩
    rwa [Nat.add_sub_cancel' hlo]

/-- In a valid image no match is dropped. -/
theorem ModuleImage.mem_scan_iff (hvalid : image.Valid) {memory : Store UInt8}
    (hlive : image.Live memory) {start : Nat} :
    start ∈ image.scan pattern scope ↔ image.Matched memory pattern scope start := by
  rw [hvalid.mem_scan_iff hlive, and_iff_right_iff_imp]
  intro hmatched
  have := hvalid.below_top
  have := (hmatched.1.in_image hvalid.toLaid).2
  have := pattern.len_pos
  omega

/-- No match is counted twice: not inside a section, whose offsets increase,
and not across sections, which share no address. -/
theorem ModuleImage.scan_nodup (hvalid : image.Valid) : (image.scan pattern scope).Nodup := by
  unfold ModuleImage.scan
  rw [List.nodup_flatMap]
  constructor
  · intro loaded _
    unfold LoadedSection.scan
    split
    · exact List.nodup_nil
    · split
      · exact List.nodup_nil
      · apply List.Nodup.filterMap
        · intro first second address hfirst hsecond
          have h₁ := (checked_add_eq_some_iff.mp hfirst).1
          have h₂ := (checked_add_eq_some_iff.mp hsecond).1
          omega
        · exact (pattern.find_offsets_sorted loaded.bytes).imp Nat.ne_of_lt
  · have hpos := pattern.len_pos
    rw [List.pairwise_iff_getElem]
    intro i j hi hj hlt start hleft hright
    have hapart := List.pairwise_iff_getElem.mp hvalid.apart i j hi hj hlt
    have hinLeft := LoadedSection.holds_of_mem_scan hvalid.toLaid (List.getElem_mem hi) hleft
    have hinRight := LoadedSection.holds_of_mem_scan hvalid.toLaid (List.getElem_mem hj) hright
    simp only [PeSection.Holds] at hinLeft hinRight
    simp only [PeSection.Apart] at hapart
    omega

theorem ModuleImage.scan_lists (hvalid : image.Valid) {memory : Store UInt8}
    (hlive : image.Live memory) (pattern : Pattern) (scope : ScanScope) :
    Lists (image.scan pattern scope) {start | image.Matched memory pattern scope start} where
  nodup := ModuleImage.scan_nodup hvalid
  mem_iff _ := ModuleImage.mem_scan_iff hvalid hlive

end Scan

end systemdetection.patches.sigscan
