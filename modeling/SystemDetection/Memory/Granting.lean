import SystemDetection.Memory.Protection
import SystemDetection.Memory.Reliable

open effect store

namespace systemdetection.patches.memory

variable {σ : Type} {os : Os σ} {pages : σ → PageMap} {map : PageMap}

/-- The documented system when it refuses nothing that it may grant: it answers for
every address, gives committed pages any readable protection, and flushes. -/
structure GrantingOs (os : Os σ) (pages : σ → PageMap) : Prop extends PagedOs os pages where
  answers : ∀ address state, address < USIZE_LIMIT → ∃ information,
    (os.VirtualQuery address state).1 = some information ∧ 0 < information.RegionSize
  grants : ∀ address length protection state, 0 < length → is_readable_protection protection = true →
    (∀ page, Overlaps address length page → (pages state page).State = MEM_COMMIT) →
      ∃ old_protection, (os.VirtualProtect address length protection state).1 = .ok old_protection
  flushes : ∀ address length state, (os.FlushInstructionCache address length state).1 = .ok ()

/-- A page that may be read. -/
structure PageAttributes.Accessible (attributes : PageAttributes) : Prop where
  committed : attributes.State = MEM_COMMIT
  unguarded : attributes.Protect &&& PAGE_GUARD = 0
  readable : is_readable_protection attributes.Protect = true

/-- The last page of the address space, which no program may access. -/
def top_page : Nat := USIZE_LIMIT / PAGE_SIZE - 1

theorem page_le (address : Nat) : address / PAGE_SIZE * PAGE_SIZE ≤ address := Nat.div_mul_le_self _ _

theorem lt_next_page (address : Nat) : address < (address / PAGE_SIZE + 1) * PAGE_SIZE := by
  rw [Nat.add_mul, Nat.one_mul]
  have hpositive : 0 < PAGE_SIZE := by decide
  exact Nat.lt_div_mul_add hpositive

theorem overlaps_first {address length : Nat} (hlength : 0 < length) :
    Overlaps address length (address / PAGE_SIZE) := by
  have := page_le address
  exact ⟨by omega, lt_next_page address⟩

/-- No address lies above the top page. -/
theorem page_le_top {address : Nat} (hlimit : address < USIZE_LIMIT) : address / PAGE_SIZE ≤ top_page := by
  have hpositive : 0 < PAGE_SIZE := by decide
  have hwhole : USIZE_LIMIT / PAGE_SIZE * PAGE_SIZE = USIZE_LIMIT := by decide
  rw [← hwhole] at hlimit
  exact Nat.le_pred_of_lt ((Nat.div_lt_iff_lt_mul hpositive).mpr hlimit)

/-- A run of at least one page has the attributes of the queried page and goes past its address. -/
theorem MaximalRun.first {address : Nat} {information : MemoryBasicInformation}
    (hrun : MaximalRun map address information) (hsize : 0 < information.RegionSize) :
    map (address / PAGE_SIZE) = ⟨information.State, information.Protect⟩ ∧
      address < information.BaseAddress + information.RegionSize := by
  obtain ⟨count, hcount, hsame, _⟩ := hrun.run
  have hpositive : 0 < count := by
    by_contra hzero
    rw [Nat.eq_zero_of_not_pos hzero, Nat.zero_mul] at hcount
    omega
  refine ⟨hsame _ (Nat.le_refl _) (by omega), ?_⟩
  have hnext := lt_next_page address
  have hle : (address / PAGE_SIZE + 1) * PAGE_SIZE ≤ (address / PAGE_SIZE + count) * PAGE_SIZE :=
    Nat.mul_le_mul_right _ (by omega)
  rw [hrun.base, hcount, ← Nat.add_mul]
  omega

/-- The run of an accessible page ends below the inaccessible last page. -/
theorem MaximalRun.end_lt {address : Nat} {information : MemoryBasicInformation}
    (hrun : MaximalRun map address information) (hsize : 0 < information.RegionSize)
    (hlimit : address < USIZE_LIMIT) (haccessible : (map (address / PAGE_SIZE)).Accessible)
    (htop : ¬(map top_page).Accessible) :
    information.BaseAddress + information.RegionSize < USIZE_LIMIT := by
  obtain ⟨hfirst, _⟩ := hrun.first hsize
  obtain ⟨count, hcount, hsame, _⟩ := hrun.run
  have hbelow : address / PAGE_SIZE + count ≤ top_page := by
    by_contra hbeyond
    apply htop
    rw [hsame top_page (page_le_top hlimit) (by omega), ← hfirst]
    exact haccessible
  have hend : (address / PAGE_SIZE + count) * PAGE_SIZE ≤ top_page * PAGE_SIZE :=
    Nat.mul_le_mul_right _ hbelow
  rw [hrun.base, hcount, ← Nat.add_mul]
  exact Nat.lt_of_le_of_lt hend (by decide)

/-- A range of pages with equal attributes lies in the run of its first page. -/
theorem MaximalRun.inside {address length : Nat} {information : MemoryBasicInformation}
    (hrun : MaximalRun map address information) (hsize : 0 < information.RegionSize)
    (hlimit : address + length ≤ USIZE_LIMIT)
    (hsame : ∀ page, Overlaps address length page → map page = map (address / PAGE_SIZE)) :
    address + length ≤ information.BaseAddress + information.RegionSize := by
  obtain ⟨hfirst, hpast⟩ := hrun.first hsize
  obtain ⟨count, hcount, _, hend⟩ := hrun.run
  have hstop : information.BaseAddress + information.RegionSize = (address / PAGE_SIZE + count) * PAGE_SIZE := by
    rw [hrun.base, hcount, Nat.add_mul]
  by_contra hbeyond
  -- The page behind the run is still in the range, so it continues the run.
  have hnext : Overlaps address length (address / PAGE_SIZE + count) := by
    refine ⟨by omega, ?_⟩
    rw [Nat.add_mul _ 1]
    omega
  obtain hdiffers | hlast := hend
  · exact hdiffers ((hsame _ hnext).trans hfirst)
  · omega

namespace GrantingOs

variable (hgrants : GrantingOs os pages)
include hgrants

theorem queryable (accepted : PageMap → Prop) : Queryable os fun state => accepted (pages state) := by
  intro address state haccepted
  rwa [hgrants.query_pages]

/-- Accessible pages are readable memory, for as long as they are accessible. -/
theorem readable {accepted : PageMap → Prop} {start stop : Nat} (hlimit : stop ≤ USIZE_LIMIT)
    (haccepted : ∀ map, accepted map → ¬(map top_page).Accessible ∧
      ∀ address, start ≤ address → address < stop → (map (address / PAGE_SIZE)).Accessible) :
    Readable os (fun state => accepted (pages state)) start stop where
  answers state hstate address hstart hstop := by
    obtain ⟨htop, haccessible⟩ := haccepted (pages state) hstate
    have hbelow : address < USIZE_LIMIT := by omega
    obtain ⟨information, hanswer, hsize⟩ := hgrants.answers address state hbelow
    have hrun := hgrants.query_answer address state information hanswer
    have hpage := haccessible address hstart hstop
    obtain ⟨hfirst, hpast⟩ := hrun.first hsize
    have hend := hrun.end_lt hsize hbelow hpage htop
    rw [hfirst] at hpage
    exact ⟨information, _, Prod.ext hanswer rfl, hgrants.queryable accepted address state hstate,
      hpage.committed, hpage.unguarded, hpage.readable, hpast, hend⟩

/-- Accessible pages of equal attributes are writable memory: making them writable and
giving the old protection back leaves the page map as it was. -/
theorem writable {accepted : PageMap → Prop} {address length : Nat} (hlength : 0 < length)
    (hlimit : address + length ≤ USIZE_LIMIT)
    (haccepted : ∀ map, accepted map → (map (address / PAGE_SIZE)).Accessible ∧
      ∀ page, Overlaps address length page → map page = map (address / PAGE_SIZE)) :
    Writable os (fun state => accepted (pages state)) address length where
  single_region state hstate information state' hquery := by
    have hanswer : (os.VirtualQuery address state).1 = some information := by rw [hquery]
    obtain ⟨other, hother, hsize⟩ := hgrants.answers address state (by omega)
    obtain rfl : information = other := Option.some.inj (hanswer.symm.trans hother)
    exact (hgrants.query_answer address state information hanswer).inside hsize hlimit (haccepted _ hstate).2
  cycle state hstate protection hprotection := by
    obtain ⟨haccessible, hsame⟩ := haccepted (pages state) hstate
    obtain ⟨information, hanswer, hsize⟩ := hgrants.answers address state (by omega)
    have hrun := hgrants.query_answer address state information hanswer
    have hinside := hrun.inside hsize hlimit hsame
    have hreadable : is_readable_protection protection = true := by
      obtain rfl | rfl := hprotection <;> decide
    have hcommitted : ∀ page, Overlaps address length page → (pages state page).State = MEM_COMMIT :=
      fun page hpage => by rw [hsame page hpage, haccessible.committed]
    obtain ⟨old_protection, hprotect⟩ :=
      hgrants.grants address length protection state hlength hreadable hcommitted
    obtain ⟨rfl, hunlocked⟩ := hgrants.protect_ok _ _ _ _ _ hprotect
    let unlocked := (os.VirtualProtect address length protection state).2
    have hcommitted' : ∀ page, Overlaps address length page → (pages unlocked page).State = MEM_COMMIT := by
      intro page hpage
      rw [hunlocked, PageMap.protect, if_pos hpage]
      exact hcommitted page hpage
    obtain ⟨previous, hrestore⟩ :=
      hgrants.grants address length _ unlocked hlength haccessible.readable hcommitted'
    obtain ⟨_, hrestored⟩ := hgrants.protect_ok _ _ _ _ _ hrestore
    rw [hunlocked, (hrun.first hsize).1, PageMap.protect_restore hrun hinside] at hrestored
    rw [(hrun.first hsize).1] at hprotect hrestore
    refine ⟨_, unlocked, previous, _, _, Prod.ext hprotect rfl, Prod.ext hrestore rfl,
      Prod.ext (hgrants.flushes _ _ _) rfl, ?_⟩
    rwa [hgrants.flush_pages, hrestored]

end GrantingOs

/-- The page table refuses no protection that a write asks for. -/
theorem page_table_granting : GrantingOs page_table id where
  toPagedOs := page_table_paged
  answers address state hlimit := by
    refine ⟨_, by simp only [page_table, if_pos hlimit]; rfl, ?_⟩
    have hpage := page_le_top hlimit
    have hlast : USIZE_LIMIT / PAGE_SIZE = top_page + 1 := by decide
    obtain ⟨remaining, hremaining⟩ : ∃ remaining, USIZE_LIMIT / PAGE_SIZE - address / PAGE_SIZE = remaining + 1 :=
      ⟨top_page - address / PAGE_SIZE, by omega⟩
    simp only [hremaining, run_length, ↓reduceIte]
    exact Nat.mul_pos (Nat.succ_pos _) (by decide)
  grants address length protection state hlength _ hcommitted := by
    have hfirst : (state (address / PAGE_SIZE)).State = MEM_COMMIT := hcommitted _ (overlaps_first hlength)
    exact ⟨(state (address / PAGE_SIZE)).Protect, by simp only [page_table, if_pos hfirst]⟩
  flushes _ _ _ := rfl

/-- The pages of the range are committed with one protection, below the end of the address space. -/
structure Mapped (base size : Nat) (protection : UInt32) (map : PageMap) : Prop where
  inside : ∀ page, Overlaps base size page → map page = ⟨MEM_COMMIT, protection⟩
  top : ¬(map top_page).Accessible

section Mapped

variable {base size : Nat} {protection : UInt32} (hgrants : GrantingOs os pages)
  (hprotection : PageAttributes.Accessible ⟨MEM_COMMIT, protection⟩) (hlimit : base + size ≤ USIZE_LIMIT)
include hgrants hprotection hlimit

/-- Mapped pages can be read throughout. -/
theorem mapped_readable :
    Readable os (fun state => Mapped base size protection (pages state)) base (base + size) := by
  refine hgrants.readable hlimit fun map hmapped => ⟨hmapped.top, fun address hstart hstop => ?_⟩
  have hnext := lt_next_page address
  have hpage := page_le address
  rw [hmapped.inside _ ⟨by omega, by omega⟩]
  exact hprotection

/-- Mapped pages can be written wherever the range lies in them. -/
theorem mapped_writable {address length : Nat} (hlength : 0 < length) (hstart : base ≤ address)
    (hstop : address + length ≤ base + size) :
    Writable os (fun state => Mapped base size protection (pages state)) address length := by
  refine hgrants.writable hlength (by omega) fun map hmapped => ?_
  have hinside : ∀ page, Overlaps address length page → map page = ⟨MEM_COMMIT, protection⟩ := by
    rintro page ⟨hlo, hhi⟩
    exact hmapped.inside page ⟨by omega, by omega⟩
  have hfirst := hinside _ (overlaps_first hlength)
  refine ⟨?_, fun page hpage => (hinside page hpage).trans hfirst.symm⟩
  rw [hfirst]
  exact hprotection

end Mapped

/-- Whether a range is mapped is seen from its pages, one after the other, and the last one. -/
theorem mapped_of_pages {base size : Nat} {protection : UInt32} (haligned : base % PAGE_SIZE = 0)
    (hpages : ∀ index < (size + PAGE_SIZE - 1) / PAGE_SIZE,
      map (base / PAGE_SIZE + index) = ⟨MEM_COMMIT, protection⟩)
    (htop : (map top_page).State ≠ MEM_COMMIT) : Mapped base size protection map where
  inside page hpage := by
    obtain ⟨hlo, hhi⟩ := hpage
    have hpositive : 0 < PAGE_SIZE := by decide
    have hbase := Nat.div_mul_cancel (Nat.dvd_of_mod_eq_zero haligned)
    have hfirst : base / PAGE_SIZE ≤ page :=
      Nat.le_of_lt_succ ((Nat.div_lt_iff_lt_mul hpositive).mpr (by rwa [Nat.succ_eq_add_one]))
    obtain ⟨index, rfl⟩ := Nat.exists_eq_add_of_le hfirst
    rw [Nat.add_mul, hbase] at hlo
    refine hpages index ((Nat.le_div_iff_mul_le hpositive).mpr ?_)
    rw [Nat.succ_eq_add_one, Nat.add_mul]
    omega
  top haccessible := htop haccessible.committed

/-- The pages of the range in an otherwise free address space. -/
def mapped_pages (base size : Nat) (protection : UInt32) : PageMap := fun page =>
  if Overlaps base size page then ⟨MEM_COMMIT, protection⟩ else ⟨0x10000, 0x01⟩

/-- The page map of one mapping has that mapping and nothing else. -/
theorem mapped_pages_mapped {base size : Nat} {protection : UInt32} (hlimit : base + size ≤ top_page * PAGE_SIZE) :
    Mapped base size protection (mapped_pages base size protection) where
  inside page hpage := if_pos hpage
  top haccessible := by
    have houtside : mapped_pages base size protection top_page = ⟨0x10000, 0x01⟩ :=
      if_neg fun hoverlaps => by
        have := hoverlaps.1
        omega
    rw [houtside] at haccessible
    exact absurd haccessible.committed (by decide)

theorem execute_read_accessible : PageAttributes.Accessible ⟨MEM_COMMIT, PAGE_EXECUTE_READ⟩ where
  committed := rfl
  unguarded := by decide
  readable := by decide

theorem readwrite_accessible : PageAttributes.Accessible ⟨MEM_COMMIT, PAGE_READWRITE⟩ where
  committed := rfl
  unguarded := by decide
  readable := by decide

end systemdetection.patches.memory
