import SystemDetection.Memory.WriteCases

open effect store

namespace systemdetection.patches.memory

def PAGE_SIZE : Nat := 0x1000

structure PageAttributes where
  State : UInt32
  Protect : UInt32
  deriving DecidableEq

/-- State and protection of every page, by page number. -/
abbrev PageMap := Nat → PageAttributes

/-- Execution is one of the four `PAGE_EXECUTE*` bits. -/
def is_executable (protection : UInt32) : Bool := protection &&& 0xF0 != 0

/-- The page has a byte of the range. -/
def Overlaps (address length page : Nat) : Prop :=
  page * PAGE_SIZE < address + length ∧ address < (page + 1) * PAGE_SIZE

instance (address length page : Nat) : Decidable (Overlaps address length page) :=
  inferInstanceAs (Decidable (_ ∧ _))

def PageMap.protect (pages : PageMap) (address length : Nat) (protection : UInt32) : PageMap :=
  fun page => if Overlaps address length page then { pages page with Protect := protection } else pages page

/-- The answer describes the maximal run of pages with the attributes of the
queried one, from that page up to the first different page or the last page. -/
structure MaximalRun (pages : PageMap) (address : Nat) (information : MemoryBasicInformation) : Prop where
  base : information.BaseAddress = address / PAGE_SIZE * PAGE_SIZE
  run : ∃ count, information.RegionSize = count * PAGE_SIZE ∧
    (∀ page, address / PAGE_SIZE ≤ page → page < address / PAGE_SIZE + count →
      pages page = ⟨information.State, information.Protect⟩) ∧
    (pages (address / PAGE_SIZE + count) ≠ ⟨information.State, information.Protect⟩ ∨
      (address / PAGE_SIZE + count) * PAGE_SIZE = USIZE_LIMIT)

variable {σ : Type}

/-- The documented effect of the system calls on the page map that a state of
the system stands for. Any call may fail, and then changes nothing. -/
structure PagedOs (os : Os σ) (pages : σ → PageMap) : Prop where
  query_answer : ∀ address state information,
    (os.VirtualQuery address state).1 = some information → MaximalRun (pages state) address information
  query_pages : ∀ address state, pages (os.VirtualQuery address state).2 = pages state
  protect_ok : ∀ address length protection state old_protection,
    (os.VirtualProtect address length protection state).1 = .ok old_protection →
      old_protection = (pages state (address / PAGE_SIZE)).Protect ∧
        pages (os.VirtualProtect address length protection state).2 =
          (pages state).protect address length protection
  protect_error : ∀ address length protection state error,
    (os.VirtualProtect address length protection state).1 = .error error →
      pages (os.VirtualProtect address length protection state).2 = pages state
  flush_pages : ∀ address length state,
    pages (os.FlushInstructionCache address length state).2 = pages state

/-- A system state together with every state visited after it was recorded. -/
structure Recorded (σ : Type) where
  state : σ
  visited : List σ

def Recorded.step (recorded : Recorded σ) (state : σ) : Recorded σ :=
  ⟨state, recorded.visited ++ [state]⟩

/-- The same system, keeping the states it goes through. -/
def recording (os : Os σ) : Os (Recorded σ) where
  VirtualQuery address recorded :=
    ((os.VirtualQuery address recorded.state).1,
      recorded.step (os.VirtualQuery address recorded.state).2)
  VirtualProtect address length protection recorded :=
    ((os.VirtualProtect address length protection recorded.state).1,
      recorded.step (os.VirtualProtect address length protection recorded.state).2)
  FlushInstructionCache address length recorded :=
    ((os.FlushInstructionCache address length recorded.state).1,
      recorded.step (os.FlushInstructionCache address length recorded.state).2)

/-- The number of pages from `page` on, at most `remaining`, that have the given attributes. -/
def run_length (pages : PageMap) (attributes : PageAttributes) : Nat → Nat → Nat
  | _, 0 => 0
  | page, remaining + 1 =>
    if pages page = attributes then run_length pages attributes (page + 1) remaining + 1 else 0

/-- The run counted from a page has the same attributes throughout and is maximal. -/
theorem run_length_spec (pages : PageMap) (attributes : PageAttributes) (page remaining : Nat) :
    (∀ other, page ≤ other → other < page + run_length pages attributes page remaining →
        pages other = attributes) ∧
      (pages (page + run_length pages attributes page remaining) ≠ attributes ∨
        run_length pages attributes page remaining = remaining) := by
  induction remaining generalizing page with
  | zero =>
    refine ⟨fun other hlo hhi => ?_, .inr rfl⟩
    simp only [run_length] at hhi
    omega
  | succ remaining ih =>
    obtain ⟨hrun, hend⟩ := ih (page + 1)
    by_cases hpage : pages page = attributes
    · simp only [run_length, if_pos hpage]
      refine ⟨fun other hlo hhi => ?_, ?_⟩
      · by_cases hfirst : other = page
        · rwa [hfirst]
        · exact hrun other (by omega) (by omega)
      · obtain hend | hend := hend
        · refine .inl ?_
          rwa [show page + (run_length pages attributes (page + 1) remaining + 1) =
            page + 1 + run_length pages attributes (page + 1) remaining by omega]
        · exact .inr (by omega)
    · simp only [run_length, if_neg hpage]
      exact ⟨fun other hlo hhi => by omega, .inl hpage⟩

/-- A system made of nothing but its page map. Only committed pages can be reprotected. -/
def page_table : Os PageMap where
  VirtualQuery address pages :=
    if address < USIZE_LIMIT then
      let page := address / PAGE_SIZE
      let count := run_length pages (pages page) page (USIZE_LIMIT / PAGE_SIZE - page)
      (some ⟨page * PAGE_SIZE, count * PAGE_SIZE, (pages page).State, (pages page).Protect⟩, pages)
    else
      (none, pages)
  VirtualProtect address length protection pages :=
    if (pages (address / PAGE_SIZE)).State = MEM_COMMIT then
      (.ok (pages (address / PAGE_SIZE)).Protect, pages.protect address length protection)
    else
      (.error "Attempt to access invalid address. (os error 487)", pages)
  FlushInstructionCache _ _ pages := (.ok (), pages)

/-- The page table answers as the documentation of the three calls says. -/
theorem page_table_paged : PagedOs page_table id where
  query_answer address pages information hanswer := by
    simp only [page_table] at hanswer
    split at hanswer
    · rename_i haddress
      cases hanswer
      have hpage : address / PAGE_SIZE ≤ USIZE_LIMIT / PAGE_SIZE :=
        Nat.div_le_div_right (Nat.le_of_lt haddress)
      obtain ⟨hrun, hend⟩ := run_length_spec pages (pages (address / PAGE_SIZE)) (address / PAGE_SIZE)
        (USIZE_LIMIT / PAGE_SIZE - address / PAGE_SIZE)
      refine ⟨rfl, _, rfl, hrun, ?_⟩
      obtain hend | hend := hend
      · exact .inl hend
      · refine .inr ?_
        rw [hend, Nat.add_sub_cancel' hpage]
        rfl
    · cases hanswer
  query_pages address pages := by
    simp only [page_table]
    split <;> rfl
  protect_ok address length protection pages old_protection hok := by
    simp only [page_table] at hok ⊢
    split at hok
    · rename_i hcommitted
      cases hok
      simp [hcommitted]
    · cases hok
  protect_error address length protection pages error herror := by
    simp only [page_table] at herror ⊢
    split at herror
    · cases herror
    · rename_i hcommitted
      simp [hcommitted]
  flush_pages _ _ _ := rfl

end systemdetection.patches.memory
