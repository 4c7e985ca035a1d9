import SystemDetection.Patches.Planners
import SystemDetection.Patches.TargetMeaning
import SystemDetection.Sigscan.PatternMeaning
import SystemDetection.Store.Stamps

open effect store systemdetection.patches.memory systemdetection.patches.sigscan

namespace systemdetection.patches

variable {σ : Type}

/-- The two byte strings that a target may hold. -/
structure Guard where
  expected : List UInt8
  replacement : List UInt8
  nonempty : replacement ≠ []
  lengths : expected.length = replacement.length

/-- A signature with a guarded target beside its literals. -/
structure Recipe extends Guard where
  signature : String
  pattern : Pattern
  parses : Pattern.parse signature = .ok pattern
  scope : ScanScope
  target_offset : Nat
  wild : ∀ cell ∈ pattern.cells, cell.1 < target_offset ∨ target_offset + expected.length ≤ cell.1

/-- How a patch selects one of its targets: as the only candidate of a
signature, as a known RVA inside its signature, or as a bare guarded RVA. -/
inductive Site where
  | unique (recipe : Recipe)
  | known (recipe : Recipe) (target_rva : Nat)
  | fixed (guard : Guard) (scope : ScanScope) (target_rva : Nat)

def Guard.template (guard : Guard) : Template UInt8 where
  cells := []
  offset := 0
  before := guard.expected
  after := guard.replacement
  same_length := guard.lengths.symm
  apart := by simp

def Recipe.template (recipe : Recipe) : Template UInt8 where
  cells := recipe.pattern.cells
  offset := recipe.target_offset
  before := recipe.expected
  after := recipe.replacement
  same_length := recipe.lengths.symm
  apart := recipe.wild

def Site.guard : Site → Guard
  | .unique recipe => recipe.toGuard
  | .known recipe _ => recipe.toGuard
  | .fixed guard _ _ => guard

/-- The recipe whose signature the site looks for. -/
def Site.recipe : Site → Option Recipe
  | .unique recipe => some recipe
  | .known recipe _ => some recipe
  | .fixed .. => none

def Site.scope : Site → ScanScope
  | .unique recipe => recipe.scope
  | .known recipe _ => recipe.scope
  | .fixed _ scope _ => scope

def Site.template : Site → Template UInt8
  | .unique recipe => recipe.template
  | .known recipe _ => recipe.template
  | .fixed guard _ _ => guard.template

theorem Site.template_before (site : Site) : site.template.before = site.guard.expected := by
  cases site <;> rfl

theorem Site.template_after (site : Site) : site.template.after = site.guard.replacement := by
  cases site <;> rfl

/-- Some section of the scope holds the match and the target. -/
def Recipe.Fits (recipe : Recipe) (image : ModuleImage) (start : Nat) : Prop :=
  ∃ loaded ∈ image.sections, loaded.metadata.is_in_scope recipe.scope = true ∧
    loaded.metadata.Holds image.base start recipe.pattern.len ∧
    loaded.metadata.Holds image.base (start + recipe.target_offset) recipe.expected.length

/-- The starts at which the recipe has a guarded target. -/
def Recipe.candidates (recipe : Recipe) (image : ModuleImage) (memory : Store UInt8) : Set Nat :=
  image.candidates memory recipe.pattern recipe.scope recipe.target_offset recipe.expected
    recipe.replacement

/-- The target that a site selects in an image over a memory. -/
def Site.Resolves (image : ModuleImage) (memory : Store UInt8) : Site → Nat → Prop
  | .unique recipe, target =>
    ∃ start, recipe.candidates image memory = {start} ∧ target = start + recipe.target_offset
  | .known recipe target_rva, target =>
    target = image.base + target_rva ∧
      ∃ start, target = start + recipe.target_offset ∧ image.base ≤ start ∧
        image.InScope recipe.scope start recipe.pattern.len ∧
        image.InScope recipe.scope target recipe.expected.length ∧
        recipe.template.Stands memory start
  | .fixed guard scope target_rva, target =>
    target = image.base + target_rva ∧ image.InScope scope target guard.expected.length ∧
      guard.template.Stands memory target

theorem Recipe.stands_iff {recipe : Recipe} {memory : Store UInt8} {start : Nat} :
    recipe.template.Stands memory start ↔ recipe.pattern.MatchesAt memory start ∧
      (memory.read (start + recipe.target_offset) recipe.expected.length = recipe.expected ∨
        memory.read (start + recipe.target_offset) recipe.expected.length = recipe.replacement) := by
  rw [Template.stands_iff, ← Pattern.cells_meets_iff]
  rfl

theorem Recipe.mem_candidates_iff {recipe : Recipe} {image : ModuleImage} {memory : Store UInt8}
    {start : Nat} :
    start ∈ recipe.candidates image memory ↔
      recipe.Fits image start ∧ recipe.template.Stands memory start := by
  rw [Recipe.stands_iff]
  exact ⟨fun ⟨hfits, hmatches, hguarded⟩ => ⟨hfits, hmatches, hguarded⟩,
    fun ⟨hfits, hmatches, hguarded⟩ => ⟨hfits, hmatches, hguarded⟩⟩

theorem Guard.stands_iff {guard : Guard} {memory : Store UInt8} {target : Nat} :
    guard.template.Stands memory target ↔
      memory.read target guard.expected.length = guard.expected ∨
        memory.read target guard.expected.length = guard.replacement := by
  rw [Template.stands_iff]
  simp [Guard.template, Footprint.Meets]

/-- A site resolves to one target at most. -/
theorem Site.Resolves.unique_target {site : Site} {image : ModuleImage} {memory : Store UInt8}
    {left right : Nat} (hleft : site.Resolves image memory left)
    (hright : site.Resolves image memory right) : left = right := by
  cases site with
  | unique recipe =>
    obtain ⟨first, hfirst, rfl⟩ := hleft
    obtain ⟨second, hsecond, rfl⟩ := hright
    rw [hfirst, Set.singleton_eq_singleton_iff] at hsecond
    rw [hsecond]
  | known recipe target_rva => exact hleft.1.trans hright.1.symm
  | fixed guard scope target_rva => exact hleft.1.trans hright.1.symm

/-- The template of the site, laid so that its target is the selected one. -/
def Site.placement (site : Site) (target : Nat) : Placement UInt8 :=
  ⟨site.template, target - site.template.offset⟩

/-- The template of a site stands at the target that it resolves to. -/
theorem Site.Resolves.placed {site : Site} {image : ModuleImage} {memory : Store UInt8} {target : Nat}
    (hresolves : site.Resolves image memory target) :
    (site.placement target).target = target ∧ (site.placement target).Stands memory := by
  cases site with
  | unique recipe =>
    obtain ⟨start, hone, rfl⟩ := hresolves
    have hstands := (Recipe.mem_candidates_iff.mp (hone.ge rfl)).2
    refine ⟨Nat.sub_add_cancel (Nat.le_add_left _ _), ?_⟩
    change recipe.template.Stands memory (start + recipe.target_offset - recipe.target_offset)
    rwa [Nat.add_sub_cancel]
  | known recipe target_rva =>
    obtain ⟨_, start, rfl, _, _, _, hstands⟩ := hresolves
    refine ⟨Nat.sub_add_cancel (Nat.le_add_left _ _), ?_⟩
    change recipe.template.Stands memory (start + recipe.target_offset - recipe.target_offset)
    rwa [Nat.add_sub_cancel]
  | fixed guard scope target_rva => exact ⟨rfl, hresolves.2.2⟩

/-- The target lies in one section of the scope. -/
theorem Site.Resolves.in_scope {site : Site} {image : ModuleImage} {memory : Store UInt8} {target : Nat}
    (hresolves : site.Resolves image memory target) :
    image.InScope site.scope target site.guard.expected.length := by
  cases site with
  | unique recipe =>
    obtain ⟨start, hone, rfl⟩ := hresolves
    obtain ⟨⟨loaded, hmem, hscope, _, hholds⟩, _⟩ := Recipe.mem_candidates_iff.mp (hone.ge rfl)
    exact ⟨loaded, hmem, hscope, hholds⟩
  | known recipe target_rva =>
    obtain ⟨_, _, _, _, _, htarget, _⟩ := hresolves
    exact htarget
  | fixed guard scope target_rva => exact hresolves.2.1

/-- The target holds one of its two byte strings. -/
theorem Site.Resolves.guarded {site : Site} {image : ModuleImage} {memory : Store UInt8} {target : Nat}
    (hresolves : site.Resolves image memory target) :
    memory.read target site.guard.expected.length = site.guard.expected ∨
      memory.read target site.guard.expected.length = site.guard.replacement := by
  obtain ⟨htarget, hstands⟩ := hresolves.placed
  have hguarded := (Template.stands_iff.mp hstands).2
  change memory.read (site.placement target).target site.template.before.length = site.template.before ∨
    memory.read (site.placement target).target site.template.before.length = site.template.after at hguarded
  rwa [htarget, Site.template_before, Site.template_after] at hguarded

end systemdetection.patches
