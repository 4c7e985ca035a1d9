import SystemDetection.Patches.Sites
import SystemDetection.Store.Guards

open effect store systemdetection.patches.memory systemdetection.patches.sigscan

namespace systemdetection.patches

variable {σ : Type}

def jackal_tapes_recipe : Recipe where
  signature := signatures.JACKAL_TAPES
  pattern := ⟨[some 0x80, some 0x7E, some 0x74, some 0x00, some 0x75, none, some 0x3B, some 0xCA,
    some 0x75], by simp⟩
  parses := by rfl
  scope := .Code
  target_offset := 5
  expected := [0x0A]
  replacement := [0x14]
  nonempty := by simp
  lengths := rfl
  wild := by decide

def devmode_always_on_recipe : Recipe where
  signature := signatures.DEVMODE_ALWAYS_ON
  pattern := ⟨[some 0x80, some 0x79, none, some 0x00, some 0x8B, some 0x54, some 0x24, none, none],
    by simp⟩
  parses := by rfl
  scope := .Code
  target_offset := 8
  expected := [0x75]
  replacement := [0xEB]
  nonempty := by simp
  lengths := rfl
  wild := by decide

def predecessor_tapes_recipe : Recipe where
  signature := signatures.PREDECESSOR_TAPES_STEAM
  pattern := ⟨[some 0x8B, some 0x49, some 0x0C, some 0x85, some 0xC9, none, none, some 0x8B, some 0x44,
    some 0x24], by simp⟩
  parses := by rfl
  scope := .Code
  target_offset := 5
  expected := [0x74, 0x16]
  replacement := [0xEB, 0x0E]
  nonempty := by simp
  lengths := rfl
  wild := by decide

def machetes_recipe : Recipe where
  signature := signatures.MACHETES
  pattern := ⟨[some 0x83, some 0xEC, none, some 0x53, some 0x8D, some 0x44, some 0x24, none, some 0x50,
    some 0x68], by simp⟩
  parses := by rfl
  scope := .Code
  target_offset := 0x69
  expected := [0x8A, 0xC3]
  replacement := [0xB0, 0x01]
  nonempty := by simp
  lengths := rfl
  wild := by decide

def mesh_highlight_recipe : Recipe where
  signature := signatures.MESH_HIGHLIGHT
  pattern := ⟨[some 0x4D, some 0x65, some 0x73, some 0x68, none, some 0x48, some 0x69, some 0x67,
    some 0x68, some 0x6C, some 0x69, some 0x67, some 0x68, some 0x74], by simp⟩
  parses := by rfl
  scope := .ReadOnlyData
  target_offset := 4
  expected := [0x5F]
  replacement := [0x2E]
  nonempty := by simp
  lengths := rfl
  wild := by decide

def arch_blink_recipe : Recipe where
  signature := signatures.ARCH_BLINK
  pattern := ⟨[some 0x61, some 0x72, some 0x63, some 0x68, some 0x42, some 0x6C, some 0x69, some 0x6E,
    none], by simp⟩
  parses := by rfl
  scope := .ReadOnlyData
  target_offset := 8
  expected := [0x6B]
  replacement := [0x2E]
  nonempty := by simp
  lengths := rfl
  wild := by decide

def save_disk_recipe : Recipe where
  signature := signatures.SAVE_DISK
  pattern := ⟨[some 0x67, some 0x61, some 0x64, some 0x67, some 0x65, some 0x74, some 0x73, some 0x2E,
    some 0x4F, some 0x62, some 0x6A, some 0x65, some 0x63, some 0x74, some 0x69, some 0x76, some 0x65,
    some 0x49, some 0x63, some 0x6F, some 0x6E, some 0x73, some 0x2E, some 0x53, some 0x61, some 0x76,
    some 0x65, some 0x44, some 0x69, some 0x73, some 0x6B, none], by simp⟩
  parses := by decide +kernel
  scope := .ReadOnlyData
  target_offset := 31
  expected := [0x00]
  replacement := [0x2E]
  nonempty := by simp
  lengths := rfl
  wild := by decide

def retail_predecessor_guard : Guard where
  expected := [0x8A, 0xC3]
  replacement := [0xB0, 0x01]
  nonempty := by simp
  lengths := rfl

/-- The planners search for the recipe with these arguments. -/
def Recipe.Describes (recipe : Recipe) (signature : String) (scope : ScanScope) (target_offset : Nat)
    (expected replacement : List UInt8) : Prop :=
  recipe.signature = signature ∧ recipe.scope = scope ∧ recipe.target_offset = target_offset ∧
    recipe.expected = expected ∧ recipe.replacement = replacement

theorem jackal_tapes_describes :
    jackal_tapes_recipe.Describes signatures.JACKAL_TAPES .Code 5 [0x0A] [0x14] :=
  ⟨rfl, rfl, rfl, rfl, rfl⟩

theorem devmode_always_on_describes :
    devmode_always_on_recipe.Describes signatures.DEVMODE_ALWAYS_ON .Code 8 [0x75] [0xEB] :=
  ⟨rfl, rfl, rfl, rfl, rfl⟩

theorem predecessor_tapes_describes :
    predecessor_tapes_recipe.Describes signatures.PREDECESSOR_TAPES_STEAM .Code 5 [0x74, 0x16]
      [0xEB, 0x0E] :=
  ⟨rfl, rfl, rfl, rfl, rfl⟩

theorem machetes_describes :
    machetes_recipe.Describes signatures.MACHETES .Code 0x69 [0x8A, 0xC3] [0xB0, 0x01] :=
  ⟨rfl, rfl, rfl, rfl, rfl⟩

theorem mesh_highlight_describes :
    mesh_highlight_recipe.Describes signatures.MESH_HIGHLIGHT .ReadOnlyData 4 [0x5F] [0x2E] :=
  ⟨rfl, rfl, rfl, rfl, rfl⟩

theorem arch_blink_describes :
    arch_blink_recipe.Describes signatures.ARCH_BLINK .ReadOnlyData 8 [0x6B] [0x2E] :=
  ⟨rfl, rfl, rfl, rfl, rfl⟩

theorem save_disk_describes :
    save_disk_recipe.Describes signatures.SAVE_DISK .ReadOnlyData 31 [0x00] [0x2E] :=
  ⟨rfl, rfl, rfl, rfl, rfl⟩

/-- The targets of a patch, in the order of the writes of its plan. -/
def Patch.sites (build : DuniaBuild) : Patch → List Site
  | .jackal_tapes => [.unique jackal_tapes_recipe]
  | .devmode_always_on => [.unique devmode_always_on_recipe]
  | .predecessor_tapes => match build with
    | .Retail => [.fixed retail_predecessor_guard .Code RETAIL_PREDECESSOR_RVA]
    | .Steam | .Ubisoft | .Unknown _ => [.unique predecessor_tapes_recipe]
  | .machetes => [.unique machetes_recipe]
  | .no_blinking_items => match no_blink_rvas build with
    | some (mesh_rva, arch_rva, save_rva) =>
      [.known mesh_highlight_recipe mesh_rva, .known arch_blink_recipe arch_rva,
        .known save_disk_recipe save_rva]
    | none => [.unique mesh_highlight_recipe, .unique arch_blink_recipe, .unique save_disk_recipe]

def patch_recipes : List Recipe :=
  [jackal_tapes_recipe, devmode_always_on_recipe, predecessor_tapes_recipe, machetes_recipe,
    mesh_highlight_recipe, arch_blink_recipe, save_disk_recipe]

/-- Every target is selected by a recipe, but for the one at a bare RVA. -/
theorem Patch.site_cases {build : DuniaBuild} {patch : Patch} {site : Site} (hsite : site ∈ patch.sites build) :
    (∃ recipe ∈ patch_recipes, site = .unique recipe ∨ ∃ target_rva, site = .known recipe target_rva) ∨
      site = .fixed retail_predecessor_guard .Code RETAIL_PREDECESSOR_RVA := by
  cases patch with
  | no_blinking_items =>
    left
    simp only [Patch.sites] at hsite
    split at hsite <;> simp only [List.mem_cons, List.not_mem_nil, or_false] at hsite <;>
      obtain rfl | rfl | rfl := hsite <;> simp [patch_recipes]
  | predecessor_tapes =>
    simp only [Patch.sites] at hsite
    split at hsite <;> simp only [List.mem_cons, List.not_mem_nil, or_false] at hsite <;>
      subst hsite <;> simp [patch_recipes]
  | jackal_tapes | devmode_always_on | machetes =>
    simp only [Patch.sites, List.mem_cons, List.not_mem_nil, or_false] at hsite
    subst hsite
    simp [patch_recipes]

theorem Patch.recipe_mem {build : DuniaBuild} {patch : Patch} {site : Site} {recipe : Recipe}
    (hsite : site ∈ patch.sites build) (hrecipe : site.recipe = some recipe) : recipe ∈ patch_recipes := by
  obtain ⟨_, hmem, rfl | ⟨_, rfl⟩⟩ | rfl := Patch.site_cases hsite <;> cases hrecipe <;> exact hmem

/-- The liberties of the number parser do not reach the patches: each of their
signatures spells the pattern that is read from it. -/
theorem Patch.signature_spells {build : DuniaBuild} {patch : Patch} {site : Site} {recipe : Recipe}
    (hsite : site ∈ patch.sites build) (hrecipe : site.recipe = some recipe) :
    recipe.pattern.SpelledBy recipe.signature := by
  have hshort : ∀ recipe ∈ patch_recipes, ∀ word ∈ split_whitespace recipe.signature.toList,
      word.head? ≠ some '+' ∧ word.length ≤ 2 := by decide +kernel
  exact Pattern.spelledBy_of_parse recipe.parses (hshort recipe (Patch.recipe_mem hsite hrecipe))

/-- The write goes to the target that the site selects. -/
def Site.Accepts (image : ModuleImage) (memory : Store UInt8) (site : Site) (write : CheckedWrite) :
    Prop :=
  site.Resolves image memory write.address ∧ write.expected = site.guard.expected ∧
    write.replacement = site.guard.replacement

/-- The writes go to the targets of the sites, one by one. -/
def PatchPlan.Follows (plan : PatchPlan) (image : ModuleImage) (memory : Store UInt8)
    (sites : List Site) : Prop :=
  List.Forall₂ (Site.Accepts image memory) sites plan.writes

/-- The write that a site makes at its target. -/
def Guard.write (guard : Guard) (target : Nat) : CheckedWrite :=
  ⟨target, guard.expected, guard.replacement⟩

/-- A site accepts the write of its guard at the target that it resolves to. -/
theorem Site.accepts_iff {image : ModuleImage} {memory : Store UInt8} {site : Site}
    {write : CheckedWrite} :
    site.Accepts image memory write ↔
      ∃ target, site.Resolves image memory target ∧ write = site.guard.write target := by
  constructor
  · rintro ⟨hresolves, hexpected, hreplacement⟩
    refine ⟨write.address, hresolves, ?_⟩
    rw [Guard.write, ← hexpected, ← hreplacement]
  · rintro ⟨target, hresolves, rfl⟩
    exact ⟨hresolves, rfl, rfl⟩

/-- The three ways in which the planners make a plan, for any recipes: one
guarded write at the target of a signature, three at known RVAs, and three at
targets that are all found before the first of them is validated again. -/
def unique_plan (os : Os σ) (image : ModuleImage) (recipe : Recipe) :
    Action (World σ) PatchError PatchPlan := do
  let target ← find_signature_target os image recipe.signature recipe.scope recipe.target_offset
    recipe.expected recipe.replacement
  PatchPlan.single os target recipe.expected recipe.replacement

def known_write (os : Os σ) (image : ModuleImage) (recipe : Recipe) (target_rva : Nat) :
    Action (World σ) PatchError CheckedWrite :=
  checked_known_signature_write os image recipe.signature recipe.scope target_rva recipe.target_offset
    recipe.expected recipe.replacement

def known_plan (os : Os σ) (image : ModuleImage) (first second third : Recipe)
    (first_rva second_rva third_rva : Nat) : Action (World σ) PatchError PatchPlan := do
  let first_write ← known_write os image first first_rva
  let second_write ← known_write os image second second_rva
  let third_write ← known_write os image third third_rva
  Action.lift (PatchPlan.new [first_write, second_write, third_write])

def fallback_plan (os : Os σ) (image : ModuleImage) (first second third : Recipe) :
    Action (World σ) PatchError PatchPlan := do
  let first_target ← find_signature_target os image first.signature first.scope first.target_offset
    first.expected first.replacement
  let second_target ← find_signature_target os image second.signature second.scope second.target_offset
    second.expected second.replacement
  let third_target ← find_signature_target os image third.signature third.scope third.target_offset
    third.expected third.replacement
  let first_write ← CheckedWrite.validated os first_target first.expected first.replacement
  let second_write ← CheckedWrite.validated os second_target second.expected second.replacement
  let third_write ← CheckedWrite.validated os third_target third.expected third.replacement
  Action.lift (PatchPlan.new [first_write, second_write, third_write])

/-- A bare guarded RVA. -/
def fixed_plan (os : Os σ) (image : ModuleImage) (guard : Guard) (scope : ScanScope) (target_rva : Nat) :
    Action (World σ) PatchError PatchPlan := do
  let target ← Action.lift
    ((image.address_from_rva target_rva guard.expected.length scope).mapError PatchError.Scan)
  PatchPlan.single os target guard.expected guard.replacement

/-- The planners make their plans in these ways. The arguments are compared one
by one, since comparing the planners as wholes would run the signature parser. -/
theorem Recipe.Describes.unique_plan_eq (os : Os σ) (image : ModuleImage) {recipe : Recipe}
    {signature : String} {scope : ScanScope} {target_offset : Nat} {expected replacement : List UInt8}
    (hdescribes : recipe.Describes signature scope target_offset expected replacement) :
    (do
      let target ← find_signature_target os image signature scope target_offset expected replacement
      PatchPlan.single os target expected replacement) = unique_plan os image recipe := by
  obtain ⟨rfl, rfl, rfl, rfl, rfl⟩ := hdescribes
  rfl

theorem plan_jackal_tapes_eq (os : Os σ) (image : ModuleImage) :
    plan_jackal_tapes os image = unique_plan os image jackal_tapes_recipe :=
  jackal_tapes_describes.unique_plan_eq os image

theorem plan_devmode_always_on_eq (os : Os σ) (image : ModuleImage) :
    plan_devmode_always_on os image = unique_plan os image devmode_always_on_recipe :=
  devmode_always_on_describes.unique_plan_eq os image

theorem plan_machetes_eq (os : Os σ) (image : ModuleImage) :
    plan_machetes os image = unique_plan os image machetes_recipe :=
  machetes_describes.unique_plan_eq os image

/-- On the Retail build the predecessor tapes have a fixed RVA, elsewhere a signature. -/
theorem plan_predecessor_tapes_eq (os : Os σ) (image : ModuleImage) (build : DuniaBuild) :
    plan_predecessor_tapes os image build = match build with
      | .Retail => fixed_plan os image retail_predecessor_guard .Code RETAIL_PREDECESSOR_RVA
      | .Steam | .Ubisoft | .Unknown _ => unique_plan os image predecessor_tapes_recipe := by
  cases build with
  | Retail => rfl
  | Steam => exact predecessor_tapes_describes.unique_plan_eq os image
  | Ubisoft => exact predecessor_tapes_describes.unique_plan_eq os image
  | Unknown _ => exact predecessor_tapes_describes.unique_plan_eq os image

/-- The items have known RVAs on the recognised builds, and three signatures elsewhere. -/
theorem plan_no_blinking_items_eq (os : Os σ) (image : ModuleImage) (build : DuniaBuild) :
    plan_no_blinking_items os image build = match no_blink_rvas build with
      | some (mesh_rva, arch_rva, save_rva) =>
        known_plan os image mesh_highlight_recipe arch_blink_recipe save_disk_recipe mesh_rva arch_rva
          save_rva
      | none => fallback_plan os image mesh_highlight_recipe arch_blink_recipe save_disk_recipe := by
  obtain ⟨hmesh₁, hmesh₂, hmesh₃, hmesh₄, hmesh₅⟩ := mesh_highlight_describes
  obtain ⟨harch₁, harch₂, harch₃, harch₄, harch₅⟩ := arch_blink_describes
  obtain ⟨hsave₁, hsave₂, hsave₃, hsave₄, hsave₅⟩ := save_disk_describes
  unfold plan_no_blinking_items known_plan known_write fallback_plan
  cases no_blink_rvas build with
  | some rvas =>
    simp only [hmesh₁, hmesh₂, hmesh₃, hmesh₄, hmesh₅, harch₁, harch₂, harch₃, harch₄, harch₅,
      hsave₁, hsave₂, hsave₃, hsave₄, hsave₅]
  | none =>
    simp only [hmesh₁, hmesh₂, hmesh₃, hmesh₄, hmesh₅, harch₁, harch₂, harch₃, harch₄, harch₅,
      hsave₁, hsave₂, hsave₃, hsave₄, hsave₅]

/-- The target that a site selects in the snapshot is guarded in memory too. -/
theorem Site.Resolves.stands {image : ModuleImage} {snapshot memory : Store UInt8} {site : Site}
    {target : Nat} (hresolves : site.Resolves image snapshot target)
    (hguards : site.template.KeepsGuards snapshot memory) : site.guard.template.Stands memory target := by
  obtain ⟨htarget, hstands⟩ := hresolves.placed
  obtain ⟨hcells, hguarded⟩ := Template.stands_iff.mp hstands
  have hheld := (hguards _ hcells).mpr hguarded
  change memory.read (site.placement target).target site.template.before.length = site.template.before ∨
    memory.read (site.placement target).target site.template.before.length = site.template.after at hheld
  rw [htarget, Site.template_before, Site.template_after] at hheld
  exact Guard.stands_iff.mpr hheld

section Yields

-- The snapshot that the image was taken from need not be the memory that the
-- guards are read from: a planner may run again after patches were applied.
variable {os : Os σ} {usable : σ → Prop} {image : ModuleImage} {snapshot memory : Store UInt8}
  (hvalid : image.Valid) (hreadable : image.Readable os usable)
  (hlive : image.Live snapshot)
include hvalid hreadable

omit hvalid in
/-- Over readable memory the bytes at its target decide whether a write is validated. -/
theorem validated_reads (guard : Guard) {scope : ScanScope} {target : Nat}
    (hscope : image.InScope scope target guard.expected.length) :
    Reads usable memory (CheckedWrite.validated os target guard.expected guard.replacement)
      ((classify_bytes target guard.expected guard.replacement
        (memory.read target guard.expected.length)).mapError PatchError.Memory
        |>.map fun _ => guard.write target) := by
  have hreads := ((hreadable.in_scope hscope).validate_bytes_reads memory (Nat.le_refl _) (Nat.le_refl _)
    guard.nonempty guard.lengths).map_err PatchError.Memory
  unfold CheckedWrite.validated
  cases hclassify : classify_bytes target guard.expected guard.replacement
    (memory.read target guard.expected.length) with
  | error error =>
    rw [hclassify] at hreads
    exact hreads.bind_error
  | ok state =>
    rw [hclassify] at hreads
    exact hreads.bind (reads_pure _)

omit hvalid in
/-- The write that was validated is the one of its guard, which stands there. -/
theorem validated_yields (guard : Guard) {scope : ScanScope} {target : Nat}
    (hscope : image.InScope scope target guard.expected.length) :
    Yields usable memory (CheckedWrite.validated os target guard.expected guard.replacement)
      fun write => guard.template.Stands memory target ∧ write = guard.write target := by
  refine (validated_reads hreadable guard hscope).yields fun write => ?_
  rw [Guard.stands_iff, ← classify_bytes_isOk_iff target]
  cases classify_bytes target guard.expected guard.replacement
    (memory.read target guard.expected.length) with
  | error error => simp [Except.mapError, Except.map]
  | ok state => simp [Except.mapError, Except.map, eq_comm]

omit hvalid in
/-- A plan with one guarded write, at a target in the scope. -/
theorem single_yields (guard : Guard) {scope : ScanScope} {target : Nat}
    (hscope : image.InScope scope target guard.expected.length) :
    Yields usable memory (PatchPlan.single os target guard.expected guard.replacement)
      fun plan => guard.template.Stands memory target ∧ plan.writes = [guard.write target] := by
  refine ((validated_yields hreadable guard hscope).bind fun write _ =>
    yields_lift (PatchPlan.new [write])).congr fun plan => ?_
  constructor
  · rintro ⟨_, ⟨hstands, rfl⟩, hplan⟩
    exact ⟨hstands, PatchPlan.new_eq_ok_iff.mp hplan⟩
  · rintro ⟨hstands, hwrites⟩
    exact ⟨_, ⟨hstands, rfl⟩, PatchPlan.new_eq_ok_iff.mpr hwrites⟩

omit hreadable in
theorem address_yields (rva length : Nat) (scope : ScanScope) :
    Yields usable memory
      (Action.lift ((image.address_from_rva rva length scope).mapError PatchError.Scan) : Action (World σ) _ _)
      fun target => target = image.base + rva ∧ image.InScope scope (image.base + rva) length :=
  (yields_lift _).congr fun target => by
    rw [mapError_eq_ok_iff, ModuleImage.address_from_rva_eq_ok_iff hvalid]

/-- A plan at a fixed RVA follows the fixed site. -/
theorem fixed_plan_yields (guard : Guard) (scope : ScanScope) (target_rva : Nat)
    (hguards : guard.template.KeepsGuards snapshot memory) :
    Yields usable memory (fixed_plan os image guard scope target_rva)
      (PatchPlan.Follows · image snapshot [.fixed guard scope target_rva]) := by
  refine ((address_yields hvalid target_rva _ scope).bind fun target htarget =>
    single_yields hreadable guard (htarget.1 ▸ htarget.2)).congr fun plan => ?_
  simp only [PatchPlan.Follows, List.forall₂_cons_left_iff, List.forall₂_nil_left_iff]
  constructor
  · rintro ⟨_, ⟨rfl, hscope⟩, hstands, hwrites⟩
    obtain ⟨_, hguarded⟩ := Template.stands_iff.mp hstands
    have hheld := (hguards _ (List.forall_mem_nil _)).mp hguarded
    have hbefore : guard.template.Stands snapshot _ :=
      Template.stands_iff.mpr ⟨List.forall_mem_nil _, hheld⟩
    exact ⟨_, [], Site.accepts_iff.mpr ⟨_, ⟨rfl, hscope, hbefore⟩, rfl⟩, rfl, hwrites⟩
  · rintro ⟨_, _, haccepts, rfl, hwrites⟩
    obtain ⟨_, hresolves, rfl⟩ := Site.accepts_iff.mp haccepts
    exact ⟨_, ⟨hresolves.1, hresolves.1 ▸ hresolves.2.1⟩, hresolves.stands hguards, hwrites⟩

include hlive

/-- The search finds the target that the site resolves to. -/
theorem find_signature_target_yields (recipe : Recipe)
    (hguards : recipe.template.KeepsGuards snapshot memory) :
    Yields usable memory
      (find_signature_target os image recipe.signature recipe.scope recipe.target_offset
        recipe.expected recipe.replacement) ((Site.unique recipe).Resolves image snapshot) := by
  refine (find_signature_target_reads hvalid hreadable recipe.nonempty recipe.lengths
    recipe.parses).yields fun target => ?_
  have hmatches : ∀ start ∈ image.scan recipe.pattern recipe.scope,
      recipe.template.cells.Meets snapshot start := fun start hstart =>
    Pattern.cells_meets_iff.mpr ((ModuleImage.mem_scan_iff hvalid hlive).mp hstart).2
  exact (target_resolution_ok_congr (fun start hstart => hguards start (hmatches start hstart)) target).trans
    (target_resolution_ok_iff hvalid hlive)

/-- A plan by signature follows the site of its recipe. -/
theorem unique_plan_yields (recipe : Recipe) (hguards : recipe.template.KeepsGuards snapshot memory) :
    Yields usable memory (unique_plan os image recipe)
      (PatchPlan.Follows · image snapshot [.unique recipe]) := by
  refine ((find_signature_target_yields hvalid hreadable hlive recipe hguards).bind fun target htarget =>
    single_yields hreadable recipe.toGuard htarget.in_scope).congr fun plan => ?_
  simp only [PatchPlan.Follows, List.forall₂_cons_left_iff, List.forall₂_nil_left_iff]
  constructor
  · rintro ⟨target, hresolves, _, hwrites⟩
    exact ⟨_, [], Site.accepts_iff.mpr ⟨target, hresolves, rfl⟩, rfl, hwrites⟩
  · rintro ⟨_, _, haccepts, rfl, hwrites⟩
    obtain ⟨target, hresolves, rfl⟩ := Site.accepts_iff.mp haccepts
    exact ⟨target, hresolves, hresolves.stands hguards, hwrites⟩

/-- The second half of a known write, once the start of its context is known. -/
theorem known_target_yields (recipe : Recipe) (target_rva start : Nat) (reason : String) :
    Yields usable memory
      (if ¬ start ∈ image.scan recipe.pattern recipe.scope then
        throw (.NoValidatedTarget recipe.signature (image.scan recipe.pattern recipe.scope).length [reason])
      else do
        let target ← Action.lift ((image.address_from_rva target_rva recipe.expected.length
          recipe.scope).mapError PatchError.Scan)
        CheckedWrite.validated os target recipe.expected recipe.replacement)
      fun write => image.Matched snapshot recipe.pattern recipe.scope start ∧
        ∃ target, (target = image.base + target_rva ∧
            image.InScope recipe.scope (image.base + target_rva) recipe.expected.length) ∧
          recipe.toGuard.template.Stands memory target ∧ write = recipe.toGuard.write target := by
  rw [← ModuleImage.mem_scan_iff hvalid hlive]
  by_cases hmatched : start ∈ image.scan recipe.pattern recipe.scope
  · simp only [hmatched, not_true_eq_false, ↓reduceIte, true_and]
    exact (address_yields hvalid target_rva _ _).bind fun target htarget =>
      validated_yields hreadable recipe.toGuard (htarget.1 ▸ htarget.2)
  · simp only [hmatched, not_false_eq_true, ↓reduceIte, false_and]
    exact yields_throw _

/-- The write at a known RVA is what the known site accepts. -/
theorem known_write_yields (recipe : Recipe) (target_rva : Nat)
    (hguards : recipe.template.KeepsGuards snapshot memory) :
    Yields usable memory (known_write os image recipe target_rva)
      ((Site.known recipe target_rva).Accepts image snapshot) := by
  have hpattern : Reads usable memory
      (Action.lift ((Pattern.parse recipe.signature).mapError PatchError.Scan) : Action (World σ) _ _)
      (.ok recipe.pattern) := by
    rw [recipe.parses]
    exact reads_lift _
  refine hpattern.bind_yields ?_
  cases hstart : checked_sub target_rva recipe.target_offset with
  | none =>
    refine (yields_throw _).congr fun write => ⟨False.elim, fun haccepts => ?_⟩
    obtain ⟨⟨hrva, start, htarget, hbase, _⟩, _⟩ := haccepts
    have hsub : checked_sub target_rva recipe.target_offset = some (start - image.base) :=
      checked_sub_eq_some_iff.mpr (by omega)
    rw [hstart] at hsub
    cases hsub
  | some start_rva =>
    obtain rfl := checked_sub_eq_some_iff.mp hstart
    refine ((address_yields hvalid start_rva _ _).bind fun start _ =>
      known_target_yields hvalid hreadable hlive recipe (recipe.target_offset + start_rva) start
        _).congr fun write => ?_
    rw [Site.accepts_iff]
    constructor
    · rintro ⟨_, ⟨rfl, hscope⟩, ⟨_, hmatches⟩, _, ⟨rfl, htarget⟩, hguarded, rfl⟩
      refine ⟨_, ⟨rfl, image.base + start_rva, by omega, by omega, hscope, htarget, ?_⟩, rfl⟩
      rw [Template.stands_iff]
      have hposition : image.base + start_rva + recipe.target_offset =
          image.base + (recipe.target_offset + start_rva) := by omega
      have hcells : recipe.template.cells.Meets snapshot (image.base + start_rva) :=
        Pattern.cells_meets_iff.mpr hmatches
      rw [← hposition, Guard.stands_iff] at hguarded
      exact ⟨hcells, (hguards _ hcells).mp hguarded⟩
    · rintro ⟨_, hresolves, rfl⟩
      have hguarded := hresolves.stands hguards
      obtain ⟨rfl, start, hstartEq, hbase, hscope, htarget, hstands⟩ := hresolves
      obtain rfl : start = image.base + start_rva := by omega
      have hcells := (Template.stands_iff.mp hstands).1
      exact ⟨_, ⟨rfl, hscope⟩, ⟨hscope, Pattern.cells_meets_iff.mp hcells⟩, _, ⟨rfl, htarget⟩, hguarded, rfl⟩

/-- A plan of three known writes follows the three known sites. -/
theorem known_plan_yields (first second third : Recipe) (first_rva second_rva third_rva : Nat)
    (hfirst : first.template.KeepsGuards snapshot memory)
    (hsecond : second.template.KeepsGuards snapshot memory)
    (hthird : third.template.KeepsGuards snapshot memory) :
    Yields usable memory (known_plan os image first second third first_rva second_rva third_rva)
      (PatchPlan.Follows · image snapshot
        [.known first first_rva, .known second second_rva, .known third third_rva]) := by
  refine ((known_write_yields hvalid hreadable hlive first first_rva hfirst).bind fun first_write _ =>
    (known_write_yields hvalid hreadable hlive second second_rva hsecond).bind fun second_write _ =>
    (known_write_yields hvalid hreadable hlive third third_rva hthird).bind fun third_write _ =>
    yields_lift (PatchPlan.new [first_write, second_write, third_write])).congr fun plan => ?_
  simp only [PatchPlan.Follows, List.forall₂_cons_left_iff, List.forall₂_nil_left_iff,
    PatchPlan.new_eq_ok_iff]
  constructor
  · rintro ⟨_, hfirst, _, hsecond, _, hthird, hwrites⟩
    exact ⟨_, _, hfirst, ⟨_, _, hsecond, ⟨_, [], hthird, rfl, rfl⟩, rfl⟩, hwrites⟩
  · rintro ⟨_, _, hfirst, ⟨_, _, hsecond, ⟨_, _, hthird, rfl, rfl⟩, rfl⟩, hwrites⟩
    exact ⟨_, hfirst, _, hsecond, _, hthird, hwrites⟩

/-- A plan of three signatures follows the sites of the three recipes. -/
theorem fallback_plan_yields (first second third : Recipe)
    (hguards : first.template.KeepsGuards snapshot memory)
    (hguards' : second.template.KeepsGuards snapshot memory)
    (hguards'' : third.template.KeepsGuards snapshot memory) :
    Yields usable memory (fallback_plan os image first second third)
      (PatchPlan.Follows · image snapshot [.unique first, .unique second, .unique third]) := by
  refine ((find_signature_target_yields hvalid hreadable hlive first hguards).bind fun first_target hfirst =>
    (find_signature_target_yields hvalid hreadable hlive second hguards').bind fun second_target hsecond =>
    (find_signature_target_yields hvalid hreadable hlive third hguards'').bind fun third_target hthird =>
    (validated_yields hreadable first.toGuard hfirst.in_scope).bind fun first_write _ =>
    (validated_yields hreadable second.toGuard hsecond.in_scope).bind fun second_write _ =>
    (validated_yields hreadable third.toGuard hthird.in_scope).bind fun third_write _ =>
    yields_lift (PatchPlan.new [first_write, second_write, third_write])).congr fun plan => ?_
  simp only [PatchPlan.Follows, List.forall₂_cons_left_iff, List.forall₂_nil_left_iff,
    PatchPlan.new_eq_ok_iff]
  constructor
  · rintro ⟨_, hfirst, _, hsecond, _, hthird, _, ⟨_, rfl⟩, _, ⟨_, rfl⟩, _, ⟨_, rfl⟩, hwrites⟩
    exact ⟨_, _, Site.accepts_iff.mpr ⟨_, hfirst, rfl⟩,
      ⟨_, _, Site.accepts_iff.mpr ⟨_, hsecond, rfl⟩,
        ⟨_, [], Site.accepts_iff.mpr ⟨_, hthird, rfl⟩, rfl, rfl⟩, rfl⟩, hwrites⟩
  · rintro ⟨_, _, hfirst, ⟨_, _, hsecond, ⟨_, _, hthird, rfl, rfl⟩, rfl⟩, hwrites⟩
    obtain ⟨_, hresolves, rfl⟩ := Site.accepts_iff.mp hfirst
    obtain ⟨_, hresolves', rfl⟩ := Site.accepts_iff.mp hsecond
    obtain ⟨_, hresolves'', rfl⟩ := Site.accepts_iff.mp hthird
    exact ⟨_, hresolves, _, hresolves', _, hresolves'', _,
      ⟨hresolves.stands hguards, rfl⟩, _, ⟨hresolves'.stands hguards', rfl⟩, _,
      ⟨hresolves''.stands hguards'', rfl⟩, hwrites⟩

/-- Over a memory that guards the places of the snapshot as the snapshot did, each
planner succeeds exactly with the plan that it makes over the snapshot. -/
theorem Patch.plan_yields_of_guards (build : DuniaBuild) (patch : Patch)
    (hguards : ∀ site ∈ patch.sites build, site.template.KeepsGuards snapshot memory) :
    Yields usable memory (patch.plan os image build)
      (PatchPlan.Follows · image snapshot (patch.sites build)) := by
  cases patch with
  | jackal_tapes =>
    rw [Patch.plan, plan_jackal_tapes_eq]
    exact unique_plan_yields hvalid hreadable hlive jackal_tapes_recipe
      (hguards (.unique _) (by simp [Patch.sites]))
  | devmode_always_on =>
    rw [Patch.plan, plan_devmode_always_on_eq]
    exact unique_plan_yields hvalid hreadable hlive devmode_always_on_recipe
      (hguards (.unique _) (by simp [Patch.sites]))
  | predecessor_tapes =>
    rw [Patch.plan, plan_predecessor_tapes_eq]
    cases build with
    | Retail =>
      exact fixed_plan_yields hvalid hreadable retail_predecessor_guard .Code _
        (hguards (.fixed _ .Code RETAIL_PREDECESSOR_RVA) (by simp [Patch.sites]))
    | Steam =>
      exact unique_plan_yields hvalid hreadable hlive predecessor_tapes_recipe
        (hguards (.unique _) (by simp [Patch.sites]))
    | Ubisoft =>
      exact unique_plan_yields hvalid hreadable hlive predecessor_tapes_recipe
        (hguards (.unique _) (by simp [Patch.sites]))
    | Unknown _ =>
      exact unique_plan_yields hvalid hreadable hlive predecessor_tapes_recipe
        (hguards (.unique _) (by simp [Patch.sites]))
  | machetes =>
    rw [Patch.plan, plan_machetes_eq]
    exact unique_plan_yields hvalid hreadable hlive machetes_recipe
      (hguards (.unique _) (by simp [Patch.sites]))
  | no_blinking_items =>
    rw [Patch.sites] at hguards
    rw [Patch.plan, plan_no_blinking_items_eq, Patch.sites]
    cases hrvas : no_blink_rvas build with
    | some rvas =>
      obtain ⟨mesh_rva, arch_rva, save_rva⟩ := rvas
      rw [hrvas] at hguards
      exact known_plan_yields hvalid hreadable hlive mesh_highlight_recipe arch_blink_recipe
        save_disk_recipe mesh_rva arch_rva save_rva (hguards (.known _ mesh_rva) (by simp))
        (hguards (.known _ arch_rva) (by simp)) (hguards (.known _ save_rva) (by simp))
    | none =>
      rw [hrvas] at hguards
      exact fallback_plan_yields hvalid hreadable hlive mesh_highlight_recipe arch_blink_recipe
        save_disk_recipe (hguards (.unique _) (by simp)) (hguards (.unique _) (by simp))
        (hguards (.unique _) (by simp))

end Yields

/-- On a valid, live and readable image each planner succeeds exactly with the
plan whose writes go to the targets that the sites of the patch select. -/
theorem Patch.plan_yields {os : Os σ} {usable : σ → Prop} {image : ModuleImage} {memory : Store UInt8}
    (hvalid : image.Valid) (hreadable : image.Readable os usable)
    (hlive : image.Live memory) (build : DuniaBuild) (patch : Patch) :
    Yields usable memory (patch.plan os image build)
      (PatchPlan.Follows · image memory (patch.sites build)) :=
  Patch.plan_yields_of_guards hvalid hreadable hlive build patch fun _ _ => .refl _ _

end systemdetection.patches
