import SystemDetection.Patches.Independence

open effect store systemdetection.patches.memory systemdetection.patches.sigscan

namespace systemdetection.patches

variable {σ : Type}

section Reapply

variable {os : Os σ} {usable : σ → Prop} {memory : Store UInt8} {image : ModuleImage}

/-- A guarded write in a section of the image whose replacement is already there. -/
structure CheckedWrite.InForce (memory : Store UInt8) (image : ModuleImage) (write : CheckedWrite) :
    Prop where
  nonempty : write.replacement ≠ []
  lengths : write.expected.length = write.replacement.length
  inside : ∃ scope, image.InScope scope write.address write.expected.length
  held : memory.read write.address write.expected.length = write.replacement

/-- A write that is in force is found applied. -/
theorem CheckedWrite.InForce.apply_reads (hreadable : image.Readable os usable) {write : CheckedWrite}
    (hforce : write.InForce memory image) :
    Reads usable memory (write.apply os) (.ok .AlreadyApplied) := by
  obtain ⟨scope, hscope⟩ := hforce.inside
  have hvalidated := (hreadable.in_scope hscope).validate_bytes_reads memory (Nat.le_refl _) (Nat.le_refl _)
    hforce.nonempty hforce.lengths
  rw [hforce.held] at hvalidated
  have hclassify : classify_bytes write.address write.expected write.replacement write.replacement =
      .ok .AlreadyApplied := if_pos rfl
  rw [hclassify] at hvalidated
  have hchecked : Reads usable memory
      (write_checked os write.address write.expected write.replacement) (.ok .AlreadyApplied) := by
    unfold write_checked
    exact hvalidated.bind (reads_pure _)
  exact hchecked.map_err PatchError.Memory

/-- So are all the writes of a plan in force. -/
theorem apply_loop_in_force (hreadable : image.Readable os usable) {writes : List CheckedWrite}
    (hforce : ∀ write ∈ writes, write.InForce memory image) (already_applied : Nat) :
    Reads usable memory (apply_loop os 0 already_applied [] writes)
      (.ok (if already_applied + writes.length ≠ 0 then .AlreadyApplied else .Applied)) := by
  induction writes generalizing already_applied with
  | nil =>
    simp only [apply_loop, true_and, List.length_nil, Nat.add_zero]
    exact reads_pure _
  | cons write rest ih =>
    rw [List.forall_mem_cons] at hforce
    refine ((hforce.1.apply_reads hreadable).attempt).bind ?_
    have hrest := ih hforce.2 (already_applied + 1)
    rwa [List.length_cons, Nat.add_comm rest.length, ← Nat.add_assoc]

/-- A plan whose replacements are all there reports it and writes nothing. -/
theorem PatchPlan.apply_in_force (hreadable : image.Readable os usable) {plan : PatchPlan}
    (hforce : ∀ write ∈ plan.writes, write.InForce memory image) :
    Reads usable memory (plan.apply os) (.ok .AlreadyApplied) := by
  have hpositive : 0 + plan.writes.length ≠ 0 := by simpa using plan.writes_ne_nil
  have hloop := apply_loop_in_force hreadable hforce 0
  rwa [if_pos hpositive] at hloop

end Reapply

section Follows

variable {image : ModuleImage} {memory : Store UInt8} {sites : List Site}

/-- Sites are followed by one plan only. -/
theorem PatchPlan.Follows.unique {plan plan' : PatchPlan} (hplan : plan.Follows image memory sites)
    (hplan' : plan'.Follows image memory sites) : plan = plan' := by
  have hwrites : ∀ sites writes, List.Forall₂ (Site.Accepts image memory) sites writes →
      ∀ writes', List.Forall₂ (Site.Accepts image memory) sites writes' → writes = writes' := by
    intro sites writes hforall
    induction hforall with
    | nil =>
      intro writes' hforall'
      cases hforall'
      rfl
    | cons haccepts _ ih =>
      intro writes' hforall'
      cases hforall' with
      | cons haccepts' hrest' =>
        obtain ⟨target, hresolves, rfl⟩ := Site.accepts_iff.mp haccepts
        obtain ⟨target', hresolves', rfl⟩ := Site.accepts_iff.mp haccepts'
        rw [hresolves.unique_target hresolves', ih _ hrest']
  have hsame := hwrites sites plan.writes hplan plan'.writes hplan'
  cases plan
  cases plan'
  cases hsame
  rfl

/-- Every write of the plan comes from a site. -/
theorem PatchPlan.Follows.of_write {plan : PatchPlan} (hplan : plan.Follows image memory sites) :
    ∀ write ∈ plan.writes, ∃ site ∈ sites, site.Accepts image memory write ∧
      site.placement write.address ∈ plan.placements sites := by
  have hwrites : ∀ sites writes, List.Forall₂ (Site.Accepts image memory) sites writes →
      ∀ write ∈ writes, ∃ site ∈ sites, site.Accepts image memory write ∧
        site.placement write.address ∈ List.zipWith
          (fun site (write : CheckedWrite) => site.placement write.address) sites writes := by
    intro sites writes hforall
    induction hforall with
    | nil => simp
    | @cons site first sites writes haccepts _ ih =>
      rw [List.forall_mem_cons, List.zipWith_cons_cons]
      refine ⟨⟨site, by simp, haccepts, by simp⟩, fun write hmem => ?_⟩
      obtain ⟨other, hother, haccepts', hmem'⟩ := ih write hmem
      exact ⟨other, by simp [hother], haccepts', by simp [hmem']⟩
  exact hwrites sites plan.writes hplan

/-- Images on which the sites resolve alike are followed by the same plans. -/
theorem follows_congr {image' : ModuleImage} {memory' : Store UInt8}
    (hresolves : ∀ site ∈ sites, ∀ target,
      site.Resolves image memory target ↔ site.Resolves image' memory' target) (plan : PatchPlan) :
    plan.Follows image memory sites ↔ plan.Follows image' memory' sites := by
  have hwrites : ∀ writes, List.Forall₂ (Site.Accepts image memory) sites writes ↔
      List.Forall₂ (Site.Accepts image' memory') sites writes := by
    induction sites with
    | nil => simp
    | cons site sites ih =>
      rw [List.forall_mem_cons] at hresolves
      intro writes
      simp only [List.forall₂_cons_left_iff, ih hresolves.2, Site.Accepts, hresolves.1]
  exact hwrites plan.writes

end Follows

/-- The plans of some patches, as their planners return them in this image. -/
def Planned (image : ModuleImage) (memory : Store UInt8) (build : DuniaBuild)
    (entries : List (Patch × PatchPlan)) : Prop :=
  ∀ entry ∈ entries, entry.2.Follows image memory (entry.1.sites build)

/-- The places of all the plans. -/
def all_placements (build : DuniaBuild) (entries : List (Patch × PatchPlan)) : List (Placement UInt8) :=
  entries.flatMap fun entry => entry.2.placements (entry.1.sites build)

section Planned

variable {image : ModuleImage} {memory : Store UInt8} {build : DuniaBuild}
  {entries : List (Patch × PatchPlan)} (hplanned : Planned image memory build entries)
include hplanned

theorem Planned.stands : ∀ placement ∈ all_placements build entries, placement.Stands memory := by
  intro placement hmem
  obtain ⟨entry, hentry, hmem⟩ := List.mem_flatMap.mp hmem
  exact ((hplanned entry hentry).placed placement hmem).1

/-- All planned places are places of the patch templates. -/
theorem Planned.members : ∀ placement ∈ all_placements build entries,
    placement.template ∈ patch_templates := by
  intro placement hmem
  obtain ⟨entry, hentry, hmem⟩ := List.mem_flatMap.mp hmem
  obtain ⟨_, site, hsite, htemplate⟩ := (hplanned entry hentry).placed placement hmem
  rw [htemplate]
  exact Patch.template_mem hsite

/-- Writing all plans is stamping all their places. -/
theorem Planned.write_all_eq (start : Store UInt8) :
    write_all (entries.flatMap fun entry => entry.2.writes) start =
      stamp_all (all_placements build entries) start := by
  induction entries generalizing start with
  | nil => rfl
  | cons entry rest ih =>
    have hentry := hplanned entry (by simp)
    have hrest : Planned image memory build rest := fun other hmem => hplanned other (by simp [hmem])
    rw [all_placements, List.flatMap_cons, List.flatMap_cons, stamp_all_append, ← hentry.write_all_eq,
      write_all, List.foldl_append]
    exact ih hrest _

/-- After the writes of any planned patches every site still stands where it stood. -/
theorem Planned.stands_iff {site : Site} {patch : Patch} (hsite : site ∈ patch.sites build) (start : Nat) :
    site.template.Stands (stamp_all (all_placements build entries) memory) start ↔
      site.template.Stands memory start :=
  (stamp_all_stands patch_templates_independent hplanned.members hplanned.stands
    (Patch.template_mem hsite) start).1

/-- In the end every planned write is in force. -/
theorem Planned.in_force : ∀ entry ∈ entries, ∀ write ∈ entry.2.writes,
    write.InForce (stamp_all (all_placements build entries) memory) image := by
  intro entry hentry write hwrite
  obtain ⟨site, _, ⟨hresolves, hexpected, hreplacement⟩, hmem⟩ :=
    (hplanned entry hentry).of_write write hwrite
  have hpatched := stamp_all_patched patch_templates_independent hplanned.members hplanned.stands _
    (List.mem_flatMap.mpr ⟨entry, hentry, hmem⟩)
  have hheld := Placement.read_of_patched hpatched
  rw [hresolves.placed.1] at hheld
  refine ⟨?_, ?_, ⟨site.scope, ?_⟩, ?_⟩
  · rw [hreplacement]
    exact site.guard.nonempty
  · rw [hexpected, hreplacement]
    exact site.guard.lengths
  · rw [hexpected]
    exact hresolves.in_scope
  · rw [hexpected, hreplacement, ← Site.template_before, ← Site.template_after]
    exact hheld

end Planned

theorem ModuleImage.snapshot_sameSections (base size : Nat) (sections : List PeSection)
    (memory memory' : Store UInt8) :
    (ModuleImage.snapshot base size sections memory).SameSections
      (ModuleImage.snapshot base size sections memory') := by
  simp [ModuleImage.SameSections, ModuleImage.snapshot]

/-- Stable rediscovery and independence of the five patches. Whatever planned
patches are applied, in whatever order, each planner returns the same plan on a
fresh snapshot as before or fails on both, and applying a rediscovered plan
again reports `AlreadyApplied` and changes no byte. -/
theorem patches_rediscovered (os : Os σ) (usable : σ → Prop) (build : DuniaBuild) (parsed : PEHeaders)
    (base size : Nat) (sections : List PeSection)
    (hsections : validate_pe_sections parsed size = .ok sections) (htop : base + size < USIZE_LIMIT)
    (world : World σ) (hreadable : (ModuleImage.snapshot base size sections world.memory).Readable os usable)
    (husable : usable world.os)
    (entries : List (Patch × PatchPlan))
    (hplans : ∀ entry ∈ entries, (entry.1.plan os (.snapshot base size sections world.memory) build
      world).1 = .ok entry.2)
    (start reached again : World σ) (hstart : start.memory = world.memory)
    (hsucceeds : Succeeds os start (entries.map Prod.snd) reached)
    (hagain : again.memory = reached.memory) (husable' : usable again.os) :
    let first patch := (Patch.plan os (.snapshot base size sections world.memory) build patch world).1
    let second patch := (Patch.plan os (.snapshot base size sections again.memory) build patch again).1
    (∀ patch plan, first patch = .ok plan ↔ second patch = .ok plan) ∧
    (∀ entry ∈ entries, ∀ plan, second entry.1 = .ok plan →
      ∃ world', plan.apply os again = (.ok .AlreadyApplied, world') ∧ world'.memory = again.memory) := by
  have htable := validate_pe_sections_ok hsections
  have hvalid := htable.snapshot_valid htop world.memory
  have hvalid' := htable.snapshot_valid htop again.memory
  have hsame := ModuleImage.snapshot_sameSections base size sections world.memory again.memory
  have hfirst : ∀ patch plan,
      (Patch.plan os (.snapshot base size sections world.memory) build patch world).1 = .ok plan ↔
        plan.Follows (.snapshot base size sections world.memory) world.memory (patch.sites build) :=
    fun patch plan => (Patch.plan_yields hvalid hreadable (ModuleImage.snapshot_live _ _ _ _) build
      patch).run_ok_iff rfl husable
  have hsecond : ∀ patch plan,
      (Patch.plan os (.snapshot base size sections again.memory) build patch again).1 = .ok plan ↔
        plan.Follows (.snapshot base size sections again.memory) again.memory (patch.sites build) :=
    fun patch plan => (Patch.plan_yields hvalid' (hreadable.of_sameSections rfl hsame)
      (ModuleImage.snapshot_live _ _ _ _) build patch).run_ok_iff rfl husable'
  have hplanned : Planned (.snapshot base size sections world.memory) world.memory build entries :=
    fun entry hentry => (hfirst entry.1 entry.2).mp (hplans entry hentry)
  have hmemory : again.memory = stamp_all (all_placements build entries) world.memory := by
    rw [hagain, hsucceeds.memory_eq, List.flatMap_map, hplanned.write_all_eq, hstart]
  have hresolves : ∀ patch, ∀ site ∈ Patch.sites build patch, ∀ target,
      site.Resolves (.snapshot base size sections world.memory) world.memory target ↔
        site.Resolves (.snapshot base size sections again.memory) again.memory target := by
    intro patch site hsite target
    have hstands : ∀ start, site.template.Stands world.memory start ↔
        site.template.Stands again.memory start := fun start => by
      rw [hmemory, hplanned.stands_iff hsite]
    have htransfer := Site.resolves_transfer hsame fun rva _ => hstands (base + rva)
    constructor
    · intro hresolves
      obtain ⟨rva, rfl⟩ := Nat.exists_eq_add_of_le hresolves.in_scope.base_le
      exact (htransfer rva).mp hresolves
    · intro hresolves
      obtain ⟨rva, rfl⟩ := Nat.exists_eq_add_of_le hresolves.in_scope.base_le
      exact (htransfer rva).mpr hresolves
  have hiff : ∀ patch plan,
      (Patch.plan os (.snapshot base size sections world.memory) build patch world).1 = .ok plan ↔
        (Patch.plan os (.snapshot base size sections again.memory) build patch again).1 = .ok plan :=
    fun patch plan => by rw [hfirst, hsecond, follows_congr (hresolves patch)]
  refine ⟨hiff, fun entry hentry plan hplan => ?_⟩
  obtain rfl : plan = entry.2 :=
    ((hfirst entry.1 plan).mp ((hiff entry.1 plan).mpr hplan)).unique (hplanned entry hentry)
  have hforce := hplanned.in_force entry hentry
  rw [← hmemory] at hforce
  obtain ⟨world', hrun, hkept, _⟩ :=
    PatchPlan.apply_in_force hreadable hforce again rfl husable'
  exact ⟨world', hrun, hkept⟩

/-- Code with one unpatched place for each of the four code patches. -/
def sample_code : List UInt8 :=
  [0x80, 0x7E, 0x74, 0x00, 0x75, 0x0A, 0x3B, 0xCA, 0x75] ++
    [0x80, 0x79, 0x04, 0x00, 0x8B, 0x54, 0x24, 0x04, 0x75] ++
    [0x8B, 0x49, 0x0C, 0x85, 0xC9, 0x74, 0x16, 0x8B, 0x44, 0x24] ++
    [0x83, 0xEC, 0x08, 0x53, 0x8D, 0x44, 0x24, 0x08, 0x50, 0x68] ++ List.replicate 0x5F 0x90 ++ [0x8A, 0xC3]

/-- Data with the three strings of the item patch. -/
def sample_data : List UInt8 :=
  "Mesh_Highlight".toUTF8.toList ++ "archBlink".toUTF8.toList ++
    "gadgets.ObjectiveIcons.SaveDisk".toUTF8.toList ++ [0]

def sample_headers : PEHeaders where
  is_64bit := false
  coff_header := ⟨0x14C, some .I386, true⟩
  size_of_image := 0x3000
  section_headers :=
    [⟨".text", 0x87, 0x1000, 0x87, 0x400, true, true, false⟩,
      ⟨".rdata", 0x37, 0x2000, 0x37, 0x600, false, true, false⟩]

def sample_sections : List PeSection :=
  [⟨".text", 0x1000, 0x87, true, true, false⟩, ⟨".rdata", 0x2000, 0x37, false, true, false⟩]

def sample_world : World PageMap where
  memory :=
    let blank : Store UInt8 := fun _ => 0
    (blank.write 0x1000_1000 sample_code).write 0x1000_2000 sample_data
  os := mapped_pages 0x1000_0000 0x3000 PAGE_EXECUTE_READ
  accesses := []

/-- The pages of the sample module are mapped. -/
def sample_pages : PageMap → Prop := Mapped 0x1000_0000 0x3000 PAGE_EXECUTE_READ

theorem sample_world_pages : sample_pages sample_world.os := mapped_pages_mapped (by decide)

theorem sample_sections_valid : validate_pe_sections sample_headers 0x3000 = .ok sample_sections := by
  decide +kernel

/-- A plan is known by its writes. -/
theorem eq_ok_of_writes {result : Except PatchError PatchPlan} {plan : PatchPlan}
    (hwrites : result.toOption.map PatchPlan.writes = some plan.writes) : result = .ok plan := by
  cases result with
  | error error => simp [Except.toOption] at hwrites
  | ok other =>
    cases other
    cases plan
    cases hwrites
    rfl

def sample_tapes : PatchPlan := ⟨[⟨0x1000_1005, [0x0A], [0x14]⟩], by simp⟩

def sample_items : PatchPlan :=
  ⟨[⟨0x1000_2004, [0x5F], [0x2E]⟩, ⟨0x1000_2016, [0x6B], [0x2E]⟩, ⟨0x1000_2036, [0x00], [0x2E]⟩], by simp⟩

theorem sample_snapshot_readable (memory : Store UInt8) :
    (ModuleImage.snapshot 0x1000_0000 0x3000 sample_sections memory).Readable page_table sample_pages := by
  have hlaid := (validate_pe_sections_ok sample_sections_valid).snapshot_laid 0x1000_0000 memory
  exact hlaid.readable (mapped_readable page_table_granting execute_read_accessible (by decide))

/-- With the items and the tapes applied, the tapes are planned again and found applied. -/
theorem patches_rediscovered_on_sample :
    let first := (sample_items.apply page_table sample_world).2
    let reached := (sample_tapes.apply page_table first).2
    (Patch.jackal_tapes.plan page_table (.snapshot 0x1000_0000 0x3000 sample_sections reached.memory)
      (.Unknown none) reached).1 = .ok sample_tapes ∧
    ∃ world', sample_tapes.apply page_table reached = (.ok .AlreadyApplied, world') ∧
      world'.memory = reached.memory := by
  intro first reached
  have htapes : (Patch.jackal_tapes.plan page_table (.snapshot 0x1000_0000 0x3000 sample_sections
      sample_world.memory) (.Unknown none) sample_world).1 = .ok sample_tapes :=
    eq_ok_of_writes (by decide +kernel)
  have hitems : (Patch.no_blinking_items.plan page_table (.snapshot 0x1000_0000 0x3000 sample_sections
      sample_world.memory) (.Unknown none) sample_world).1 = .ok sample_items :=
    eq_ok_of_writes (by decide +kernel)
  have hfirst : sample_items.apply page_table sample_world = (.ok .Applied, first) :=
    Action.eq_of_result (eq_ok_of_toOption (by decide +kernel))
  have hsecond : sample_tapes.apply page_table first = (.ok .Applied, reached) :=
    Action.eq_of_result (eq_ok_of_toOption (by decide +kernel))
  have hreached : sample_pages reached.os := mapped_of_pages (by decide) (by decide +kernel) (by decide +kernel)
  obtain ⟨hiff, hagain⟩ := patches_rediscovered page_table sample_pages (.Unknown none) sample_headers
    0x1000_0000 0x3000 sample_sections sample_sections_valid (by decide) sample_world
    (sample_snapshot_readable _) sample_world_pages
    [(.no_blinking_items, sample_items), (.jackal_tapes, sample_tapes)] (by simp [hitems, htapes])
    sample_world reached reached rfl (.cons hfirst (.cons hsecond (.nil _))) rfl hreached
  have hplan := (hiff .jackal_tapes sample_tapes).mp htapes
  exact ⟨hplan, hagain (.jackal_tapes, sample_tapes) (by simp) sample_tapes hplan⟩

end systemdetection.patches
