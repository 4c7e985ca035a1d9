import SystemDetection.Effect.Answers
import SystemDetection.Memory.Confined
import SystemDetection.Sigscan.ModuleMeaning

open effect store systemdetection.patches.memory

namespace systemdetection.patches.sigscan

variable {σ : Type} (os : Os σ) {permitted : Access → Prop} {base size : Nat}

/-- The range check accesses no memory. -/
theorem validate_readable_range_confined (permitted : Access → Prop) (memory : Store UInt8)
    (address length : Nat) :
    Confined permitted memory (validate_readable_range os address length) fun _ => True := by
  intro world hmemory
  rw [(validate_readable_range_agrees os address length world).1]
  have haccesses := validate_readable_range_relates (accesses_calls os permitted).toQueries address
    length world
  have hkept : (patches.memory.validate_readable_range os address length world).2.memory = world.memory :=
    validate_readable_range_relates (sameMemory_calls os).toQueries address length world
  exact ⟨haccesses, hkept.trans hmemory, fun _ _ => trivial⟩

theorem raw_read_confined {ε : Type} (memory : Store UInt8) {address length : Nat}
    (hpermitted : permitted ⟨.read, address, length⟩) :
    Confined permitted memory (raw_read address length : Action (World σ) ε _)
      (· = memory.read address length) := by
  intro world hmemory
  refine ⟨⟨[⟨.read, address, length⟩], rfl, by simpa using hpermitted⟩, hmemory, fun bytes hbytes => ?_⟩
  rw [raw_read_apply, Except.ok.injEq] at hbytes
  rw [← hbytes, hmemory]

theorem copy_memory_confined (memory : Store UInt8) {address length : Nat}
    (hpermitted : permitted ⟨.read, address, length⟩) :
    Confined permitted memory (copy_memory address length : Action (World σ) _ _)
      (· = memory.read address length) :=
  (confined_lift _).bind fun _ _ => raw_read_confined memory hpermitted

section Module

variable (hpermitted : ∀ address length, base ≤ address → address + length ≤ base + size →
  permitted ⟨.read, address, length⟩) (memory : Store UInt8)
include hpermitted

/-- Whatever is requested, the reader stays in the module. -/
theorem ValidatedModuleReader.read_at_confined (offset buffer : Nat) :
    Confined permitted memory (ValidatedModuleReader.read_at os ⟨base, size⟩ offset buffer)
      fun _ => True := by
  unfold ValidatedModuleReader.read_at
  split
  · exact confined_pure trivial
  · split
    · exact confined_pure trivial
    · rename_i available havailable
      rw [checked_sub_eq_some_iff] at havailable
      dsimp only at havailable ⊢
      split
      · exact confined_pure trivial
      · split
        · exact confined_throw _ _
        · rename_i address haddress
          obtain ⟨rfl, _⟩ := checked_add_eq_some_iff.mp haddress
          refine ((validate_readable_range_confined os permitted memory _ _).map_err _).bind fun _ _ => ?_
          exact (raw_read_confined memory (hpermitted _ _ (by omega) (by omega))).mono fun _ _ => trivial

/-- The parser of the headers reads inside the module. -/
theorem HeaderParser.read_from_confined (parser : HeaderParser) :
    Confined permitted memory (parser.read_from os ⟨base, size⟩) fun _ => True := by
  induction parser with
  | done result => exact (confined_lift _).mono fun _ _ => trivial
  | read_at offset buffer next ih =>
    exact ((ValidatedModuleReader.read_at_confined os hpermitted memory offset buffer).attempt).bind
      fun answer _ => ih answer

/-- The sections that are copied are those of the snapshot. -/
theorem load_sections_confined {sections : List PeSection}
    (hbounds : ∀ pe_section ∈ sections, pe_section.rva + pe_section.size ≤ size) :
    Confined permitted memory (load_sections os base sections)
      (· = (ModuleImage.snapshot base size sections memory).sections) := by
  induction sections with
  | nil => exact confined_pure rfl
  | cons pe_section rest ih =>
    rw [List.forall_mem_cons] at hbounds
    unfold load_sections
    split
    · rename_i hskip
      have hrest := ih hbounds.2
      simpa [ModuleImage.snapshot, PeSection.is_loaded_eq_false_iff.mpr hskip] using hrest
    · rename_i hskip
      have hloaded : pe_section.is_loaded = true := by
        rwa [← PeSection.is_loaded_eq_false_iff, Bool.not_eq_false] at hskip
      split
      · exact confined_throw _ _
      · rename_i address haddress
        obtain ⟨rfl, _⟩ := checked_add_eq_some_iff.mp haddress
        refine ((validate_readable_range_confined os permitted memory _ _).map_err _).bind fun _ _ => ?_
        have hread := hpermitted (base + pe_section.rva) pe_section.size (by omega) (by omega)
        refine (copy_memory_confined memory hread).bind fun bytes hbytes => (ih hbounds.2).bind ?_
        rintro loaded_sections rfl
        refine confined_pure ?_
        simp [ModuleImage.snapshot, hloaded, hbytes]

end Module

/-- Whatever the headers and the system say, `from_module` reads inside the
module only, and an image is the snapshot of a section table that the headers
passed. -/
theorem ModuleImage.from_module_confined {module : LoadedModule} (hpermitted : ∀ base size,
    module.information = .ok (base, size) → ∀ address length, base ≤ address →
      address + length ≤ base + size → permitted ⟨.read, address, length⟩) (memory : Store UInt8) :
    Confined permitted memory (ModuleImage.from_module os module) fun image =>
      ∃ base size parsed sections, module.information = .ok (base, size) ∧
        SectionTable parsed size sections ∧ image = .snapshot base size sections memory := by
  unfold ModuleImage.from_module
  cases hinformation : module.information with
  | error error => exact confined_throw _ _
  | ok range =>
    obtain ⟨base, size⟩ := range
    have hinside := hpermitted base size hinformation
    dsimp only
    split
    · exact confined_throw _ _
    · refine ((HeaderParser.read_from_confined os hinside memory _).map_err _).bind fun parsed _ => ?_
      refine (confined_lift _).bind fun sections hsections => ?_
      have htable := validate_pe_sections_ok (mapError_eq_ok_iff.mp hsections)
      refine (load_sections_confined os hinside memory htable.in_bounds).bind ?_
      rintro loaded_sections rfl
      split
      · exact confined_throw _ _
      · exact confined_pure ⟨base, size, parsed, sections, rfl, htable, rfl⟩

/-! ## What `from_module` leaves alone -/

section Watches

variable {os : Os σ} {R : World σ → World σ → Prop} (hwatches : Watches os R)
include hwatches

theorem module_range_relates (address length : Nat) : (validate_readable_range os address length).Relates R := by
  intro world
  rw [(validate_readable_range_agrees os address length world).1]
  exact memory.validate_readable_range_relates hwatches.toQueries address length world

/-- A read of the headers makes nothing but queries and a read. -/
theorem reader_read_at_relates (reader : ValidatedModuleReader) (offset buffer : Nat) :
    (reader.read_at os offset buffer).Relates R := by
  unfold ValidatedModuleReader.read_at
  split
  · exact Action.relates_pure hwatches.refl _
  split
  · exact Action.relates_pure hwatches.refl _
  dsimp only
  split
  · exact Action.relates_pure hwatches.refl _
  split
  · exact Action.relates_throw hwatches.refl _
  · exact Action.relates_bind hwatches.trans ((module_range_relates hwatches _ _).map_err _)
      fun _ world => hwatches.read world _ _

/-- Serving the header parser leaves nothing that reading leaves. -/
theorem read_from_relates (reader : ValidatedModuleReader) (parser : HeaderParser) :
    (parser.read_from os reader).Relates R := by
  induction parser with
  | done result => exact Action.relates_lift hwatches.refl _
  | read_at offset buffer next ih =>
    exact Action.relates_bind hwatches.trans (reader_read_at_relates hwatches reader offset buffer).attempt
      fun answer => ih answer

/-- Loading the sections makes nothing but queries and reads. -/
theorem load_sections_relates (base : Nat) (sections : List PeSection) :
    (load_sections os base sections).Relates R := by
  induction sections with
  | nil => exact Action.relates_pure hwatches.refl _
  | cons pe_section rest ih =>
    unfold load_sections
    split
    · exact ih
    split
    · exact Action.relates_throw hwatches.refl _
    · have hcopy : ∀ address, (copy_memory address pe_section.size : Action (World σ) _ _).Relates R :=
        fun address => Action.relates_bind hwatches.trans (Action.relates_lift hwatches.refl _)
          fun _ world => hwatches.read world _ _
      refine Action.relates_bind hwatches.trans ((module_range_relates hwatches _ _).map_err _) fun _ => ?_
      refine Action.relates_bind hwatches.trans (hcopy _) fun _ => ?_
      exact Action.relates_bind hwatches.trans ih fun _ => Action.relates_pure hwatches.refl _

/-- So does loading a module. -/
theorem from_module_relates (module : LoadedModule) : (ModuleImage.from_module os module).Relates R := by
  unfold ModuleImage.from_module
  cases module.information with
  | error error => exact Action.relates_throw hwatches.refl _
  | ok range =>
    obtain ⟨base, size⟩ := range
    dsimp only
    split
    · exact Action.relates_throw hwatches.refl _
    · refine Action.relates_bind hwatches.trans ((read_from_relates hwatches _ _).map_err _) fun _ => ?_
      refine Action.relates_bind hwatches.trans (Action.relates_lift hwatches.refl _) fun sections => ?_
      refine Action.relates_bind hwatches.trans (load_sections_relates hwatches base sections) fun _ => ?_
      split
      · exact Action.relates_throw hwatches.refl _
      · exact Action.relates_pure hwatches.refl _

end Watches

/-! ## `from_module` returns -/

section Returns

/-- A stop that is an error of the function and no panic. -/
def Returned {ε : Type} (stop : Stop ε) : Prop := ∃ error, stop = .error error

/-- Sections of a module that can be loaded are never too large to be copied. -/
theorem load_sections_answers (base : Nat) {size : Nat} (hsize : size ≤ ISIZE_MAX) {sections : List PeSection}
    (hbounds : ∀ pe_section ∈ sections, pe_section.rva + pe_section.size ≤ size) :
    (load_sections os base sections).Answers Returned fun _ => True := by
  induction sections with
  | nil => exact Action.answers_pure trivial
  | cons pe_section rest ih =>
    rw [List.forall_mem_cons] at hbounds
    have hrest := ih hbounds.2
    unfold load_sections
    split
    · exact hrest
    split
    · exact Action.answers_throw ⟨_, rfl⟩
    · rename_i address _
      have hvalidated : (validate_readable_range os address pe_section.size).Answers (fun _ => True)
          fun _ => True := ⟨fun _ _ _ => trivial, fun _ _ _ => trivial⟩
      have hcopied : (copy_memory address pe_section.size : Action (World σ) _ _).Answers Returned
          fun _ => True := by
        refine ⟨fun world error herror => ?_, fun _ _ _ => trivial⟩
        rw [copy_memory_of_le (by omega)] at herror
        cases herror
      refine (hvalidated.map_err fun reason _ => ⟨_, rfl⟩).bind fun _ _ => hcopied.bind fun _ _ => ?_
      exact hrest.bind fun _ _ => Action.answers_pure trivial

/-- The copies of `from_module` never panic, so that it returns an image or an error. -/
theorem ModuleImage.from_module_cases (module : LoadedModule) (world : World σ) :
    (∃ error loaded, ModuleImage.from_module os module world = (.error (.error error), loaded)) ∨
      ∃ image loaded, ModuleImage.from_module os module world = (.ok image, loaded) := by
  have hanswers : (ModuleImage.from_module os module).Answers Returned fun _ => True := by
    unfold ModuleImage.from_module
    cases hinformation : module.information with
    | error error => exact Action.answers_throw ⟨_, rfl⟩
    | ok range =>
      obtain ⟨base, size⟩ := range
      have hsize := module.size_le base size hinformation
      dsimp only
      split
      · exact Action.answers_throw ⟨_, rfl⟩
      · have hheaders : ((module.portex size).read_from os ⟨base, size⟩).Answers (fun _ => True)
            fun _ => True := ⟨fun _ _ _ => trivial, fun _ _ _ => trivial⟩
        have htable : ∀ parsed, (Action.lift ((validate_pe_sections parsed size).mapError Stop.error) :
            Action (World σ) (Stop ScanError) _).Answers Returned
              fun sections => validate_pe_sections parsed size = .ok sections := by
          intro parsed
          refine Action.answers_lift (fun stop hstop => ?_) fun sections => mapError_eq_ok_iff.mp
          cases hchecked : validate_pe_sections parsed size with
          | error error =>
            rw [hchecked] at hstop
            exact ⟨error, (Except.error.inj hstop).symm⟩
          | ok sections =>
            rw [hchecked] at hstop
            cases hstop
        refine (hheaders.map_err fun error _ => ⟨_, rfl⟩).bind fun parsed _ => ?_
        refine (htable parsed).bind fun sections hsections => ?_
        have hbounds := (validate_pe_sections_ok hsections).in_bounds
        refine (load_sections_answers os base hsize hbounds).bind fun loaded_sections _ => ?_
        split
        · exact Action.answers_throw ⟨_, rfl⟩
        · exact Action.answers_pure trivial
  rcases hload : ModuleImage.from_module os module world with ⟨stop | image, loaded⟩
  · obtain ⟨error, rfl⟩ := hanswers.of_error hload
    exact .inl ⟨error, loaded, rfl⟩
  · exact .inr ⟨image, loaded, rfl⟩

end Returns

/-- The image is a snapshot of the module, of sections that its headers list. -/
structure LoadedModule.Snapshots (module : LoadedModule) (base size : Nat) (memory : Store UInt8)
    (sections : List PeSection) (image : ModuleImage) : Prop where
  information : module.information = .ok (base, size)
  table : ∃ parsed, SectionTable parsed size sections
  image_eq : image = .snapshot base size sections memory

theorem LoadedModule.Snapshots.valid {module : LoadedModule} {base size : Nat} {memory : Store UInt8}
    {sections : List PeSection} {image : ModuleImage}
    (hsnapshots : module.Snapshots base size memory sections image) (hlimit : base + size < USIZE_LIMIT) :
    image.Valid ∧ image.Live memory := by
  obtain ⟨_, ⟨parsed, htable⟩, rfl⟩ := hsnapshots
  exact ⟨htable.snapshot_valid hlimit memory, ModuleImage.snapshot_live _ _ _ _⟩

section Usable

variable {os : Os σ} {usable : σ → Prop} (hqueries : Queryable os usable) {module : LoadedModule}
  {world : World σ} (husable : usable world.os)
include hqueries husable

/-- An accepted module leaves memory alone and gives its snapshot. -/
theorem ModuleImage.from_module_snapshots (hinformation : module.information = .ok (base, size))
    {image : ModuleImage} (himage : (ModuleImage.from_module os module world).1 = .ok image) :
    ∃ loaded sections, ModuleImage.from_module os module world = (.ok image, loaded) ∧
      loaded.memory = world.memory ∧ usable loaded.os ∧
      module.Snapshots base size world.memory sections image := by
  have hconfined : Confined (fun _ => True) world.memory (ModuleImage.from_module os module) _ :=
    ModuleImage.from_module_confined os (fun _ _ _ _ _ _ _ => trivial) world.memory
  obtain ⟨_, hmemory, himages⟩ := hconfined world rfl
  obtain ⟨_, _, parsed, sections, hrange, htable, hsnapshot⟩ := himages image himage
  obtain ⟨rfl, rfl⟩ := Prod.mk.inj (Except.ok.inj (hinformation.symm.trans hrange))
  exact ⟨_, sections, Action.eq_of_result himage, hmemory,
    from_module_relates hqueries.watches module world husable, hinformation, ⟨parsed, htable⟩, hsnapshot⟩

/-- A module is accepted when its headers are read and list readable sections. -/
theorem ModuleImage.from_module_loads (hinformation : module.information = .ok (base, size)) (hbase : base ≠ 0)
    (hlimit : base + size < USIZE_LIMIT) {parsed : PEHeaders} {sections : List PeSection}
    (hheaders : ((module.portex size).read_from os ⟨base, size⟩ world).1 = .ok parsed)
    (htable : validate_pe_sections parsed size = .ok sections)
    (hreadable : (ModuleImage.snapshot base size sections world.memory).Readable os usable)
    (hnonempty : (ModuleImage.snapshot base size sections world.memory).sections ≠ []) :
    (ModuleImage.from_module os module world).1 = .ok (.snapshot base size sections world.memory) := by
  have hsections := validate_pe_sections_ok htable
  have hread := Action.eq_of_result hheaders
  generalize (HeaderParser.read_from os ⟨base, size⟩ (module.portex size) world).2 = read at hread
  have hmemory : read.memory = world.memory := (read_from_relates
    ⟨(sameMemory_calls os).toQueries, fun _ _ _ => rfl⟩ ⟨base, size⟩ (module.portex size)).of_eq hread
  have husable' : usable read.os :=
    (read_from_relates hqueries.watches ⟨base, size⟩ (module.portex size)).of_eq hread husable
  obtain ⟨loaded, hload, _⟩ :=
    load_sections_reads hlimit (module.size_le base size hinformation) hsections.in_bounds hreadable read hmemory
      husable'
  have hempty : ¬(base = 0 ∨ size = 0) := by
    have hpositive := hsections.positive
    omega
  have hsome : (ModuleImage.snapshot base size sections world.memory).sections.isEmpty = false := by
    rwa [List.isEmpty_eq_false_iff]
  have hchecked : (Action.lift ((validate_pe_sections parsed size).mapError Stop.error) :
      Action (World σ) (Stop ScanError) _) read = (.ok sections, read) := by
    rw [htable]
    rfl
  unfold ModuleImage.from_module
  rw [hinformation]
  dsimp only
  rw [if_neg hempty, Action.bind_of_ok (Action.map_err_eq_ok_iff.mpr hread), Action.bind_of_ok hchecked,
    Action.bind_of_ok hload, hsome]
  rfl

end Usable

end systemdetection.patches.sigscan
