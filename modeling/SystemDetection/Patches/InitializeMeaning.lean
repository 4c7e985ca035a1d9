import SystemDetection.Patches.ConfigMeaning
import SystemDetection.Patches.Initialize
import SystemDetection.Patches.Recovery

open effect store systemdetection.patches.sigscan

namespace systemdetection.patches

section ModulePath

variable {GetModuleFileNameW : Nat → ModuleFileName} {path : Path}

/-- What is documented of `GetModuleFileNameW` for a module with a path: it copies
the whole path, if that and a zero fit into the buffer, and else reports that the
buffer is full. -/
structure HasPath (GetModuleFileNameW : Nat → ModuleFileName) (path : Path) : Prop where
  nonempty : path ≠ []
  whole : ∀ capacity, path.length < capacity →
    (GetModuleFileNameW capacity).length = path.length ∧ path <+: (GetModuleFileNameW capacity).buffer
  cut : ∀ capacity, 0 < capacity → capacity ≤ path.length → (GetModuleFileNameW capacity).length = capacity

/-- From any capacity the buffer grows until the path fits, up to the limit. -/
theorem module_path_loop_exact (hpath : HasPath GetModuleFileNameW path) {capacity : Nat}
    (hcapacity : 0 < capacity) (hle : capacity ≤ 32768) :
    module_path_loop GetModuleFileNameW capacity hcapacity =
      if path.length < 32768 then .ok path else .error "module path exceeds the Windows path limit" := by
  induction capacity, hcapacity using module_path_loop.induct GetModuleFileNameW with
  | case1 capacity hcapacity answer hzero =>
    -- A path is never reported as empty.
    by_cases hfits : path.length < capacity
    · have hlength := (hpath.whole capacity hfits).1
      rw [hlength, List.length_eq_zero_iff] at hzero
      exact absurd hzero hpath.nonempty
    · rw [hpath.cut capacity hcapacity (Nat.le_of_not_lt hfits)] at hzero
      omega
  | case2 capacity hcapacity answer hzero hshort =>
    by_cases hfits : path.length < capacity
    · obtain ⟨hlength, tail, hbuffer⟩ := hpath.whole capacity hfits
      rw [module_path_loop, if_neg hzero, if_pos hshort, if_pos (by omega), hlength, ← hbuffer, List.take_left]
    · rw [hpath.cut capacity hcapacity (Nat.le_of_not_lt hfits)] at hshort
      exact absurd hshort (Nat.lt_irrefl _)
  | case3 capacity hcapacity answer hzero hshort hlimit =>
    have hlong : capacity ≤ path.length := by
      by_contra hfits
      rw [(hpath.whole capacity (Nat.lt_of_not_le hfits)).1] at hshort
      exact hfits (Nat.le_of_not_lt hshort)
    rw [module_path_loop, if_neg hzero, if_neg hshort, dif_pos hlimit, if_neg (by omega)]
  | case4 capacity hcapacity answer hzero hshort hlimit ih =>
    rw [module_path_loop, if_neg hzero, if_neg hshort, dif_neg hlimit]
    exact ih (Nat.min_le_right _ _)

/-- The path of a module is found whole whenever it is below the limit of Windows,
however often the buffer has to grow, and is never used cut off. -/
theorem module_path_exact (host : Host) (module : Nat) (path : Path)
    (hpath : HasPath (host.GetModuleFileNameW module) path) :
    module_path host module =
      if path.length < 32768 then .ok path else .error "module path exceeds the Windows path limit" :=
  module_path_loop_exact hpath (by decide) (by decide)

/-- A loader that behaves as documented. -/
def documented_file_name (path : Path) (capacity : Nat) : ModuleFileName :=
  if path.length < capacity then ⟨path.length, path ++ List.replicate (capacity - path.length) 0, ""⟩
  else ⟨capacity, path.take (capacity - 1) ++ [0], ""⟩

theorem documented_has_path {path : Path} (hpath : path ≠ []) : HasPath (documented_file_name path) path where
  nonempty := hpath
  whole capacity hcapacity := by simp [documented_file_name, hcapacity]
  cut capacity _ hcapacity := by simp [documented_file_name, Nat.not_lt.mpr hcapacity]

/-- A file system on which every file holds the given text. -/
def sample_host (path : Path) (contents : List Char) (dunia : Except String (Nat × LoadedModule)) : Host where
  GetModuleFileNameW _ := documented_file_name path
  GetModuleHandleA := dunia
  read_to_string _ := .ok contents
  metadata_len _ := none
  write _ _ := none
  current_exe := none
  parent path := some path
  join path _ := path
  display _ := "fc2-systemdetection.ini"
  debug text := debug_str (.ofList text)

theorem sample_host_has_path {path : Path} (hpath : path ≠ []) (contents : List Char)
    (dunia : Except String (Nat × LoadedModule)) (module : Nat) :
    HasPath ((sample_host path contents dunia).GetModuleFileNameW module) path :=
  documented_has_path hpath

/-- A path that does not fit into the first buffer. -/
def long_path : Path := .replicate 300 0x61

theorem long_path_length : long_path.length = 300 := List.length_replicate

theorem long_path_ne_nil : long_path ≠ [] := List.ne_nil_of_length_pos (by rw [long_path_length]; decide)

theorem module_path_exact_on_sample :
    module_path (sample_host long_path [] (.error "not found")) 1 = .ok long_path := by
  have hpath := sample_host_has_path long_path_ne_nil [] (.error "not found") 1
  have hshort : long_path.length < 32768 := by
    rw [long_path_length]
    decide
  rw [module_path_exact _ 1 long_path hpath, if_pos hshort]

end ModulePath

section Configuration

variable (host : Host) (self_module : Nat)

/-- The text of the configuration file next to the library, if it can be read. -/
def ini_contents : Option (List Char) :=
  ((module_path host self_module).toOption.bind host.parent).bind fun directory =>
    (host.read_to_string (host.join directory "fc2-systemdetection.ini")).toOption

/-- Its lines, with their numbers, at which options are read. -/
def ini_lines : List (List Char × Nat) :=
  match ini_contents host self_module with
  | some contents => active_lines true 1 (lines (trim_byte_order_mark contents))
  | none => []

/-- A patch has the value of its last valid assignment in the file, or its default. -/
def ini_enables (patch : Patch) : Bool :=
  ((ini_lines host self_module).filterMap fun numbered => assigned patch numbered.1).getLast?.getD
    (PatchConfig.default.enabled patch)

/-- What is to be said of the file, line by line. -/
def ini_complaints : List String :=
  (ini_lines host self_module).filterMap fun numbered => complaint host.debug numbered.2 numbered.1

/-- What was loaded is what the ini file says, whatever its path or its contents. -/
theorem load_patch_config_meaning :
    (∀ patch, (load_patch_config host self_module).1.enabled patch = ini_enables host self_module patch) ∧
      (load_patch_config host self_module).2.2 = ini_complaints host self_module := by
  unfold load_patch_config ini_enables ini_complaints ini_lines ini_contents
  cases hpath : module_path host self_module with
  | error error => exact ⟨fun _ => rfl, rfl⟩
  | ok dll_path =>
    cases hparent : host.parent dll_path with
    | none => simp [hparent, Except.toOption]
    | some directory =>
      cases hread : host.read_to_string (host.join directory "fc2-systemdetection.ini") with
      | error error => cases hfound : error.not_found <;> simp [hparent, hread, hfound, ConfigLoad.load, Except.toOption]
      | ok contents =>
        obtain ⟨_, hconfig, hwarnings⟩ :=
          parse_lines_takes host.debug .initial 1 (lines (trim_byte_order_mark contents))
        simp only [hparent, hread, ConfigLoad.load, Except.toOption, Option.bind_some]
        exact ⟨hconfig, hwarnings⟩

end Configuration

section Initialize

variable {σ : Type} (host : Host) (os : Os σ) (self_module : Nat) (world : World σ)

/-- The run is reported with the complaints about the file. -/
theorem configured_run_of_run {report : PatchReport} {world' : World σ}
    (hrun : run os (loaded_dunia host) (load_patch_config host self_module).1 world = (.ok report, world')) :
    configured_run host os self_module world =
      (.ok { report with
        configuration := some (load_patch_config host self_module).2.1
        warnings := (load_patch_config host self_module).2.2 }, world') := by
  unfold configured_run
  dsimp only
  rw [Action.bind_of_ok hrun]
  rfl

theorem initialize_patches_of_run {report : PatchReport} {world' : World σ}
    (hrun : configured_run host os self_module world = (.ok report, world')) :
    initialize_patches host os self_module world =
      (.ok (emit_report host self_module report.to_string), world') := by
  unfold initialize_patches
  rw [Action.bind_of_ok hrun]
  rfl

/-- The worlds before and after, and the report in between, are as the configuration
file calls for: a byte changes only in a target of an enabled patch, which is then
replaced as a whole; the report has an outcome for each patch, `Disabled` just for
those that are not enabled, and the complaints about the file; and a success is
reported only of a patch that was planned and whose targets all hold their
replacements in the end. -/
structure Configured (before after : World σ) (report : PatchReport) : Prop where
  changed : ∀ position, after.memory position ≠ before.memory position →
    ∃ patch build, ∃ site ∈ Patch.sites build patch, ∃ start,
      ini_enables host self_module patch = true ∧ start + site.template.offset ≤ position ∧
      position < start + site.template.offset + site.guard.expected.length ∧
      site.template.original.Meets before.memory start ∧ site.template.patched.Meets after.memory start
  outcomes : List.Forall₂ (fun (patch : Patch) (outcome : PatchOutcome) => outcome.name = patch.name ∧
    (outcome.status = .Disabled ↔ ini_enables host self_module patch = false)) Patch.all report.outcomes
  in_force : List.Forall₂ (fun (patch : Patch) (outcome : PatchOutcome) =>
    outcome.status = .Applied ∨ outcome.status = .AlreadyApplied → ∃ plan,
      PlannedIn os (loaded_dunia host) (load_patch_config host self_module).1 before patch plan ∧
      ∀ write ∈ plan.writes,
        after.memory.read write.address write.replacement.length = write.replacement) Patch.all report.outcomes
  warnings : report.warnings = ini_complaints host self_module

/-- A run with the loaded configuration does what the file calls for. -/
theorem configured_run_configured : ∃ report world',
    configured_run host os self_module world = (.ok report, world') ∧
      Configured host os self_module world world' report := by
  obtain ⟨hconfig, hwarnings⟩ := load_patch_config_meaning host self_module
  obtain ⟨report, world', hrun, hstamped, htells⟩ :=
    run_tells os (loaded_dunia host) (load_patch_config host self_module).1 world
  refine ⟨_, world', configured_run_of_run host os self_module world hrun, fun position hchanged => ?_, ?_, ?_,
    hwarnings⟩
  · obtain ⟨placement, ⟨patch, build, site, hsite, henabled, htemplate⟩, ⟨hlo, hhi⟩, horiginal, hpatched⟩ :=
      hstamped.changed patch_templates_independent PlaceOf.mem hchanged
    rw [Placement.Original, htemplate] at horiginal
    rw [Placement.Patched, htemplate] at hpatched
    rw [Placement.target, htemplate] at hlo hhi
    rw [Site.template_before] at hhi
    exact ⟨patch, build, site, hsite, placement.start, (hconfig patch).symm.trans henabled, hlo, hhi, horiginal,
      hpatched⟩
  · refine htells.imp fun patch outcome htell => ?_
    rw [← hconfig patch]
    cases htell with
    | disabled hdisabled => simp [hdisabled]
    | failed henabled reason => simp [henabled]
    | succeeded henabled hstatus _ _ => rcases hstatus with rfl | rfl <;> simp [henabled]
  · refine htells.imp fun patch outcome htell hsucceeded => ?_
    cases htell with
    | disabled hdisabled => simp at hsucceeded
    | failed henabled reason => simp at hsucceeded
    | succeeded henabled hstatus hplanned hsettled =>
      exact ⟨_, hplanned, fun write hwrite => (hsettled write hwrite).held⟩

/-- Whatever the loader, the file system and the memory calls do, `initialize`
returns after it has emitted a report, and has done what the configuration calls for. -/
theorem initialize_follows_configuration : ∃ report world',
    initialize_patches host os self_module world =
        (.ok (emit_report host self_module report.to_string), world') ∧
      Configured host os self_module world world' report := by
  obtain ⟨report, world', hrun, hconfigured⟩ := configured_run_configured host os self_module world
  exact ⟨report, world', initialize_patches_of_run host os self_module world hrun, hconfigured⟩

end Initialize

end systemdetection.patches
