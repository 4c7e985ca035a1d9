import SystemDetection.Patches.InitializeMeaning
import SystemDetection.Patches.Reasons

open effect store systemdetection.patches.sigscan

namespace systemdetection.patches

section Complaints

/-- No line of a text has a line feed in it. -/
theorem lines_from_inline {current text : List Char} (hcurrent : '\n' ∉ current) :
    ∀ line ∈ lines_from current text, '\n' ∉ line := by
  induction text generalizing current with
  | nil =>
    rw [lines_from]
    split
    · simp
    · exact fun line hmem => List.mem_singleton.mp hmem ▸ hcurrent
  | cons character rest ih =>
    rw [lines_from]
    split
    · rw [List.forall_mem_cons]
      refine ⟨?_, ih List.not_mem_nil⟩
      rw [strip_carriage_return]
      split
      · exact fun hmem => hcurrent (List.dropLast_subset _ hmem)
      · exact hcurrent
    · rename_i hcharacter
      refine ih ?_
      rw [List.mem_append, List.mem_singleton, not_or]
      exact ⟨hcurrent, Ne.symm hcharacter⟩

/-- Lowering makes letters only. -/
theorem toLower_end_of_line {character end_of_line : Char} (hend : end_of_line = '\n' ∨ end_of_line = '\r')
    (hlower : character.toLower = end_of_line) : character = end_of_line := by
  delta Char.toLower at hlower
  split at hlower
  · rename_i hupper
    have hlow : 65 ≤ character.val.toNat := UInt32.le_iff_toNat_le.mp hupper.1
    have hhigh : character.val.toNat ≤ 90 := UInt32.le_iff_toNat_le.mp hupper.2
    have hvalue := congrArg (fun character : Char => character.val.toNat) hlower
    have hsum : (character.val + 32).toNat = character.val.toNat + 32 := by
      rw [UInt32.toNat_add]
      exact Nat.mod_eq_of_lt (Nat.lt_of_le_of_lt (Nat.add_le_add_right hhigh _) (by decide))
    have hletter : end_of_line.val.toNat = character.val.toNat + 32 := hvalue.symm.trans hsum
    rcases hend with rfl | rfl
    · rw [show ('\n').val.toNat = 10 from rfl] at hletter
      omega
    · rw [show ('\r').val.toNat = 13 from rfl] at hletter
      omega
  · exact hlower

/-- A key is trimmed, so that it ends no line. -/
theorem key_single_line {raw_key : List Char} (hkey : '\n' ∉ raw_key) :
    SingleLine (to_ascii_lowercase (trim raw_key)) := by
  obtain ⟨front, back, htext, _, _, _, hlast⟩ := trim_matches_margins is_whitespace raw_key
  rw [SingleLine, to_ascii_lowercase, String.toList_ofList]
  constructor
  · intro hmem
    obtain ⟨character, hcharacter, hlowered⟩ := List.mem_map.mp hmem
    have hnewline := toLower_end_of_line (.inl rfl) hlowered
    subst hnewline
    refine hkey ?_
    rw [htext]
    exact List.mem_append_left _ (List.mem_append_right _ hcharacter)
  · rw [List.getLast?_map]
    intro hreturn
    obtain ⟨character, hcharacter, hlowered⟩ := Option.map_eq_some_iff.mp hreturn
    have hblank := hlast character hcharacter
    rw [toLower_end_of_line (.inr rfl) hlowered] at hblank
    exact absurd hblank (by decide)

/-- What is said of a line stays on one line, whatever the line holds. -/
theorem complaint_single_line {debug : List Char → String} (hdebug : ∀ text, SingleLine (debug text))
    {line_number : Nat} {raw_line : List Char} {text : String} (hline : '\n' ∉ raw_line)
    (hcomplaint : complaint debug line_number raw_line = some text) : SingleLine text := by
  have hnumber : SingleLine (s!"line {line_number}") :=
    SingleLine.labelled "line " (decimal_single_line line_number)
  have hkeys : ∀ {key value}, line_kind raw_line = .assignment key value → SingleLine key := by
    intro key value hkind
    rw [line_kind] at hkind
    split at hkind
    · cases hkind
    split at hkind
    · cases hkind
    split at hkind
    · cases hkind
    · rename_i raw_key raw_value hsplit
      cases hkind
      obtain ⟨_, htrim, _, _⟩ := split_once_eq_some_iff.mp hsplit
      obtain ⟨front, back, htext, _⟩ := trim_matches_margins is_whitespace raw_line
      refine key_single_line fun hmem => hline ?_
      rw [htext]
      refine List.mem_append_left _ (List.mem_append_right _ ?_)
      change _ ∈ trim raw_line
      rw [htrim]
      exact List.mem_append_left _ hmem
  rw [complaint] at hcomplaint
  cases hkind : line_kind raw_line with
  | ignored | header => simp [hkind] at hcomplaint
  | malformed =>
    simp only [hkind] at hcomplaint
    cases hcomplaint
    exact hnumber.followed ": expected key = value"
  | assignment key value =>
    simp only [hkind] at hcomplaint
    split at hcomplaint
    · cases hcomplaint
      exact (((hnumber.followed ": invalid Boolean value ").append (hdebug value)).followed
        " for ").append (hkeys hkind)
    · split at hcomplaint
      · cases hcomplaint
      · cases hcomplaint
        exact (hnumber.followed ": unknown patch option ").append (hdebug key.toList)

/-- The complaints about the file are single lines, whatever is in the file. -/
theorem ini_complaints_single_line (host : Host) (self_module : Nat)
    (hdebug : ∀ text, SingleLine (host.debug text)) :
    ∀ warning ∈ ini_complaints host self_module, SingleLine warning := by
  intro warning hmem
  rw [ini_complaints, List.mem_filterMap] at hmem
  obtain ⟨⟨raw_line, line_number⟩, hmem, hcomplaint⟩ := hmem
  refine complaint_single_line hdebug ?_ hcomplaint
  rw [ini_lines] at hmem
  cases hcontents : ini_contents host self_module with
  | none => simp [hcontents] at hmem
  | some contents =>
    simp only [hcontents] at hmem
    have hnumbered := (List.mem_filter.mp hmem).1
    exact lines_from_inline List.not_mem_nil raw_line (List.fst_mem_of_mem_zipIdx hnumbered)

end Complaints

/-- The texts that the system gives have no line ends: displayed paths, escaped texts
and the messages of errors. -/
structure Host.Plain (host : Host) : Prop where
  module_handle : ∀ error, host.GetModuleHandleA = .error error → SingleLine error
  module : ∀ dunia module, host.GetModuleHandleA = .ok (dunia, module) → module.Plain
  debug : ∀ text, SingleLine (host.debug text)
  display : ∀ path, SingleLine (host.display path)
  io_error : ∀ path error, host.read_to_string path = .error error → SingleLine error.text
  last_error : ∀ module capacity, SingleLine (host.GetModuleFileNameW module capacity).error

section Initialize

variable {σ : Type} {host : Host} {os : Os σ} {self_module : Nat} {world world' : World σ} {report : PatchReport}

/-- The error about the path of the module is a single line. -/
theorem module_path_error_single_line {GetModuleFileNameW : Nat → ModuleFileName}
    (herrors : ∀ capacity, SingleLine (GetModuleFileNameW capacity).error) {capacity : Nat}
    (hcapacity : 0 < capacity) {error : String}
    (herror : module_path_loop GetModuleFileNameW capacity hcapacity = .error error) : SingleLine error := by
  induction capacity, hcapacity using module_path_loop.induct GetModuleFileNameW with
  | case1 capacity hcapacity answer hzero =>
    rw [module_path_loop, if_pos hzero] at herror
    cases herror
    exact herrors capacity
  | case2 capacity hcapacity answer hzero hshort =>
    rw [module_path_loop, if_neg hzero, if_pos hshort] at herror
    cases herror
  | case3 capacity hcapacity answer hzero hshort hlimit =>
    rw [module_path_loop, if_neg hzero, if_neg hshort, dif_pos hlimit] at herror
    cases herror
    decide
  | case4 capacity hcapacity answer hzero hshort hlimit ih =>
    rw [module_path_loop, if_neg hzero, if_neg hshort, dif_neg hlimit] at herror
    exact ih herror

/-- So is the line about the configuration. -/
theorem configuration_single_line (hplain : host.Plain) (self_module : Nat) :
    SingleLine (load_patch_config host self_module).2.1 := by
  unfold load_patch_config
  cases hpath : module_path host self_module with
  | error error =>
    exact (SingleLine.labelled "DLL path unavailable; using defaults ("
      (module_path_error_single_line (hplain.last_error self_module) _ hpath)).followed ")"
  | ok dll_path =>
    cases hparent : host.parent dll_path with
    | none =>
      simp only [hparent]
      decide
    | some directory =>
      simp only [hparent, ConfigLoad.load]
      cases hread : host.read_to_string (host.join directory "fc2-systemdetection.ini") with
      | ok contents => exact SingleLine.labelled "loaded " (hplain.display _)
      | error error =>
        cases hfound : error.not_found with
        | true =>
          simp only [hfound, ↓reduceIte]
          exact (hplain.display _).followed " not found; using defaults"
        | false =>
          simp only [hfound, Bool.false_eq_true, ↓reduceIte]
          exact (((SingleLine.labelled "could not read " (hplain.display _)).followed
            "; using defaults (").append (hplain.io_error _ error hread)).followed
            ")"

/-- A run on the loaded module reports single lines. -/
theorem dunia_run_answers (hplain : host.Plain) (hos : os.Plain) (config : PatchConfig) :
    (run os (loaded_dunia host) config).Answers (fun _ => True) PatchReport.OneLined := by
  refine run_answers hos (fun error herror => ?_) (fun module hmodule => ?_) config
  · cases hhandle : host.GetModuleHandleA with
    | error cause =>
      rw [loaded_dunia, hhandle] at herror
      cases herror
      exact hplain.module_handle _ hhandle
    | ok loaded =>
      rw [loaded_dunia, hhandle] at herror
      cases herror
  · cases hhandle : host.GetModuleHandleA with
    | error cause =>
      rw [loaded_dunia, hhandle] at hmodule
      cases hmodule
    | ok loaded =>
      rw [loaded_dunia, hhandle] at hmodule
      cases hmodule
      obtain ⟨hinformation, hportex⟩ := hplain.module loaded.1 loaded.2 hhandle
      exact ⟨hinformation, hportex⟩

/-- So does the run with the loaded configuration. -/
theorem configured_run_plain (hplain : host.Plain) (hos : os.Plain)
    (hrun : configured_run host os self_module world = (.ok report, world')) :
    report.Plain ∧ report.warnings = ini_complaints host self_module := by
  obtain ⟨_, hwarnings⟩ := load_patch_config_meaning host self_module
  obtain ⟨ran, final, hran, _, htells⟩ :=
    run_tells os (loaded_dunia host) (load_patch_config host self_module).1 world
  rw [configured_run_of_run host os self_module world hran] at hrun
  cases hrun
  obtain ⟨hbuild, himage, hreasons⟩ := (dunia_run_answers hplain hos _).of_ok hran
  refine ⟨⟨fun text htext => ?_, hbuild, himage, fun name reason hmem => hreasons _ hmem reason rfl,
    fun warning hwarning => ?_, fun outcome hmem => ?_⟩, hwarnings⟩
  · cases htext
    exact configuration_single_line hplain self_module
  · change warning ∈ (load_patch_config host self_module).2.2 at hwarning
    rw [hwarnings] at hwarning
    exact ini_complaints_single_line host self_module hplain.debug warning hwarning
  · obtain ⟨patch, hpatch, htell⟩ := mem_of_forall₂ htells hmem
    have hname : outcome.name = patch.name := by cases htell <;> rfl
    rw [hname]
    exact List.mem_map_of_mem hpatch

/-- No configuration file and no failure can forge, hide or split a line of the report:
what is written to the log reads back as the outcomes of the run and the complaints about
the file, and the debugger gets the report up to the first U+0000 in it. -/
theorem initialize_report_read_back (hplain : host.Plain) (hos : os.Plain)
    (hrun : configured_run host os self_module world = (.ok report, world')) :
    ∃ wide rest, initialize_patches host os self_module world = (.ok (.OutputDebugStringW wide :: rest), world') ∧
      utf16.decode (wide.takeWhile (· != 0)) = some (report.to_string.toList.takeWhile (· != '\x00')) ∧
      ∀ path contents, .write path contents ∈ rest →
        read_report contents.toList = (report.outcomes, ini_complaints host self_module) := by
  obtain ⟨hreport, hwarnings⟩ := configured_run_plain hplain hos hrun
  refine ⟨_, _, initialize_patches_of_run host os self_module world hrun, ?_, fun path contents hmem => ?_⟩
  · rw [utf16.takeWhile_encode, utf16.decode_encode]
  · have hcontents : contents = report.to_string := by
      cases hpath : log_path host self_module with
      | none => simp [hpath] at hmem
      | some log_path => cases hwrite : host.write log_path report.to_string <;> simp_all
    rw [hcontents, ← hwarnings]
    exact (read_report_to_string hreport)

/-- The system that refuses to flush says so in one line. -/
theorem refusing_flushes_plain : refusing_flushes.Plain where
  protect address length protection map error herror := by
    simp only [refusing_flushes, memory.page_table] at herror
    split at herror
    · cases herror
    · cases herror
      decide
  flush _ _ _ _ herror := by
    cases herror
    decide

/-- The texts of the sample host are single lines. -/
theorem sample_host_plain (path : Path) (contents : List Char) :
    (sample_host path contents (.error "not found")).Plain where
  module_handle _ herror := by
    cases herror
    decide
  module _ _ hloaded := by cases hloaded
  debug text := debug_str_single_line _
  display _ := by
    change SingleLine "fc2-systemdetection.ini"
    decide
  io_error _ _ herror := by cases herror
  last_error module capacity := by
    have hempty : (documented_file_name path capacity).error = "" := by
      rw [documented_file_name]
      split <;> rfl
    change SingleLine (documented_file_name path capacity).error
    rw [hempty]
    decide

theorem initialize_report_read_back_on_sample :
    let host := sample_host [0x61] "machetes = maybe".toList (.error "not found")
    ∃ outputs world', initialize_patches host refusing_flushes 1 sample_world = (.ok outputs, world') ∧
      ∀ path contents, .write path contents ∈ outputs.tail →
        (read_report contents.toList).2 = ini_complaints host 1 := by
  intro host
  have hrun : configured_run host refusing_flushes 1 sample_world = (.ok _, _) :=
    configured_run_of_run host refusing_flushes 1 sample_world rfl
  obtain ⟨wide, rest, hinitialize, _, hread⟩ := initialize_report_read_back
    (sample_host_plain [0x61] "machetes = maybe".toList) refusing_flushes_plain hrun
  exact ⟨_, _, hinitialize, fun path contents hmem => by rw [hread path contents hmem]⟩

end Initialize

end systemdetection.patches
