import SystemDetection.Effect.Answers
import SystemDetection.Patches.PlanMeaning
import SystemDetection.Patches.Texts

open effect effect.Action systemdetection.patches.memory systemdetection.patches.sigscan

namespace systemdetection

open patches in
/-- The errors of the system calls are reported on one line. -/
structure Os.Plain {σ : Type} (os : Os σ) : Prop where
  protect : ∀ address length protection state error,
    (os.VirtualProtect address length protection state).1 = .error error → SingleLine error
  flush : ∀ address length state error,
    (os.FlushInstructionCache address length state).1 = .error error → SingleLine error

end systemdetection

namespace systemdetection.patches

variable {σ : Type} {os : Os σ}

/-- The error is displayed on one line. -/
def PatchError.Plain (error : PatchError) : Prop := SingleLine error.to_string

theorem memory_plain {error : MemoryError} (hplain : error.Plain) : (PatchError.Memory error).Plain :=
  hplain.single_line

theorem scan_plain {error : ScanError} (hplain : error.Plain) : (PatchError.Scan error).Plain :=
  hplain.single_line

section Memory

theorem virtual_query_answers {ε : Type} (os : Os σ) (address : Nat) (P : ε → Prop) :
    (virtual_query os address).Answers P fun _ => True where
  error _ _ herror := by cases herror
  value _ _ _ := trivial

theorem raw_read_answers {ε : Type} (address length : Nat) (P : ε → Prop) :
    (raw_read address length : Action (World σ) ε _).Answers P fun _ => True where
  error _ _ herror := by cases herror
  value _ _ _ := trivial

theorem raw_write_answers {ε : Type} (address : Nat) (bytes : List UInt8) (P : ε → Prop) :
    (raw_write address bytes : Action (World σ) ε _).Answers P fun _ => True where
  error _ _ herror := by cases herror
  value _ _ _ := trivial

/-- The errors about a region carry no text of their own. -/
theorem readable_region_end_plain {address : Nat} {information : MemoryBasicInformation} {error : MemoryError}
    (herror : readable_region_end address information = .error error) : error.Plain := by
  rw [readable_region_end] at herror
  split at herror
  · cases herror
    trivial
  split at herror
  · cases herror
    trivial
  split at herror
  · cases herror
    trivial
  · cases herror

theorem region_end_answers (address : Nat) (information : MemoryBasicInformation) :
    (lift (readable_region_end address information) : Action (World σ) _ _).Answers MemoryError.Plain
      fun _ => True :=
  answers_lift (fun _ => readable_region_end_plain) fun _ _ => trivial

/-- Nor do those of the walk. -/
theorem readable_loop_answers (os : Os σ) (stop cursor : Nat) :
    (memory.validate_readable_loop os stop cursor).Answers MemoryError.Plain fun _ => True := by
  induction cursor using memory.validate_readable_loop.induct stop with
  | case1 cursor hcursor ih =>
    rw [memory.validate_readable_loop, dif_pos hcursor]
    refine (virtual_query_answers os cursor _).bind fun answer _ => ?_
    cases answer with
    | none => exact answers_throw trivial
    | some information =>
      refine (region_end_answers cursor information).bind fun region_end _ => ?_
      split
      · exact answers_throw trivial
      · exact ih region_end ‹_›
  | case2 cursor hcursor =>
    rw [memory.validate_readable_loop, dif_neg hcursor]
    exact answers_pure trivial

/-- Nor do those of a checked read. -/
theorem read_bytes_answers (os : Os σ) (address length : Nat) :
    (read_bytes os address length).Answers MemoryError.Plain fun _ => True := by
  have hrange : (memory.validate_readable_range os address length).Answers MemoryError.Plain fun _ => True := by
    unfold memory.validate_readable_range
    split
    · exact answers_pure trivial
    · split
      · exact answers_throw trivial
      · exact readable_loop_answers os _ _
  refine hrange.bind fun _ _ => ?_
  split
  · exact raw_read_answers address length _
  · exact answers_pure trivial

/-- The guard adds the bytes it has found, no text. -/
theorem validate_bytes_answers (os : Os σ) (address : Nat) (expected replacement : List UInt8) :
    (validate_bytes os address expected replacement).Answers MemoryError.Plain fun _ => True := by
  refine (answers_lift (Q := fun _ => True) (fun error herror => ?_) fun _ _ => trivial).bind fun _ _ => ?_
  · rw [validate_lengths] at herror
    split at herror
    · cases herror
      trivial
    · split at herror
      · cases herror
        trivial
      · cases herror
  · refine (read_bytes_answers os address expected.length).bind fun actual _ => ?_
    refine answers_lift (fun error herror => ?_) fun _ _ => trivial
    rw [classify_bytes] at herror
    split at herror
    · cases herror
    · split at herror
      · cases herror
      · cases herror
        trivial

/-- The errors of the choice of a protection carry no text. -/
theorem writable_protection_answers (os : Os σ) (address length : Nat) :
    (writable_protection_for_single_region os address length).Answers MemoryError.Plain fun _ => True := by
  unfold writable_protection_for_single_region
  split
  · exact answers_throw trivial
  · refine (virtual_query_answers os address _).bind fun answer _ => ?_
    cases answer with
    | none => exact answers_throw trivial
    | some information =>
      refine (region_end_answers address information).bind fun region_end _ => ?_
      split
      · exact answers_throw trivial
      · exact answers_pure trivial

variable (hos : os.Plain)
include hos

theorem virtual_protect_answers (address length : Nat) (protection : UInt32) :
    (virtual_protect os address length protection).Answers SingleLine fun _ => True where
  error world := hos.protect address length protection world.os
  value _ _ _ := trivial

/-- The errors after the copy carry the text of the system, which is a single line. -/
theorem finish_write_answers (address : Nat) (replacement : List UInt8) (old_protection : UInt32) :
    (finish_write os address replacement old_protection).Answers MemoryError.Plain fun _ => True := by
  have hflush : (flush_instruction_cache os address replacement.length).Answers SingleLine fun _ => True :=
    ⟨fun world => hos.flush address replacement.length world.os, fun _ _ _ => trivial⟩
  have hrestore := virtual_protect_answers hos address replacement.length old_protection
  refine hrestore.attempt.bind fun restored hrestored => ?_
  refine hflush.attempt.bind fun flushed hflushed => ?_
  cases restored with
  | error error => exact answers_throw (hrestored.1 error rfl)
  | ok _ =>
    cases flushed with
    | error error => exact answers_throw (hflushed.1 error rfl)
    | ok _ =>
      refine (read_bytes_answers os address replacement.length).bind fun actual _ => ?_
      split
      · exact answers_throw trivial
      · exact answers_pure trivial

/-- So do the errors of a whole write. -/
theorem write_checked_answers (address : Nat) (expected replacement : List UInt8) :
    (write_checked os address expected replacement).Answers MemoryError.Plain fun _ => True := by
  refine (validate_bytes_answers os address expected replacement).bind fun state _ => ?_
  cases state with
  | AlreadyApplied => exact answers_pure trivial
  | Applied =>
    refine (writable_protection_answers os address replacement.length).bind fun protection _ => ?_
    refine Answers.bind ((virtual_protect_answers hos _ _ _).map_err fun _ herror => herror)
      fun old_protection _ => ?_
    refine Answers.bind (raw_write_answers address replacement _) fun _ _ => ?_
    exact finish_write_answers hos address replacement old_protection

end Memory

section Plans

/-- So do those that a rollback collects. -/
theorem rollback_all_answers (hos : os.Plain) (writes : List CheckedWrite) :
    (rollback_all os writes).Answers PatchError.Plain fun errors => ∀ error ∈ errors, error.Plain := by
  induction writes with
  | nil => exact answers_pure (by simp)
  | cons write rest ih =>
    have hrollback : (write.rollback os).Answers PatchError.Plain fun _ => True :=
      (write_checked_answers hos _ _ _).map_err fun _ => memory_plain
    refine hrollback.attempt.bind fun result hresult => ?_
    refine ih.bind fun errors herrors => ?_
    cases result with
    | error error => exact answers_pure (List.forall_mem_cons.mpr ⟨hresult.1 error rfl, herrors⟩)
    | ok state => exact answers_pure herrors

/-- An incomplete rollback reports plain errors inside a plain error. -/
theorem apply_loop_answers (hos : os.Plain) (applied already_applied : Nat)
    (applied_writes writes : List CheckedWrite) :
    (apply_loop os applied already_applied applied_writes writes).Answers PatchError.Plain fun _ => True := by
  induction writes generalizing applied already_applied applied_writes with
  | nil => exact answers_pure trivial
  | cons write rest ih =>
    have happly : (write.apply os).Answers PatchError.Plain fun _ => True :=
      (write_checked_answers hos _ _ _).map_err fun _ => memory_plain
    refine happly.attempt.bind fun result hresult => ?_
    cases result with
    | ok state =>
      cases state with
      | Applied => exact ih _ _ _
      | AlreadyApplied => exact ih _ _ _
    | error error =>
      refine (rollback_all_answers hos applied_writes.reverse).bind fun errors herrors => ?_
      split
      · exact answers_throw (hresult.1 error rfl)
      · exact answers_throw (partial_write_single_line applied (hresult.1 error rfl) herrors)

theorem validated_answers (os : Os σ) (address : Nat) (expected replacement : List UInt8) :
    (CheckedWrite.validated os address expected replacement).Answers PatchError.Plain fun _ => True :=
  Answers.bind ((validate_bytes_answers os address expected replacement).map_err fun _ => memory_plain)
    fun _ _ => answers_pure trivial

/-- The only error of a new plan is that it is empty. -/
theorem plan_new_answers (writes : List CheckedWrite) :
    (lift (PatchPlan.new writes) : Action (World σ) _ _).Answers PatchError.Plain fun _ => True := by
  refine answers_lift (fun error herror => ?_) fun _ _ => trivial
  rw [PatchPlan.new] at herror
  split at herror
  · cases herror
    change SingleLine "patch plan contains no writes"
    decide
  · cases herror

theorem single_answers (os : Os σ) (address : Nat) (expected replacement : List UInt8) :
    (PatchPlan.single os address expected replacement).Answers PatchError.Plain fun _ => True :=
  (validated_answers os address expected replacement).bind fun _ _ => plan_new_answers _

end Plans

section Planners

/-- The errors of a scan stay plain as errors of a patch. -/
theorem scan_answers {α : Type} {result : Except ScanError α}
    (hplain : ∀ error, result = .error error → error.Plain) :
    (lift (result.mapError PatchError.Scan) : Action (World σ) _ _).Answers PatchError.Plain fun _ => True := by
  refine answers_lift (fun error herror => ?_) fun _ _ => trivial
  cases result with
  | error cause =>
    cases herror
    exact scan_plain (hplain cause rfl)
  | ok value => cases herror

/-- A signature that cannot be parsed is named by its own text. -/
theorem parse_answers (signature : String) :
    (lift ((Pattern.parse signature).mapError PatchError.Scan) : Action (World σ) _ _).Answers PatchError.Plain
      fun _ => True := by
  refine scan_answers fun error herror => ?_
  rw [Pattern.parse] at herror
  split at herror
  · cases herror
    trivial
  split at herror
  · cases herror
    trivial
  · cases herror

variable (os) (image : ModuleImage)

/-- The errors about an RVA carry numbers only. -/
theorem address_answers (rva length : Nat) (scope : ScanScope) :
    (lift ((image.address_from_rva rva length scope).mapError PatchError.Scan) : Action (World σ) _ _).Answers
      PatchError.Plain fun _ => True := by
  refine scan_answers fun error herror => ?_
  rw [ModuleImage.address_from_rva] at herror
  split at herror
  · cases herror
    change SingleLine "RVA range overflow"
    decide
  split at herror
  · cases herror
    trivial
  dsimp only at herror
  split at herror
  · cases herror
    trivial
  split at herror
  · cases herror
    change SingleLine "RVA address overflow"
    decide
  · cases herror

/-- The reason to reject a match is a single line. -/
theorem validate_match_answers (scope : ScanScope) (target_offset : Nat) (expected replacement : List UInt8)
    (start : Nat) :
    (validate_match os image scope target_offset expected replacement start).Answers PatchError.Plain
      fun verdict => ∀ reason, verdict = .error reason → SingleLine reason := by
  have hstart := SingleLine.at_address "match 0x" start
  unfold validate_match
  split
  · refine answers_pure ?_
    rintro _ ⟨⟩
    exact hstart.followed ": target address overflow"
  split
  · refine answers_pure ?_
    rintro _ ⟨⟩
    exact ((hstart.followed ": target 0x").append (upper_hex_single_line 8 _)).followed
      " leaves its matched PE section"
  · refine (validate_bytes_answers os _ expected replacement).attempt.bind fun result hresult => ?_
    cases result with
    | ok state =>
      refine answers_pure ?_
      rintro _ ⟨⟩
    | error error =>
      refine answers_pure ?_
      rintro _ ⟨⟩
      exact (hresult.1 error rfl).single_line

/-- So are the reasons that the search collects. -/
theorem validate_matches_answers (scope : ScanScope) (target_offset : Nat) (expected replacement : List UInt8)
    (accepted : List Nat) {rejected : List String} (hrejected : ∀ reason ∈ rejected, SingleLine reason)
    (starts : List Nat) :
    (validate_matches os image scope target_offset expected replacement accepted rejected starts).Answers
      PatchError.Plain fun lists => ∀ reason ∈ lists.2, SingleLine reason := by
  induction starts generalizing accepted rejected with
  | nil => exact answers_pure hrejected
  | cons start rest ih =>
    have hmatch := validate_match_answers os image scope target_offset expected replacement start
    refine hmatch.bind fun verdict hverdict => ?_
    cases verdict with
    | ok target => exact ih (accepted ++ [target]) hrejected
    | error reason =>
      refine ih accepted ?_
      rw [List.forall_mem_append, List.forall_mem_singleton]
      exact ⟨hrejected, hverdict reason rfl⟩

/-- The error of a search lists single lines. -/
theorem find_signature_target_answers (signature : String) (scope : ScanScope) (target_offset : Nat)
    (expected replacement : List UInt8) :
    (find_signature_target os image signature scope target_offset expected replacement).Answers PatchError.Plain
      fun _ => True := by
  refine (parse_answers signature).bind fun pattern _ => ?_
  dsimp only
  split
  · exact answers_throw (not_found_single_line signature scope)
  · have hnone : ∀ reason ∈ ([] : List String), SingleLine reason := by simp
    have hmatches := validate_matches_answers os image scope target_offset expected replacement [] hnone
    refine (hmatches _).bind fun lists hlists => ?_
    rcases lists with ⟨accepted, rejected⟩
    rcases accepted with _ | ⟨target, _ | ⟨other, others⟩⟩
    · exact answers_throw (no_target_single_line signature _ hlists)
    · exact answers_pure trivial
    · exact answers_throw (ambiguous_single_line signature _)

theorem unique_plan_answers (recipe : Recipe) :
    (unique_plan os image recipe).Answers PatchError.Plain fun _ => True :=
  (find_signature_target_answers os image _ _ _ _ _).bind fun _ _ => single_answers os _ _ _

theorem fixed_plan_answers (guard : Guard) (scope : ScanScope) (target_rva : Nat) :
    (fixed_plan os image guard scope target_rva).Answers PatchError.Plain fun _ => True :=
  (address_answers image _ _ _).bind fun _ _ => single_answers os _ _ _

/-- The errors of a write at a known RVA are plain. -/
theorem known_write_answers (recipe : Recipe) (target_rva : Nat) :
    (known_write os image recipe target_rva).Answers PatchError.Plain fun _ => True := by
  have hreason : ∀ (text : String) (raw_matches : Nat), SingleLine text →
      (PatchError.NoValidatedTarget recipe.signature raw_matches [text]).Plain := fun text raw_matches htext =>
    no_target_single_line _ _ (by simpa using htext)
  refine (parse_answers recipe.signature).bind fun pattern _ => ?_
  split
  · exact answers_throw (hreason _ _ (((SingleLine.at_address "known target RVA 0x" target_rva).followed
      " precedes offset ").append (decimal_single_line _)))
  · refine (address_answers image _ _ _).bind fun expected_start _ => ?_
    dsimp only
    split
    · exact answers_throw (hreason _ _ (SingleLine.at_address "no matching context at known start RVA 0x" _))
    · exact (address_answers image _ _ _).bind fun _ _ => validated_answers os _ _ _

theorem known_plan_answers (first second third : Recipe) (first_rva second_rva third_rva : Nat) :
    (known_plan os image first second third first_rva second_rva third_rva).Answers PatchError.Plain fun _ => True :=
  (known_write_answers os image first first_rva).bind fun _ _ =>
    (known_write_answers os image second second_rva).bind fun _ _ =>
    (known_write_answers os image third third_rva).bind fun _ _ => plan_new_answers _

theorem fallback_plan_answers (first second third : Recipe) :
    (fallback_plan os image first second third).Answers PatchError.Plain fun _ => True :=
  have hfind := find_signature_target_answers os image
  (hfind _ _ _ _ _).bind fun _ _ => (hfind _ _ _ _ _).bind fun _ _ => (hfind _ _ _ _ _).bind fun _ _ =>
    (validated_answers os _ _ _).bind fun _ _ => (validated_answers os _ _ _).bind fun _ _ =>
    (validated_answers os _ _ _).bind fun _ _ => plan_new_answers _

/-- So are the errors of every planner. -/
theorem Patch.plan_answers (build : DuniaBuild) (patch : Patch) :
    (patch.plan os image build).Answers PatchError.Plain fun _ => True := by
  cases patch with
  | jackal_tapes =>
    rw [Patch.plan, plan_jackal_tapes_eq]
    exact unique_plan_answers os image _
  | devmode_always_on =>
    rw [Patch.plan, plan_devmode_always_on_eq]
    exact unique_plan_answers os image _
  | predecessor_tapes =>
    rw [Patch.plan, plan_predecessor_tapes_eq]
    cases build with
    | Retail => exact fixed_plan_answers os image _ _ _
    | Steam | Ubisoft | Unknown => exact unique_plan_answers os image _
  | machetes =>
    rw [Patch.plan, plan_machetes_eq]
    exact unique_plan_answers os image _
  | no_blinking_items =>
    rw [Patch.plan, plan_no_blinking_items_eq]
    cases no_blink_rvas build with
    | some rvas => exact known_plan_answers os image _ _ _ _ _ _
    | none => exact fallback_plan_answers os image _ _ _

end Planners

section Module

/-- Whatever it reads, the parser rejects the headers with one line. -/
inductive sigscan.HeaderParser.Plain : HeaderParser → Prop
  | done {result : Except String PEHeaders} (hresult : ∀ error, result = .error error → SingleLine error) :
    HeaderParser.Plain (.done result)
  | read_at {offset buffer : Nat} {next : Except String (List UInt8) → HeaderParser}
    (hnext : ∀ answer, (∀ error, answer = .error error → SingleLine error) →
      HeaderParser.Plain (next answer)) :
    HeaderParser.Plain (.read_at offset buffer next)

structure sigscan.LoadedModule.Plain (module : LoadedModule) : Prop where
  information : ∀ error, module.information = .error error → SingleLine error
  portex : ∀ size, (module.portex size).Plain

/-- The texts about a region are single lines. -/
theorem region_answers (information : MemoryBasicInformation) :
    (lift (validate_region information) : Action (World σ) _ _).Answers SingleLine fun _ => True := by
  refine answers_lift (fun error herror => ?_) fun _ _ => trivial
  rw [validate_region] at herror
  split at herror
  · cases herror
    decide
  split at herror
  · cases herror
    exact (SingleLine.labelled "memory protection 0x" (upper_hex_single_line 0 _)).followed
      " is not readable"
  · cases herror

/-- So are those of the walk over the module. -/
theorem module_loop_answers (os : Os σ) (stop cursor : Nat) :
    (sigscan.validate_readable_loop os stop cursor).Answers SingleLine fun _ => True := by
  induction cursor using sigscan.validate_readable_loop.induct stop with
  | case1 cursor hcursor ih =>
    rw [sigscan.validate_readable_loop, dif_pos hcursor]
    refine (virtual_query_answers os cursor _).bind fun answer _ => ?_
    cases answer with
    | none => exact answers_throw (SingleLine.at_address "VirtualQuery failed at 0x" cursor)
    | some information =>
      refine (region_answers information).bind fun _ _ => ?_
      split
      · exact answers_throw (by decide)
      · split
        · exact answers_throw (by decide)
        · exact ih _ ‹_›
  | case2 cursor hcursor =>
    rw [sigscan.validate_readable_loop, dif_neg hcursor]
    exact answers_pure trivial

/-- So are those of a range check. -/
theorem module_range_answers (os : Os σ) (address length : Nat) :
    (sigscan.validate_readable_range os address length).Answers SingleLine fun _ => True := by
  unfold sigscan.validate_readable_range
  split
  · exact answers_pure trivial
  · split
    · exact answers_throw (by decide)
    · exact module_loop_answers os _ _

/-- So are those that the reader of the headers returns. -/
theorem read_at_answers (os : Os σ) (reader : ValidatedModuleReader) (offset buffer : Nat) :
    (reader.read_at os offset buffer).Answers SingleLine fun _ => True := by
  unfold ValidatedModuleReader.read_at
  split
  · exact answers_pure trivial
  split
  · exact answers_pure trivial
  dsimp only
  split
  · exact answers_pure trivial
  split
  · exact answers_throw (by decide)
  · refine Answers.bind ((module_range_answers os _ _).map_err fun reason hreason => ?_) fun _ _ =>
      raw_read_answers _ _ _
    exact ((SingleLine.labelled "loaded-module read at offset 0x" (upper_hex_single_line 0 offset)).followed
      " is unsafe: ").append hreason

/-- A parser that fails with single lines does so on the reader too. -/
theorem read_from_answers (os : Os σ) (reader : ValidatedModuleReader) {parser : HeaderParser}
    (hplain : parser.Plain) :
    (parser.read_from os reader).Answers SingleLine fun _ => True := by
  induction hplain with
  | done hresult => exact answers_lift hresult fun _ _ => trivial
  | read_at _ ih =>
    exact (read_at_answers os reader _ _).attempt.bind fun answer hanswer => ih answer hanswer.1

theorem section_single_line (name : String) (tail : String) (htail : SingleLine tail) :
    SingleLine ("section " ++ debug_str name ++ tail) :=
  (SingleLine.labelled "section " (debug_str_single_line name)).append htail

/-- The errors about sections name them with their escaped names. -/
theorem collect_sections_plain {image_size : Nat} {headers : List SectionHeader} {error : ScanError}
    (herror : collect_sections image_size headers = .error error) : error.Plain := by
  induction headers with
  | nil => cases herror
  | cons header rest ih =>
    rw [collect_sections] at herror
    split at herror
    · cases herror
      exact section_single_line _ " range overflow" (by decide)
    split at herror
    · cases herror
      exact section_single_line _ " ends outside SizeOfImage" (by decide)
    · cases hrest : collect_sections image_size rest with
      | error cause =>
        rw [hrest] at herror
        cases herror
        exact ih hrest
      | ok sections =>
        rw [hrest] at herror
        cases herror

/-- So do those about two sections that overlap. -/
theorem check_overlaps_plain {pe_section : PeSection} {sections : List PeSection} {error : ScanError}
    (herror : pe_section.check_overlaps sections = .error error) : error.Plain := by
  induction sections with
  | nil => cases herror
  | cons other rest ih =>
    rw [PeSection.check_overlaps] at herror
    split at herror
    · exact ih herror
    split at herror
    · cases herror
      exact ((SingleLine.labelled "sections " (debug_str_single_line _)).followed " and ").append
        (debug_str_single_line _) |>.followed " overlap in memory"
    · exact ih herror

/-- So do those of the check of all pairs. -/
theorem check_all_overlaps_plain {sections : List PeSection} {error : ScanError}
    (herror : check_all_overlaps sections = .error error) : error.Plain := by
  induction sections with
  | nil => cases herror
  | cons pe_section rest ih =>
    rw [check_all_overlaps] at herror
    split at herror
    · exact ih herror
    · cases hoverlaps : pe_section.check_overlaps rest with
      | error cause =>
        rw [hoverlaps] at herror
        cases herror
        exact check_overlaps_plain hoverlaps
      | ok _ =>
        rw [hoverlaps] at herror
        exact ih herror

/-- So do those of the whole check of the headers. -/
theorem validate_pe_sections_plain {parsed : PEHeaders} {module_size : Nat} {error : ScanError}
    (herror : validate_pe_sections parsed module_size = .error error) : error.Plain := by
  rw [validate_pe_sections] at herror
  split at herror
  · cases herror
    change SingleLine "Dunia.dll is not a 32-bit PE image"
    decide
  split at herror
  · cases herror
    exact SingleLine.labelled "Dunia.dll has unsupported machine type 0x" (upper_hex_single_line 4 _)
  split at herror
  · cases herror
    change SingleLine "loaded image is not marked as a DLL"
    decide
  split at herror
  · cases herror
    exact SingleLine.labelled "invalid section count " (decimal_single_line _)
  split at herror
  · cases herror
    exact ((SingleLine.labelled "header SizeOfImage 0x" (upper_hex_single_line 0 _)).followed
      " differs from mapped size 0x").append (upper_hex_single_line 0 _)
  cases hsections : collect_sections parsed.size_of_image.toNat parsed.section_headers with
  | error cause =>
    rw [hsections] at herror
    cases herror
    exact collect_sections_plain hsections
  | ok sections =>
    rw [hsections] at herror
    cases hoverlaps : check_all_overlaps sections with
    | error cause =>
      simp only [bind, Except.bind, hoverlaps] at herror
      cases herror
      exact check_all_overlaps_plain hoverlaps
    | ok _ =>
      simp only [bind, Except.bind, hoverlaps] at herror
      cases herror

/-- If it stopped with an error, then with a plain one. -/
def StopsPlain (stop : Stop ScanError) : Prop := ∀ error, stop = .error error → error.Plain

theorem stopsPlain_error {error : ScanError} (hplain : error.Plain) : StopsPlain (.error error) := by
  rintro _ ⟨⟩
  exact hplain

/-- A copy fails by its panic only, which carries a fixed text. -/
theorem copy_memory_plain (address length : Nat) :
    (copy_memory address length : Action (World σ) _ _).Answers StopsPlain fun _ => True := by
  refine Answers.bind (answers_lift (Q := fun _ => True) (fun stop hstop => ?_) fun _ _ => trivial)
    fun _ _ => raw_read_answers _ _ _
  unfold vec_zeroed at hstop
  split at hstop
  · cases hstop
    exact nofun
  · cases hstop

/-- Loading the sections fails with plain errors. -/
theorem load_sections_plain (os : Os σ) (base : Nat) (sections : List PeSection) :
    (load_sections os base sections).Answers StopsPlain fun _ => True := by
  induction sections with
  | nil => exact answers_pure trivial
  | cons pe_section rest ih =>
    unfold load_sections
    split
    · exact ih
    split
    · refine answers_throw (stopsPlain_error ?_)
      change SingleLine "section address overflow"
      decide
    · have hunreadable : ∀ reason, SingleLine reason →
          StopsPlain (.error (.UnreadableSection pe_section.name reason)) := by
        rintro reason hreason _ ⟨⟩
        exact hreason
      refine Answers.bind ((module_range_answers os _ _).map_err hunreadable) fun _ _ => ?_
      exact (copy_memory_plain _ _).bind fun _ _ => ih.bind fun _ _ => answers_pure trivial

/-- So does loading a module, as long as its own texts are single lines. -/
theorem from_module_answers (os : Os σ) {module : LoadedModule} (hmodule : module.Plain) :
    (ModuleImage.from_module os module).Answers StopsPlain fun _ => True := by
  unfold ModuleImage.from_module
  cases hinformation : module.information with
  | error error => exact answers_throw (stopsPlain_error (hmodule.information error hinformation))
  | ok range =>
    obtain ⟨base, size⟩ := range
    dsimp only
    split
    · refine answers_throw (stopsPlain_error ?_)
      change SingleLine "module information returned an empty image"
      decide
    · refine Answers.bind ((read_from_answers os ⟨base, size⟩ (hmodule.portex size)).map_err fun error herror =>
        stopsPlain_error (SingleLine.labelled "Portex rejected the loaded headers: " herror)) fun headers _ => ?_
      refine (answers_lift (Q := fun _ => True) (fun stop hstop => ?_) fun _ _ => trivial).bind fun sections _ => ?_
      · cases hchecked : validate_pe_sections headers size with
        | error error =>
          rw [hchecked] at hstop
          cases hstop
          exact stopsPlain_error (validate_pe_sections_plain hchecked)
        | ok sections =>
          rw [hchecked] at hstop
          cases hstop
      refine (load_sections_plain os base sections).bind fun loaded _ => ?_
      split
      · refine answers_throw (stopsPlain_error ?_)
        change SingleLine "PE image has no readable code or data sections"
        decide
      · exact answers_pure trivial

end Module

section Run

/-- The outcome does not break its line. -/
def PatchOutcome.Plain (outcome : PatchOutcome) : Prop :=
  ∀ reason, outcome.status = .Failed reason → SingleLine reason

/-- The patches that could not be prepared carry plain errors. -/
theorem prepare_patches_answers (os : Os σ) (image : ModuleImage) (build : DuniaBuild) (config : PatchConfig)
    (patches : List Patch) :
    (prepare_patches os image build config patches).Answers (fun _ => True) fun prepared =>
      ∀ name error, .Failed name error ∈ prepared → error.Plain := by
  induction patches with
  | nil => exact answers_pure (by simp)
  | cons patch rest ih =>
    have hpatch : (prepare_patch patch.name (config.enabled patch) (patch.plan os image build)).Answers
        (fun _ => True) fun prepared => ∀ name error, prepared = .Failed name error → error.Plain := by
      unfold prepare_patch
      split
      · refine (Patch.plan_answers os image build patch).attempt.bind fun result hresult => ?_
        cases result with
        | ok plan =>
          refine answers_pure ?_
          rintro _ _ ⟨⟩
        | error error =>
          refine answers_pure ?_
          rintro _ _ ⟨⟩
          exact hresult.1 error rfl
      · refine answers_pure ?_
        rintro _ _ ⟨⟩
    refine hpatch.bind fun prepared hprepared => ih.bind fun others hothers => answers_pure fun name error hmem => ?_
    obtain hhead | hmem := List.mem_cons.mp hmem
    · exact hprepared name error hhead.symm
    · exact hothers name error hmem

/-- The outcomes of applying plain patches are plain. -/
theorem apply_patches_answers (hos : os.Plain) {prepared : List PreparedPatch}
    (hprepared : ∀ name error, .Failed name error ∈ prepared → error.Plain) :
    (apply_patches os prepared).Answers (fun _ => True) fun outcomes => ∀ outcome ∈ outcomes, outcome.Plain := by
  induction prepared with
  | nil => exact answers_pure (by simp)
  | cons first rest ih =>
    have hfirst : (first.apply os).Answers (fun _ => True) PatchOutcome.Plain := by
      cases first with
      | Disabled name =>
        refine answers_pure ?_
        rintro _ ⟨⟩
      | Failed name error =>
        refine answers_pure ?_
        rintro _ ⟨⟩
        exact hprepared name error List.mem_cons_self
      | Ready name plan =>
        refine (apply_loop_answers hos 0 0 [] plan.writes).attempt.bind fun result hresult => ?_
        cases result with
        | ok state =>
          cases state with
          | Applied | AlreadyApplied =>
            refine answers_pure ?_
            rintro _ ⟨⟩
        | error error =>
          refine answers_pure ?_
          rintro _ ⟨⟩
          exact hresult.1 error rfl
    refine hfirst.bind fun outcome houtcome => ?_
    have hrest := ih fun name error hmem => hprepared name error (List.mem_cons_of_mem _ hmem)
    refine hrest.bind fun others hothers => ?_
    exact answers_pure (List.forall_mem_cons.mpr ⟨houtcome, hothers⟩)

/-- A report that fails every enabled patch with one line is plain. -/
theorem fail_enabled_plain (config : PatchConfig) {reason : String} (hreason : SingleLine reason) :
    ∀ outcome ∈ (PatchReport.new.fail_enabled config reason).outcomes, outcome.Plain := by
  intro outcome hmem text hstatus
  obtain ⟨patch, _, rfl⟩ := List.mem_map.mp hmem
  dsimp only at hstatus
  split at hstatus
  · cases hstatus
    exact hreason
  · cases hstatus

/-- What a run puts into its report keeps to its line. -/
structure PatchReport.OneLined (report : PatchReport) : Prop where
  build : ∀ text ∈ report.build, SingleLine text
  image : ∀ text ∈ report.image, SingleLine text
  outcomes : ∀ outcome ∈ report.outcomes, outcome.Plain

/-- Whatever fails, and wherever, the reason of the failure is told on one line. -/
theorem run_answers (hos : os.Plain) {dunia : Except String LoadedModule}
    (herror : ∀ error, dunia = .error error → SingleLine error)
    (hmodule : ∀ module, dunia = .ok module → module.Plain)
    (config : PatchConfig) : (run os dunia config).Answers (fun _ => True) PatchReport.OneLined := by
  have hfailed : ∀ reason, SingleLine reason → (PatchReport.new.fail_enabled config reason).OneLined :=
    fun reason hreason => ⟨by simp [PatchReport.fail_enabled, PatchReport.new],
      by simp [PatchReport.fail_enabled, PatchReport.new], fail_enabled_plain config hreason⟩
  unfold run
  cases dunia with
  | error error =>
    exact answers_pure (hfailed _ (SingleLine.labelled "Dunia.dll is not loaded: " (herror error rfl)))
  | ok module =>
    refine (from_module_answers os (hmodule module rfl)).attempt.bind fun result hresult => ?_
    rcases result with (error | reason) | image
    · exact answers_pure (hfailed _
        (SingleLine.labelled "could not inspect Dunia.dll: " (hresult.1 _ rfl error rfl).single_line))
    · exact answers_throw trivial
    · have hprepare := prepare_patches_answers os image (.from_file_size module.file_size) config Patch.all
      refine Answers.bind hprepare.infallible fun prepared hprepared => ?_
      refine Answers.bind (apply_patches_answers hos hprepared).infallible fun outcomes houtcomes => answers_pure ?_
      refine ⟨fun text htext => ?_, fun text htext => ?_, houtcomes⟩
      · cases htext
        exact build_single_line _
      · cases htext
        exact ((SingleLine.at_address "base=0x" image.base).followed ", SizeOfImage=0x").append
          (upper_hex_single_line 0 _)

end Run

end systemdetection.patches
