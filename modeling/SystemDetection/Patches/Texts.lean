import SystemDetection.Patches.Report

open systemdetection.patches.memory systemdetection.patches.sigscan

namespace systemdetection.patches

section Texts

/-- A character that does not end a line. -/
def Inline (character : Char) : Prop := character ≠ '\n' ∧ character ≠ '\r'

instance (character : Char) : Decidable (Inline character) := inferInstanceAs (Decidable (_ ∧ _))

theorem single_line_of_inline {text : String} (htext : ∀ character ∈ text.toList, Inline character) :
    SingleLine text :=
  ⟨fun hmem => (htext _ hmem).1 rfl, fun hlast => (htext _ (List.mem_of_getLast? hlast)).2 rfl⟩

theorem inline_of_all {text : List Char} (htext : text.all (fun character => decide (Inline character)) = true) :
    ∀ character ∈ text, Inline character := by
  simpa using htext

/-- The hexadecimal digits of a number are digits below sixteen. -/
theorem hex_digit_mem {value : Nat} {character : Char} (hmem : character ∈ Nat.toDigits 16 value) :
    ∃ digit < 16, character = Nat.digitChar digit := by
  induction value using Nat.strongRecOn with
  | ind value ih =>
    rw [Nat.toDigits_eq_if (by decide)] at hmem
    split at hmem
    · rename_i hdigit
      exact ⟨value, hdigit, List.mem_singleton.mp hmem⟩
    · rename_i hdigits
      obtain hmem | hmem := List.mem_append.mp hmem
      · exact ih (value / 16) (by omega) hmem
      · exact ⟨value % 16, Nat.mod_lt _ (by decide), List.mem_singleton.mp hmem⟩

/-- A padded hexadecimal number is a single line. -/
theorem upper_hex_single_line (width value : Nat) : SingleLine (upper_hex width value) := by
  refine single_line_of_inline fun character hmem => ?_
  rw [upper_hex, String.toList_ofList, List.leftpad, List.mem_append, List.mem_replicate] at hmem
  obtain ⟨_, rfl⟩ | hmem := hmem
  · decide
  · obtain ⟨digit, hdigit, rfl⟩ := List.mem_map.mp hmem
    obtain ⟨value, hvalue, rfl⟩ := hex_digit_mem hdigit
    have hall : ∀ value < 16, Inline (Nat.digitChar value).toUpper := by decide
    exact hall value hvalue

theorem decimal_single_line (value : Nat) : SingleLine (toString value) := by
  refine single_line_of_inline fun character hmem => ?_
  rw [Nat.toString_eq_ofList_toDigits, String.toList_ofList] at hmem
  have hdigit := Nat.isDigit_of_mem_toDigits (by decide) (by decide) hmem
  constructor <;> rintro rfl <;> exact absurd hdigit (by decide)

/-- Escaped texts have no line ends. -/
theorem debug_str_single_line (text : String) : SingleLine (debug_str text) := by
  refine single_line_of_inline fun character hmem => ?_
  have hescaped : ∀ original, ∀ character ∈ (debug_char original).toList, Inline character := by
    intro original
    rw [debug_char]
    split; · exact inline_of_all (by decide)
    split; · exact inline_of_all (by decide)
    split; · exact inline_of_all (by decide)
    split; · exact inline_of_all (by decide)
    split; · exact inline_of_all (by decide)
    split; · exact inline_of_all (by decide)
    split
    · intro character hmem
      rw [String.toList_append, String.toList_append, String.toList_ofList, List.mem_append, List.mem_append] at hmem
      obtain (hmem | hmem) | hmem := hmem
      · exact inline_of_all (by decide) character hmem
      · rw [String.toList_ofList] at hmem
        obtain ⟨digit, hdigit, rfl⟩ := hex_digit_mem hmem
        have hall : ∀ digit < 16, Inline (Nat.digitChar digit) := by decide
        exact hall digit hdigit
      · exact inline_of_all (by decide) character hmem
    · rename_i hreturn hnewline _ _
      intro character hmem
      rw [String.toList_ofList, List.mem_singleton] at hmem
      rw [hmem]
      exact ⟨hnewline, hreturn⟩
  rw [debug_str, String.toList_append, String.toList_append, String.toList_join, List.mem_append, List.mem_append,
    List.mem_flatMap] at hmem
  obtain (hmem | ⟨escaped, hescape, hmem⟩) | hmem := hmem
  · exact inline_of_all (by decide) character hmem
  · obtain ⟨original, _, rfl⟩ := List.mem_map.mp hescape
    exact hescaped original character hmem
  · exact inline_of_all (by decide) character hmem

/-- Single lines with a single line between them are one line. -/
theorem SingleLine.intercalate {separator : String} (hseparator : SingleLine separator) {texts : List String}
    (htexts : ∀ text ∈ texts, SingleLine text) : SingleLine (separator.intercalate texts) := by
  induction texts with
  | nil =>
    rw [String.intercalate_nil]
    decide
  | cons text rest ih =>
    rw [List.forall_mem_cons] at htexts
    cases rest with
    | nil =>
      rw [String.intercalate_singleton]
      exact htexts.1
    | cons other others =>
      rw [String.intercalate_cons_cons]
      exact (htexts.1.append hseparator).append (ih htexts.2)

theorem format_bytes_single_line (bytes : List UInt8) : SingleLine (format_bytes bytes) := by
  refine SingleLine.intercalate (by decide) fun text hmem => ?_
  obtain ⟨byte, _, rfl⟩ := List.mem_map.mp hmem
  exact upper_hex_single_line 2 _

theorem scope_single_line (scope : ScanScope) : SingleLine scope.debug := by
  cases scope <;> decide

/-- The name of a build is a single line. -/
theorem build_single_line (build : DuniaBuild) : SingleLine build.to_string := by
  cases build with
  | Steam | Retail | Ubisoft => decide
  | Unknown file_size =>
    cases file_size with
    | none => decide
    | some file_size =>
      exact (SingleLine.labelled "unknown build (file size " (decimal_single_line file_size)).followed ")"

end Texts

section Errors

/-- The texts that an error was given are single lines. -/
def memory.MemoryError.Plain : MemoryError → Prop
  | .Protect _ error | .RestoreProtection _ error | .FlushInstructionCache _ error => SingleLine error
  | _ => True

def sigscan.ScanError.Plain : ScanError → Prop
  | .ModuleInformation text | .InvalidPe text | .UnreadableSection _ text => SingleLine text
  | _ => True

/-- The address that starts most messages. -/
theorem SingleLine.at_address (label : String) (address : Nat) (hlabel : SingleLine label := by decide) :
    SingleLine (label ++ upper_hex 8 address) :=
  hlabel.append (upper_hex_single_line 8 address)

/-- The text of a plain memory error is a single line. -/
theorem memory.MemoryError.Plain.single_line {error : MemoryError} (hplain : error.Plain) :
    SingleLine error.to_string := by
  cases error with
  | EmptyReplacement => decide
  | LengthMismatch expected replacement =>
    exact (SingleLine.labelled "expected-byte length " (decimal_single_line expected))
      |>.followed " differs from replacement length " |>.append (decimal_single_line replacement)
  | AddressOverflow address length =>
    exact (SingleLine.at_address "memory range 0x" address) |>.followed " + "
      |>.append (decimal_single_line length) |>.followed " overflows"
  | QueryFailed address => exact SingleLine.at_address "VirtualQuery failed at 0x" address
  | NotReadable address protection =>
    exact (SingleLine.at_address "memory at 0x" address) |>.followed " is not readable (protection 0x"
      |>.append (upper_hex_single_line 0 _) |>.followed ")"
  | NotCommitted address =>
    exact (SingleLine.at_address "memory at 0x" address).followed " is not committed"
  | CrossesProtectionRegion address length =>
    exact (SingleLine.at_address "write range 0x" address) |>.followed " + "
      |>.append (decimal_single_line length) |>.followed " crosses a virtual-memory protection region"
  | UnexpectedBytes address expected replacement actual =>
    exact (SingleLine.at_address "unexpected bytes at 0x" address)
      |>.followed ": expected " |>.append (format_bytes_single_line expected)
      |>.followed " or already-patched " |>.append (format_bytes_single_line replacement)
      |>.followed ", found " |>.append (format_bytes_single_line actual)
  | Protect address error =>
    exact ((SingleLine.at_address "VirtualProtect failed at 0x" address).followed ": ").append hplain
  | RestoreProtection address error =>
    exact ((SingleLine.at_address "restoring memory protection failed at 0x" address).followed ": ").append hplain
  | FlushInstructionCache address error =>
    exact ((SingleLine.at_address "FlushInstructionCache failed at 0x" address).followed ": ").append hplain
  | WriteVerification address expected actual =>
    exact (SingleLine.at_address "write verification failed at 0x" address)
      |>.followed ": expected " |>.append (format_bytes_single_line expected)
      |>.followed ", found " |>.append (format_bytes_single_line actual)

/-- So is that of a plain scan error. -/
theorem sigscan.ScanError.Plain.single_line {error : ScanError} (hplain : error.Plain) :
    SingleLine error.to_string := by
  cases error with
  | InvalidPattern pattern => exact SingleLine.labelled "invalid signature " (debug_str_single_line pattern)
  | ModuleInformation error => exact SingleLine.labelled "could not query module information: " hplain
  | InvalidPe reason => exact SingleLine.labelled "invalid PE image: " hplain
  | UnreadableSection name reason =>
    exact (SingleLine.labelled "PE section " (debug_str_single_line name)).append
      (SingleLine.labelled " is not readable: " hplain)
  | AddressOutsideImage rva length =>
    exact (SingleLine.at_address "RVA 0x" rva) |>.followed " (length " |>.append (decimal_single_line length)
      |>.followed ") is outside the module image"
  | AddressOutsideScope rva length scope =>
    exact (SingleLine.at_address "RVA 0x" rva) |>.followed " (length " |>.append (decimal_single_line length)
      |>.followed ") is outside " |>.append (scope_single_line scope) |>.followed " sections"

theorem not_found_single_line (signature : String) (scope : ScanScope) :
    SingleLine (PatchError.SignatureNotFound signature scope).to_string :=
  (SingleLine.labelled "signature " (debug_str_single_line signature)).append
    ((SingleLine.labelled " was not found in " (scope_single_line scope)).followed " sections")

/-- So is that of a search without a target, with its reasons. -/
theorem no_target_single_line (signature : String) (raw_matches : Nat) {reasons : List String}
    (hreasons : ∀ reason ∈ reasons, SingleLine reason) :
    SingleLine (PatchError.NoValidatedTarget signature raw_matches reasons).to_string := by
  have hlist : SingleLine (if reasons.isEmpty then "" else ": " ++ "; ".intercalate reasons) := by
    split
    · decide
    · exact SingleLine.labelled ": " (SingleLine.intercalate (by decide) hreasons)
  exact ((SingleLine.labelled "signature " (debug_str_single_line signature)).append
    ((SingleLine.labelled " had " (decimal_single_line raw_matches)).followed
      " raw match(es), but no guarded target")).append hlist

/-- The text of an ambiguous target is a single line, with all its addresses. -/
theorem ambiguous_single_line (signature : String) (addresses : List Nat) :
    SingleLine (PatchError.AmbiguousTarget signature addresses).to_string := by
  refine ((SingleLine.labelled "signature " (debug_str_single_line signature)).followed
    " resolved to multiple guarded targets: ").append (SingleLine.intercalate (by decide) fun text hmem => ?_)
  obtain ⟨address, _, rfl⟩ := List.mem_map.mp hmem
  exact SingleLine.at_address "0x" address

/-- So is that of an incomplete rollback, with its errors. -/
theorem partial_write_single_line (applied : Nat) {error : PatchError} {rollback_errors : List PatchError}
    (herror : SingleLine error.to_string) (herrors : ∀ error ∈ rollback_errors, SingleLine error.to_string) :
    SingleLine (PatchError.PartialWrite applied error rollback_errors).to_string := by
  have hstrings : ∀ text ∈ PatchError.to_strings rollback_errors, SingleLine text := by
    induction rollback_errors with
    | nil => simp [PatchError.to_strings]
    | cons error rest ih =>
      rw [List.forall_mem_cons] at herrors
      rw [PatchError.to_strings, List.forall_mem_cons]
      exact ⟨herrors.1, ih herrors.2⟩
  exact (SingleLine.labelled "patch failed after " (decimal_single_line applied))
    |>.followed " write(s), and rollback was incomplete: " |>.append herror
    |>.followed "; rollback error(s): " |>.append (SingleLine.intercalate (by decide) hstrings)

end Errors

end systemdetection.patches
