import SystemDetection.Patches.Config

open systemdetection.patches.sigscan

namespace systemdetection.patches

/-- What one line of a configuration is, wherever it stands. -/
inductive LineKind where
  | ignored
  | header (section_name : List Char)
  | malformed
  | assignment (key : String) (value : List Char)

/-- Blank and comment lines are ignored, a line in brackets is a header, and any
other line with an equals sign is an assignment. -/
def line_kind (raw_line : List Char) : LineKind :=
  let line := trim raw_line
  if line = [] ∨ line.head? = some '#' ∨ line.head? = some ';' then .ignored
  else if line.head? = some '[' ∧ line.getLast? = some ']' then
    .header (trim ((line.take (line.length - 1)).drop 1))
  else
    match split_once (· == '=') line with
    | none => .malformed
    | some (raw_key, raw_value) => .assignment (to_ascii_lowercase (trim raw_key)) (trim (strip_comment raw_value))

def names_patches (section_name : List Char) : Bool := eq_ignore_ascii_case section_name "patches"

def section_name (raw_line : List Char) : Option (List Char) :=
  match line_kind raw_line with
  | .header name => some name
  | _ => none

/-- After these lines, from the start on, options are read: the last header names
`patches`, or there is none and they were read at the start. -/
def active (start : Bool) (earlier : List (List Char)) : Bool :=
  ((earlier.filterMap section_name).getLast?.map names_patches).getD start

/-- The lines, with their numbers, at which options are read. -/
def active_lines (start : Bool) (first : Nat) (raw_lines : List (List Char)) : List (List Char × Nat) :=
  (raw_lines.zipIdx first).filter fun numbered => active start (raw_lines.take (numbered.2 - first))

/-- The value that a line assigns to the option of a patch. -/
def assigned (patch : Patch) (raw_line : List Char) : Option Bool :=
  match line_kind raw_line with
  | .assignment key value => if key = patch.name then parse_bool value else none
  | _ => none

/-- The warning that a line gives rise to. -/
def complaint (debug : List Char → String) (line_number : Nat) (raw_line : List Char) : Option String :=
  match line_kind raw_line with
  | .malformed => some s!"line {line_number}: expected key = value"
  | .assignment key value =>
    match parse_bool value with
    | none => some s!"line {line_number}: invalid Boolean value {debug value} for {key}"
    | some _ =>
      if key ∈ Patch.all.map Patch.name then none
      else some s!"line {line_number}: unknown patch option {debug key.toList}"
  | _ => none

/-- The name of a patch sets the option of that patch and no other. -/
theorem assign_option_known (config : PatchConfig) (patch : Patch) (enabled : Bool) :
    ∃ updated, assign_option config patch.name enabled = some updated ∧
      ∀ other, updated.enabled other = if other = patch then enabled else config.enabled other := by
  cases patch with
  | jackal_tapes => exact ⟨_, rfl, fun other => by cases other <;> rfl⟩
  | devmode_always_on => exact ⟨_, rfl, fun other => by cases other <;> rfl⟩
  | predecessor_tapes => exact ⟨_, rfl, fun other => by cases other <;> rfl⟩
  | machetes => exact ⟨_, rfl, fun other => by cases other <;> rfl⟩
  | no_blinking_items => exact ⟨_, rfl, fun other => by cases other <;> rfl⟩

/-- A key that names no patch sets nothing. -/
theorem assign_option_unknown (config : PatchConfig) {key : String} (enabled : Bool)
    (hkey : key ∉ Patch.all.map Patch.name) : assign_option config key enabled = none := by
  simp only [Patch.all, List.map_cons, List.map_nil, Patch.name, List.mem_cons, List.not_mem_nil, or_false,
    not_or] at hkey
  obtain ⟨htapes, hdevmode, hpredecessor, hmachetes, hblinking⟩ := hkey
  simp only [assign_option]

theorem active_append (start : Bool) (earlier later : List (List Char)) :
    active start (earlier ++ later) = active (active start earlier) later := by
  unfold active
  rw [List.filterMap_append, List.getLast?_append]
  cases (later.filterMap section_name).getLast? <;> rfl

/-- The lines after a part of the file are active as that part has left the section. -/
theorem active_lines_append (start : Bool) (first : Nat) (earlier later : List (List Char)) :
    active_lines start first (earlier ++ later) =
      active_lines start first earlier ++ active_lines (active start earlier) (first + earlier.length) later := by
  unfold active_lines
  rw [List.zipIdx_append, List.filter_append]
  congr 1
  · refine List.filter_congr fun numbered hmem => ?_
    obtain ⟨_, hindex, _⟩ := List.mem_zipIdx hmem
    rw [List.take_append_of_le_length (by omega)]
  · refine List.filter_congr fun numbered hmem => ?_
    obtain ⟨hindex, _, _⟩ := List.mem_zipIdx hmem
    rw [← active_append, show numbered.2 - first = earlier.length + (numbered.2 - (first + earlier.length)) by omega,
      List.take_length_add_append]

theorem active_lines_singleton (start : Bool) (first : Nat) (raw_line : List Char) :
    active_lines start first [raw_line] = if start then [(raw_line, first)] else [] := by
  cases start <;> simp [active_lines, active]

section Kinds

variable {raw_line : List Char}

/-- The first test of the loop: a blank line or a comment. -/
def skipped (line : List Char) : Prop := line = [] ∨ line.head? = some '#' ∨ line.head? = some ';'

def bracketed (line : List Char) : Prop := line.head? = some '[' ∧ line.getLast? = some ']'

theorem line_kind_of_skipped (hskipped : skipped (trim raw_line)) : line_kind raw_line = .ignored :=
  if_pos hskipped

theorem line_kind_of_bracketed (hskipped : ¬skipped (trim raw_line)) (hbracketed : bracketed (trim raw_line)) :
    line_kind raw_line = .header (trim (((trim raw_line).take ((trim raw_line).length - 1)).drop 1)) := by
  rw [line_kind]
  exact (if_neg hskipped).trans (if_pos hbracketed)

theorem line_kind_of_malformed (hskipped : ¬skipped (trim raw_line)) (hbracketed : ¬bracketed (trim raw_line))
    (hsplit : split_once (· == '=') (trim raw_line) = none) : line_kind raw_line = .malformed := by
  rw [line_kind]
  refine (if_neg hskipped).trans ((if_neg hbracketed).trans ?_)
  rw [hsplit]

theorem line_kind_of_assignment (hskipped : ¬skipped (trim raw_line)) (hbracketed : ¬bracketed (trim raw_line))
    {raw_key raw_value : List Char} (hsplit : split_once (· == '=') (trim raw_line) = some (raw_key, raw_value)) :
    line_kind raw_line = .assignment (to_ascii_lowercase (trim raw_key)) (trim (strip_comment raw_value)) := by
  rw [line_kind]
  refine (if_neg hskipped).trans ((if_neg hbracketed).trans ?_)
  rw [hsplit]

end Kinds

/-- One round of the loop, by the kind of the line. -/
structure ParseState.Takes (debug : List Char → String) (line_number : Nat) (raw_line : List Char)
    (before after : ParseState) : Prop where
  in_patches_section : after.in_patches_section = active before.in_patches_section [raw_line]
  config : ∀ patch, after.config.enabled patch =
    (if before.in_patches_section then assigned patch raw_line else none).getD (before.config.enabled patch)
  warnings : after.warnings = before.warnings ++
    (if before.in_patches_section then complaint debug line_number raw_line else none).toList

theorem active_of_no_header (start : Bool) {raw_line : List Char} (hsection : section_name raw_line = none) :
    active start [raw_line] = start := by
  simp [active, hsection]

section Takes

variable {debug : List Char → String} {state : ParseState} {line_number : Nat} {raw_line : List Char}
  (hsection : section_name raw_line = none)
include hsection

theorem ParseState.takes_inactive (hinactive : state.in_patches_section = false) :
    state.Takes debug line_number raw_line state where
  in_patches_section := (active_of_no_header _ hsection).symm
  config patch := by simp [hinactive]
  warnings := by simp [hinactive]

theorem ParseState.takes_warning (hactive : state.in_patches_section = true)
    (hassigned : ∀ patch, assigned patch raw_line = none) {text : String}
    (hcomplaint : complaint debug line_number raw_line = some text) :
    state.Takes debug line_number raw_line (state.warn text) where
  in_patches_section := (active_of_no_header _ hsection).symm
  config patch := by simp [hassigned patch, ParseState.warn]
  warnings := by simp [hactive, hcomplaint, ParseState.warn]

/-- A valid assignment is taken up. -/
theorem ParseState.takes_assignment (hactive : state.in_patches_section = true) {patch : Patch}
    {enabled : Bool} (hassigned : ∀ other, assigned other raw_line = if other = patch then some enabled else none)
    (hcomplaint : complaint debug line_number raw_line = none) {updated : PatchConfig}
    (hupdated : ∀ other, updated.enabled other = if other = patch then enabled else state.config.enabled other) :
    state.Takes debug line_number raw_line { state with config := updated } where
  in_patches_section := (active_of_no_header _ hsection).symm
  config other := by
    dsimp only
    rw [hupdated other, hassigned other, if_pos hactive]
    split
    · rfl
    · rfl
  warnings := by simp [hactive, hcomplaint]

end Takes

/-- Each line takes the state of the parser where the meaning of the line says. -/
theorem parse_line_takes (debug : List Char → String) (state : ParseState) (line_number : Nat)
    (raw_line : List Char) :
    state.Takes debug line_number raw_line (parse_line debug state line_number raw_line) := by
  unfold parse_line
  dsimp only
  split
  · rename_i hskipped
    have hkind := line_kind_of_skipped hskipped
    constructor
    · simp [active, section_name, hkind]
    · simp [assigned, hkind]
    · simp [complaint, hkind]
  rename_i hskipped
  split
  · rename_i hbracketed
    have hkind := line_kind_of_bracketed hskipped hbracketed
    constructor
    · simp [active, section_name, hkind, names_patches]
    · simp [assigned, hkind]
    · simp [complaint, hkind]
  rename_i hbracketed
  -- The line is no header, so the section stays, and only inside it does the line count.
  have hsection : section_name raw_line = none := by
    cases hsplit : split_once (· == '=') (trim raw_line) with
    | none => simp [section_name, line_kind_of_malformed hskipped hbracketed hsplit]
    | some parts => simp [section_name, line_kind_of_assignment hskipped hbracketed hsplit]
  split
  · rename_i hinactive
    exact ParseState.takes_inactive hsection (by simpa using hinactive)
  rename_i hactive
  have hactive : state.in_patches_section = true := by simpa using hactive
  cases hsplit : split_once (· == '=') (trim raw_line) with
  | none =>
    have hkind := line_kind_of_malformed hskipped hbracketed hsplit
    exact ParseState.takes_warning hsection hactive (by simp [assigned, hkind]) (by simp [complaint, hkind])
  | some parts =>
    have hkind := line_kind_of_assignment hskipped hbracketed hsplit
    dsimp only
    cases hvalue : parse_bool (trim (strip_comment parts.2)) with
    | none =>
      exact ParseState.takes_warning hsection hactive (by simp [assigned, hkind, hvalue])
        (by simp [complaint, hkind, hvalue])
    | some enabled =>
      dsimp only
      by_cases hkey : to_ascii_lowercase (trim parts.1) ∈ Patch.all.map Patch.name
      · obtain ⟨patch, _, hname⟩ := List.mem_map.mp hkey
        obtain ⟨updated, hassign, hupdated⟩ := assign_option_known state.config patch enabled
        rw [hname] at hassign
        rw [hassign]
        refine ParseState.takes_assignment hsection hactive (fun other => ?_)
          (by simp [complaint, hkind, hvalue, hkey]) hupdated
        simp only [assigned, hkind, ← hname, hvalue, Patch.name_injective.eq_iff, eq_comm]
      · rw [assign_option_unknown state.config enabled hkey]
        have hnone : ∀ patch : Patch, ¬to_ascii_lowercase (trim parts.1) = patch.name := by
          intro patch hsame
          exact hkey (hsame ▸ List.mem_map_of_mem (by cases patch <;> decide))
        exact ParseState.takes_warning hsection hactive (by simp [assigned, hkind, hnone])
          (by simp [complaint, hkind, hvalue, hkey])

/-- From any state of the loop on: the section of the last header, the last valid
assignment at an active line, and the complaints about the active lines in order. -/
theorem parse_lines_takes (debug : List Char → String) (state : ParseState) (first : Nat)
    (raw_lines : List (List Char)) :
    (parse_lines debug state first raw_lines).in_patches_section = active state.in_patches_section raw_lines ∧
      (∀ patch, (parse_lines debug state first raw_lines).config.enabled patch =
        ((active_lines state.in_patches_section first raw_lines).filterMap
          fun numbered => assigned patch numbered.1).getLast?.getD (state.config.enabled patch)) ∧
      (parse_lines debug state first raw_lines).warnings = state.warnings ++
        (active_lines state.in_patches_section first raw_lines).filterMap
          fun numbered => complaint debug numbered.2 numbered.1 := by
  induction raw_lines generalizing state first with
  | nil => simp [parse_lines, active, active_lines]
  | cons raw_line rest ih =>
    obtain ⟨hsection, hconfig, hwarnings⟩ := parse_line_takes debug state first raw_line
    obtain ⟨hsection', hconfig', hwarnings'⟩ := ih (parse_line debug state first raw_line) (first + 1)
    have hlines : active_lines state.in_patches_section first (raw_line :: rest) =
        (if state.in_patches_section then [(raw_line, first)] else []) ++
          active_lines (active state.in_patches_section [raw_line]) (first + 1) rest := by
      rw [← active_lines_singleton, ← List.singleton_append, active_lines_append]
      rfl
    rw [hsection] at hsection' hconfig' hwarnings'
    rw [parse_lines, hlines]
    refine ⟨?_, fun patch => ?_, ?_⟩
    · rw [hsection', ← active_append]
      rfl
    · rw [hconfig' patch, hconfig patch, List.filterMap_append, List.getLast?_append]
      cases ((active_lines (active state.in_patches_section [raw_line]) (first + 1) rest).filterMap
        fun numbered => assigned patch numbered.1).getLast? with
      | some enabled => rfl
      | none =>
        cases state.in_patches_section with
        | false => rfl
        | true => cases hassigned : assigned patch raw_line <;> simp [hassigned]
    · rw [hwarnings', hwarnings, List.filterMap_append, ← List.append_assoc]
      congr 2
      cases state.in_patches_section with
      | false => rfl
      | true => cases hcomplaint : complaint debug first raw_line <;> simp [hcomplaint]

/-- Every option has the value of its last valid assignment at an active line, or its
default, and every active line that is none of a header, a comment and a valid
assignment is reported with its number, in order. -/
theorem parse_meaning (debug : List Char → String) (contents : List Char) :
    let numbered_lines := active_lines true 1 (lines (trim_byte_order_mark contents))
    (∀ patch, (parse debug contents).1.enabled patch =
      (numbered_lines.filterMap fun numbered => assigned patch numbered.1).getLast?.getD
        (PatchConfig.default.enabled patch)) ∧
      (parse debug contents).2 = numbered_lines.filterMap fun numbered =>
        complaint debug numbered.2 numbered.1 := by
  obtain ⟨_, hconfig, hwarnings⟩ := parse_lines_takes debug .initial 1 (lines (trim_byte_order_mark contents))
  exact ⟨hconfig, hwarnings⟩

end systemdetection.patches
