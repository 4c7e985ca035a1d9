import SystemDetection.Patches.Run
import SystemDetection.Platform.Str

namespace systemdetection.patches

def PatchStatus.to_string : PatchStatus → String
  | .Disabled => "disabled"
  | .Applied => "applied"
  | .AlreadyApplied => "already applied"
  | .Failed reason => s!"FAILED: {reason}"

def PatchOutcome.to_string (self : PatchOutcome) : String := s!"{self.name}: {self.status.to_string}"

def writeln (text : String) : String := text ++ "\n"

def PatchReport.to_string (self : PatchReport) : String :=
  writeln "fc2-systemdetection patch report"
    ++ writeln ("Configuration: " ++ self.configuration.getD "unavailable")
    ++ writeln ("Dunia build: " ++ self.build.getD "unavailable")
    ++ writeln ("Dunia image: " ++ self.image.getD "unavailable")
    ++ String.join (self.outcomes.map fun outcome => writeln outcome.to_string)
    ++ String.join (self.warnings.map fun warning => writeln s!"configuration warning: {warning}")

/-- A text that stays on the line on which it is written, and comes back whole when
the lines are read. -/
def SingleLine (text : String) : Prop := '\n' ∉ text.toList ∧ text.toList.getLast? ≠ some '\r'

instance (text : String) : Decidable (SingleLine text) := inferInstanceAs (Decidable (_ ∧ _))

/-- The lines of a report. -/
def PatchReport.lines (self : PatchReport) : List String :=
  ["fc2-systemdetection patch report", "Configuration: " ++ self.configuration.getD "unavailable",
    "Dunia build: " ++ self.build.getD "unavailable", "Dunia image: " ++ self.image.getD "unavailable"]
    ++ self.outcomes.map PatchOutcome.to_string
    ++ self.warnings.map fun warning => s!"configuration warning: {warning}"

/-- The texts that go into a report are single lines, and the outcomes are those of
known patches. -/
structure PatchReport.Plain (report : PatchReport) : Prop where
  configuration : ∀ text ∈ report.configuration, SingleLine text
  build : ∀ text ∈ report.build, SingleLine text
  image : ∀ text ∈ report.image, SingleLine text
  reasons : ∀ name reason, ⟨name, .Failed reason⟩ ∈ report.outcomes → SingleLine reason
  warnings : ∀ warning ∈ report.warnings, SingleLine warning
  names : ∀ outcome ∈ report.outcomes, outcome.name ∈ Patch.all.map Patch.name

/-- The status that is displayed as a text. -/
def read_status (text : List Char) : Option PatchStatus :=
  if text = "disabled".toList then some .Disabled
  else if text = "applied".toList then some .Applied
  else if text = "already applied".toList then some .AlreadyApplied
  else if "FAILED: ".toList.isPrefixOf text then some (.Failed (.ofList (text.drop 8)))
  else none

/-- The outcome of a patch that a line tells. -/
def read_outcome (line : List Char) : Option PatchOutcome :=
  match split_once (· == ':') line with
  | some (name, ' ' :: status) =>
    if String.ofList name ∈ Patch.all.map Patch.name then
      (read_status status).map fun status => ⟨.ofList name, status⟩
    else none
  | _ => none

def read_warning (line : List Char) : Option String :=
  if "configuration warning: ".toList.isPrefixOf line then some (.ofList (line.drop 23)) else none

/-- The outcomes and warnings that a reader finds below the four lines of the header. -/
def read_report (text : List Char) : List PatchOutcome × List String :=
  let entries := (systemdetection.lines text).drop 4
  (entries.filterMap read_outcome, entries.filterMap read_warning)

section Lines

variable {text : String}

/-- Two single lines make a single line. -/
theorem SingleLine.append {left right : String} (hleft : SingleLine left) (hright : SingleLine right) :
    SingleLine (left ++ right) := by
  rw [SingleLine, String.toList_append]
  refine ⟨?_, ?_⟩
  · rw [List.mem_append, not_or]
    exact ⟨hleft.1, hright.1⟩
  · rw [List.getLast?_append]
    cases hlast : right.toList.getLast? with
    | none =>
      rw [Option.none_or]
      exact hleft.2
    | some last =>
      rw [Option.some_or, ← hlast]
      exact hright.2

theorem SingleLine.labelled (label : String) (htext : SingleLine text) (hlabel : SingleLine label := by decide) :
    SingleLine (label ++ text) :=
  hlabel.append htext

theorem SingleLine.followed (htext : SingleLine text) (tail : String) (htail : SingleLine tail := by decide) :
    SingleLine (text ++ tail) :=
  htext.append htail

/-- A line that is written is the first that is read. -/
theorem lines_writeln (hline : SingleLine text) (rest : List Char) :
    systemdetection.lines ((writeln text).toList ++ rest) = text.toList :: systemdetection.lines rest := by
  have hwriteln : (writeln text).toList ++ rest = text.toList ++ '\n' :: rest := by
    simp [writeln, String.toList_append]
  rw [hwriteln, systemdetection.lines, lines_from_append hline.1, List.nil_append, lines_from, if_pos rfl,
    strip_carriage_return, if_neg hline.2]
  rfl

/-- Lines that are written one by one are read back one by one. -/
theorem lines_join_writeln {texts : List String} (hlines : ∀ text ∈ texts, SingleLine text) :
    systemdetection.lines (String.join (texts.map writeln)).toList = texts.map String.toList := by
  induction texts with
  | nil => rfl
  | cons text texts ih =>
    rw [List.forall_mem_cons] at hlines
    rw [List.map_cons, String.join_cons, String.toList_append, lines_writeln hlines.1, ih hlines.2]
    rfl

end Lines

section Read

/-- The text of a status is read back as that status. -/
theorem read_status_to_string (status : PatchStatus) : read_status status.to_string.toList = some status := by
  cases status with
  | Disabled | Applied | AlreadyApplied => decide
  | Failed reason =>
    have htext : (PatchStatus.Failed reason).to_string.toList = "FAILED: ".toList ++ reason.toList :=
      String.toList_append
    rw [htext]
    simp [read_status, String.ofList_toList]

theorem warning_text (warning : String) :
    (s!"configuration warning: {warning}").toList = "configuration warning: ".toList ++ warning.toList :=
  String.toList_append

theorem read_warning_line (warning : String) :
    read_warning (s!"configuration warning: {warning}").toList = some warning := by
  rw [warning_text]
  simp [read_warning, String.ofList_toList]

theorem no_colon_of_all {text : List Char} (htext : text.all (· != ':') = true) :
    ∀ character ∈ text, (character == ':') = false := by
  simpa using htext

theorem patch_name_plain {name : String} (hname : name ∈ Patch.all.map Patch.name) :
    ∀ character ∈ name.toList, (character == ':') = false := by
  obtain ⟨patch, _, rfl⟩ := List.mem_map.mp hname
  refine no_colon_of_all ?_
  cases patch <;> decide

theorem outcome_text (outcome : PatchOutcome) :
    outcome.to_string.toList = outcome.name.toList ++ ':' :: ' ' :: outcome.status.to_string.toList := by
  change (outcome.name ++ ": " ++ outcome.status.to_string).toList = _
  simp [String.toList_append]

/-- The line of an outcome is read back as that outcome. -/
theorem read_outcome_line {outcome : PatchOutcome} (hname : outcome.name ∈ Patch.all.map Patch.name) :
    read_outcome outcome.to_string.toList = some outcome := by
  have hsplit : split_once (· == ':') outcome.to_string.toList =
      some (outcome.name.toList, ' ' :: outcome.status.to_string.toList) :=
    split_once_eq_some_iff.mpr ⟨':', outcome_text outcome, rfl, patch_name_plain hname⟩
  rw [read_outcome, hsplit]
  simp only [String.ofList_toList, hname, ↓reduceIte, read_status_to_string, Option.map_some]

/-- No line of an outcome looks like a warning, and no warning like an outcome. -/
theorem read_warning_outcome {outcome : PatchOutcome} (hname : outcome.name ∈ Patch.all.map Patch.name) :
    read_warning outcome.to_string.toList = none := by
  rw [read_warning, if_neg]
  rw [outcome_text]
  obtain ⟨patch, _, hpatch⟩ := List.mem_map.mp hname
  rw [← hpatch]
  cases patch <;> simp [Patch.name]

/-- A warning is not taken for an outcome. -/
theorem read_outcome_warning (warning : String) :
    read_outcome (s!"configuration warning: {warning}").toList = none := by
  have hsplit : split_once (· == ':') (s!"configuration warning: {warning}").toList =
      some ("configuration warning".toList, ' ' :: warning.toList) := by
    refine split_once_eq_some_iff.mpr ⟨':', ?_, rfl, no_colon_of_all (by decide)⟩
    rw [warning_text]
    rfl
  rw [read_outcome, hsplit]
  have hunknown : String.ofList "configuration warning".toList ∉ Patch.all.map Patch.name := by decide
  simp only [hunknown, ↓reduceIte]

end Read

theorem PatchReport.to_string_lines (self : PatchReport) :
    self.to_string = String.join (self.lines.map writeln) := by
  simp [to_string, lines, String.append_assoc, Function.comp_def]

/-- The line of an outcome is a single one when its reason is. -/
theorem outcome_single_line {outcome : PatchOutcome} (hname : outcome.name ∈ Patch.all.map Patch.name)
    (hreason : ∀ reason, outcome.status = .Failed reason → SingleLine reason) : SingleLine outcome.to_string := by
  have hlabel : SingleLine outcome.name := by
    obtain ⟨patch, _, hpatch⟩ := List.mem_map.mp hname
    rw [← hpatch]
    cases patch <;> decide
  have hstatus : SingleLine outcome.status.to_string := by
    cases hstatus : outcome.status with
    | Disabled | Applied | AlreadyApplied => decide
    | Failed reason => exact SingleLine.labelled "FAILED: " (hreason reason hstatus)
  exact (hlabel.followed ": ").append hstatus

/-- A plain report is written in single lines. -/
theorem PatchReport.lines_plain {report : PatchReport} (hplain : report.Plain) :
    ∀ line ∈ report.lines, SingleLine line := by
  have hunset : ∀ {text : Option String}, (∀ value ∈ text, SingleLine value) →
      SingleLine (text.getD "unavailable") := by
    intro text htext
    cases text with
    | none => decide
    | some value => exact htext value rfl
  rw [lines, List.forall_mem_append, List.forall_mem_append, List.forall_mem_map, List.forall_mem_map]
  refine ⟨⟨?_, ?_⟩, ?_⟩
  · simp only [List.forall_mem_cons]
    exact ⟨by decide, SingleLine.labelled _ (hunset hplain.configuration),
      SingleLine.labelled _ (hunset hplain.build), SingleLine.labelled _ (hunset hplain.image), by simp⟩
  · intro outcome hmem
    refine outcome_single_line (hplain.names outcome hmem) fun reason hstatus => ?_
    refine hplain.reasons outcome.name reason ?_
    rwa [← hstatus]
  · exact fun warning hmem => SingleLine.labelled _ (hplain.warnings warning hmem)

/-- The report as it is written can be read back: the lines below the header are
those of the outcomes and the warnings, whole and in order. -/
theorem read_report_to_string {report : PatchReport} (hplain : report.Plain) :
    read_report report.to_string.toList = (report.outcomes, report.warnings) := by
  have hlines : systemdetection.lines report.to_string.toList = report.lines.map String.toList := by
    rw [PatchReport.to_string_lines, lines_join_writeln (PatchReport.lines_plain hplain)]
  have hentries : (report.lines.map String.toList).drop 4 =
      report.outcomes.map (fun outcome => outcome.to_string.toList) ++
        report.warnings.map fun warning => (s!"configuration warning: {warning}").toList := by
    simp [PatchReport.lines, Function.comp_def]
  have houtcomes : (report.outcomes.map fun outcome => outcome.to_string.toList).filterMap read_outcome =
      report.outcomes := by
    rw [List.filterMap_map]
    exact (List.filterMap_congr fun outcome hmem => read_outcome_line (hplain.names outcome hmem)).trans
      List.filterMap_some
  have hnone : (report.outcomes.map fun outcome => outcome.to_string.toList).filterMap read_warning = [] := by
    rw [List.filterMap_eq_nil_iff, List.forall_mem_map]
    exact fun outcome hmem => read_warning_outcome (hplain.names outcome hmem)
  have hwarnings : (report.warnings.map fun warning => (s!"configuration warning: {warning}").toList).filterMap
      read_warning = report.warnings := by
    rw [List.filterMap_map]
    exact (List.filterMap_congr fun warning _ => read_warning_line warning).trans List.filterMap_some
  have hquiet : (report.warnings.map fun warning => (s!"configuration warning: {warning}").toList).filterMap
      read_outcome = [] := by
    rw [List.filterMap_eq_nil_iff, List.forall_mem_map]
    exact fun warning _ => read_outcome_warning warning
  rw [read_report, hlines, hentries, List.filterMap_append, List.filterMap_append, houtcomes, hnone, hwarnings,
    hquiet, List.append_nil, List.nil_append]

end systemdetection.patches
