import SystemDetection.Patches.ConfigMeaning

open systemdetection.patches.sigscan

namespace systemdetection.patches

/-- A text is made of these parts: whole lines, or the byte order marks before the first
one, then a line, its end, and the text behind it. -/
structure LineOf (before line line_end rest : List Char) : Prop where
  whole : '\n' ∉ line
  starts : ((∀ character ∈ before, character = '\uFEFF') ∧ line.head? ≠ some '\uFEFF') ∨
    before.getLast? = some '\n'
  stops : (line_end = [] ∧ rest = []) ∨ line_end = ['\n'] ∨ line_end = ['\r', '\n']

/-- A header or an assignment. -/
def is_entry (raw_line : List Char) : Prop :=
  (∃ name, line_kind raw_line = .header name) ∨ ∃ key value, line_kind raw_line = .assignment key value

/-- The values assigned to the option of a patch at the active lines. -/
def assignments (start : Bool) (patch : Patch) (raw_lines : List (List Char)) : List Bool :=
  (active_lines start 1 raw_lines).filterMap fun numbered => assigned patch numbered.1

def until_header (raw_lines : List (List Char)) : List (List Char) :=
  raw_lines.takeWhile fun raw_line => (section_name raw_line).isNone

def from_header (raw_lines : List (List Char)) : List (List Char) :=
  raw_lines.dropWhile fun raw_line => (section_name raw_line).isNone

/-- The value of an option after these lines. -/
def value_after (patch : Patch) (raw_lines : List (List Char)) : Bool :=
  (assignments true patch raw_lines).getLast?.getD (PatchConfig.default.enabled patch)

/-- The lines up to the next header assign no value of the option that lasts: it is assigned
again behind that header, or it is not assigned, or it ends with the value that it had. -/
def OptionKept (patch : Patch) (earlier later : List (List Char)) : Prop :=
  assignments true patch (from_header later) ≠ [] ∨ assignments true patch (until_header later) = [] ∨
    (assignments true patch (until_header later)).getLast? = some (value_after patch earlier)

/-- The section in force after the line is the same, or no option depends on it. -/
def CommentHarmless (earlier : List (List Char)) (line commented : List Char) (later : List (List Char)) :
    Prop :=
  active true (earlier ++ [commented]) = active true (earlier ++ [line]) ∨
    ∀ patch, OptionKept patch (earlier ++ [line]) later

section Values

variable {patch : Patch}

/-- The numbers of the lines do not matter for what they assign. -/
theorem active_lines_renumber (start : Bool) (patch : Patch) (first second : Nat)
    (raw_lines : List (List Char)) :
    ((active_lines start first raw_lines).filterMap fun numbered => assigned patch numbered.1) =
      (active_lines start second raw_lines).filterMap fun numbered => assigned patch numbered.1 := by
  induction raw_lines generalizing start first second with
  | nil => rfl
  | cons raw_line rest ih =>
    rw [← List.singleton_append, active_lines_append, active_lines_append, active_lines_singleton,
      active_lines_singleton, List.filterMap_append, List.filterMap_append,
      ih _ (first + [raw_line].length) (second + [raw_line].length)]
    congr 1
    cases start <;> rfl

theorem assignments_append (start : Bool) (patch : Patch) (earlier later : List (List Char)) :
    assignments start patch (earlier ++ later) =
      assignments start patch earlier ++ assignments (active start earlier) patch later := by
  rw [assignments, active_lines_append, List.filterMap_append, active_lines_renumber _ patch _ 1 later]
  rfl

/-- A line assigns what it says, in the section of the patches only. -/
theorem assignments_singleton (start : Bool) (patch : Patch) (raw_line : List Char) :
    assignments start patch [raw_line] = if start then (assigned patch raw_line).toList else [] := by
  rw [assignments, active_lines_singleton]
  cases start with
  | false => rfl
  | true => cases hassigned : assigned patch raw_line <;> simp [hassigned]

/-- A section header assigns nothing. -/
theorem assigned_of_section_name {raw_line name : List Char} (hname : section_name raw_line = some name) :
    assigned patch raw_line = none := by
  unfold section_name at hname
  unfold assigned
  cases hkind : line_kind raw_line with
  | header => rfl
  | ignored => rfl
  | malformed => rfl
  | assignment key value => simp [hkind] at hname

/-- Without a header among them, lines are all active or none of them is. -/
theorem assignments_without_header {raw_lines : List (List Char)}
    (hnone : ∀ raw_line ∈ raw_lines, section_name raw_line = none) (start : Bool) (patch : Patch) :
    active start raw_lines = start ∧
      assignments start patch raw_lines = if start then assignments true patch raw_lines else [] := by
  induction raw_lines with
  | nil => cases start <;> exact ⟨rfl, rfl⟩
  | cons raw_line rest ih =>
    have hline : ∀ flag, active flag [raw_line] = flag := fun flag =>
      active_of_no_header flag (hnone raw_line List.mem_cons_self)
    obtain ⟨hactive, hassigned⟩ := ih fun other hmem => hnone other (List.mem_cons_of_mem raw_line hmem)
    constructor
    · rw [← List.singleton_append, active_append, hline, hactive]
    · rw [← List.singleton_append, assignments_append, assignments_append, hline, hline,
        assignments_singleton, assignments_singleton, hassigned]
      cases start <;> simp

/-- Behind a header the section before it does not matter. -/
theorem assignments_from_header (raw_lines : List (List Char)) (start : Bool) (patch : Patch) :
    assignments start patch (from_header raw_lines) = assignments true patch (from_header raw_lines) := by
  cases hrest : from_header raw_lines with
  | nil => rfl
  | cons first rest =>
    have hfirst := List.head?_dropWhile_not (fun raw_line => (section_name raw_line).isNone) raw_lines
    rw [show raw_lines.dropWhile (fun raw_line => (section_name raw_line).isNone) = first :: rest from hrest] at hfirst
    obtain ⟨name, hname⟩ : ∃ name, section_name first = some name :=
      Option.isSome_iff_exists.mp (by simpa using hfirst)
    have hactive : ∀ flag, active flag [first] = names_patches name := fun flag => by simp [active, hname]
    rw [← List.singleton_append, assignments_append, assignments_append, hactive, hactive,
      assignments_singleton, assignments_singleton, assigned_of_section_name hname]
    cases start <;> rfl

/-- The values behind a line, by the section in force after it. -/
theorem assignments_split (start : Bool) (patch : Patch) (later : List (List Char)) :
    assignments start patch later =
      (if start then assignments true patch (until_header later) else []) ++
        assignments true patch (from_header later) := by
  have hnone : ∀ raw_line ∈ until_header later, section_name raw_line = none := fun raw_line hmem => by
    simpa using List.mem_takeWhile_imp hmem
  obtain ⟨hactive, hassigned⟩ := assignments_without_header hnone start patch
  have hparts : until_header later ++ from_header later = later := List.takeWhile_append_dropWhile
  have hsplit := assignments_append start patch (until_header later) (from_header later)
  rwa [hparts, hactive, hassigned, assignments_from_header later start] at hsplit

end Values

section Commented

variable {line spacing comment : List Char} {mark : Char}

/-- Trimming leaves a leading bracket in front. -/
theorem bracket_trimmed (key : List Char) : ∃ rest, trim ('[' :: key) = '[' :: rest := by
  obtain ⟨front, back, htext, hfront, hback, _⟩ := trim_matches_margins is_whitespace ('[' :: key)
  have hbracket : is_whitespace '[' = false := by decide
  cases front with
  | cons first front =>
    rw [List.cons_append, List.cons_append, List.cons.injEq] at htext
    obtain ⟨rfl, _⟩ := htext
    simp [hfront '[' List.mem_cons_self] at hbracket
  | nil =>
    rw [List.nil_append] at htext
    cases hcore : trim_matches is_whitespace ('[' :: key) with
    | nil =>
      rw [hcore, List.nil_append] at htext
      simp [hback '[' (htext ▸ List.mem_cons_self)] at hbracket
    | cons first core =>
      rw [hcore] at htext
      cases htext
      exact ⟨core, hcore⟩

/-- No option has a name that starts with a bracket. -/
theorem bracket_names_no_option (key : List Char) (patch : Patch) :
    to_ascii_lowercase (trim ('[' :: key)) ≠ patch.name := by
  obtain ⟨rest, htrim⟩ := bracket_trimmed key
  intro hname
  have hchars := congrArg String.toList hname
  rw [htrim, to_ascii_lowercase, String.toList_ofList, List.map_cons] at hchars
  have hfirst : patch.name.toList.head? = some '[' := by rw [← hchars]; rfl
  revert hfirst
  cases patch <;> decide

/-- A line that starts with a bracket assigns nothing, be it a header or not. -/
theorem assigned_of_bracket (patch : Patch) (hbracket : (trim line).head? = some '[') :
    assigned patch line = none := by
  have hskipped : ¬skipped (trim line) := by
    rintro (hempty | hhash | hsemicolon)
    · simp [hempty] at hbracket
    · simp [hhash] at hbracket
    · simp [hsemicolon] at hbracket
  by_cases hbracketed : bracketed (trim line)
  · simp [assigned, line_kind_of_bracketed hskipped hbracketed]
  · cases hsplit : split_once (· == '=') (trim line) with
    | none => simp [assigned, line_kind_of_malformed hskipped hbracketed hsplit]
    | some parts =>
      obtain ⟨raw_key, raw_value⟩ := parts
      obtain ⟨sign, htext, hsign, _⟩ := split_once_eq_some_iff.mp hsplit
      cases raw_key with
      | nil =>
        rw [htext] at hbracket
        cases hbracket
        simp at hsign
      | cons first key =>
        rw [htext] at hbracket
        cases hbracket
        have hname := bracket_names_no_option key patch
        simp [assigned, line_kind_of_assignment hskipped hbracketed hsplit, hname]

/-- The comment of a value is cut off where it starts, with the space before it. -/
theorem value_commented (hspacing : ∀ character ∈ spacing, is_whitespace character = true)
    (hmark : mark = ';' ∨ mark = '#') (raw_value : List Char) :
    trim (strip_comment (raw_value ++ (spacing ++ mark :: comment))) = trim (strip_comment raw_value) := by
  unfold strip_comment
  cases hsplit : split_once (fun character => character == '#' || character == ';') raw_value with
  | some parts => rw [split_once_append hsplit]
  | none =>
    have hclear := split_once_eq_none_iff.mp hsplit
    have hcut : split_once (fun character => character == '#' || character == ';')
        (raw_value ++ (spacing ++ mark :: comment)) = some (raw_value ++ spacing, comment) := by
      refine split_once_eq_some_iff.mpr ⟨mark, by simp, ?_, fun character hmem => ?_⟩
      · obtain rfl | rfl := hmark <;> decide
      · obtain hvalue | hspace := List.mem_append.mp hmem
        · exact hclear character hvalue
        · by_contra hstops
          have hblank := hspacing character hspace
          simp only [Bool.or_eq_false_iff, beq_eq_false_iff_ne, not_and_or, not_not] at hstops
          obtain rfl | rfl := hstops
          · exact absurd hblank (by decide)
          · exact absurd hblank (by decide)
    rw [hcut]
    exact trim_matches_append_blank raw_value hspacing

/-- With a comment an entry assigns what it assigned without it. -/
theorem assigned_commented (hentry : is_entry line)
    (hspacing : ∀ character ∈ spacing, is_whitespace character = true) (hmark : mark = ';' ∨ mark = '#')
    (patch : Patch) : assigned patch (line ++ spacing ++ mark :: comment) = assigned patch line := by
  have hskipped : ¬skipped (trim line) := by
    intro hskipped
    obtain ⟨name, hkind⟩ | ⟨key, value, hkind⟩ := hentry
    · rw [line_kind_of_skipped hskipped] at hkind
      cases hkind
    · rw [line_kind_of_skipped hskipped] at hkind
      cases hkind
  have hnonempty : trim line ≠ [] := fun hempty => hskipped (.inl hempty)
  have hblank : is_whitespace mark = false := by obtain rfl | rfl := hmark <;> decide
  obtain ⟨gap, hgap, htrim⟩ := trim_matches_append_mark comment hnonempty hspacing hblank
  have hhead : (trim (line ++ spacing ++ mark :: comment)).head? = (trim line).head? := by
    rw [trim, htrim, List.append_assoc]
    exact List.head?_append_of_ne_nil _ hnonempty
  by_cases hbracket : (trim line).head? = some '['
  · rw [assigned_of_bracket patch hbracket, assigned_of_bracket patch (hhead.trans hbracket)]
  · have hplain : ¬bracketed (trim line) := fun hbracketed => hbracket hbracketed.1
    have hplain' : ¬bracketed (trim (line ++ spacing ++ mark :: comment)) := fun hbracketed =>
      hbracket (hhead.symm.trans hbracketed.1)
    have hskipped' : ¬skipped (trim (line ++ spacing ++ mark :: comment)) := by
      rintro (hempty | hstart)
      · rw [hempty] at hhead
        exact hnonempty (List.head?_eq_none_iff.mp hhead.symm)
      · rw [hhead] at hstart
        exact hskipped (.inr hstart)
    cases hsplit : split_once (· == '=') (trim line) with
    | none =>
      have hkind := line_kind_of_malformed hskipped hplain hsplit
      obtain ⟨name, hother⟩ | ⟨key, value, hother⟩ := hentry
      · rw [hkind] at hother
        cases hother
      · rw [hkind] at hother
        cases hother
    | some parts =>
      obtain ⟨raw_key, raw_value⟩ := parts
      have hsplit' : split_once (· == '=') (trim (line ++ spacing ++ mark :: comment)) =
          some (raw_key, raw_value ++ (gap ++ mark :: comment.rdropWhile is_whitespace)) := by
        rw [trim, htrim, List.append_assoc]
        exact split_once_append hsplit _
      simp only [assigned, line_kind_of_assignment hskipped hplain hsplit,
        line_kind_of_assignment hskipped' hplain' hsplit', value_commented hgap hmark]

end Commented

section Text

variable {before line line_end rest : List Char}

/-- The line of a text, as the loop sees it: a carriage return at its end may be gone. -/
theorem lines_of_line (hline : '\n' ∉ line) (hnonempty : line ≠ [])
    (hstops : (line_end = [] ∧ rest = []) ∨ line_end = ['\n'] ∨ line_end = ['\r', '\n']) :
    ∃ raw_line, trim raw_line = trim line ∧ lines (line ++ line_end ++ rest) = raw_line :: lines rest := by
  have hreturn : ∀ character ∈ ['\r'], is_whitespace character = true := by
    simp only [List.mem_singleton, forall_eq]
    decide
  have hstrip : ∀ text, trim (strip_carriage_return text) = trim text := by
    intro text
    unfold strip_carriage_return
    split
    · rename_i hends
      obtain ⟨start, rfl⟩ := List.getLast?_eq_some_iff.mp hends
      rw [List.dropLast_concat]
      exact (trim_matches_append_blank start hreturn).symm
    · rfl
  rw [List.append_assoc, lines, lines_from_append hline, List.nil_append]
  obtain ⟨rfl, rfl⟩ | rfl | rfl := hstops
  · exact ⟨line, rfl, by simp [lines_from, lines, hnonempty]⟩
  · exact ⟨strip_carriage_return line, hstrip line, by simp [lines_from, lines]⟩
  · refine ⟨strip_carriage_return (line ++ ['\r']), ?_, by simp [lines_from, lines]⟩
    rw [hstrip]
    exact trim_matches_append_blank line hreturn

/-- A line with a comment at its end is a line of the text with the comment. -/
theorem LineOf.commented {spacing comment : List Char} {mark : Char} (hof : LineOf before line line_end rest)
    (hnonempty : line ≠ []) (hspacing : '\n' ∉ spacing) (hmark : mark = ';' ∨ mark = '#')
    (hcomment : '\n' ∉ comment) : LineOf before (line ++ spacing ++ mark :: comment) line_end rest := by
  refine ⟨fun hmem => ?_, ?_, hof.stops⟩
  · simp only [List.append_assoc, List.mem_append, List.mem_cons] at hmem
    obtain hmem | hmem | hmem | hmem := hmem
    · exact hof.whole hmem
    · exact hspacing hmem
    · obtain rfl | rfl := hmark <;> exact absurd hmem (by decide)
    · exact hcomment hmem
  · obtain ⟨hmarks, hfirst⟩ | hnewline := hof.starts
    · refine .inl ⟨hmarks, ?_⟩
      rwa [List.append_assoc, List.head?_append_of_ne_nil _ hnonempty]
    · exact .inr hnewline

/-- The lines of a text around one of them. -/
theorem LineOf.lines_eq (hof : LineOf before line line_end rest) (hnonempty : line ≠ []) :
    ∃ raw_line, trim raw_line = trim line ∧
      lines (trim_byte_order_mark (before ++ line ++ line_end ++ rest)) =
        lines (trim_byte_order_mark before) ++ raw_line :: lines rest := by
  obtain ⟨raw_line, htrim, hlines⟩ := lines_of_line hof.whole hnonempty hof.stops
  refine ⟨raw_line, htrim, ?_⟩
  obtain ⟨hmarks, hfirst⟩ | hnewline := hof.starts
  · have hmark : ∀ character ∈ before, (character == '\uFEFF') = true := fun character hmem => by
      simp [hmarks character hmem]
    obtain ⟨first, line', rfl⟩ := List.exists_cons_of_ne_nil hnonempty
    have hkept : ∀ more, trim_byte_order_mark (first :: more) = first :: more := fun more =>
      List.dropWhile_cons_of_neg (by simpa using hfirst)
    have hnothing : trim_byte_order_mark before = [] := List.dropWhile_eq_nil_iff.mpr hmark
    have hdropped : trim_byte_order_mark (before ++ (first :: line' ++ line_end ++ rest)) =
        first :: line' ++ line_end ++ rest := (List.dropWhile_append_of_pos hmark).trans (hkept _)
    rw [List.append_assoc, List.append_assoc, ← List.append_assoc (first :: line'), hdropped, hnothing, hlines]
    rfl
  · obtain ⟨text, rfl⟩ := List.getLast?_eq_some_iff.mp hnewline
    have hstays : ∀ more, trim_byte_order_mark (text ++ ['\n'] ++ more) =
        trim_byte_order_mark text ++ '\n' :: more := by
      intro more
      unfold trim_byte_order_mark
      rw [List.append_assoc, List.dropWhile_append]
      split
      · rename_i hempty
        rw [List.isEmpty_iff.mp hempty, List.singleton_append, List.dropWhile_cons_of_neg (by decide)]
        rfl
      · rfl
    have hwhole := hstays []
    rw [List.append_nil] at hwhole
    rw [show text ++ ['\n'] ++ line ++ line_end ++ rest = text ++ ['\n'] ++ (line ++ line_end ++ rest) by simp,
      hstays, hwhole, lines, lines_from_append_newline, hlines]
    rfl

end Text

/-- The values of all options are the whole configuration. -/
theorem PatchConfig.ext_enabled {left right : PatchConfig}
    (hsame : ∀ patch, left.enabled patch = right.enabled patch) : left = right := by
  cases left
  cases right
  simp only [PatchConfig.mk.injEq]
  exact ⟨hsame .jackal_tapes, hsame .devmode_always_on, hsame .predecessor_tapes, hsame .machetes,
    hsame .no_blinking_items⟩

/-- A middle part does not change the last value when there is a later one, when it is
empty, or when it ends with the value before it. -/
theorem last_undisturbed_iff {α : Type} (early middle late : List α) (start : α) :
    (early ++ (middle ++ late)).getLast?.getD start = (early ++ late).getLast?.getD start ↔
      late ≠ [] ∨ middle = [] ∨ middle.getLast? = some (early.getLast?.getD start) := by
  rw [List.getLast?_append, List.getLast?_append, List.getLast?_append]
  cases hlate : late.getLast? with
  | some value =>
    have hnonempty : late ≠ [] := by
      rintro rfl
      cases hlate
    simp [hnonempty]
  | none =>
    have hempty := List.getLast?_eq_none_iff.mp hlate
    cases hmiddle : middle.getLast? with
    | some value =>
      have hnonempty : middle ≠ [] := by
        rintro rfl
        cases hmiddle
      simp [hempty, hnonempty]
    | none => simp [List.getLast?_eq_none_iff.mp hmiddle]

theorem parse_enabled (debug : List Char → String) (contents : List Char) (patch : Patch) :
    (parse debug contents).1.enabled patch = value_after patch (lines (trim_byte_order_mark contents)) :=
  (parse_lines_takes debug .initial 1 (lines (trim_byte_order_mark contents))).2.1 patch

/-- The value of an option, by a line that the loop sees up to the space around it. -/
theorem value_around (patch : Patch) (earlier : List (List Char)) {raw_line line : List Char}
    (htrim : trim raw_line = trim line) (later : List (List Char)) :
    value_after patch (earlier ++ raw_line :: later) =
      (assignments true patch (earlier ++ [line]) ++
        assignments (active true (earlier ++ [line])) patch later).getLast?.getD
          (PatchConfig.default.enabled patch) := by
  have hkind : line_kind raw_line = line_kind line := by
    unfold line_kind
    rw [htrim]
  have hactive : active true (earlier ++ [raw_line]) = active true (earlier ++ [line]) := by
    simp [active, List.filterMap_append, section_name, hkind]
  have hassigned : assignments true patch (earlier ++ [raw_line]) = assignments true patch (earlier ++ [line]) := by
    rw [assignments_append, assignments_append, assignments_singleton, assignments_singleton, assigned, assigned,
      hkind]
  rw [value_after, ← List.singleton_append, ← List.append_assoc, assignments_append, hactive, hassigned]

/-- When only the section in force differs after two lines, an option keeps its
value exactly when the lines up to the next header do not matter. -/
theorem option_kept_iff {patch : Patch} {earlier later : List (List Char)} {line commented : List Char}
    (hassigned : assignments true patch (earlier ++ [commented]) = assignments true patch (earlier ++ [line]))
    (hdiffers : active true (earlier ++ [commented]) ≠ active true (earlier ++ [line])) :
    (assignments true patch (earlier ++ [commented]) ++
        assignments (active true (earlier ++ [commented])) patch later).getLast?.getD
          (PatchConfig.default.enabled patch) =
      (assignments true patch (earlier ++ [line]) ++
        assignments (active true (earlier ++ [line])) patch later).getLast?.getD
          (PatchConfig.default.enabled patch) ↔ OptionKept patch (earlier ++ [line]) later := by
  have hdisturbed := last_undisturbed_iff (assignments true patch (earlier ++ [line]))
    (assignments true patch (until_header later)) (assignments true patch (from_header later))
    (PatchConfig.default.enabled patch)
  rw [hassigned, assignments_split _ patch later, assignments_split (active true (earlier ++ [line]))]
  refine Iff.trans ?_ hdisturbed
  cases hflag : active true (earlier ++ [line]) with
  | true =>
    have hother : active true (earlier ++ [commented]) = false := by simpa [hflag] using hdiffers
    rw [hother]
    exact eq_comm
  | false =>
    have hother : active true (earlier ++ [commented]) = true := by simpa [hflag] using hdiffers
    rw [hother]
    rfl

/-- A comment behind a header or an assignment leaves the configuration as it is exactly
when the section in force after the line stays the same, or nothing depends on it. -/
theorem inline_comment_harmless_iff (debug : List Char → String)
    {before line line_end rest spacing comment : List Char} {mark : Char}
    (hline : LineOf before line line_end rest) (hentry : is_entry line)
    (hspacing : ∀ character ∈ spacing, is_whitespace character = true ∧ character ≠ '\n')
    (hmark : mark = ';' ∨ mark = '#') (hcomment : '\n' ∉ comment) :
    (parse debug (before ++ (line ++ spacing ++ mark :: comment) ++ line_end ++ rest)).1 =
        (parse debug (before ++ line ++ line_end ++ rest)).1 ↔
      CommentHarmless (lines (trim_byte_order_mark before)) line (line ++ spacing ++ mark :: comment)
        (lines rest) := by
  have hnonempty : line ≠ [] := by
    rintro rfl
    obtain ⟨name, hkind⟩ | ⟨key, value, hkind⟩ := hentry
    · cases hkind
    · cases hkind
  have hblank : ∀ character ∈ spacing, is_whitespace character = true := fun character hmem =>
    (hspacing character hmem).1
  have hcommented := hline.commented hnonempty (fun hmem => (hspacing _ hmem).2 rfl) hmark hcomment
  obtain ⟨raw_line, htrim, hlines⟩ := hline.lines_eq hnonempty
  obtain ⟨raw_commented, htrim', hlines'⟩ := hcommented.lines_eq (by simp)
  have hearlier : ∀ patch, assignments true patch (lines (trim_byte_order_mark before) ++
      [line ++ spacing ++ mark :: comment]) =
        assignments true patch (lines (trim_byte_order_mark before) ++ [line]) := fun patch => by
    rw [assignments_append, assignments_append, assignments_singleton, assignments_singleton,
      assigned_commented hentry hblank hmark patch]
  -- The two configurations differ by the values up to the next header at most.
  have hvalues : ∀ patch, (parse debug (before ++ line ++ line_end ++ rest)).1.enabled patch = _ := fun patch =>
    (parse_enabled debug _ patch).trans ((congrArg _ hlines).trans (value_around patch _ htrim _))
  have hvalues' : ∀ patch, (parse debug (before ++ (line ++ spacing ++ mark :: comment) ++ line_end ++
      rest)).1.enabled patch = _ := fun patch =>
    (parse_enabled debug _ patch).trans ((congrArg _ hlines').trans (value_around patch _ htrim' _))
  by_cases hsame : active true (lines (trim_byte_order_mark before) ++ [line ++ spacing ++ mark :: comment]) =
      active true (lines (trim_byte_order_mark before) ++ [line])
  · refine iff_of_true (PatchConfig.ext_enabled fun patch => ?_) (.inl hsame)
    rw [hvalues', hvalues, hearlier, hsame]
  · have hpatch : ∀ patch, (parse debug (before ++ (line ++ spacing ++ mark :: comment) ++ line_end ++
          rest)).1.enabled patch = (parse debug (before ++ line ++ line_end ++ rest)).1.enabled patch ↔
        OptionKept patch (lines (trim_byte_order_mark before) ++ [line]) (lines rest) := fun patch => by
      rw [hvalues', hvalues]
      exact option_kept_iff (hearlier patch) hsame
    constructor
    · intro hequal
      exact .inr fun patch => (hpatch patch).mp (by rw [hequal])
    · rintro (hkept | hharmless)
      · exact absurd hkept hsame
      · exact PatchConfig.ext_enabled fun patch => (hpatch patch).mpr (hharmless patch)

/-- A comment behind a value changes nothing. -/
theorem value_comment_harmless :
    (parse String.ofList ("[patches]\r\n".toList ++ ("machetes = off".toList ++ [' '] ++ ';' :: " slow".toList) ++
      ['\r', '\n'] ++ "jackal_tapes = 0".toList)).1 =
    (parse String.ofList ("[patches]\r\n".toList ++ "machetes = off".toList ++ ['\r', '\n'] ++
      "jackal_tapes = 0".toList)).1 := by
  have hline : LineOf "[patches]\r\n".toList "machetes = off".toList ['\r', '\n'] "jackal_tapes = 0".toList :=
    ⟨by decide +kernel, .inr (by decide +kernel), .inr (.inr rfl)⟩
  have hentry : is_entry "machetes = off".toList := .inr ⟨_, _, rfl⟩
  have hspacing : ∀ character ∈ [' '], is_whitespace character = true ∧ character ≠ '\n' := by
    simp only [List.mem_singleton, forall_eq]
    decide
  exact (inline_comment_harmless_iff String.ofList hline hentry hspacing (.inl rfl) (by decide +kernel)).mpr
    (.inl (by decide +kernel))

/-- Behind the header of another section a comment lets the options of that section through. -/
theorem header_comment_switches_patch :
    LineOf [] "[other]".toList ['\n'] "jackal_tapes = off".toList ∧ is_entry "[other]".toList ∧
      (parse String.ofList ([] ++ "[other]".toList ++ ['\n'] ++ "jackal_tapes = off".toList)).1 =
        PatchConfig.default ∧
      (parse String.ofList ([] ++ ("[other]".toList ++ [' '] ++ ';' :: "notes".toList) ++ ['\n'] ++
        "jackal_tapes = off".toList)).1 = { PatchConfig.default with jackal_tapes := false } := by
  refine ⟨⟨by decide +kernel, .inl ⟨by simp, by decide +kernel⟩, .inr (.inl rfl)⟩, .inl ⟨_, rfl⟩, ?_, ?_⟩
  · decide +kernel
  · decide +kernel

end systemdetection.patches
