import Mathlib.Data.List.DropRight

namespace systemdetection

variable {α : Type}

/-- `trim_matches`: the text without the characters of a kind at both ends. -/
def trim_matches (kind : α → Bool) (text : List α) : List α := (text.dropWhile kind).rdropWhile kind

/-- `split_once` at the first character of a kind. -/
def split_once (kind : α → Bool) : List α → Option (List α × List α)
  | [] => none
  | character :: rest =>
    if kind character then
      some ([], rest)
    else
      (split_once kind rest).map fun parts => (character :: parts.1, parts.2)

/-- `strip_suffix('\r')`, of a line whose line feed is gone. -/
def strip_carriage_return (line : List Char) : List Char :=
  if line.getLast? = some '\r' then line.dropLast else line

/-- `lines`, after the characters `current` of the first line. -/
def lines_from (current : List Char) : List Char → List (List Char)
  | [] => if current = [] then [] else [current]
  | character :: rest =>
    if character = '\n' then
      strip_carriage_return current :: lines_from [] rest
    else
      lines_from (current ++ [character]) rest

/-- `lines`: the text between the line ends, which are not kept; no line after the last one. -/
def lines (text : List Char) : List (List Char) := lines_from [] text

section Trim

variable {kind : α → Bool}

/-- A text between two margins of the trimmed kind, neither starting nor ending with it. -/
theorem trim_matches_eq {front core back : List α} (hfront : ∀ character ∈ front, kind character = true)
    (hback : ∀ character ∈ back, kind character = true)
    (hhead : ∀ character, core.head? = some character → kind character = false)
    (hlast : ∀ character, core.getLast? = some character → kind character = false) :
    trim_matches kind (front ++ core ++ back) = core := by
  rw [trim_matches, List.append_assoc, List.dropWhile_append_of_pos hfront]
  cases core with
  | nil =>
    rw [List.nil_append, List.dropWhile_eq_nil_iff.mpr hback]
    rfl
  | cons first rest =>
    have hfirst : ¬kind first = true := by simp [hhead first rfl]
    have hdrop : (first :: rest ++ back).rdropWhile kind = (first :: rest).rdropWhile kind := by
      rw [List.rdropWhile, List.reverse_append, List.dropWhile_append_of_pos (by simpa using hback)]
      rfl
    rw [List.cons_append, List.dropWhile_cons_of_neg hfirst, ← List.cons_append, hdrop,
      List.rdropWhile_eq_self_iff]
    intro hnonempty
    simp [hlast _ (List.getLast?_eq_some_getLast hnonempty)]

/-- Every text is its trimmed part between two margins. -/
theorem trim_matches_margins (kind : α → Bool) (text : List α) :
    ∃ front back, text = front ++ trim_matches kind text ++ back ∧
      (∀ character ∈ front, kind character = true) ∧ (∀ character ∈ back, kind character = true) ∧
      (∀ character, (trim_matches kind text).head? = some character → kind character = false) ∧
      ∀ character, (trim_matches kind text).getLast? = some character → kind character = false := by
  refine ⟨text.takeWhile kind, (text.dropWhile kind).rtakeWhile kind, ?_, ?_, ?_, ?_, ?_⟩
  · rw [trim_matches, List.append_assoc, List.rdropWhile_append_rtakeWhile, List.takeWhile_append_dropWhile]
  · exact fun character hmem => List.mem_takeWhile_imp hmem
  · exact fun character hmem => List.mem_rtakeWhile_imp hmem
  · intro character hhead
    obtain ⟨tail, htail⟩ := List.rdropWhile_prefix kind (text.dropWhile kind)
    have hfirst : (text.dropWhile kind).head? = some character := by
      rw [← htail, List.head?_append]
      simp [show ((text.dropWhile kind).rdropWhile kind).head? = some character from hhead]
    have hkept := List.head?_dropWhile_not kind text
    rw [hfirst] at hkept
    simpa using hkept
  · intro character hlast
    by_cases hempty : trim_matches kind text = []
    · simp [hempty] at hlast
    · have hkept := List.rdropWhile_last_not kind (text.dropWhile kind) hempty
      rw [List.getLast?_eq_some_getLast hempty] at hlast
      cases hlast
      exact eq_false_of_ne_true hkept

/-- Blanks at the end are trimmed away. -/
theorem trim_matches_append_blank (text : List α) {blank : List α}
    (hblank : ∀ character ∈ blank, kind character = true) :
    trim_matches kind (text ++ blank) = trim_matches kind text := by
  obtain ⟨front, back, htext, hfront, hback, hhead, hlast⟩ := trim_matches_margins kind text
  rw [show text ++ blank = front ++ trim_matches kind text ++ (back ++ blank) by
    rw [← List.append_assoc, ← htext]]
  refine trim_matches_eq hfront (fun character hmem => ?_) hhead hlast
  obtain hmem | hmem := List.mem_append.mp hmem
  · exact hback character hmem
  · exact hblank character hmem

/-- A text that goes on, after some space, with a mark of another kind. -/
theorem trim_matches_append_mark {text spacing : List α} {mark : α} (rest : List α)
    (htext : trim_matches kind text ≠ []) (hspacing : ∀ character ∈ spacing, kind character = true)
    (hmark : kind mark = false) :
    ∃ gap, (∀ character ∈ gap, kind character = true) ∧
      trim_matches kind (text ++ spacing ++ mark :: rest) =
        trim_matches kind text ++ gap ++ mark :: rest.rdropWhile kind := by
  obtain ⟨front, back, hmargins, hfront, hback, hhead, _⟩ := trim_matches_margins kind text
  have hgap : ∀ character ∈ back ++ spacing, kind character = true := fun character hmem =>
    (List.mem_append.mp hmem).elim (hback character) (hspacing character)
  refine ⟨back ++ spacing, hgap, ?_⟩
  rw [show text ++ spacing ++ mark :: rest = front ++ (trim_matches kind text ++ (back ++ spacing) ++
      mark :: rest.rdropWhile kind) ++ rest.rtakeWhile kind by
    simp only [List.append_assoc, List.cons_append, List.rdropWhile_append_rtakeWhile]
    rw [← List.append_assoc, ← List.append_assoc, ← List.append_assoc, ← hmargins, List.append_assoc]]
  refine trim_matches_eq hfront (fun character hmem => List.mem_rtakeWhile_imp hmem) ?_ ?_
  · intro character hfirst
    refine hhead character ?_
    rwa [List.append_assoc, List.head?_append_of_ne_nil _ htext] at hfirst
  · intro character hend
    rw [List.getLast?_append_cons] at hend
    by_cases hempty : rest.rdropWhile kind = []
    · rw [hempty] at hend
      cases hend
      exact hmark
    · rw [List.getLast?_cons_of_ne_nil hempty, List.getLast?_eq_some_getLast hempty] at hend
      cases hend
      simpa using List.rdropWhile_last_not kind rest hempty

end Trim

section SplitOnce

variable {kind : α → Bool}

/-- A text is split at the first mark. -/
theorem split_once_eq_some_iff {text before after : List α} :
    split_once kind text = some (before, after) ↔
      ∃ mark, text = before ++ mark :: after ∧ kind mark = true ∧ ∀ character ∈ before, kind character = false := by
  induction text generalizing before with
  | nil => simp [split_once]
  | cons first rest ih =>
    rw [split_once]
    split
    · rename_i hfirst
      constructor
      · intro hsplit
        cases hsplit
        exact ⟨first, rfl, hfirst, by simp⟩
      · rintro ⟨mark, htext, hmark, hbefore⟩
        cases before with
        | nil =>
          cases htext
          rfl
        | cons head tail =>
          cases htext
          simp [hbefore first List.mem_cons_self] at hfirst
    · rename_i hfirst
      constructor
      · intro hsplit
        obtain ⟨⟨before', after'⟩, hrest, hparts⟩ := Option.map_eq_some_iff.mp hsplit
        cases hparts
        obtain ⟨mark, hafter, hmark, hbefore⟩ := ih.mp hrest
        refine ⟨mark, by rw [hafter, List.cons_append], hmark, fun character hmem => ?_⟩
        obtain rfl | hmem := List.mem_cons.mp hmem
        · simpa using hfirst
        · exact hbefore character hmem
      · rintro ⟨mark, htext, hmark, hbefore⟩
        cases before with
        | nil =>
          cases htext
          exact absurd hmark hfirst
        | cons head tail =>
          cases htext
          rw [ih.mpr ⟨mark, rfl, hmark, fun character hmem => hbefore character (List.mem_cons_of_mem _ hmem)⟩]
          rfl

/-- A text is not split when it has no mark. -/
theorem split_once_eq_none_iff {text : List α} :
    split_once kind text = none ↔ ∀ character ∈ text, kind character = false := by
  induction text with
  | nil => simp [split_once]
  | cons first rest ih =>
    rw [split_once, List.forall_mem_cons]
    split
    · rename_i hfirst
      simp [hfirst]
    · rename_i hfirst
      simp [ih, hfirst]

/-- The first mark stays the first one when the text goes on. -/
theorem split_once_append {text before after : List α} (hsplit : split_once kind text = some (before, after))
    (more : List α) : split_once kind (text ++ more) = some (before, after ++ more) := by
  obtain ⟨mark, rfl, hmark, hbefore⟩ := split_once_eq_some_iff.mp hsplit
  exact split_once_eq_some_iff.mpr ⟨mark, by simp, hmark, hbefore⟩

end SplitOnce

section Lines

/-- The characters of a line are put before its end. -/
theorem lines_from_append {line : List Char} (hline : '\n' ∉ line) (current rest : List Char) :
    lines_from current (line ++ rest) = lines_from (current ++ line) rest := by
  induction line generalizing current with
  | nil => simp
  | cons first line ih =>
    rw [List.mem_cons, not_or] at hline
    obtain ⟨hfirst, hrest⟩ := hline
    rw [List.cons_append, lines_from, if_neg (Ne.symm hfirst), ih hrest, List.append_assoc, List.singleton_append]

/-- The lines before a line feed do not depend on the text behind it. -/
theorem lines_from_append_newline (current text rest : List Char) :
    lines_from current (text ++ '\n' :: rest) = lines_from current (text ++ ['\n']) ++ lines rest := by
  induction text generalizing current with
  | nil => simp [lines_from, lines]
  | cons first text ih =>
    rw [List.cons_append, List.cons_append, lines_from, lines_from]
    split
    · rw [ih, List.cons_append]
    · rw [ih]

end Lines

end systemdetection
