import Mathlib.Data.List.Basic

namespace systemdetection

variable {α : Type} {blank : α → Bool}

/-- A text that is made of the given words, in order. Blanks may stand before
the first word and after the last one, and stand between two words. -/
inductive Spaced (blank : α → Bool) : List (List α) → List α → Prop where
  | blanks {gap : List α} (hgap : ∀ character ∈ gap, blank character = true) : Spaced blank [] gap
  | word {gap word rest : List α} {others : List (List α)}
      (hgap : ∀ character ∈ gap, blank character = true)
      (hnonempty : word ≠ []) (hword : ∀ character ∈ word, blank character = false)
      (hends : ∀ character, rest.head? = some character → blank character = true)
      (hrest : Spaced blank others rest) : Spaced blank (word :: others) (gap ++ word ++ rest)

/-- The non-empty pieces of a text that is cut at every blank. -/
def words (blank : α → Bool) (text : List α) : List (List α) := (text.splitOnP blank).filter (· ≠ [])

theorem words_nil : words blank [] = [] := by simp [words]

/-- No word reaches over a blank. -/
theorem words_append_blank {character : α} (hblank : blank character = true) (front back : List α) :
    words blank (front ++ character :: back) = words blank front ++ words blank back := by
  rw [words, List.splitOnP_append_cons front back hblank, List.filter_append]
  rfl

theorem words_cons_blank {character : α} (hblank : blank character = true) (text : List α) :
    words blank (character :: text) = words blank text := by
  simpa [words_nil] using words_append_blank hblank [] text

/-- Blanks in front of a text make no word. -/
theorem words_gap_append {gap : List α} (hgap : ∀ character ∈ gap, blank character = true) (text : List α) :
    words blank (gap ++ text) = words blank text := by
  induction gap with
  | nil => rfl
  | cons first gap ih =>
    obtain ⟨hfirst, hrest⟩ := List.forall_mem_cons.mp hgap
    rw [List.cons_append, words_cons_blank hfirst, ih hrest]

theorem words_of_word {word : List α} (hnonempty : word ≠ [])
    (hword : ∀ character ∈ word, blank character = false) : words blank word = [word] := by
  rw [words, List.splitOnP_eq_singleton hword]
  simp [hnonempty]

/-- Words with blanks between them are split into those words. -/
theorem Spaced.words_eq {spelled : List (List α)} {text : List α} (hspaced : Spaced blank spelled text) :
    words blank text = spelled := by
  induction hspaced with
  | @blanks gap hgap =>
    have h := words_gap_append hgap []
    rwa [List.append_nil, words_nil] at h
  | @word gap word rest spelled hgap hnonempty hword hends _ ih =>
    rw [List.append_assoc, words_gap_append hgap]
    cases rest with
    | nil =>
      rw [words_nil] at ih
      rw [List.append_nil, words_of_word hnonempty hword, ih]
    | cons first rest =>
      have hfirst : blank first = true := hends first rfl
      rw [words_cons_blank hfirst] at ih
      rw [words_append_blank hfirst, words_of_word hnonempty hword, ih, List.singleton_append]

/-- Nor does one blank more. -/
theorem Spaced.cons_blank {spelled : List (List α)} {text : List α} (hspaced : Spaced blank spelled text)
    {character : α} (hblank : blank character = true) : Spaced blank spelled (character :: text) := by
  cases hspaced with
  | blanks hgap => exact .blanks (List.forall_mem_cons.mpr ⟨hblank, hgap⟩)
  | word hgap hnonempty hword hends hrest =>
    exact .word (List.forall_mem_cons.mpr ⟨hblank, hgap⟩) hnonempty hword hends hrest

/-- A character that is no blank starts a new word before blanks, and is put
before the first word otherwise. -/
theorem Spaced.cons_mark {spelled : List (List α)} {text : List α} (hspaced : Spaced blank spelled text)
    {character : α} (hmark : blank character = false) : ∃ words, Spaced blank words (character :: text) := by
  have hgap : ∀ character ∈ ([] : List α), blank character = true := by simp
  by_cases hends : ∀ character, text.head? = some character → blank character = true
  · have hsingle : ∀ other ∈ [character], blank other = false := by simpa using hmark
    exact ⟨_, .word hgap (List.cons_ne_nil _ _) hsingle hends hspaced⟩
  · cases hspaced with
    | blanks hblanks =>
      exact absurd (fun character hhead => hblanks character (List.mem_of_mem_head? hhead)) hends
    | @word gap word rest spelled hblanks _ hword hends' hrest =>
      cases gap with
      | nil => exact ⟨_, .word hgap (by simp) (List.forall_mem_cons.mpr ⟨hmark, hword⟩) hends' hrest⟩
      | cons first gap => exact absurd (by simpa using hblanks first) hends

/-- Every text is words with blanks between them. -/
theorem exists_spaced (blank : α → Bool) (text : List α) : ∃ words, Spaced blank words text := by
  induction text with
  | nil => exact ⟨[], .blanks (by simp)⟩
  | cons first text ih =>
    obtain ⟨spelled, hspaced⟩ := ih
    cases hfirst : blank first with
    | true => exact ⟨spelled, hspaced.cons_blank hfirst⟩
    | false => exact hspaced.cons_mark hfirst

/-- A text has its words and no others. -/
theorem words_eq_iff {spelled : List (List α)} {text : List α} :
    words blank text = spelled ↔ Spaced blank spelled text := by
  constructor
  · rintro rfl
    obtain ⟨spelled, hspaced⟩ := exists_spaced blank text
    rwa [hspaced.words_eq]
  · exact Spaced.words_eq

end systemdetection
