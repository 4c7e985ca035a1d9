import Mathlib.Data.List.Basic

namespace store

variable {α : Type}

/-- A run of values with the index its first one belongs at. -/
structure Piece (α : Type) where
  start : Nat
  values : List α

namespace Piece

def Covers (piece : Piece α) (index : Nat) : Prop :=
  piece.start ≤ index ∧ index < piece.start + piece.values.length

def Fits (piece : Piece α) (buffer : List α) : Prop :=
  piece.start + piece.values.length ≤ buffer.length

/-- The buffer with the piece copied over what it had there. -/
def copy_to (buffer : List α) (piece : Piece α) : List α :=
  buffer.take piece.start ++ piece.values ++ buffer.drop (piece.start + piece.values.length)

theorem length_copy_to {piece : Piece α} {buffer : List α} (hfits : piece.Fits buffer) :
    (copy_to buffer piece).length = buffer.length := by
  have hbound : piece.start + piece.values.length ≤ buffer.length := hfits
  simp only [copy_to, List.length_append, List.length_take, List.length_drop]
  omega

theorem length_take_start {piece : Piece α} {buffer : List α} (hfits : piece.Fits buffer) :
    (buffer.take piece.start).length = piece.start := by
  have hbound : piece.start + piece.values.length ≤ buffer.length := hfits
  rw [List.length_take]
  omega

theorem copy_to_inside {piece : Piece α} {buffer : List α} (hfits : piece.Fits buffer) {index : Nat}
    (hindex : index < piece.values.length) :
    (copy_to buffer piece)[piece.start + index]? = piece.values[index]? := by
  have htake := length_take_start hfits
  rw [copy_to, List.append_assoc, List.getElem?_append_right (by omega), htake, Nat.add_sub_cancel_left,
    List.getElem?_append_left hindex]

/-- A copy changes nothing outside its piece. -/
theorem copy_to_outside {piece : Piece α} {buffer : List α} (hfits : piece.Fits buffer) {index : Nat}
    (hindex : ¬piece.Covers index) : (copy_to buffer piece)[index]? = buffer[index]? := by
  have htake := length_take_start hfits
  simp only [Covers, not_and, Nat.not_lt] at hindex
  rw [copy_to, List.append_assoc]
  by_cases hbefore : index < piece.start
  · rw [List.getElem?_append_left (by omega), List.getElem?_take_of_lt hbefore]
  · have hafter := hindex (by omega)
    rw [List.getElem?_append_right (by omega), htake, List.getElem?_append_right (by omega),
      List.getElem?_drop]
    congr 1
    omega

/-- The buffer after all pieces have been copied, first to last. -/
def copy_all (buffer : List α) (pieces : List (Piece α)) : List α := pieces.foldl copy_to buffer

/-- Copies keep the length of the buffer. -/
theorem length_copy_all {pieces : List (Piece α)} {buffer : List α}
    (hfits : ∀ piece ∈ pieces, piece.Fits buffer) : (copy_all buffer pieces).length = buffer.length := by
  induction pieces generalizing buffer with
  | nil => rfl
  | cons piece rest ih =>
    have hlength := length_copy_to (hfits piece List.mem_cons_self)
    change (copy_all (copy_to buffer piece) rest).length = buffer.length
    rw [← hlength]
    refine ih fun other hmem => ?_
    unfold Fits
    rw [hlength]
    exact hfits other (List.mem_cons_of_mem piece hmem)

/-- Copies change nothing outside their pieces. -/
theorem copy_all_outside {pieces : List (Piece α)} {buffer : List α}
    (hfits : ∀ piece ∈ pieces, piece.Fits buffer) {index : Nat}
    (hindex : ∀ piece ∈ pieces, ¬piece.Covers index) : (copy_all buffer pieces)[index]? = buffer[index]? := by
  induction pieces generalizing buffer with
  | nil => rfl
  | cons piece rest ih =>
    have hlength := length_copy_to (hfits piece List.mem_cons_self)
    change (copy_all (copy_to buffer piece) rest)[index]? = buffer[index]?
    rw [ih _ fun other hmem => hindex other (List.mem_cons_of_mem piece hmem)]
    · exact copy_to_outside (hfits piece List.mem_cons_self) (hindex piece List.mem_cons_self)
    · intro other hmem
      unfold Fits
      rw [hlength]
      exact hfits other (List.mem_cons_of_mem piece hmem)

/-- Pieces that share no index are all found in the buffer, in whatever order
they were copied. -/
theorem copy_all_inside {pieces : List (Piece α)} {buffer : List α}
    (hfits : ∀ piece ∈ pieces, piece.Fits buffer)
    (hapart : pieces.Pairwise fun left right => ∀ index, ¬(left.Covers index ∧ right.Covers index))
    {piece : Piece α} (hpiece : piece ∈ pieces) {index : Nat} (hindex : index < piece.values.length) :
    (copy_all buffer pieces)[piece.start + index]? = piece.values[index]? := by
  induction pieces generalizing buffer with
  | nil => cases hpiece
  | cons first rest ih =>
    obtain ⟨hfirst, hrest⟩ := List.pairwise_cons.mp hapart
    have hlength := length_copy_to (hfits first List.mem_cons_self)
    have hfits' : ∀ other ∈ rest, other.Fits (copy_to buffer first) := by
      intro other hmem
      unfold Fits
      rw [hlength]
      exact hfits other (List.mem_cons_of_mem first hmem)
    change (copy_all (copy_to buffer first) rest)[piece.start + index]? = piece.values[index]?
    obtain rfl | hmem := List.mem_cons.mp hpiece
    · have hcovers : piece.Covers (piece.start + index) := ⟨by omega, by omega⟩
      rw [copy_all_outside hfits' fun other hmem hother => hfirst other hmem _ ⟨hcovers, hother⟩]
      exact copy_to_inside (hfits piece List.mem_cons_self) hindex
    · exact ih hfits' hrest hmem

end Piece

end store
