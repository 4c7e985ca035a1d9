import SystemDetection.Store.Cells

namespace store

/-- Replacement of a range of cells whose previous values are known. -/
structure Edit (β : Type) where
  address : Nat
  before : List β
  after : List β

variable {β : Type}

/-- The positions an edit replaces. -/
def Edit.Covers (edit : Edit β) (position : Nat) : Prop :=
  edit.address ≤ position ∧ position < edit.address + edit.before.length

instance (edit : Edit β) (position : Nat) : Decidable (edit.Covers position) :=
  inferInstanceAs (Decidable (_ ∧ _))

/-- Edits performed one after another, each finding its `before` values. The
ranges of different edits may repeat, nest or overlap. -/
inductive Applied : Store β → List (Edit β) → Store β → Prop where
  | nil (memory : Store β) : Applied memory [] memory
  | cons {memory result : Store β} {edit : Edit β} {edits : List (Edit β)}
      (hguard : memory.read edit.address edit.before.length = edit.before)
      (hlength : edit.after.length = edit.before.length)
      (htail : Applied (memory.write edit.address edit.after) edits result) :
      Applied memory (edit :: edits) result

/-- Writes the old values back, the last edit first. -/
def restore (edits : List (Edit β)) (memory : Store β) : Store β :=
  edits.foldr (fun edit memory => memory.write edit.address edit.before) memory

@[simp] theorem restore_nil (memory : Store β) : restore [] memory = memory := rfl

@[simp] theorem restore_cons (edit : Edit β) (edits : List (Edit β)) (memory : Store β) :
    restore (edit :: edits) memory = (restore edits memory).write edit.address edit.before := rfl

theorem restore_append (first second : List (Edit β)) (memory : Store β) :
    restore (first ++ second) memory = restore first (restore second memory) :=
  List.foldr_append

/-- Restoring from any store, not only from the one the edits produced, puts
back the original value of every covered position and touches nothing else. -/
theorem Applied.restore_apply {memory result : Store β} {edits : List (Edit β)}
    (hedits : Applied memory edits result) (start : Store β) (position : Nat) :
    restore edits start position =
      if ∃ edit ∈ edits, edit.Covers position then memory position else start position := by
  induction hedits with
  | nil memory => simp
  | @cons memory result edit edits hguard hlength _ ih =>
    rw [restore_cons]
    by_cases hcover : edit.Covers position
    · obtain ⟨_, hcells⟩ := Store.read_eq_iff.mp hguard
      obtain ⟨hlo, hhi⟩ := hcover
      have hin : position - edit.address < edit.before.length := by omega
      have hold : memory position = edit.before[position - edit.address] := by
        rw [← hcells _ hin, Nat.add_sub_cancel' hlo]
      rw [Store.write_inside _ hlo hin, if_pos ⟨edit, by simp, hlo, hhi⟩, hold]
    · have hout : position < edit.address ∨ edit.address + edit.before.length ≤ position := by
        simp only [Edit.Covers] at hcover
        omega
      rw [Store.write_outside _ hout, ih, Store.write_outside memory (by omega)]
      simp [hcover]

/-- Edits change nothing that none of them covers. -/
theorem Applied.apply_of_uncovered {memory result : Store β} {edits : List (Edit β)}
    (hedits : Applied memory edits result) {position : Nat}
    (hcover : ¬ ∃ edit ∈ edits, edit.Covers position) : result position = memory position := by
  induction hedits with
  | nil memory => rfl
  | @cons memory result edit edits _ hlength _ ih =>
    have hhead : ¬ edit.Covers position := fun h => hcover ⟨edit, by simp, h⟩
    have hrest : ¬ ∃ edit ∈ edits, edit.Covers position := by
      rintro ⟨other, hmem, h⟩
      exact hcover ⟨other, by simp [hmem], h⟩
    simp only [Edit.Covers] at hhead
    rw [ih hrest, Store.write_outside memory (by omega)]

/-- Restoring reaches the original store exactly when the store it starts from
already agrees with the edited one wherever no edit will be undone. -/
theorem Applied.restore_eq_iff {memory result : Store β} {edits : List (Edit β)}
    (hedits : Applied memory edits result) (start : Store β) :
    restore edits start = memory ↔
      ∀ position, (¬ ∃ edit ∈ edits, edit.Covers position) → start position = result position := by
  constructor
  · intro hrestore position hcover
    have h := hedits.restore_apply start position
    rw [hrestore, if_neg hcover] at h
    rw [← h, hedits.apply_of_uncovered hcover]
  · intro hagree
    funext position
    rw [hedits.restore_apply]
    split
    · rfl
    · rename_i hcover
      rw [hagree position hcover, hedits.apply_of_uncovered hcover]

end store
