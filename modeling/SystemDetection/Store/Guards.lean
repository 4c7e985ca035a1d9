import SystemDetection.Store.Stamps

namespace store

variable {β : Type}

/-- The target of the place at `start` holds either of its values. -/
def Template.Guarded (template : Template β) (memory : Store β) (start : Nat) : Prop :=
  memory.read (start + template.offset) template.before.length = template.before ∨
    memory.read (start + template.offset) template.before.length = template.after

/-- Where the cells stand in the snapshot, the target is guarded in memory
exactly when it was guarded in the snapshot. -/
def Template.KeepsGuards (template : Template β) (snapshot memory : Store β) : Prop :=
  ∀ start, template.cells.Meets snapshot start →
    (template.Guarded memory start ↔ template.Guarded snapshot start)

theorem Template.KeepsGuards.refl (template : Template β) (memory : Store β) :
    template.KeepsGuards memory memory :=
  fun _ _ => Iff.rfl

/-- The values of the target are new at every position. -/
def Template.Rewrites (template : Template β) : Prop :=
  ∀ index < template.before.length, template.before[index]? ≠ template.after[index]?

instance (template : Template β) [DecidableEq β] : Decidable template.Rewrites :=
  inferInstanceAs (Decidable (∀ index < template.before.length, _))

variable [DecidableEq β]

/-- A stamp of `self` can neither forge nor spoil the guard of a place whose
cells were there before it. Wherever a value that it changes falls on a target
of `other`, the old values contradict the cells of `other`, the new values
contradict both values of the target, or it is the same replacement. -/
def Template.cannot_forge (self other : Template β) : Bool :=
  (List.range self.before.length).all fun index =>
    decide (self.before[index]? = self.after[index]?) ||
    (List.range other.before.length).all fun position =>
      (decide (index = position) && decide (self.before = other.before)
        && decide (self.after = other.after)) ||
      clash self.original other.cells (self.offset + index) (other.offset + position) ||
      (clash self.patched (laid other.offset other.before) (self.offset + index) (other.offset + position)
        && clash self.patched (laid other.offset other.after) (self.offset + index)
          (other.offset + position))

/-- The guard of `other` is as it was when its cells, which stood before, fall
on a changed position. -/
theorem Template.not_forged {self other : Template β} (hforge : self.cannot_forge other = true)
    {memory memory' : Store β} {x y index position : Nat} (horiginal : self.original.Meets memory x)
    (hpatched : self.patched.Meets memory' x) (hcells : other.cells.Meets memory y)
    (hguarded : other.Guarded memory' y) (hindex : index < self.before.length)
    (hchanged : self.before[index]? ≠ self.after[index]?) (hposition : position < other.before.length)
    (halign : x + self.offset + index = y + other.offset + position) : other.Guarded memory y := by
  have hcheck := List.all_eq_true.mp hforge index (List.mem_range.mpr hindex)
  simp only [hchanged, decide_false, Bool.false_or, List.all_eq_true] at hcheck
  have hcheck := hcheck position (List.mem_range.mpr hposition)
  simp only [Bool.or_eq_true, Bool.and_eq_true, decide_eq_true_eq] at hcheck
  have halign : x + (self.offset + index) = y + (other.offset + position) := by omega
  obtain (⟨⟨rfl, hbefore⟩, _⟩ | hcontext) | ⟨hfirst, hsecond⟩ := hcheck
  · have hheld := (Template.original_meets_iff.mp horiginal).2
    have htarget : x + self.offset = y + other.offset := by omega
    rw [hbefore, htarget] at hheld
    exact .inl hheld
  · exact (clash_absurd hcontext halign horiginal hcells).elim
  · cases hguarded with
    | inl hheld => exact (clash_absurd hfirst halign hpatched (laid_meets_iff.mpr hheld)).elim
    | inr hheld =>
      rw [← other.same_length] at hheld
      exact (clash_absurd hsecond halign hpatched (laid_meets_iff.mpr hheld)).elim

/-- Where two standing places meet, they are one replacement of one target. -/
theorem Placement.apart_or_same {left right : Placement β} (hrewrites : left.template.Rewrites)
    (hharmless : left.template.harmless right.template = true) {memory : Store β}
    (hleft : left.Stands memory) (hright : right.Stands memory) {position : Nat}
    (hcovers : left.Covers position) (hcovers' : right.Covers position) :
    left.target = right.target ∧ left.template.before = right.template.before ∧
      left.template.after = right.template.after := by
  obtain ⟨hlo, hhi⟩ := hcovers
  obtain ⟨hlo', hhi'⟩ := hcovers'
  obtain ⟨index, rfl⟩ := Nat.exists_eq_add_of_le hlo
  obtain ⟨index', hindex'⟩ := Nat.exists_eq_add_of_le hlo'
  have hindex : index < left.template.before.length := by omega
  have hwithin : index' < right.template.before.length := by omega
  have hcell : (right.template.offset + index', right.template.before[index']) ∈ right.template.original :=
    List.mem_append_right _ (mem_laid_iff.mpr ⟨index', hwithin, rfl, rfl⟩)
  have hcheck := List.all_eq_true.mp hharmless index (List.mem_range.mpr hindex)
  simp only [hrewrites index hindex, decide_false, Bool.false_or, List.all_eq_true, Bool.or_eq_true,
    Bool.and_eq_true, decide_eq_true_eq] at hcheck
  have halign : left.start + (left.template.offset + index) =
      right.start + (right.template.offset + index') := by
    simp only [Placement.target] at hindex'
    omega
  obtain ⟨⟨htarget, hbefore⟩, hafter⟩ | ⟨⟨⟨hoo, hop⟩, hpo⟩, hpp⟩ := hcheck _ hcell
  · refine ⟨?_, hbefore, hafter⟩
    simp only [Placement.target]
    omega
  · cases hleft with
    | inl horiginal =>
      cases hright with
      | inl hother => exact (clash_absurd hoo halign horiginal hother).elim
      | inr hother => exact (clash_absurd hop halign horiginal hother).elim
    | inr hpatched =>
      cases hright with
      | inl hother => exact (clash_absurd hpo halign hpatched hother).elim
      | inr hother => exact (clash_absurd hpp halign hpatched hother).elim

section Independent

variable {family : List (Template β)} (hfamily : independent family = true)
  {placements : List (Placement β)} (hmembers : ∀ placement ∈ placements, placement.template ∈ family)
  {memory : Store β} (hstands : ∀ placement ∈ placements, placement.Stands memory)
include hfamily hmembers hstands

/-- A position that changed lies in a target that still held its old values. -/
theorem stamp_all_changed {position : Nat}
    (hchanged : stamp_all placements memory position ≠ memory position) :
    ∃ placement ∈ placements, placement.template.original.Meets memory placement.start ∧
      ∃ index < placement.template.before.length, position = placement.target + index ∧
        placement.template.before[index]? ≠ placement.template.after[index]? := by
  by_cases hcovered : ∃ placement ∈ placements, placement.Covers position
  · obtain ⟨placement, hmem, hcovers⟩ := hcovered
    have hafter := stamp_all_patched hfamily hmembers hstands placement hmem
    cases hstands placement hmem with
    | inl horiginal =>
      obtain ⟨hlo, hhi⟩ := hcovers
      obtain ⟨index, rfl⟩ := Nat.exists_eq_add_of_le hlo
      refine ⟨placement, hmem, horiginal, index, by omega, rfl, fun hsame => hchanged ?_⟩
      have hstamp : placement.template.stamp memory placement.start (placement.target + index) =
          memory (placement.target + index) := by
        apply Template.stamp_apply horiginal
        intro other hother hposition
        obtain rfl : index = other := by
          simp only [Placement.target] at hposition
          omega
        exact hsame
      have hpatched := Template.patched_stamp (.inl horiginal)
      rw [← hstamp]
      exact Placement.Patched.agree hafter hpatched ⟨hlo, hhi⟩
    | inr hpatched => exact absurd (hafter.agree hpatched hcovers) hchanged
  · exact absurd (stamp_all_uncovered placements fun placement hmem hcovers =>
      hcovered ⟨placement, hmem, hcovers⟩) hchanged

/-- After any stamps the guards at the places found in the snapshot tell what
they told before. -/
theorem stamp_all_keeps_guards
    (hforge : ∀ self ∈ family, ∀ other ∈ family, self.cannot_forge other = true) {other : Template β}
    (hother : other ∈ family) : other.KeepsGuards memory (stamp_all placements memory) := by
  intro start hcells
  constructor
  · intro hguarded
    by_cases hread : (stamp_all placements memory).read (start + other.offset) other.before.length =
        memory.read (start + other.offset) other.before.length
    · unfold Template.Guarded at hguarded
      rwa [hread] at hguarded
    · obtain ⟨position, hposition, hchanged⟩ : ∃ position < other.before.length,
          stamp_all placements memory (start + other.offset + position) ≠
            memory (start + other.offset + position) := by
        by_contra hnone
        refine hread (Store.read_congr fun position hlo hhi => ?_)
        by_contra hdiffers
        refine hnone ⟨position - (start + other.offset), by omega, ?_⟩
        rwa [Nat.add_sub_cancel' hlo]
      obtain ⟨placement, hmem, horiginal, index, hindex, halign, hnew⟩ :=
        stamp_all_changed hfamily hmembers hstands hchanged
      have hpatched := stamp_all_patched hfamily hmembers hstands placement hmem
      exact Template.not_forged (hforge _ (hmembers placement hmem) other hother) horiginal hpatched hcells
        hguarded hindex hnew hposition halign.symm
  · intro hguarded
    have hstill := (stamp_all_stands hfamily hmembers hstands hother start).1.mpr
      (Template.stands_iff.mpr ⟨hcells, hguarded⟩)
    exact (Template.stands_iff.mp hstill).2

end Independent

end store
