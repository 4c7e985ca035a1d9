import SystemDetection.Store.Cells

namespace store

variable {β : Type}

/-- Values required at offsets from a start. -/
abbrev Footprint (β : Type) := List (Nat × β)

def Footprint.Meets (footprint : Footprint β) (memory : Store β) (start : Nat) : Prop :=
  ∀ cell ∈ footprint, memory (start + cell.1) = cell.2

/-- Consecutive values from an offset on. -/
def laid (offset : Nat) (values : List β) : Footprint β :=
  values.zipIdx.map fun (value, index) => (offset + index, value)

/-- The cells laid at an offset are the values in their order. -/
theorem mem_laid_iff {offset position : Nat} {values : List β} {value : β} :
    (position, value) ∈ laid offset values ↔
      ∃ index, ∃ hindex : index < values.length, position = offset + index ∧ value = values[index] := by
  simp only [laid, List.mem_map, List.mem_zipIdx_iff_getElem?, Prod.mk.injEq, Prod.exists,
    List.getElem?_eq_some_iff]
  constructor
  · rintro ⟨_, index, ⟨hindex, hheld⟩, hposition, hvalue⟩
    exact ⟨index, hindex, hposition.symm, hvalue.symm.trans hheld.symm⟩
  · rintro ⟨index, hindex, rfl, rfl⟩
    exact ⟨_, index, ⟨hindex, rfl⟩, rfl, rfl⟩

/-- They are met where memory holds the values. -/
theorem laid_meets_iff {offset start : Nat} {values : List β} {memory : Store β} :
    (laid offset values).Meets memory start ↔
      memory.read (start + offset) values.length = values := by
  rw [Store.read_eq_iff]
  constructor
  · intro hmeets
    refine ⟨rfl, fun index hindex => ?_⟩
    rw [Nat.add_assoc]
    exact hmeets _ (mem_laid_iff.mpr ⟨index, hindex, rfl, rfl⟩)
  · rintro ⟨_, hcells⟩ ⟨position, value⟩ hcell
    obtain ⟨index, hindex, rfl, rfl⟩ := mem_laid_iff.mp hcell
    rw [← Nat.add_assoc]
    exact hcells index hindex

/-- A recipe: bytes that identify a place, and a target range beside them that
holds its values before or after the replacement. -/
structure Template (β : Type) where
  cells : Footprint β
  offset : Nat
  before : List β
  after : List β
  same_length : after.length = before.length
  apart : ∀ cell ∈ cells, cell.1 < offset ∨ offset + before.length ≤ cell.1

def Template.original (template : Template β) : Footprint β :=
  template.cells ++ laid template.offset template.before

def Template.patched (template : Template β) : Footprint β :=
  template.cells ++ laid template.offset template.after

/-- The identifying cells are there and the target holds either value. -/
def Template.Stands (template : Template β) (memory : Store β) (start : Nat) : Prop :=
  template.original.Meets memory start ∨ template.patched.Meets memory start

/-- Replaces the target of the place at `start`. -/
def Template.stamp (template : Template β) (memory : Store β) (start : Nat) : Store β :=
  memory.write (start + template.offset) template.after

theorem Template.original_meets_iff {template : Template β} {memory : Store β} {start : Nat} :
    template.original.Meets memory start ↔ template.cells.Meets memory start ∧
      memory.read (start + template.offset) template.before.length = template.before := by
  rw [← laid_meets_iff]
  simp only [Template.original, Footprint.Meets, List.mem_append, or_imp, forall_and]

theorem Template.patched_meets_iff {template : Template β} {memory : Store β} {start : Nat} :
    template.patched.Meets memory start ↔ template.cells.Meets memory start ∧
      memory.read (start + template.offset) template.before.length = template.after := by
  rw [← template.same_length, ← laid_meets_iff]
  simp only [Template.patched, Footprint.Meets, List.mem_append, or_imp, forall_and]

theorem Template.stands_iff {template : Template β} {memory : Store β} {start : Nat} :
    template.Stands memory start ↔ template.cells.Meets memory start ∧
      (memory.read (start + template.offset) template.before.length = template.before ∨
        memory.read (start + template.offset) template.before.length = template.after) := by
  rw [Template.Stands, Template.original_meets_iff, Template.patched_meets_iff, and_or_left]

/-- The identifying cells lie beside the target, so a stamp leaves them alone. -/
theorem Template.cells_stamp {template : Template β} {memory : Store β} {start : Nat} :
    template.cells.Meets (template.stamp memory start) start ↔ template.cells.Meets memory start := by
  refine forall₂_congr fun cell hcell => ?_
  have hapart := template.apart cell hcell
  rw [Template.stamp, Store.write_outside memory (by rw [template.same_length]; omega)]

/-- A template that stands is patched by its stamp. -/
theorem Template.patched_stamp {template : Template β} {memory : Store β} {start : Nat}
    (hstands : template.Stands memory start) :
    template.patched.Meets (template.stamp memory start) start := by
  rw [Template.patched_meets_iff, Template.cells_stamp]
  refine ⟨(Template.stands_iff.mp hstands).1, ?_⟩
  rw [← template.same_length]
  exact Store.read_write_self _ _ _

/-- A stamp changes only the positions at which its values differ. -/
theorem Template.stamp_apply {template : Template β} {memory : Store β} {start position : Nat}
    (horiginal : template.original.Meets memory start)
    (hunchanged : ∀ index < template.before.length, position = start + template.offset + index →
      template.before[index]? = template.after[index]?) :
    template.stamp memory start position = memory position := by
  by_cases hin : start + template.offset ≤ position ∧
    position - (start + template.offset) < template.after.length
  · obtain ⟨hlo, hhi⟩ := hin
    rw [Template.stamp, Store.write_inside memory hlo hhi]
    have hindex := hhi
    rw [template.same_length] at hindex
    have hsame := hunchanged _ hindex (by omega)
    obtain ⟨_, hcells⟩ := Store.read_eq_iff.mp (Template.original_meets_iff.mp horiginal).2
    have hheld := hcells _ hindex
    rw [Nat.add_sub_cancel' hlo] at hheld
    rw [List.getElem?_eq_getElem hindex, List.getElem?_eq_getElem hhi, Option.some.injEq] at hsame
    rw [hheld, hsame]
  · rw [Template.stamp, Store.write_outside memory (by omega)]

theorem Template.stamp_of_patched {template : Template β} {memory : Store β} {start : Nat}
    (hpatched : template.patched.Meets memory start) : template.stamp memory start = memory := by
  apply Store.write_of_read
  rw [template.same_length]
  exact (Template.patched_meets_iff.mp hpatched).2

/-- Both states of a template constrain the same positions. -/
theorem Template.mem_original_of_patched {template : Template β} {cell : Nat × β}
    (hcell : cell ∈ template.patched) : ∃ value, (cell.1, value) ∈ template.original := by
  obtain hcell | hcell := List.mem_append.mp hcell
  · exact ⟨cell.2, List.mem_append_left _ hcell⟩
  · obtain ⟨index, hindex, hposition, _⟩ := mem_laid_iff.mp hcell
    rw [template.same_length] at hindex
    exact ⟨template.before[index], List.mem_append_right _
      (mem_laid_iff.mpr ⟨index, hindex, hposition, rfl⟩)⟩

section Harmless

variable [DecidableEq β]

/-- Some position that both footprints determine gets two values, when offset
`i` of the left one falls on offset `j` of the right one. -/
def clash (left right : Footprint β) (i j : Nat) : Bool :=
  left.any fun first => right.any fun second =>
    decide (first.1 + j = second.1 + i) && decide (first.2 ≠ second.2)

/-- Footprints that clash at an alignment do not both stand there. -/
theorem clash_absurd {left right : Footprint β} {i j a b : Nat} {memory : Store β}
    (hclash : clash left right i j = true) (halign : a + i = b + j) (hleft : left.Meets memory a)
    (hright : right.Meets memory b) : False := by
  simp only [clash, List.any_eq_true, Bool.and_eq_true, decide_eq_true_eq] at hclash
  obtain ⟨first, hfirst, second, hsecond, hposition, hdiffers⟩ := hclash
  apply hdiffers
  rw [← hleft first hfirst, ← hright second hsecond]
  congr 1
  omega

/-- A stamp of `self` can neither make nor break a place of `other`. Wherever a
value that it changes falls on a cell of `other`, the two cannot both stand,
before or after, or they are the same replacement of the same target. -/
def Template.harmless (self other : Template β) : Bool :=
  (List.range self.before.length).all fun index =>
    decide (self.before[index]? = self.after[index]?) ||
    other.original.all fun cell =>
      (decide (cell.1 = other.offset + index) && decide (self.before = other.before)
        && decide (self.after = other.after)) ||
      (clash self.original other.original (self.offset + index) cell.1
        && clash self.original other.patched (self.offset + index) cell.1
        && clash self.patched other.original (self.offset + index) cell.1
        && clash self.patched other.patched (self.offset + index) cell.1)

/-- Where no changed value falls on a cell, the whole template looks the same. -/
theorem Template.stamp_unseen {self : Template β} (other : Template β) {memory : Store β} {x : Nat}
    (y : Nat) (horiginal : self.original.Meets memory x)
    (hunseen : ∀ index < self.before.length, self.before[index]? ≠ self.after[index]? →
      ∀ cell ∈ other.original, y + cell.1 ≠ x + self.offset + index) :
    (other.original.Meets (self.stamp memory x) y ↔ other.original.Meets memory y) ∧
      (other.patched.Meets (self.stamp memory x) y ↔ other.patched.Meets memory y) := by
  have hsame : ∀ cell ∈ other.original, self.stamp memory x (y + cell.1) = memory (y + cell.1) := by
    intro cell hcell
    apply Template.stamp_apply horiginal
    intro index hindex hposition
    by_contra hchanged
    exact hunseen index hindex hchanged cell hcell hposition
  constructor
  · refine forall₂_congr fun cell hcell => ?_
    rw [hsame cell hcell]
  · refine forall₂_congr fun cell hcell => ?_
    obtain ⟨value, horiginalCell⟩ := Template.mem_original_of_patched hcell
    rw [hsame _ horiginalCell]

/-- One stamp of a harmless template keeps every place of the other one, and
keeps it patched where it was. -/
theorem Template.harmless_stamp {self other : Template β} (hharmless : self.harmless other = true)
    {memory : Store β} {x : Nat} (hstands : self.Stands memory x) (y : Nat) :
    (other.Stands (self.stamp memory x) y ↔ other.Stands memory y) ∧
      (other.patched.Meets memory y → other.patched.Meets (self.stamp memory x) y) := by
  obtain horiginal | hpatched := hstands
  · by_cases hseen : ∃ index < self.before.length, self.before[index]? ≠ self.after[index]? ∧
      ∃ cell ∈ other.original, y + cell.1 = x + self.offset + index
    · obtain ⟨index, hindex, hchanged, cell, hcell, hposition⟩ := hseen
      have hcheck := List.all_eq_true.mp hharmless index (List.mem_range.mpr hindex)
      simp only [hchanged, decide_false, Bool.false_or, List.all_eq_true, Bool.or_eq_true,
        Bool.and_eq_true, decide_eq_true_eq] at hcheck
      have halign : x + (self.offset + index) = y + cell.1 := by omega
      have hpatched := Template.patched_stamp (.inl horiginal)
      obtain ⟨⟨htarget, hbefore⟩, hafter⟩ | ⟨⟨⟨hoo, hop⟩, hpo⟩, hpp⟩ := hcheck cell hcell
      · -- The two targets coincide, and the stamp is the replacement of `other` too.
        have hstamp : self.stamp memory x = other.stamp memory y := by
          rw [Template.stamp, Template.stamp, hafter]
          congr 1
          omega
        have hheld : memory.read (y + other.offset) other.before.length = other.before := by
          have h := (Template.original_meets_iff.mp horiginal).2
          rw [hbefore] at h
          convert h using 2
          omega
        have hiff : other.Stands (self.stamp memory x) y ↔ other.Stands memory y := by
          rw [hstamp]
          constructor
          · intro hstands
            rw [Template.stands_iff, Template.cells_stamp] at hstands
            exact Template.stands_iff.mpr ⟨hstands.1, .inl hheld⟩
          · intro hstands
            exact .inr (Template.patched_stamp hstands)
        refine ⟨hiff, fun hother => ?_⟩
        rw [hstamp]
        exact Template.patched_stamp (.inr hother)
      · refine ⟨iff_of_false ?_ ?_, fun hother => (clash_absurd hop halign horiginal hother).elim⟩
        · rintro (hother | hother)
          · exact clash_absurd hpo halign hpatched hother
          · exact clash_absurd hpp halign hpatched hother
        · rintro (hother | hother)
          · exact clash_absurd hoo halign horiginal hother
          · exact clash_absurd hop halign horiginal hother
    · have hunseen := Template.stamp_unseen other y horiginal
        fun index hindex hchanged cell hcell hposition =>
          hseen ⟨index, hindex, hchanged, cell, hcell, hposition⟩
      exact ⟨or_congr hunseen.1 hunseen.2, hunseen.2.mpr⟩
  · rw [Template.stamp_of_patched hpatched]
    exact ⟨Iff.rfl, id⟩

end Harmless

end store
