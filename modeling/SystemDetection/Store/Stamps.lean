import SystemDetection.Store.Template

namespace store

variable {β : Type}

/-- A template at one of its places. -/
structure Placement (β : Type) where
  template : Template β
  start : Nat

def Placement.Stands (placement : Placement β) (memory : Store β) : Prop :=
  placement.template.Stands memory placement.start

def Placement.Patched (placement : Placement β) (memory : Store β) : Prop :=
  placement.template.patched.Meets memory placement.start

def Placement.target (placement : Placement β) : Nat := placement.start + placement.template.offset

/-- The positions of the target. -/
def Placement.Covers (placement : Placement β) (position : Nat) : Prop :=
  placement.target ≤ position ∧ position < placement.target + placement.template.before.length

/-- Stamps the placements one after another. -/
def stamp_all (placements : List (Placement β)) (memory : Store β) : Store β :=
  placements.foldl (fun memory placement => placement.template.stamp memory placement.start) memory

@[simp] theorem stamp_all_nil (memory : Store β) : stamp_all [] memory = memory := rfl

@[simp] theorem stamp_all_cons (placement : Placement β) (placements : List (Placement β))
    (memory : Store β) :
    stamp_all (placement :: placements) memory =
      stamp_all placements (placement.template.stamp memory placement.start) := rfl

theorem stamp_all_append (first second : List (Placement β)) (memory : Store β) :
    stamp_all (first ++ second) memory = stamp_all second (stamp_all first memory) :=
  List.foldl_append

theorem Placement.read_of_patched {placement : Placement β} {memory : Store β}
    (hpatched : placement.Patched memory) :
    memory.read placement.target placement.template.before.length = placement.template.after :=
  (Template.patched_meets_iff.mp hpatched).2

/-- Two stores in which a placement is patched agree on its target. -/
theorem Placement.Patched.agree {placement : Placement β} {left right : Store β}
    (hleft : placement.Patched left) (hright : placement.Patched right) {position : Nat}
    (hcovers : placement.Covers position) : left position = right position := by
  obtain ⟨hlo, hhi⟩ := hcovers
  obtain ⟨hlength, hleftCells⟩ := Store.read_eq_iff.mp (Placement.read_of_patched hleft)
  obtain ⟨_, hrightCells⟩ := Store.read_eq_iff.mp (Placement.read_of_patched hright)
  have hindex : position - placement.target < placement.template.after.length := by omega
  have h := (hleftCells _ hindex).trans (hrightCells _ hindex).symm
  rwa [Nat.add_sub_cancel' hlo] at h

/-- Stamps change nothing that none of them covers. -/
theorem stamp_all_uncovered (placements : List (Placement β)) {memory : Store β} {position : Nat}
    (huncovered : ∀ placement ∈ placements, ¬ placement.Covers position) :
    stamp_all placements memory position = memory position := by
  induction placements generalizing memory with
  | nil => rfl
  | cons placement rest ih =>
    rw [List.forall_mem_cons] at huncovered
    rw [stamp_all_cons, ih huncovered.2]
    have hfirst := huncovered.1
    simp only [Placement.Covers, Placement.target, not_and, Nat.not_lt] at hfirst
    apply Store.write_outside
    rw [placement.template.same_length]
    omega

variable [DecidableEq β]

/-- No template of the family can make or break a place of another one. -/
def independent (family : List (Template β)) : Bool :=
  family.all fun self => family.all fun other => self.harmless other

theorem harmless_of_independent {family : List (Template β)} (hfamily : independent family = true)
    {self other : Template β} (hself : self ∈ family) (hother : other ∈ family) :
    self.harmless other = true :=
  List.all_eq_true.mp (List.all_eq_true.mp hfamily self hself) other hother

section Independent

variable {family : List (Template β)} (hfamily : independent family = true)
  {placements : List (Placement β)} (hmembers : ∀ placement ∈ placements, placement.template ∈ family)
include hfamily hmembers

/-- Stamping any places of an independent family, in any order, keeps the
places of every template of the family, and keeps the patched ones patched. -/
theorem stamp_all_stands {memory : Store β}
    (hstands : ∀ placement ∈ placements, placement.Stands memory) {other : Template β}
    (hother : other ∈ family) (y : Nat) :
    (other.Stands (stamp_all placements memory) y ↔ other.Stands memory y) ∧
      (other.patched.Meets memory y → other.patched.Meets (stamp_all placements memory) y) := by
  induction placements generalizing memory with
  | nil => exact ⟨Iff.rfl, id⟩
  | cons placement rest ih =>
    rw [List.forall_mem_cons] at hmembers hstands
    have hfirst := fun template (htemplate : template ∈ family) =>
      Template.harmless_stamp (harmless_of_independent hfamily hmembers.1 htemplate) hstands.1
    have hrest : ∀ later ∈ rest,
        later.Stands (placement.template.stamp memory placement.start) := fun later hlater =>
      (hfirst _ (hmembers.2 later hlater) later.start).1.mpr (hstands.2 later hlater)
    obtain ⟨hiff, hkeeps⟩ := ih hmembers.2 hrest
    obtain ⟨hiffFirst, hkeepsFirst⟩ := hfirst other hother y
    exact ⟨hiff.trans hiffFirst, fun hpatched => hkeeps (hkeepsFirst hpatched)⟩

/-- In the end every stamped place is patched: no later stamp undoes an earlier one. -/
theorem stamp_all_patched {memory : Store β}
    (hstands : ∀ placement ∈ placements, placement.Stands memory) :
    ∀ placement ∈ placements, placement.Patched (stamp_all placements memory) := by
  induction placements generalizing memory with
  | nil => simp
  | cons placement rest ih =>
    rw [List.forall_mem_cons] at hmembers hstands
    have hrest : ∀ later ∈ rest,
        later.Stands (placement.template.stamp memory placement.start) := fun later hlater =>
      (Template.harmless_stamp (harmless_of_independent hfamily hmembers.1 (hmembers.2 later hlater))
        hstands.1 later.start).1.mpr (hstands.2 later hlater)
    rw [List.forall_mem_cons]
    refine ⟨?_, ih hmembers.2 hrest⟩
    exact (stamp_all_stands hfamily hmembers.2 hrest hmembers.1 placement.start).2
      (Template.patched_stamp hstands.1)

/-- The result depends on which places are stamped, not on their order. -/
theorem stamp_all_congr {memory : Store β}
    (hstands : ∀ placement ∈ placements, placement.Stands memory) {others : List (Placement β)}
    (hsame : ∀ placement, placement ∈ others ↔ placement ∈ placements) :
    stamp_all others memory = stamp_all placements memory := by
  funext position
  have hothers := stamp_all_patched hfamily (fun placement hmem => hmembers placement ((hsame _).mp hmem))
    (fun placement hmem => hstands placement ((hsame _).mp hmem))
  by_cases hcovered : ∃ placement ∈ placements, placement.Covers position
  · obtain ⟨placement, hmem, hcovers⟩ := hcovered
    exact (hothers placement ((hsame _).mpr hmem)).agree
      (stamp_all_patched hfamily hmembers hstands placement hmem) hcovers
  · rw [stamp_all_uncovered placements fun placement hmem hcovers => hcovered ⟨placement, hmem, hcovers⟩,
      stamp_all_uncovered others fun placement hmem hcovers =>
        hcovered ⟨placement, (hsame _).mp hmem, hcovers⟩]

end Independent

end store
