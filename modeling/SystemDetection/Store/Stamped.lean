import SystemDetection.Store.Guards

namespace store

variable {β : Type}

/-- The second store is the first one after replacements at permitted places that
stood in it. -/
def StampedBy (permitted : Placement β → Prop) (origin memory : Store β) : Prop :=
  ∃ placements, (∀ placement ∈ placements, permitted placement ∧ placement.Stands origin) ∧
    memory = stamp_all placements origin

variable {permitted : Placement β → Prop} {origin memory : Store β}

theorem StampedBy.refl (permitted : Placement β → Prop) (memory : Store β) :
    StampedBy permitted memory memory :=
  ⟨[], by simp, rfl⟩

theorem StampedBy.mono {loose : Placement β → Prop} (hstamped : StampedBy permitted origin memory)
    (hweaken : ∀ placement, permitted placement → loose placement) : StampedBy loose origin memory := by
  obtain ⟨placements, hplacements, hmemory⟩ := hstamped
  exact ⟨placements, fun placement hmem => ⟨hweaken placement (hplacements placement hmem).1,
    (hplacements placement hmem).2⟩, hmemory⟩

/-- One more replacement at a place that stood in the first store. -/
theorem StampedBy.stamp {placement : Placement β} (hstamped : StampedBy permitted origin memory)
    (hpermitted : permitted placement) (hstands : placement.Stands origin) :
    StampedBy permitted origin (memory.write placement.target placement.template.after) := by
  obtain ⟨placements, hplacements, rfl⟩ := hstamped
  refine ⟨placements ++ [placement], ?_, ?_⟩
  · rw [List.forall_mem_append, List.forall_mem_singleton]
    exact ⟨hplacements, hpermitted, hstands⟩
  · rw [stamp_all_append, stamp_all_cons, stamp_all_nil, Template.stamp, Placement.target]

/-- The place holds its old values. -/
def Placement.Original (placement : Placement β) (memory : Store β) : Prop :=
  placement.template.original.Meets memory placement.start

/-- Two placements that replace the same values of one target. -/
def Placement.Same (left right : Placement β) : Prop :=
  left.target = right.target ∧ left.template.before = right.template.before ∧
    left.template.after = right.template.after

theorem Placement.Same.covers {left right : Placement β} (hsame : left.Same right) {position : Nat} :
    left.Covers position ↔ right.Covers position := by
  rw [Placement.Covers, Placement.Covers, hsame.1, hsame.2.1]

variable [DecidableEq β]

instance (left right : Placement β) : Decidable (left.Same right) :=
  inferInstanceAs (Decidable (_ ∧ _))

section Independent

variable {family : List (Template β)} (hfamily : independent family = true)
  (hmembers : ∀ placement, permitted placement → placement.template ∈ family)
include hfamily hmembers

/-- Replacements make no place of the family and break none. -/
theorem StampedBy.stands_iff (hstamped : StampedBy permitted origin memory) {template : Template β}
    (htemplate : template ∈ family) (start : Nat) :
    template.Stands memory start ↔ template.Stands origin start := by
  obtain ⟨placements, hplacements, rfl⟩ := hstamped
  exact (stamp_all_stands hfamily (fun placement hmem => hmembers placement (hplacements placement hmem).1)
    (fun placement hmem => (hplacements placement hmem).2) htemplate start).1

/-- A place that was patched stays so. -/
theorem StampedBy.patched (hstamped : StampedBy permitted origin memory) {template : Template β}
    (htemplate : template ∈ family) {start : Nat} (hpatched : template.patched.Meets origin start) :
    template.patched.Meets memory start := by
  obtain ⟨placements, hplacements, rfl⟩ := hstamped
  exact (stamp_all_stands hfamily (fun placement hmem => hmembers placement (hplacements placement hmem).1)
    (fun placement hmem => (hplacements placement hmem).2) htemplate start).2 hpatched

/-- Stamps on stamps are stamps. -/
theorem StampedBy.trans {middle : Store β} (hfirst : StampedBy permitted origin middle)
    (hsecond : StampedBy permitted middle memory) : StampedBy permitted origin memory := by
  have hkept := fun placement (hpermitted : permitted placement) =>
    hfirst.stands_iff hfamily hmembers (hmembers placement hpermitted) placement.start
  obtain ⟨early, hearly, rfl⟩ := hfirst
  obtain ⟨late, hlate, rfl⟩ := hsecond
  refine ⟨early ++ late, ?_, (stamp_all_append early late origin).symm⟩
  rw [List.forall_mem_append]
  refine ⟨hearly, fun placement hmem => ?_⟩
  obtain ⟨hpermitted, hstands⟩ := hlate placement hmem
  exact ⟨hpermitted, (hkept placement hpermitted).mp hstands⟩

/-- A value that changed lies in the target of a place whose values were the old
ones and are the new ones now, all of them. -/
theorem StampedBy.changed (hstamped : StampedBy permitted origin memory) {position : Nat}
    (hchanged : memory position ≠ origin position) :
    ∃ placement, permitted placement ∧ placement.Covers position ∧
      placement.Original origin ∧ placement.Patched memory := by
  obtain ⟨placements, hplacements, rfl⟩ := hstamped
  have hfamilyOf := fun placement hmem => hmembers placement (hplacements placement hmem).1
  have hstands := fun placement hmem => (hplacements placement hmem).2
  obtain ⟨placement, hmem, horiginal, index, hindex, rfl, _⟩ :=
    stamp_all_changed hfamily hfamilyOf hstands hchanged
  exact ⟨placement, (hplacements placement hmem).1, ⟨Nat.le_add_right _ _, by omega⟩, horiginal,
    stamp_all_patched hfamily hfamilyOf hstands placement hmem⟩

/-- Putting back the old values of a place that held them in the first store
leaves the replacements at the other targets. -/
theorem stamp_all_unstamp (hrewrites : ∀ template ∈ family, template.Rewrites)
    {placements : List (Placement β)}
    (hplacements : ∀ placement ∈ placements, permitted placement ∧ placement.Stands origin)
    {placement : Placement β} (htemplate : placement.template ∈ family)
    (horiginal : placement.Original origin) :
    (stamp_all placements origin).write placement.target placement.template.before =
      stamp_all (placements.filter fun other => ¬ other.Same placement) origin := by
  have hfamilyOf := fun other hmem => hmembers other (hplacements other hmem).1
  have hstands := fun other hmem => (hplacements other hmem).2
  have hkept : ∀ other ∈ placements.filter fun other => ¬ other.Same placement,
      other ∈ placements ∧ ¬ other.Same placement := by
    intro other hmem
    simpa using hmem
  have hpatched := stamp_all_patched hfamily hfamilyOf hstands
  have hpatched' := stamp_all_patched hfamily (fun other hmem => hfamilyOf other (hkept other hmem).1)
    (fun other hmem => hstands other (hkept other hmem).1)
  funext position
  by_cases hcovers : placement.Covers position
  · -- no place but this one and its doubles reaches the position
    have huncovered : ∀ other ∈ placements.filter fun other => ¬ other.Same placement,
        ¬ other.Covers position := by
      intro other hmem hother
      obtain ⟨hin, hnot⟩ := hkept other hmem
      have hharmless := harmless_of_independent hfamily (hfamilyOf other hin) htemplate
      exact hnot (Placement.apart_or_same (hrewrites _ (hfamilyOf other hin)) hharmless
        (hstands other hin) (.inl horiginal) hother hcovers)
    obtain ⟨hlo, hhi⟩ := hcovers
    have hindex : position - placement.target < placement.template.before.length := by omega
    obtain ⟨_, hcells⟩ := Store.read_eq_iff.mp (Template.original_meets_iff.mp horiginal).2
    have hheld := hcells _ hindex
    change origin (placement.target + _) = _ at hheld
    rw [Nat.add_sub_cancel' hlo] at hheld
    rw [stamp_all_uncovered _ huncovered, Store.write_inside _ hlo hindex, hheld]
  · have houtside : position < placement.target ∨
        placement.target + placement.template.before.length ≤ position := by
      simp only [Placement.Covers, not_and, Nat.not_lt] at hcovers
      omega
    rw [Store.write_outside _ houtside]
    by_cases hother : ∃ other ∈ placements, other.Covers position
    · obtain ⟨other, hin, hreaches⟩ := hother
      have hmem : other ∈ placements.filter fun other => ¬ other.Same placement := by
        simp only [List.mem_filter, decide_eq_true_eq]
        exact ⟨hin, fun hsame => hcovers (hsame.covers.mp hreaches)⟩
      exact (hpatched other hin).agree (hpatched' other hmem) hreaches
    · rw [stamp_all_uncovered _ fun other hmem hreaches => hother ⟨other, hmem, hreaches⟩,
        stamp_all_uncovered _ fun other hmem hreaches => hother ⟨other, (hkept other hmem).1, hreaches⟩]

/-- Taking a stamp back leaves the memory stamped. -/
theorem StampedBy.unstamp (hrewrites : ∀ template ∈ family, template.Rewrites)
    (hstamped : StampedBy permitted origin memory) {placement : Placement β}
    (htemplate : placement.template ∈ family)
    (horiginal : placement.Original origin) :
    StampedBy permitted origin (memory.write placement.target placement.template.before) := by
  obtain ⟨placements, hplacements, rfl⟩ := hstamped
  refine ⟨placements.filter fun other => ¬ other.Same placement,
    fun other hmem => hplacements other (List.mem_of_mem_filter hmem), ?_⟩
  exact stamp_all_unstamp hfamily hmembers hrewrites hplacements htemplate horiginal

end Independent

end store
