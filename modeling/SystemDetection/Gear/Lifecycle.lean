import Mathlib.Data.List.Nodup
import SystemDetection.Gear.Discipline

namespace systemdetection.gear

/-- The object that the library hands out for a class. -/
def Heap.instance_of (heap : Heap) : GearClass → Option Nat
  | .GearHardware => heap.GEAR_HARDWARE
  | .GearScore => heap.GEAR_SCORE
  | .GearCPU => heap.GEAR_HARDWARE.bind fun hardware => (heap.fields hardware).m_cpu
  | .GearGraphics => heap.GEAR_HARDWARE.bind fun hardware => (heap.fields hardware).m_graphics

/-- How the heap and the caller's pointers follow from the past calls, as long
as those were sound. -/
structure Tracks (past : List Call) (heap : Heap) (held : List (GearClass × Nat)) : Prop where
  known : ∀ pointer ∈ held, heap.instance_of pointer.1 = some pointer.2
  below : ∀ class_name object, heap.instance_of class_name = some object → object < heap.created
  distinct : ∀ left right object, heap.instance_of left = some object →
    heap.instance_of right = some object → left = right
  handed_out : ∀ class_name, heap.instance_of class_name ≠ none ↔
    ∃ call ∈ past, call.hands_out = some class_name
  gone : ∀ class_name object, heap.instance_of class_name = some object →
    (object ∈ heap.released ↔ Gone class_name past)
  accounted : ∀ object ∈ heap.released, ∃ class_name, heap.instance_of class_name = some object
  nodup : heap.released.Nodup

/-- Before the first call nothing is held and nothing is gone. -/
theorem tracks_initial : Tracks [] .initial [] where
  known := by simp
  below class_name object hinstance := by cases class_name <;> cases hinstance
  distinct left right object hinstance := by cases left <;> cases hinstance
  handed_out class_name := by cases class_name <;> simp [Heap.instance_of, Heap.initial]
  gone class_name object hinstance := by cases class_name <;> cases hinstance
  accounted := by simp [Heap.initial]
  nodup := by simp [Heap.initial]

section Step

variable {heap : Heap} {call : Call} {class_name : GearClass}

/-- A request for an object that exists returns it and changes nothing. -/
theorem Call.run_existing (hhands : call.hands_out = some class_name) {object : Nat}
    (hreceiver : ∀ pointer, call.receiver = some pointer → heap.instance_of pointer.1 = some pointer.2)
    (hinstance : heap.instance_of class_name = some object) : call.run heap = (object, heap) := by
  cases call with
  | GetHardwareInstance =>
    cases hhands
    change heap.GEAR_HARDWARE = some object at hinstance
    simp [Call.run, gear.GetHardwareInstance, hinstance]
  | GetScoreInstance =>
    cases hhands
    change heap.GEAR_SCORE = some object at hinstance
    simp [Call.run, gear.GetScoreInstance, hinstance]
  | get_cpu self =>
    cases hhands
    have hself : heap.GEAR_HARDWARE = some self := hreceiver _ rfl
    simp only [Heap.instance_of, hself, Option.bind_some] at hinstance
    simp [Call.run, GearHardware.get_cpu, hinstance]
  | get_graphics self =>
    cases hhands
    have hself : heap.GEAR_HARDWARE = some self := hreceiver _ rfl
    simp only [Heap.instance_of, hself, Option.bind_some] at hinstance
    simp [Call.run, GearHardware.get_graphics, hinstance]
  | destructor => cases hhands

/-- A request for an object that does not exist creates it and nothing else. -/
theorem Call.run_fresh (hhands : call.hands_out = some class_name)
    (hreceiver : ∀ pointer, call.receiver = some pointer → heap.instance_of pointer.1 = some pointer.2)
    (hinstance : heap.instance_of class_name = none) :
    (call.run heap).1 = heap.created ∧ (call.run heap).2.created = heap.created + 1 ∧
      (call.run heap).2.released = heap.released ∧
      ∀ other, (call.run heap).2.instance_of other =
        if other = class_name then some heap.created else heap.instance_of other := by
  cases call with
  | GetHardwareInstance =>
    cases hhands
    change heap.GEAR_HARDWARE = none at hinstance
    simp only [Call.run, gear.GetHardwareInstance, hinstance]
    refine ⟨trivial, rfl, rfl, fun other => ?_⟩
    cases other <;> simp [Heap.instance_of, Heap.set_fields, Heap.create, GearHardware.new, hinstance]
  | GetScoreInstance =>
    cases hhands
    change heap.GEAR_SCORE = none at hinstance
    simp only [Call.run, gear.GetScoreInstance, hinstance]
    refine ⟨trivial, rfl, rfl, fun other => ?_⟩
    cases other <;> simp [Heap.instance_of, Heap.create]
  | get_cpu self =>
    cases hhands
    have hself : heap.GEAR_HARDWARE = some self := hreceiver _ rfl
    simp only [Heap.instance_of, hself, Option.bind_some] at hinstance
    simp only [Call.run, GearHardware.get_cpu, hinstance]
    refine ⟨trivial, rfl, rfl, fun other => ?_⟩
    cases other <;> simp [Heap.instance_of, Heap.set_fields, Heap.create, hself]
  | get_graphics self =>
    cases hhands
    have hself : heap.GEAR_HARDWARE = some self := hreceiver _ rfl
    simp only [Heap.instance_of, hself, Option.bind_some] at hinstance
    simp only [Call.run, GearHardware.get_graphics, hinstance]
    refine ⟨trivial, rfl, rfl, fun other => ?_⟩
    cases other <;> simp [Heap.instance_of, Heap.set_fields, Heap.create, hself]
  | destructor => cases hhands

/-- A destructor releases the objects of its classes and changes nothing else. -/
theorem Call.run_destructor {self : Nat} {flags : UInt8} (hself : heap.instance_of class_name = some self) :
    ((Call.destructor class_name self flags).run heap).2 = { heap with
      released := heap.released ++
        (Call.destructor class_name self flags).releases.filterMap heap.instance_of } := by
  cases class_name with
  | GearHardware =>
    have hinstances : heap.instance_of .GearCPU = (heap.fields self).m_cpu ∧
        heap.instance_of .GearGraphics = (heap.fields self).m_graphics := by
      change heap.GEAR_HARDWARE = some self at hself
      simp [Heap.instance_of, hself]
    cases hcpu : (heap.fields self).m_cpu <;> cases hgraphics : (heap.fields self).m_graphics <;>
      by_cases hflags : flags &&& 1 = 0 <;>
      simp [Call.run, GearHardware.destructor, Heap.release_field, Heap.release, Call.releases, hself,
        hinstances, hcpu, hgraphics, hflags]
  | GearScore | GearCPU | GearGraphics =>
    by_cases hflags : flags &&& 1 = 0 <;>
      simp [Call.run, GearScore.destructor, GearCPU.destructor, GearGraphics.destructor, release_self,
        Heap.release, Call.releases, hself, hflags]

end Step

theorem Call.of_hands_out {call : Call} {class_name : GearClass} (hhands : call.hands_out = some class_name)
    (held : List (GearClass × Nat)) (returned : Nat) :
    call.releases = [] ∧ call.held_after held returned = (class_name, returned) :: held := by
  cases call <;> cases hhands <;> exact ⟨rfl, rfl⟩

/-- No call releases an object twice. -/
theorem Call.releases_nodup (call : Call) : call.releases.Nodup := by
  cases call with
  | destructor class_name self flags =>
    cases class_name <;> by_cases hflags : flags &&& 1 = 0 <;> simp [Call.releases, hflags]
  | GetHardwareInstance | GetScoreInstance | get_cpu | get_graphics => exact List.nodup_nil

section Track

variable {past : List Call} {heap : Heap} {held : List (GearClass × Nat)} {call : Call}
  (htracks : Tracks past heap held)
include htracks

theorem Tracks.instance_of_gone {class_name : GearClass} (hgone : Gone class_name past) :
    ∃ object, heap.instance_of class_name = some object := by
  obtain ⟨before, release, after, rfl, _, earlier, hearlier, hhands⟩ := hgone
  exact Option.ne_none_iff_exists'.mp
    ((htracks.handed_out class_name).mpr ⟨earlier, by simp [hearlier], hhands⟩)

theorem Tracks.released_below {object : Nat} (hreleased : object ∈ heap.released) :
    object < heap.created := by
  obtain ⟨class_name, hinstance⟩ := htracks.accounted object hreleased
  exact htracks.below class_name object hinstance

theorem Tracks.filterMap_nodup {classes : List GearClass} (hclasses : classes.Nodup) :
    (classes.filterMap heap.instance_of).Nodup := by
  refine List.Nodup.filterMap (fun left right object hleft hright => ?_) hclasses
  exact htracks.distinct left right object (by simpa using hleft) (by simpa using hright)

variable (hreceiver : ∀ pointer, call.receiver = some pointer → pointer ∈ held)
include hreceiver

/-- A call is sound exactly when it does not revive a released object. -/
theorem Tracks.sound_iff : call.Sound heap ↔ ¬ call.Revives past := by
  have hknown := fun pointer hpointer => htracks.known pointer (hreceiver pointer hpointer)
  cases hhands : call.hands_out with
  | some class_name =>
    obtain ⟨hreleases, _⟩ := Call.of_hands_out hhands held 0
    have hrevives : call.Revives past ↔ Gone class_name past := by
      simp [Call.Revives, hhands, hreleases]
    rw [hrevives, Call.Sound]
    cases hinstance : heap.instance_of class_name with
    | none =>
      obtain ⟨hreturned, _, hreleased, _⟩ := Call.run_fresh hhands hknown hinstance
      rw [hreturned, hreleased]
      have hfresh : heap.created ∉ heap.released := fun hmem =>
        Nat.lt_irrefl _ (htracks.released_below hmem)
      have hkept : ¬ Gone class_name past := fun hgone => by
        obtain ⟨object, hobject⟩ := htracks.instance_of_gone hgone
        simp [hinstance] at hobject
      exact ⟨fun _ => hkept, fun _ => ⟨fun _ => hfresh, htracks.nodup⟩⟩
    | some object =>
      rw [Call.run_existing hhands hknown hinstance, ← htracks.gone class_name object hinstance]
      simp [hhands, htracks.nodup]
  | none =>
    cases call with
    | GetHardwareInstance | GetScoreInstance | get_cpu | get_graphics => cases hhands
    | destructor class_name self flags =>
      rw [Call.Sound, Call.run_destructor (hknown _ rfl), List.nodup_append]
      constructor
      · rintro ⟨_, _, _, hapart⟩ ⟨other, hother, hgone⟩
        obtain ⟨object, hobject⟩ := htracks.instance_of_gone hgone
        have hmem : other ∈ (Call.destructor class_name self flags).releases := by
          simpa [Call.hands_out] using hother
        exact hapart object ((htracks.gone other object hobject).mpr hgone) object
          (List.mem_filterMap.mpr ⟨other, hmem, hobject⟩) rfl
      · intro hkept
        refine ⟨by simp [Call.hands_out], htracks.nodup, htracks.filterMap_nodup (Call.releases_nodup _), ?_⟩
        rintro object hreleased _ hmem rfl
        obtain ⟨other, hother, hobject⟩ := List.mem_filterMap.mp hmem
        exact hkept ⟨other, .inr hother, (htracks.gone other object hobject).mp hreleased⟩

omit hreceiver in
theorem Tracks.asked_iff {class_name : GearClass} (hhands : call.hands_out = some class_name)
    (other : GearClass) :
    (∃ earlier ∈ past ++ [call], earlier.hands_out = some other) ↔
      heap.instance_of other ≠ none ∨ other = class_name := by
  rw [htracks.handed_out]
  simp [or_and_right, exists_or, hhands, eq_comm]

omit htracks hreceiver in
theorem gone_after_request {class_name : GearClass} (hhands : call.hands_out = some class_name)
    (other : GearClass) : Gone other (past ++ [call]) ↔ Gone other past := by
  obtain ⟨hreleases, _⟩ := Call.of_hands_out hhands [] 0
  simp [gone_append_iff, hreleases]

/-- Handing out an object that exists again keeps the account of the calls. -/
theorem Tracks.step_existing {class_name : GearClass} (hhands : call.hands_out = some class_name)
    {object : Nat} (hinstance : heap.instance_of class_name = some object) :
    Tracks (past ++ [call]) (call.run heap).2 ((class_name, (call.run heap).1) :: held) := by
  rw [Call.run_existing hhands (fun pointer hpointer => htracks.known pointer (hreceiver pointer hpointer))
    hinstance]
  refine ⟨List.forall_mem_cons.mpr ⟨hinstance, htracks.known⟩, htracks.below, htracks.distinct,
    fun other => ?_, fun other found hfound => ?_, htracks.accounted, htracks.nodup⟩
  · rw [htracks.asked_iff hhands]
    refine ⟨.inl, ?_⟩
    rintro (hother | rfl)
    · exact hother
    · simp [hinstance]
  · rw [gone_after_request hhands, htracks.gone other found hfound]

/-- So does handing out an object for the first time. -/
theorem Tracks.step_fresh {class_name : GearClass} (hhands : call.hands_out = some class_name)
    (hinstance : heap.instance_of class_name = none) :
    Tracks (past ++ [call]) (call.run heap).2 ((class_name, (call.run heap).1) :: held) := by
  obtain ⟨hreturned, hcreated, hreleased, hinstances⟩ := Call.run_fresh hhands
    (fun pointer hpointer => htracks.known pointer (hreceiver pointer hpointer)) hinstance
  have hold : ∀ other object, heap.instance_of other = some object →
      (call.run heap).2.instance_of other = some object := by
    intro other object hobject
    rw [hinstances, if_neg, hobject]
    rintro rfl
    simp [hinstance] at hobject
  have hnew : ∀ other object, (call.run heap).2.instance_of other = some object →
      other = class_name ∧ object = heap.created ∨ heap.instance_of other = some object := by
    intro other object hobject
    rw [hinstances] at hobject
    split at hobject
    · exact .inl ⟨‹_›, (Option.some.inj hobject).symm⟩
    · exact .inr hobject
  refine ⟨?_, fun other object hobject => ?_, fun left right object hleft hright => ?_, fun other => ?_,
    fun other object hobject => ?_, ?_, ?_⟩
  · rw [hreturned]
    refine List.forall_mem_cons.mpr ⟨?_, fun pointer hmem => hold _ _ (htracks.known pointer hmem)⟩
    simp [hinstances]
  · obtain ⟨_, rfl⟩ | hobject := hnew other object hobject
    · omega
    · have hbelow := htracks.below other object hobject
      omega
  · obtain ⟨rfl, rfl⟩ | hleft := hnew left object hleft <;>
      obtain ⟨rfl, hcreated'⟩ | hright := hnew right _ hright
    · rfl
    · exact absurd (htracks.below right _ hright) (Nat.lt_irrefl _)
    · exact absurd (hcreated' ▸ htracks.below left _ hleft) (Nat.lt_irrefl _)
    · exact htracks.distinct left right object hleft hright
  · rw [htracks.asked_iff hhands, hinstances]
    by_cases hother : other = class_name <;> simp [hother]
  · rw [hreleased, gone_after_request hhands]
    obtain ⟨rfl, rfl⟩ | hobject := hnew other object hobject
    · refine ⟨fun hmem => absurd (htracks.released_below hmem) (Nat.lt_irrefl _), fun hother => ?_⟩
      obtain ⟨found, hfound⟩ := htracks.instance_of_gone hother
      simp [hinstance] at hfound
    · exact htracks.gone other object hobject
  · intro object hmem
    rw [hreleased] at hmem
    obtain ⟨other, hobject⟩ := htracks.accounted object hmem
    exact ⟨other, hold other object hobject⟩
  · rw [hreleased]
    exact htracks.nodup

omit hreceiver in
/-- So does a destructor that is called soundly. -/
theorem Tracks.step_destructor {class_name : GearClass} {self : Nat} {flags : UInt8}
    (hself : heap.instance_of class_name = some self)
    (hsound : (Call.destructor class_name self flags).Sound heap) :
    Tracks (past ++ [.destructor class_name self flags]) ((Call.destructor class_name self flags).run heap).2
      (held.filter fun pointer => pointer ≠ (class_name, self)) := by
  have hnodup := hsound.2
  rw [Call.run_destructor hself] at hnodup ⊢
  refine ⟨fun pointer hmem => htracks.known pointer (List.mem_of_mem_filter hmem), htracks.below,
    htracks.distinct, fun other => ?_, fun other object hobject => ?_, fun object hmem => ?_, hnodup⟩
  · change heap.instance_of other ≠ none ↔ _
    rw [htracks.handed_out]
    simp [or_and_right, exists_or, Call.hands_out]
  · change heap.instance_of other = some object at hobject
    have hearlier := (htracks.handed_out other).mp (by simp [hobject])
    rw [List.mem_append, htracks.gone other object hobject, gone_append_iff, List.mem_filterMap]
    refine or_congr_right ⟨?_, fun hreleases => ⟨other, hreleases.1, hobject⟩⟩
    rintro ⟨found, hfound, hinstance⟩
    rw [htracks.distinct other found object hobject hinstance]
    exact ⟨hfound, htracks.distinct other found object hobject hinstance ▸ hearlier⟩
  · obtain hmem | hmem := List.mem_append.mp hmem
    · exact htracks.accounted object hmem
    · obtain ⟨other, _, hobject⟩ := List.mem_filterMap.mp hmem
      exact ⟨other, hobject⟩

/-- After a sound call the heap and the caller's pointers follow from the past
calls and this one. -/
theorem Tracks.step (hsound : call.Sound heap) :
    Tracks (past ++ [call]) (call.run heap).2 (call.held_after held (call.run heap).1) := by
  cases hhands : call.hands_out with
  | some class_name =>
    rw [(Call.of_hands_out hhands held (call.run heap).1).2]
    cases hinstance : heap.instance_of class_name with
    | some object => exact htracks.step_existing hreceiver hhands hinstance
    | none => exact htracks.step_fresh hreceiver hhands hinstance
  | none =>
    cases call with
    | GetHardwareInstance | GetScoreInstance | get_cpu | get_graphics => cases hhands
    | destructor class_name self flags =>
      exact htracks.step_destructor (htracks.known _ (hreceiver _ rfl)) hsound

end Track

/-- A run goes on soundly from a tracked state exactly when it revives nothing. -/
theorem Tracks.sound_run_iff {past : List Call} {heap : Heap} {held : List (GearClass × Nat)}
    (htracks : Tracks past heap held) {calls : List Call} (hdisciplined : Disciplined heap held calls) :
    SoundRun heap calls ↔ CleanRun past calls := by
  induction calls generalizing past heap held with
  | nil => exact Iff.rfl
  | cons call rest ih =>
    obtain ⟨hreceiver, hrest⟩ := hdisciplined
    rw [SoundRun, CleanRun, ← htracks.sound_iff hreceiver]
    exact and_congr_right fun hsound => ih (htracks.step hreceiver hsound) hrest

/-- In every run of a caller that keeps to its pointers, the library hands out
no released object and releases none twice if and only if no call asks again
for an object, or releases again one, that an earlier call released. -/
theorem lifecycle_sound_iff (calls : List Call) (hdisciplined : Disciplined .initial [] calls) :
    SoundRun .initial calls ↔ CleanRun [] calls :=
  tracks_initial.sound_run_iff hdisciplined

/-- The library handed out a CPU and was then torn down, children first. -/
def orderly_release : List Call :=
  [.GetHardwareInstance, .get_cpu 0, .destructor .GearCPU 1 0, .destructor .GearHardware 0 1]

theorem lifecycle_sound_on_orderly_release : CleanRun [] orderly_release :=
  (lifecycle_sound_iff orderly_release (by decide)).mp (by decide)

/-- The hardware singleton is asked for again after it has been released. -/
def revived_hardware : List Call :=
  [.GetHardwareInstance, .destructor .GearHardware 0 1, .GetHardwareInstance]

theorem revived_hardware_unsound : Disciplined .initial [] revived_hardware ∧
    ¬ SoundRun .initial revived_hardware := by decide

end systemdetection.gear
