import SystemDetection.Gear.Objects

namespace systemdetection.gear

/-- The class of the object that a call hands out. -/
def Call.hands_out : Call → Option GearClass
  | .GetHardwareInstance => some .GearHardware
  | .GetScoreInstance => some .GearScore
  | .get_cpu _ => some .GearCPU
  | .get_graphics _ => some .GearGraphics
  | .destructor .. => none

/-- The object that a call is made on. -/
def Call.receiver : Call → Option (GearClass × Nat)
  | .GetHardwareInstance | .GetScoreInstance => none
  | .get_cpu self | .get_graphics self => some (.GearHardware, self)
  | .destructor class_name self _ => some (class_name, self)

/-- The pointers that the caller may use after a call: one that it was given,
until it passes it to its destructor. -/
def Call.held_after (held : List (GearClass × Nat)) (returned : Nat) : Call → List (GearClass × Nat)
  | .destructor class_name self _ => held.filter fun pointer => pointer ≠ (class_name, self)
  | .GetHardwareInstance => (.GearHardware, returned) :: held
  | .GetScoreInstance => (.GearScore, returned) :: held
  | .get_cpu _ => (.GearCPU, returned) :: held
  | .get_graphics _ => (.GearGraphics, returned) :: held

/-- The caller calls only on pointers that it may use. -/
def Disciplined (heap : Heap) (held : List (GearClass × Nat)) : List Call → Prop
  | [] => True
  | call :: rest =>
    (∀ pointer, call.receiver = some pointer → pointer ∈ held) ∧
      Disciplined (call.run heap).2 (call.held_after held (call.run heap).1) rest

instance decidableDisciplined (heap : Heap) (held : List (GearClass × Nat)) :
    (calls : List Call) → Decidable (Disciplined heap held calls)
  | [] => .isTrue trivial
  | call :: rest =>
    have := decidableDisciplined (call.run heap).2 (call.held_after held (call.run heap).1) rest
    inferInstanceAs (Decidable ((∀ pointer ∈ call.receiver, pointer ∈ held) ∧
      Disciplined (call.run heap).2 (call.held_after held (call.run heap).1) rest))

/-- The call hands out an object that is not released, and no object is released twice. -/
def Call.Sound (heap : Heap) (call : Call) : Prop :=
  (call.hands_out ≠ none → (call.run heap).1 ∉ (call.run heap).2.released) ∧
    (call.run heap).2.released.Nodup

instance (heap : Heap) (call : Call) : Decidable (call.Sound heap) :=
  inferInstanceAs (Decidable ((call.hands_out ≠ none → (call.run heap).1 ∉ (call.run heap).2.released) ∧
    (call.run heap).2.released.Nodup))

def SoundRun (heap : Heap) : List Call → Prop
  | [] => True
  | call :: rest => call.Sound heap ∧ SoundRun (call.run heap).2 rest

instance decidableSoundRun (heap : Heap) : (calls : List Call) → Decidable (SoundRun heap calls)
  | [] => .isTrue trivial
  | call :: rest =>
    have := decidableSoundRun (call.run heap).2 rest
    inferInstanceAs (Decidable (call.Sound heap ∧ SoundRun (call.run heap).2 rest))

/-- The classes whose object a call releases: a destructor with bit 0 set that
of its own class, and a `GearHardware` destructor also its CPU and graphics. -/
def Call.releases : Call → List GearClass
  | .destructor class_name _ flags =>
    (if class_name = .GearHardware then [.GearCPU, .GearGraphics] else []) ++
      if flags &&& 1 ≠ 0 then [class_name] else []
  | _ => []

/-- Some past call released the object of the class, which an earlier one had handed out. -/
def Gone (class_name : GearClass) (past : List Call) : Prop :=
  ∃ before release after, past = before ++ release :: after ∧ class_name ∈ release.releases ∧
    ∃ call ∈ before, call.hands_out = some class_name

/-- The call asks again for an object, or releases again one, that a past call released. -/
def Call.Revives (past : List Call) (call : Call) : Prop :=
  ∃ class_name, (call.hands_out = some class_name ∨ class_name ∈ call.releases) ∧ Gone class_name past

/-- No call of the run asks for or releases an object that an earlier call of
the run released. -/
def CleanRun (past : List Call) : List Call → Prop
  | [] => True
  | call :: rest => ¬ call.Revives past ∧ CleanRun (past ++ [call]) rest

/-- A class becomes gone by a release that comes after it was handed out. -/
theorem gone_append_iff {class_name : GearClass} {past : List Call} {call : Call} :
    Gone class_name (past ++ [call]) ↔ Gone class_name past ∨
      class_name ∈ call.releases ∧ ∃ earlier ∈ past, earlier.hands_out = some class_name := by
  constructor
  · rintro ⟨before, release, after, hsplit, hreleases, hearlier⟩
    obtain rfl | ⟨after, last, rfl⟩ := List.eq_nil_or_concat after
    · obtain ⟨rfl, hlast⟩ := List.append_inj' hsplit rfl
      cases hlast
      exact .inr ⟨hreleases, hearlier⟩
    · rw [List.concat_eq_append, ← List.cons_append, ← List.append_assoc] at hsplit
      obtain ⟨rfl, _⟩ := List.append_inj' hsplit rfl
      exact .inl ⟨before, release, after, rfl, hreleases, hearlier⟩
  · rintro (⟨before, release, after, rfl, hreleases, hearlier⟩ | ⟨hreleases, hearlier⟩)
    · exact ⟨before, release, after ++ [call], by simp, hreleases, hearlier⟩
    · exact ⟨past, call, [], rfl, hreleases, hearlier⟩

end systemdetection.gear
