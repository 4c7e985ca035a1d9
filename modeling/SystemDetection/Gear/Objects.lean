import Mathlib.Data.List.Basic

namespace systemdetection.gear

inductive GearClass where
  | GearHardware
  | GearScore
  | GearCPU
  | GearGraphics
  deriving DecidableEq

/-- The owned fields of a `GearHardware` object; a null pointer is `none`. -/
structure GearHardware where
  m_cpu : Option Nat
  m_graphics : Option Nat

def GearHardware.new : GearHardware := ⟨none, none⟩

/-- The boxed objects, numbered as they are created, with the releases made so
far, the fields of the `GearHardware` objects and the two singletons. -/
structure Heap where
  created : Nat
  released : List Nat
  fields : Nat → GearHardware
  GEAR_HARDWARE : Option Nat
  GEAR_SCORE : Option Nat

def Heap.initial : Heap := ⟨0, [], fun _ => .new, none, none⟩

/-- `Box::into_raw(Box::new(..))`: the new object is the number `created`. -/
def Heap.create (heap : Heap) : Heap := { heap with created := heap.created + 1 }

/-- `Box::from_raw`, whose result is dropped. -/
def Heap.release (heap : Heap) (object : Nat) : Heap := { heap with released := heap.released ++ [object] }

/-- Releases the object of a field unless it is null. -/
def Heap.release_field (heap : Heap) : Option Nat → Heap
  | some object => heap.release object
  | none => heap

def Heap.set_fields (heap : Heap) (self : Nat) (fields : GearHardware) : Heap :=
  { heap with fields := fun object => if object = self then fields else heap.fields object }

def GetHardwareInstance (heap : Heap) : Nat × Heap :=
  match heap.GEAR_HARDWARE with
  | some hardware => (hardware, heap)
  | none =>
    let hardware := heap.created
    (hardware, { (heap.create.set_fields hardware .new) with GEAR_HARDWARE := some hardware })

def GetScoreInstance (heap : Heap) : Nat × Heap :=
  match heap.GEAR_SCORE with
  | some score => (score, heap)
  | none => (heap.created, { heap.create with GEAR_SCORE := some heap.created })

def GearHardware.get_cpu (self : Nat) (heap : Heap) : Nat × Heap :=
  match (heap.fields self).m_cpu with
  | some cpu => (cpu, heap)
  | none => (heap.created, heap.create.set_fields self { heap.fields self with m_cpu := some heap.created })

def GearHardware.get_graphics (self : Nat) (heap : Heap) : Nat × Heap :=
  match (heap.fields self).m_graphics with
  | some graphics => (graphics, heap)
  | none =>
    (heap.created, heap.create.set_fields self { heap.fields self with m_graphics := some heap.created })

/-- The destructor of every class but `GearHardware`: bit 0 of the flags asks
for the object itself to be released. -/
def release_self (self : Nat) (flags : UInt8) (heap : Heap) : Nat × Heap :=
  (self, if flags &&& 1 ≠ 0 then heap.release self else heap)

def GearScore.destructor (self : Nat) (flags : UInt8) (heap : Heap) : Nat × Heap :=
  release_self self flags heap

def GearCPU.destructor (self : Nat) (flags : UInt8) (heap : Heap) : Nat × Heap :=
  release_self self flags heap

def GearGraphics.destructor (self : Nat) (flags : UInt8) (heap : Heap) : Nat × Heap :=
  release_self self flags heap

def GearHardware.destructor (self : Nat) (flags : UInt8) (heap : Heap) : Nat × Heap :=
  let heap := heap.release_field (heap.fields self).m_cpu
  let heap := heap.release_field (heap.fields self).m_graphics
  (self, if flags &&& 1 ≠ 0 then heap.release self else heap)

/-- A call into the library. -/
inductive Call where
  | GetHardwareInstance
  | GetScoreInstance
  | get_cpu (self : Nat)
  | get_graphics (self : Nat)
  | destructor (class_name : GearClass) (self : Nat) (flags : UInt8)
  deriving DecidableEq

/-- The returned pointer and the heap after the call. -/
def Call.run (heap : Heap) : Call → Nat × Heap
  | .GetHardwareInstance => gear.GetHardwareInstance heap
  | .GetScoreInstance => gear.GetScoreInstance heap
  | .get_cpu self => GearHardware.get_cpu self heap
  | .get_graphics self => GearHardware.get_graphics self heap
  | .destructor .GearHardware self flags => GearHardware.destructor self flags heap
  | .destructor .GearScore self flags => GearScore.destructor self flags heap
  | .destructor .GearCPU self flags => GearCPU.destructor self flags heap
  | .destructor .GearGraphics self flags => GearGraphics.destructor self flags heap

end systemdetection.gear
