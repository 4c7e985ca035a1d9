import SystemDetection.Effect.Action
import SystemDetection.Platform.Word
import SystemDetection.Store.Cells

open effect store

namespace systemdetection

def MEM_COMMIT : UInt32 := 0x1000
def PAGE_READONLY : UInt32 := 0x02
def PAGE_READWRITE : UInt32 := 0x04
def PAGE_WRITECOPY : UInt32 := 0x08
def PAGE_EXECUTE_READ : UInt32 := 0x20
def PAGE_EXECUTE_READWRITE : UInt32 := 0x40
def PAGE_EXECUTE_WRITECOPY : UInt32 := 0x80
def PAGE_GUARD : UInt32 := 0x100

/-- The fields of `MEMORY_BASIC_INFORMATION` that the crate reads. -/
structure MemoryBasicInformation where
  BaseAddress : Nat
  RegionSize : Nat
  State : UInt32
  Protect : UInt32

/-- The Windows calls made while patching, over a state of the operating
system that the crate never sees. Each call may fail at any time: a failed
`VirtualQuery` returns nothing, the others report the text of the last error. -/
structure Os (σ : Type) where
  VirtualQuery : Nat → σ → Option MemoryBasicInformation × σ
  VirtualProtect : Nat → Nat → UInt32 → σ → Except String UInt32 × σ
  FlushInstructionCache : Nat → Nat → σ → Except String Unit × σ

inductive AccessKind where
  | read
  | write
  deriving DecidableEq

/-- One copy through a raw pointer. -/
structure Access where
  kind : AccessKind
  address : Nat
  length : Nat
  deriving DecidableEq

/-- The accessed range lies in the `size` bytes from `base` on. -/
def Access.Inside (self : Access) (base size : Nat) : Prop :=
  base ≤ self.address ∧ self.address + self.length ≤ base + size

/-- The process as the patcher sees it: its memory, the operating system
behind it, and the raw pointer accesses made so far. -/
structure World (σ : Type) where
  memory : Store UInt8
  os : σ
  accesses : List Access

variable {σ ε : Type}

def virtual_query (os : Os σ) (address : Nat) : Action (World σ) ε (Option MemoryBasicInformation) :=
  fun world =>
    let (information, state) := os.VirtualQuery address world.os
    (.ok information, { world with os := state })

def virtual_protect (os : Os σ) (address length : Nat) (protection : UInt32) :
    Action (World σ) String UInt32 := fun world =>
  let (old_protection, state) := os.VirtualProtect address length protection world.os
  (old_protection, { world with os := state })

def flush_instruction_cache (os : Os σ) (address length : Nat) : Action (World σ) String Unit :=
  fun world =>
    let (result, state) := os.FlushInstructionCache address length world.os
    (result, { world with os := state })

/-- `copy_nonoverlapping` from a raw pointer. -/
def raw_read (address length : Nat) : Action (World σ) ε (List UInt8) := fun world =>
  (.ok (world.memory.read address length),
    { world with accesses := world.accesses ++ [⟨.read, address, length⟩] })

/-- `copy_nonoverlapping` to a raw pointer. -/
def raw_write (address : Nat) (bytes : List UInt8) : Action (World σ) ε Unit := fun world =>
  (.ok (), { world with
    memory := world.memory.write address bytes
    accesses := world.accesses ++ [⟨.write, address, bytes.length⟩] })

@[simp] theorem virtual_query_apply (os : Os σ) (address : Nat) (world : World σ) :
    (virtual_query os address : Action (World σ) ε _) world =
      (.ok (os.VirtualQuery address world.os).1,
        { world with os := (os.VirtualQuery address world.os).2 }) := rfl

@[simp] theorem virtual_protect_apply (os : Os σ) (address length : Nat) (protection : UInt32)
    (world : World σ) :
    virtual_protect os address length protection world =
      ((os.VirtualProtect address length protection world.os).1,
        { world with os := (os.VirtualProtect address length protection world.os).2 }) := rfl

@[simp] theorem flush_instruction_cache_apply (os : Os σ) (address length : Nat) (world : World σ) :
    flush_instruction_cache os address length world =
      ((os.FlushInstructionCache address length world.os).1,
        { world with os := (os.FlushInstructionCache address length world.os).2 }) := rfl

@[simp] theorem raw_read_apply (address length : Nat) (world : World σ) :
    (raw_read address length : Action (World σ) ε _) world =
      (.ok (world.memory.read address length),
        { world with accesses := world.accesses ++ [⟨.read, address, length⟩] }) := rfl

@[simp] theorem raw_write_apply (address : Nat) (bytes : List UInt8) (world : World σ) :
    (raw_write address bytes : Action (World σ) ε _) world =
      (.ok (), { world with
        memory := world.memory.write address bytes
        accesses := world.accesses ++ [⟨.write, address, bytes.length⟩] }) := rfl

theorem virtual_query_of_answer {os : Os σ} {address : Nat} {world : World σ}
    {answer : Option MemoryBasicInformation} {state : σ}
    (hanswer : os.VirtualQuery address world.os = (answer, state)) :
    (virtual_query os address : Action (World σ) ε _) world = (.ok answer, { world with os := state }) := by
  rw [virtual_query_apply, hanswer]

theorem virtual_protect_of_result {os : Os σ} {address length : Nat} {protection : UInt32}
    {world : World σ} {result : Except String UInt32} {state : σ}
    (hresult : os.VirtualProtect address length protection world.os = (result, state)) :
    virtual_protect os address length protection world = (result, { world with os := state }) := by
  rw [virtual_protect_apply, hresult]

theorem flush_instruction_cache_of_result {os : Os σ} {address length : Nat} {world : World σ}
    {result : Except String Unit} {state : σ}
    (hresult : os.FlushInstructionCache address length world.os = (result, state)) :
    flush_instruction_cache os address length world = (result, { world with os := state }) := by
  rw [flush_instruction_cache_apply, hresult]

/-- The memory has not changed. -/
def World.SameMemory (before after : World σ) : Prop := after.memory = before.memory

theorem World.SameMemory.refl (world : World σ) : world.SameMemory world := rfl

theorem World.SameMemory.trans (first second third : World σ) (hleft : first.SameMemory second)
    (hright : second.SameMemory third) : first.SameMemory third :=
  Eq.trans hright hleft

/-- Every raw access made in between is a permitted one. -/
def World.Accesses (permitted : Access → Prop) (before after : World σ) : Prop :=
  ∃ made, after.accesses = before.accesses ++ made ∧ ∀ access ∈ made, permitted access

theorem World.Accesses.refl (permitted : Access → Prop) (world : World σ) :
    world.Accesses permitted world := ⟨[], by simp⟩

/-- The accesses of two successive actions are those of both. -/
theorem World.Accesses.trans (permitted : Access → Prop) (first second third : World σ)
    (hleft : first.Accesses permitted second) (hright : second.Accesses permitted third) :
    first.Accesses permitted third := by
  obtain ⟨early, hearly, hfirst⟩ := hleft
  obtain ⟨late, hlate, hsecond⟩ := hright
  refine ⟨early ++ late, by rw [hlate, hearly, List.append_assoc], ?_⟩
  intro access hmem
  obtain h | h := List.mem_append.mp hmem
  · exact hfirst access h
  · exact hsecond access h

theorem World.Accesses.mono {strict loose : Access → Prop} {before after : World σ}
    (haccesses : before.Accesses strict after) (hweaken : ∀ access, strict access → loose access) :
    before.Accesses loose after := by
  obtain ⟨made, hmade, hall⟩ := haccesses
  exact ⟨made, hmade, fun access hmem => hweaken access (hall access hmem)⟩

section Accesses

variable {α β : Type} {permitted : Access → Prop}

theorem accesses_pure (value : α) :
    (pure value : Action (World σ) ε α).Relates (World.Accesses permitted) :=
  Action.relates_pure (World.Accesses.refl permitted) value

theorem accesses_throw (error : ε) :
    (throw error : Action (World σ) ε α).Relates (World.Accesses permitted) :=
  Action.relates_throw (World.Accesses.refl permitted) error

theorem accesses_lift (result : Except ε α) :
    (Action.lift result : Action (World σ) ε α).Relates (World.Accesses permitted) :=
  Action.relates_lift (World.Accesses.refl permitted) result

theorem accesses_bind {action : Action (World σ) ε α} {next : α → Action (World σ) ε β}
    (hfirst : action.Relates (World.Accesses permitted))
    (hnext : ∀ value, (next value).Relates (World.Accesses permitted)) :
    (action >>= next).Relates (World.Accesses permitted) :=
  Action.relates_bind (World.Accesses.trans permitted) hfirst hnext

end Accesses

end systemdetection
