import SystemDetection.Memory.Checked

open effect store

namespace systemdetection.patches.memory

variable {σ : Type}

/-- A reflexive and transitive relation that no query leaves. -/
structure Queries (os : Os σ) (R : World σ → World σ → Prop) : Prop where
  refl : ∀ world, R world world
  trans : ∀ first second third, R first second → R second third → R first third
  query : ∀ (world : World σ) address,
    R world { world with os := (os.VirtualQuery address world.os).2 }

/-- A relation that no reading leaves, whatever is read. -/
structure Watches (os : Os σ) (R : World σ → World σ → Prop) : Prop extends Queries os R where
  read : ∀ (world : World σ) address length,
    R world { world with accesses := world.accesses ++ [⟨.read, address, length⟩] }

/-- A relation that neither a query nor a refused change of protection leaves. The
readers stay inside every such relation. -/
structure Observes (os : Os σ) (R : World σ → World σ → Prop) : Prop extends Queries os R where
  refused : ∀ (world : World σ) address length protection error,
    (os.VirtualProtect address length protection world.os).1 = .error error →
      R world { world with os := (os.VirtualProtect address length protection world.os).2 }

/-- A relation that no system call of a write leaves. -/
structure Calls (os : Os σ) (R : World σ → World σ → Prop) : Prop extends Observes os R where
  protect : ∀ (world : World σ) address length protection,
    R world { world with os := (os.VirtualProtect address length protection world.os).2 }
  flush : ∀ (world : World σ) address length,
    R world { world with os := (os.FlushInstructionCache address length world.os).2 }

/-- No call of the system changes the memory of the process. -/
theorem sameMemory_calls (os : Os σ) : Calls os World.SameMemory where
  refl := World.SameMemory.refl
  trans := World.SameMemory.trans
  query _ _ := rfl
  refused _ _ _ _ _ _ := rfl
  protect _ _ _ _ := rfl
  flush _ _ _ := rfl

/-- No call of the system is a raw access. -/
theorem accesses_calls (os : Os σ) (permitted : Access → Prop) :
    Calls os (World.Accesses permitted) where
  refl := World.Accesses.refl permitted
  trans := World.Accesses.trans permitted
  query world _ := World.Accesses.refl permitted world
  refused world _ _ _ _ _ := World.Accesses.refl permitted world
  protect world _ _ _ := World.Accesses.refl permitted world
  flush world _ _ := World.Accesses.refl permitted world

section Readers

variable {os : Os σ} {R : World σ → World σ → Prop} (hqueries : Queries os R)
include hqueries

theorem virtual_query_relates {ε : Type} (address : Nat) :
    (virtual_query os address : Action (World σ) ε _).Relates R :=
  fun world => hqueries.query world address

/-- The walk makes nothing but queries. -/
theorem validate_readable_loop_relates (stop cursor : Nat) :
    (validate_readable_loop os stop cursor).Relates R := by
  induction cursor using validate_readable_loop.induct stop with
  | case1 cursor hcursor ih =>
    rw [validate_readable_loop, dif_pos hcursor]
    refine Action.relates_bind hqueries.trans (virtual_query_relates hqueries cursor) fun answer => ?_
    cases answer with
    | none => exact Action.relates_throw hqueries.refl _
    | some information =>
      refine Action.relates_bind hqueries.trans (Action.relates_lift hqueries.refl _) fun region_end => ?_
      split
      · exact Action.relates_throw hqueries.refl _
      · exact ih region_end ‹_›
  | case2 cursor hcursor =>
    rw [validate_readable_loop, dif_neg hcursor]
    exact Action.relates_pure hqueries.refl ()

/-- So does the check of a whole range. -/
theorem validate_readable_range_relates (address length : Nat) :
    (validate_readable_range os address length).Relates R := by
  unfold validate_readable_range
  split
  · exact Action.relates_pure hqueries.refl ()
  · split
    · exact Action.relates_throw hqueries.refl _
    · exact validate_readable_loop_relates hqueries _ _

/-- The only thing `read_bytes` does besides asking the system is one raw read
of exactly the requested range. -/
theorem read_bytes_relates (address length : Nat)
    (hread : ∀ world : World σ,
      R world { world with accesses := world.accesses ++ [⟨.read, address, length⟩] }) :
    (read_bytes os address length).Relates R := by
  refine Action.relates_bind hqueries.trans
    (validate_readable_range_relates hqueries address length) fun _ => ?_
  split
  · exact hread
  · exact Action.relates_pure hqueries.refl []

theorem validate_bytes_relates (address : Nat) (expected replacement : List UInt8)
    (hread : ∀ world : World σ,
      R world { world with accesses := world.accesses ++ [⟨.read, address, expected.length⟩] }) :
    (validate_bytes os address expected replacement).Relates R := by
  refine Action.relates_bind hqueries.trans (Action.relates_lift hqueries.refl _) fun _ => ?_
  refine Action.relates_bind hqueries.trans
    (read_bytes_relates hqueries address expected.length hread) fun _ => ?_
  exact Action.relates_lift hqueries.refl _

/-- The choice of the writable protection makes one query at most. -/
theorem writable_protection_relates (address length : Nat) :
    (writable_protection_for_single_region os address length).Relates R := by
  unfold writable_protection_for_single_region
  split
  · exact Action.relates_throw hqueries.refl _
  · refine Action.relates_bind hqueries.trans (virtual_query_relates hqueries address) fun answer => ?_
    cases answer with
    | none => exact Action.relates_throw hqueries.refl _
    | some information =>
      refine Action.relates_bind hqueries.trans (Action.relates_lift hqueries.refl _) fun region_end => ?_
      split
      · exact Action.relates_throw hqueries.refl _
      · exact Action.relates_pure hqueries.refl _

end Readers

section Writers

variable {os : Os σ} {R : World σ → World σ → Prop} (hcalls : Calls os R)
include hcalls

/-- After a copy come two calls of the system and a checked read. -/
theorem finish_write_relates (address : Nat) (replacement : List UInt8)
    (old_protection : UInt32)
    (hread : ∀ world : World σ,
      R world { world with accesses := world.accesses ++ [⟨.read, address, replacement.length⟩] }) :
    (finish_write os address replacement old_protection).Relates R := by
  refine Action.relates_bind hcalls.trans (fun world => hcalls.protect world _ _ _) fun restored => ?_
  refine Action.relates_bind hcalls.trans (fun world => hcalls.flush world _ _) fun flushed => ?_
  split
  · exact Action.relates_throw hcalls.refl _
  · exact Action.relates_throw hcalls.refl _
  · refine Action.relates_bind hcalls.trans
      (read_bytes_relates hcalls.toQueries address replacement.length hread) fun actual => ?_
    split
    · exact Action.relates_throw hcalls.refl _
    · exact Action.relates_pure hcalls.refl _

/-- Beyond reading its target, `write_checked` makes one raw write of exactly
the target range. -/
theorem write_checked_relates (address : Nat) (expected replacement : List UInt8)
    (hlength : expected.length = replacement.length)
    (hread : ∀ world : World σ,
      R world { world with accesses := world.accesses ++ [⟨.read, address, replacement.length⟩] })
    (hwrite : ∀ world : World σ,
      R world { world with
        memory := world.memory.write address replacement
        accesses := world.accesses ++ [⟨.write, address, replacement.length⟩] }) :
    (write_checked os address expected replacement).Relates R := by
  refine Action.relates_bind hcalls.trans
    (validate_bytes_relates hcalls.toQueries address expected replacement (by rwa [hlength])) fun state => ?_
  cases state with
  | AlreadyApplied => exact Action.relates_pure hcalls.refl _
  | Applied =>
    refine Action.relates_bind hcalls.trans
      (writable_protection_relates hcalls.toQueries address _) fun protection => ?_
    refine Action.relates_bind hcalls.trans
      (Action.Relates.map_err (fun world => hcalls.protect world _ _ _) _) fun old_protection => ?_
    exact Action.relates_bind hcalls.trans hwrite fun _ =>
      finish_write_relates hcalls address replacement old_protection hread

end Writers

end systemdetection.patches.memory
