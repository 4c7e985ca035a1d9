import SystemDetection.Memory.Reliable
import SystemDetection.Patches.Error
import SystemDetection.Sigscan.Scan

open effect store systemdetection.patches.memory systemdetection.patches.sigscan

namespace systemdetection.patches

variable {σ : Type}

/-- One round of the loop of `find_signature_target`: the accepted target of a
match, or the reason for which it is rejected. -/
def validate_match (os : Os σ) (image : ModuleImage) (scope : ScanScope) (target_offset : Nat)
    (expected replacement : List UInt8) (start : Nat) :
    Action (World σ) PatchError (Except String Nat) :=
  match checked_add start target_offset with
  | none => pure (.error s!"match 0x{upper_hex 8 start}: target address overflow")
  | some target =>
    if !image.contains_relative_target start target expected.length scope then
      pure (.error s!"match 0x{upper_hex 8 start}: target 0x{upper_hex 8 target} leaves its matched PE section")
    else do
      match ← (validate_bytes os target expected replacement).attempt with
      | .ok _ => pure (.ok target)
      | .error error => pure (.error error.to_string)

/-- The loop of `find_signature_target` over the raw matches. -/
def validate_matches (os : Os σ) (image : ModuleImage) (scope : ScanScope) (target_offset : Nat)
    (expected replacement : List UInt8) (accepted : List Nat) (rejected : List String) :
    List Nat → Action (World σ) PatchError (List Nat × List String)
  | [] => pure (accepted, rejected)
  | start :: rest => do
    match ← validate_match os image scope target_offset expected replacement start with
    | .ok target =>
      validate_matches os image scope target_offset expected replacement (accepted ++ [target]) rejected rest
    | .error reason =>
      validate_matches os image scope target_offset expected replacement accepted (rejected ++ [reason]) rest

/-- Resolve a single destination by combining a section-scoped signature with
destination-byte validation. -/
def find_signature_target (os : Os σ) (image : ModuleImage) (signature : String) (scope : ScanScope)
    (target_offset : Nat) (expected replacement : List UInt8) : Action (World σ) PatchError Nat := do
  let pattern ← Action.lift ((Pattern.parse signature).mapError PatchError.Scan)
  let raw_matches := image.scan pattern scope
  if raw_matches.isEmpty then
    throw (.SignatureNotFound signature scope)
  else
    let (accepted, rejected) ←
      validate_matches os image scope target_offset expected replacement [] [] raw_matches
    match accepted with
    | [target] => pure target
    | [] => throw (.NoValidatedTarget signature raw_matches.length rejected)
    | _ => throw (.AmbiguousTarget signature accepted)

end systemdetection.patches
