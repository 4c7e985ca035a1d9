import SystemDetection.Memory.Error
import SystemDetection.Sigscan.Pattern

open systemdetection.patches.memory systemdetection.patches.sigscan

namespace systemdetection.patches

inductive PatchError where
  | Scan (error : ScanError)
  | Memory (error : MemoryError)
  | SignatureNotFound (signature : String) (scope : ScanScope)
  | NoValidatedTarget (signature : String) (raw_matches : Nat) (reasons : List String)
  | AmbiguousTarget (signature : String) (addresses : List Nat)
  | EmptyPlan
  | PartialWrite (applied : Nat) (error : PatchError) (rollback_errors : List PatchError)

mutual

def PatchError.to_string : PatchError → String
  | .Scan error => error.to_string
  | .Memory error => error.to_string
  | .SignatureNotFound signature scope =>
    "signature " ++ debug_str signature ++ s!" was not found in {scope.debug} sections"
  | .NoValidatedTarget signature raw_matches reasons =>
    "signature " ++ debug_str signature ++ s!" had {raw_matches} raw match(es), but no guarded target"
      ++ if reasons.isEmpty then "" else ": " ++ "; ".intercalate reasons
  | .AmbiguousTarget signature addresses =>
    "signature " ++ debug_str signature ++ " resolved to multiple guarded targets: "
      ++ ", ".intercalate (addresses.map fun address => s!"0x{upper_hex 8 address}")
  | .EmptyPlan => "patch plan contains no writes"
  | .PartialWrite applied error rollback_errors =>
    s!"patch failed after {applied} write(s), and rollback was incomplete: "
      ++ error.to_string ++ "; rollback error(s): "
      ++ "; ".intercalate (PatchError.to_strings rollback_errors)

def PatchError.to_strings : List PatchError → List String
  | [] => []
  | error :: rest => error.to_string :: PatchError.to_strings rest

end

/-- An incomplete rollback was reported. -/
def PatchError.is_partial_write : PatchError → Bool
  | .PartialWrite .. => true
  | _ => false

end systemdetection.patches
