import SystemDetection.Platform.Text

namespace systemdetection.patches.memory

inductive MemoryError where
  | EmptyReplacement
  | LengthMismatch (expected replacement : Nat)
  | AddressOverflow (address length : Nat)
  | QueryFailed (address : Nat)
  | NotReadable (address : Nat) (protection : UInt32)
  | NotCommitted (address : Nat)
  | CrossesProtectionRegion (address length : Nat)
  | UnexpectedBytes (address : Nat) (expected replacement actual : List UInt8)
  | Protect (address : Nat) (error : String)
  | RestoreProtection (address : Nat) (error : String)
  | FlushInstructionCache (address : Nat) (error : String)
  | WriteVerification (address : Nat) (expected actual : List UInt8)
  deriving DecidableEq

def format_bytes (bytes : List UInt8) : String :=
  " ".intercalate (bytes.map fun byte => upper_hex 2 byte.toNat)

def MemoryError.to_string : MemoryError → String
  | .EmptyReplacement => "replacement byte sequence is empty"
  | .LengthMismatch expected replacement =>
    s!"expected-byte length {expected} differs from replacement length {replacement}"
  | .AddressOverflow address length => s!"memory range 0x{upper_hex 8 address} + {length} overflows"
  | .QueryFailed address => s!"VirtualQuery failed at 0x{upper_hex 8 address}"
  | .NotReadable address protection =>
    s!"memory at 0x{upper_hex 8 address} is not readable (protection 0x{upper_hex 0 protection.toNat})"
  | .NotCommitted address => s!"memory at 0x{upper_hex 8 address} is not committed"
  | .CrossesProtectionRegion address length =>
    s!"write range 0x{upper_hex 8 address} + {length} crosses a virtual-memory protection region"
  | .UnexpectedBytes address expected replacement actual =>
    s!"unexpected bytes at 0x{upper_hex 8 address}: expected {format_bytes expected} or already-patched {format_bytes replacement}, found {format_bytes actual}"
  | .Protect address error => s!"VirtualProtect failed at 0x{upper_hex 8 address}: {error}"
  | .RestoreProtection address error =>
    s!"restoring memory protection failed at 0x{upper_hex 8 address}: {error}"
  | .FlushInstructionCache address error =>
    s!"FlushInstructionCache failed at 0x{upper_hex 8 address}: {error}"
  | .WriteVerification address expected actual =>
    s!"write verification failed at 0x{upper_hex 8 address}: expected {format_bytes expected}, found {format_bytes actual}"

end systemdetection.patches.memory
