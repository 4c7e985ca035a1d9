import SystemDetection.Platform.Text
import SystemDetection.Store.Template
import SystemDetection.Store.Windows

open store

namespace systemdetection.patches.sigscan

inductive ScanScope where
  | Code
  | ReadOnlyData
  deriving DecidableEq

def ScanScope.debug : ScanScope → String
  | .Code => "Code"
  | .ReadOnlyData => "ReadOnlyData"

inductive ScanError where
  | InvalidPattern (pattern : String)
  | ModuleInformation (error : String)
  | InvalidPe (reason : String)
  | UnreadableSection (name reason : String)
  | AddressOutsideImage (rva length : Nat)
  | AddressOutsideScope (rva length : Nat) (scope : ScanScope)
  deriving DecidableEq

def ScanError.to_string : ScanError → String
  | .InvalidPattern pattern => "invalid signature " ++ debug_str pattern
  | .ModuleInformation error => s!"could not query module information: {error}"
  | .InvalidPe reason => s!"invalid PE image: {reason}"
  | .UnreadableSection name reason => "PE section " ++ debug_str name ++ s!" is not readable: {reason}"
  | .AddressOutsideImage rva length =>
    s!"RVA 0x{upper_hex 8 rva} (length {length}) is outside the module image"
  | .AddressOutsideScope rva length scope =>
    s!"RVA 0x{upper_hex 8 rva} (length {length}) is outside {scope.debug} sections"

/-- `char::is_whitespace`: the Unicode `White_Space` property. -/
def is_whitespace (character : Char) : Bool :=
  let code := character.toNat
  (0x09 ≤ code && code ≤ 0x0D) || code == 0x20 || code == 0x85 || code == 0xA0 || code == 0x1680
    || (0x2000 ≤ code && code ≤ 0x200A) || code == 0x2028 || code == 0x2029 || code == 0x202F
    || code == 0x205F || code == 0x3000

def split_whitespace (text : List Char) : List (List Char) :=
  (text.splitOnP is_whitespace).filter (· ≠ [])

/-- `char::to_digit(16)`. -/
def to_digit (character : Char) : Option Nat :=
  if '0' ≤ character ∧ character ≤ '9' then some (character.toNat - '0'.toNat)
  else if 'a' ≤ character ∧ character ≤ 'f' then some (character.toNat - 'a'.toNat + 10)
  else if 'A' ≤ character ∧ character ≤ 'F' then some (character.toNat - 'A'.toNat + 10)
  else none

/-- The digits of `u8::from_str_radix`, accumulated with overflow checks. -/
def parse_digits (accumulated : Nat) : List Char → Option Nat
  | [] => some accumulated
  | character :: rest =>
    match to_digit character with
    | none => none
    | some digit =>
      if accumulated * 16 + digit < 256 then parse_digits (accumulated * 16 + digit) rest else none

/-- `u8::from_str_radix(part, 16)`. A leading `+` is accepted, a lone sign is not. -/
def from_str_radix : List Char → Option UInt8
  | [] => none
  | ['+'] => none
  | '+' :: digits => (parse_digits 0 digits).map UInt8.ofNat
  | digits => (parse_digits 0 digits).map UInt8.ofNat

/-- A parsed byte pattern. `none` entries are wildcards. -/
structure Pattern where
  bytes : List (Option UInt8)
  bytes_ne_nil : bytes ≠ []
  deriving DecidableEq

def parse_part (part : List Char) : Option (Option UInt8) :=
  if part = "??".toList ∨ part = "?".toList then some none else (from_str_radix part).map some

def Pattern.parse (pattern : String) : Except ScanError Pattern :=
  match (split_whitespace pattern.toList).mapM parse_part with
  | none => .error (.InvalidPattern pattern)
  | some bytes => if h : bytes = [] then .error (.InvalidPattern pattern) else .ok ⟨bytes, h⟩

def Pattern.len (pattern : Pattern) : Nat := pattern.bytes.length

theorem Pattern.len_pos (pattern : Pattern) : 0 < pattern.len :=
  List.length_pos_iff.mpr pattern.bytes_ne_nil

def Pattern.matches (pattern : Pattern) (candidate : List UInt8) : Bool :=
  (pattern.bytes.zip candidate).all fun (expected, actual) =>
    match expected with
    | none => true
    | some expected => expected == actual

def Pattern.find_offsets (pattern : Pattern) (bytes : List UInt8) : List Nat :=
  if bytes.length < pattern.len then [] else window_starts pattern.matches pattern.len bytes

/-- Every literal of the pattern stands in memory when it is laid at `start`. -/
def Pattern.MatchesAt (pattern : Pattern) (memory : Store UInt8) (start : Nat) : Prop :=
  ∀ position byte, pattern.bytes[position]? = some (some byte) → memory (start + position) = byte

/-- The literals of the pattern, at their positions. -/
def Pattern.cells (pattern : Pattern) : Footprint UInt8 :=
  pattern.bytes.zipIdx.filterMap fun (expected, position) => expected.map fun byte => (position, byte)

/-- A pattern matches where its cells are met. -/
theorem Pattern.cells_meets_iff {pattern : Pattern} {memory : Store UInt8} {start : Nat} :
    pattern.cells.Meets memory start ↔ pattern.MatchesAt memory start := by
  have hmem : ∀ position byte,
      (position, byte) ∈ pattern.cells ↔ pattern.bytes[position]? = some (some byte) := by
    intro position byte
    simp only [Pattern.cells, List.mem_filterMap, List.mem_zipIdx_iff_getElem?, Option.map_eq_some_iff,
      Prod.mk.injEq, Prod.exists]
    constructor
    · rintro ⟨_, _, hget, _, rfl, rfl, rfl⟩
      exact hget
    · intro hget
      exact ⟨_, _, hget, _, rfl, rfl, rfl⟩
  constructor
  · intro hmeets position byte hbyte
    exact hmeets _ ((hmem position byte).mpr hbyte)
  · rintro hmatches ⟨position, byte⟩ hcell
    exact hmatches position byte ((hmem position byte).mp hcell)

/-- The test on the bytes read there says the same. -/
theorem Pattern.matches_read_iff (pattern : Pattern) (memory : Store UInt8) (start : Nat) :
    pattern.matches (memory.read start pattern.len) = true ↔ pattern.MatchesAt memory start := by
  have hlength : (memory.read start pattern.len).length = pattern.bytes.length := by
    simp [Pattern.len]
  unfold Pattern.matches Pattern.MatchesAt
  rw [List.all_eq_true]
  constructor
  · intro hall position byte hbyte
    obtain ⟨hposition, hget⟩ := List.getElem?_eq_some_iff.mp hbyte
    have hcandidate : position < (memory.read start pattern.len).length := by omega
    have hzip : (some byte, memory (start + position)) ∈
        pattern.bytes.zip (memory.read start pattern.len) := by
      rw [List.mem_iff_getElem]
      refine ⟨position, by simpa [Pattern.len] using hposition, ?_⟩
      rw [List.getElem_zip, hget, Store.getElem_read]
    have h : (byte == memory (start + position)) = true := hall _ hzip
    exact (beq_iff_eq.mp h).symm
  · intro hmatch pair hpair
    obtain ⟨position, hposition, rfl⟩ := List.mem_iff_getElem.mp hpair
    rw [List.getElem_zip, Store.getElem_read]
    have hpattern : position < pattern.bytes.length := by
      simp only [List.length_zip] at hposition
      omega
    cases hbyte : pattern.bytes[position] with
    | none => rfl
    | some byte =>
      have h := hmatch position byte (by rw [List.getElem?_eq_getElem hpattern, hbyte])
      simpa using h.symm

/-- In bytes read from memory an offset is found exactly when the whole
pattern fits before the end and matches there. -/
theorem Pattern.mem_find_offsets_iff (pattern : Pattern) (memory : Store UInt8)
    (address length offset : Nat) :
    offset ∈ pattern.find_offsets (memory.read address length) ↔
      offset + pattern.len ≤ length ∧ pattern.MatchesAt memory (address + offset) := by
  unfold Pattern.find_offsets
  split
  · rename_i hshort
    rw [Store.length_read] at hshort
    simp only [List.not_mem_nil, false_iff, not_and]
    intro hfits
    omega
  · rw [mem_window_starts_iff, Store.length_read]
    constructor
    · rintro ⟨hfits, htest⟩
      rw [Store.window_of_read memory address length offset pattern.len (by omega),
        pattern.matches_read_iff] at htest
      exact ⟨by omega, htest⟩
    · rintro ⟨hfits, hmatch⟩
      rw [Store.window_of_read memory address length offset pattern.len hfits, pattern.matches_read_iff]
      exact ⟨by omega, hmatch⟩

/-- The matches are found in ascending order. -/
theorem Pattern.find_offsets_sorted (pattern : Pattern) (bytes : List UInt8) :
    (pattern.find_offsets bytes).Pairwise (· < ·) := by
  unfold Pattern.find_offsets
  split
  · exact .nil
  · exact window_starts_sorted _ _ _

end systemdetection.patches.sigscan
