import SystemDetection.Patches.Run
import SystemDetection.Platform.Str

open systemdetection.patches.sigscan

namespace systemdetection.patches

/-- `str::trim`. -/
def trim (text : List Char) : List Char := trim_matches is_whitespace text

def to_ascii_lowercase (text : List Char) : String := String.ofList (text.map Char.toLower)

def eq_ignore_ascii_case (left : List Char) (right : String) : Bool :=
  to_ascii_lowercase left = to_ascii_lowercase right.toList

def parse_bool (value : List Char) : Option Bool :=
  match to_ascii_lowercase value with
  | "1" | "true" | "yes" | "on" => some true
  | "0" | "false" | "no" | "off" => some false
  | _ => none

/-- The assignment to the option of a key, if there is one. -/
def assign_option (config : PatchConfig) (key : String) (enabled : Bool) : Option PatchConfig :=
  match key with
  | "jackal_tapes" => some { config with jackal_tapes := enabled }
  | "devmode_always_on" => some { config with devmode_always_on := enabled }
  | "predecessor_tapes" => some { config with predecessor_tapes := enabled }
  | "machetes" => some { config with machetes := enabled }
  | "no_blinking_items" => some { config with no_blinking_items := enabled }
  | _ => none

/-- The variables of the loop of `parse`. -/
structure ParseState where
  config : PatchConfig
  warnings : List String
  in_patches_section : Bool

def ParseState.initial : ParseState := ⟨.default, [], true⟩

def ParseState.warn (state : ParseState) (warning : String) : ParseState :=
  { state with warnings := state.warnings ++ [warning] }

/-- The value of an assignment, without its comment. -/
def strip_comment (raw_value : List Char) : List Char :=
  match split_once (fun character => character == '#' || character == ';') raw_value with
  | some (value, _) => value
  | none => raw_value

/-- One round of the loop of `parse`. The text `{value:?}` of a value is given by `debug`:
its escapes of characters beyond ASCII follow the Unicode tables. -/
def parse_line (debug : List Char → String) (state : ParseState) (line_number : Nat) (raw_line : List Char) :
    ParseState :=
  let line := trim raw_line
  if line = [] ∨ line.head? = some '#' ∨ line.head? = some ';' then
    state
  else if line.head? = some '[' ∧ line.getLast? = some ']' then
    let section_name := trim ((line.take (line.length - 1)).drop 1)
    { state with in_patches_section := eq_ignore_ascii_case section_name "patches" }
  else if !state.in_patches_section then
    state
  else
    match split_once (· == '=') line with
    | none => state.warn s!"line {line_number}: expected key = value"
    | some (raw_key, raw_value) =>
      let key := to_ascii_lowercase (trim raw_key)
      let value := trim (strip_comment raw_value)
      match parse_bool value with
      | none => state.warn s!"line {line_number}: invalid Boolean value {debug value} for {key}"
      | some enabled =>
        match assign_option state.config key enabled with
        | some config => { state with config }
        | none => state.warn s!"line {line_number}: unknown patch option {debug key.toList}"

def parse_lines (debug : List Char → String) (state : ParseState) (line_number : Nat) :
    List (List Char) → ParseState
  | [] => state
  | raw_line :: rest =>
    parse_lines debug (parse_line debug state line_number raw_line) (line_number + 1) rest

/-- `trim_start_matches('\u{feff}')`. -/
def trim_byte_order_mark (contents : List Char) : List Char := contents.dropWhile (· == '\uFEFF')

def parse (debug : List Char → String) (contents : List Char) : PatchConfig × List String :=
  let state := parse_lines debug .initial 1 (lines (trim_byte_order_mark contents))
  (state.config, state.warnings)

end systemdetection.patches
