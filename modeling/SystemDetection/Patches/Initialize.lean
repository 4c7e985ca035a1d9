import SystemDetection.Patches.Config
import SystemDetection.Patches.Report
import SystemDetection.Text.Utf16

open effect systemdetection.patches.sigscan

namespace systemdetection.patches

/-- A path as its wide units. -/
abbrev Path := List UInt16

/-- What `GetModuleFileNameW` leaves: the returned length, the units in the buffer,
and the text of the last error. -/
structure ModuleFileName where
  length : Nat
  buffer : Path
  error : String

structure IoError where
  not_found : Bool
  text : String

/-- The loader and the file system as they answer during the start-up, with the
path operations and the escapes of the standard library. A file that cannot be
written gives the text of the error. -/
structure Host where
  GetModuleFileNameW : Nat → Nat → ModuleFileName
  GetModuleHandleA : Except String (Nat × LoadedModule)
  read_to_string : Path → Except IoError (List Char)
  metadata_len : Path → Option Nat
  write : Path → String → Option String
  current_exe : Option Path
  parent : Path → Option Path
  join : Path → String → Path
  display : Path → String
  debug : List Char → String

/-- The loop of `module_path`, with a buffer of the given capacity. -/
def module_path_loop (GetModuleFileNameW : Nat → ModuleFileName) (capacity : Nat) (hcapacity : 0 < capacity) :
    Except String Path :=
  let answer := GetModuleFileNameW capacity
  if answer.length = 0 then
    .error answer.error
  else if answer.length < capacity then
    .ok (answer.buffer.take answer.length)
  else if _hlimit : 32768 ≤ capacity then
    .error "module path exceeds the Windows path limit"
  else
    module_path_loop GetModuleFileNameW (min (capacity * 2) 32768) (by omega)
termination_by 32768 - capacity

def module_path (host : Host) (module : Nat) : Except String Path :=
  module_path_loop (host.GetModuleFileNameW module) 260 (by decide)

/-- The file size by which `detect_build` tells the builds apart. -/
def module_file_size (host : Host) (module : Nat) : Option Nat :=
  (module_path host module).toOption.bind host.metadata_len

inductive ConfigSource where
  | Loaded
  | MissingUsingDefaults
  | ReadFailedUsingDefaults (error : String)

structure ConfigLoad where
  config : PatchConfig
  path : Path
  source : ConfigSource
  warnings : List String

def ConfigLoad.load (host : Host) (path : Path) : ConfigLoad :=
  match host.read_to_string path with
  | .ok contents =>
    let (config, warnings) := parse host.debug contents
    ⟨config, path, .Loaded, warnings⟩
  | .error error =>
    if error.not_found then ⟨.default, path, .MissingUsingDefaults, []⟩
    else ⟨.default, path, .ReadFailedUsingDefaults error.text, []⟩

def load_patch_config (host : Host) (self_module : Nat) : PatchConfig × String × List String :=
  match module_path host self_module with
  | .error error => (.default, s!"DLL path unavailable; using defaults ({error})", [])
  | .ok dll_path =>
    match host.parent dll_path with
    | none => (.default, "DLL directory unavailable; using defaults", [])
    | some directory =>
      let load := ConfigLoad.load host (host.join directory "fc2-systemdetection.ini")
      let path := host.display load.path
      let description := match load.source with
        | .Loaded => s!"loaded {path}"
        | .MissingUsingDefaults => s!"{path} not found; using defaults"
        | .ReadFailedUsingDefaults error => s!"could not read {path}; using defaults ({error})"
      (load.config, description, load.warnings)

/-- What leaves the library: a string for the debugger, or a file that is written. -/
inductive Output where
  | OutputDebugStringW (wide : List UInt16)
  | write (path : Path) (contents : String)
  deriving DecidableEq

/-- The log file: next to the library, or next to the program if that is unknown. -/
def log_path (host : Host) (self_module : Nat) : Option Path :=
  let directory := (module_path host self_module).toOption.bind host.parent
  (directory.or (host.current_exe.bind host.parent)).map fun directory => host.join directory "fc2-systemdetection.log"

def emit_report (host : Host) (self_module : Nat) (report : String) : List Output :=
  .OutputDebugStringW (utf16.encode report.toList ++ [0]) ::
    match log_path host self_module with
    | none => []
    | some path =>
      .write path report ::
        match host.write path report with
        | none => []
        | some error =>
          let name := host.display path
          [.OutputDebugStringW (utf16.encode (s!"fc2-systemdetection: could not write {name}: {error}\x00").toList)]

/-- `Dunia.dll` as the loader knows it, with the size of its file on disk. -/
def loaded_dunia (host : Host) : Except String LoadedModule :=
  host.GetModuleHandleA.map fun (dunia, module) => { module with file_size := module_file_size host dunia }

variable {σ : Type}

/-- The report that `initialize` emits. -/
def configured_run (host : Host) (os : Os σ) (self_module : Nat) : Action (World σ) (Stop Empty) PatchReport := do
  let (config, configuration, configuration_warnings) := load_patch_config host self_module
  let report ← run os (loaded_dunia host) config
  pure { report with configuration := some configuration, warnings := configuration_warnings }

/-- Apply the configured patch set once runtime initialization is outside the
Windows loader lock. -/
def initialize_patches (host : Host) (os : Os σ) (self_module : Nat) :
    Action (World σ) (Stop Empty) (List Output) := do
  let report ← configured_run host os self_module
  pure (emit_report host self_module report.to_string)

end systemdetection.patches
