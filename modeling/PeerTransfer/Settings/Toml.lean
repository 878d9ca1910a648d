import PeerTransfer.Failure
import PeerTransfer.Toml.Document

/-!
# Settings in TOML

Settings are written one to a line, in the order of the fields. A file need give only those that
differ from their defaults, and whatever else it says is ignored.
-/

namespace PeerTransfer.Settings

/-- The value that a document gives a key, or else the default. -/
def field {α : Type} (document : Toml.Members) (key : String) (read : Toml.Value → Option α)
    (default : α) : Option α :=
  match document.lookup key with
  | none => some default
  | some value => read value

/-- The text that a value is. -/
def asText? : Toml.Value → Option String
  | .text content => some content
  | _ => none

/-- The number below `bound` that a value is. -/
def asNat? (bound : Nat) : Toml.Value → Option Nat
  | .number (.whole (.ofNat n)) => if n < bound then some n else none
  | _ => none

/-- The truth value that a value is. -/
def asBool? : Toml.Value → Option Bool
  | .bool b => some b
  | _ => none

/-- The settings that a document gives, not yet examined. -/
def ofDocument? (document : Toml.Members) : Option Settings := do
  let localName ← field document "local_name" asText? defaults.localName
  let stagingFolder ← field document "staging_dir" asText? defaults.stagingFolder.text
  let downloadFolder ← field document "download_dir" asText? defaults.downloadFolder.text
  let units ← field document "max_concurrent_units" (asNat? UInt64.size)
    defaults.maxConcurrentUnits.toNat
  let quality ← field document "jpeg_quality" (asNat? UInt8.size) defaults.jpegQuality.toNat
  let releaseAfterStage ← field document "release_after_stage" asBool? defaults.releaseAfterStage
  return ⟨localName, ⟨stagingFolder⟩, ⟨downloadFolder⟩, UInt64.ofNat units, UInt8.ofNat quality,
    releaseAfterStage⟩

/-- Reads settings, and examines them. -/
def parse (source : String) : Except Failure Settings :=
  match Toml.parse? source >>= ofDocument? with
  | none => .error .unreadableSettings
  | some settings =>
    match settings.validate with
    | .error fault => .error (.invalidSettings fault)
    | .ok () => .ok settings

/-- One line: a key and its value. -/
def line (key : String) (value : List Char) : List Char :=
  key.toList ++ ' ' :: '=' :: ' ' :: value ++ ['\n']

/-- The lines of settings. -/
def lines (settings : Settings) : List Char :=
  line "local_name" (Toml.writeQuoted settings.localName) ++
  line "staging_dir" (Toml.writeQuoted settings.stagingFolder.text) ++
  line "download_dir" (Toml.writeQuoted settings.downloadFolder.text) ++
  line "max_concurrent_units" (Nat.repr settings.maxConcurrentUnits.toNat).toList ++
  line "jpeg_quality" (Nat.repr settings.jpegQuality.toNat).toList ++
  line "release_after_stage" (if settings.releaseAfterStage then "true" else "false").toList

/-- Writes settings; a number that has no 64 bits with a sign cannot be written. -/
def render (settings : Settings) : Except Failure String :=
  if Toml.isInt64 settings.maxConcurrentUnits.toNat then .ok (String.ofList settings.lines)
  else .error .unwritableSettings

/-- Reads the settings of a device from a file. Where there is none the defaults hold. -/
def load (path : Path) (disk : Disk) : Except Failure Settings :=
  if !disk.holds path then .ok defaults
  else match disk.readText path with
  | .error refusal => .error (.disk refusal)
  | .ok source => parse source

end PeerTransfer.Settings
