import PeerTransfer.Path
import PeerTransfer.Text.Blank

/-!
# Settings

What a device is called, where it keeps its files, and how it transfers them. Every setting has a
default.
-/

namespace PeerTransfer

/-- The settings of a device. -/
structure Settings where
  /-- The name announced to peers, and the sender of outgoing batches. -/
  localName : String
  /-- Where the local copies of outgoing files are kept until they are staged. -/
  stagingFolder : Path
  /-- Where incoming files are put. -/
  downloadFolder : Path
  /-- How many units of a batch are worked on at a time. -/
  maxConcurrentUnits : UInt64
  /-- The quality at which photographs are written anew. -/
  jpegQuality : UInt8
  /-- Local copies are deleted once their batch is published. -/
  releaseAfterStage : Bool
  deriving DecidableEq, Repr

namespace Settings

/-- Why settings cannot be used. -/
inductive Invalid where
  | blankName
  | noConcurrency
  | badQuality (quality : UInt8)
  deriving DecidableEq, Repr

/-- The wording of a fault. -/
def Invalid.message : Invalid → String
  | blankName => "local_name must not be empty"
  | noConcurrency => "max_concurrent_units must be at least 1"
  | badQuality quality => s!"jpeg_quality must be within 1..=100, got {quality}"

/-- Settings with all files kept below one folder. -/
def withRoot (root : Path) : Settings where
  localName := "arkdrop"
  stagingFolder := root.join "staging"
  downloadFolder := root.join "downloads"
  maxConcurrentUnits := 8
  jpegQuality := 100
  releaseAfterStage := true

/-- The settings of a device that was told nothing. -/
def defaults : Settings :=
  withRoot ⟨"/tmp/arkdrop"⟩

instance : Inhabited Settings := ⟨defaults⟩

/-- Reports the first fault of the settings. -/
def validate (settings : Settings) : Except Invalid Unit :=
  if Text.isBlank settings.localName then .error .blankName
  else if settings.maxConcurrentUnits = 0 then .error .noConcurrency
  else if settings.jpegQuality = 0 ∨ 100 < settings.jpegQuality then
    .error (.badQuality settings.jpegQuality)
  else .ok ()

end Settings

end PeerTransfer
