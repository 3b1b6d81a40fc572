import TiBench.Compare.Error
import TiBench.Compare.Mask
import TiBench.Config
import TiBench.Volume.Error

/-!
# Failures of commands

Every reason for which a command fails.
-/

namespace TiBench.Cli

/-- Why a command fails. -/
inductive Error where
  /-- The command makes no sense as it is given. -/
  | invalidCommand
  /-- A parameter is out of range. -/
  | outOfRange
  | unknownFormat
  | missingTool (name : String)
  | scenariosFailed (count : Nat)
  | file (error : FileError)
  /-- A file that must be text is no UTF-8. -/
  | notText
  | volume (error : Volume.VolumeError)
  | plan (error : Sample.PlanError)
  | compare (error : Compare.CompareError)
  | config (error : ConfigError)
deriving DecidableEq, Repr

/-- The wording of a failure. -/
def Error.message : Error → String
  | .invalidCommand => "Command could not be interpreted"
  | .outOfRange => "One of the parameters was out of range"
  | .unknownFormat => "Input source could not be interpreted"
  | .missingTool name => "Tool `" ++ name ++ "` is not configured"
  | .scenariosFailed count => s!"{count} scenarios failed"
  | .file error => error.message
  | .notText => "stream did not contain valid UTF-8"
  | .volume error => error.message
  | .plan error => error.message
  | .compare error => error.message
  | .config error => error.message

end TiBench.Cli
