import PixelScale.Files.Error
import PixelScale.Options.Coding
import PixelScale.Options.Format

/-!
# Errors of configurations

* `ConfigError.message`: what is said about an error.
-/

namespace PixelScale

/-- A value out of its range, with the position of its record if there are several records. -/
structure PlacedProblem where
  position : Option Nat
  problem : Options.Problem

def PlacedProblem.message (p : PlacedProblem) : Text :=
  match p.position with
  | some i => "options[".toList ++ Text.ofNat i ++ "]: ".toList ++ p.problem.message
  | none => p.problem.message

/-- Why there are no options. -/
inductive ConfigError where
  | unreadable (e : FileError)
  /-- the text is not of its format -/
  | malformed (format : ConfigFormat)
  | record (e : RecordError)
  /-- a value that should have been a record -/
  | noRecord (found : Json)
  /-- a list of records beside fields of a record -/
  | mixed
  /-- a match rule on the command line whose regular expression is refused -/
  | badRule (argument : Text) (cause : Regex.Refusal)
  | problems (ps : List PlacedProblem)

namespace ConfigError

/-- What is said in front of the reason why a text is not of its format. -/
def malformedMessage : ConfigFormat → Text
  | .toml => "Failed to parse TOML config: ".toList
  | .json => "Invalid options: ".toList
  | .json5 => "Failed to parse JSON5 config: ".toList

/-- The reason why a text is not of its format. It is left to the reader to find the place. -/
def malformedReason : Text := "malformed text".toList

def message : ConfigError → Text
  | unreadable e => "Failed to read config: ".toList ++ e.message
  | malformed format => malformedMessage format ++ malformedReason
  | record e => "Invalid options: ".toList ++ e.message
  | noRecord found =>
    "Invalid options: expected an options object, got ".toList ++ found.print
  | mixed => "Invalid options: 'options' cannot be mixed with top-level option keys".toList
  | badRule argument cause =>
    "Invalid options: ".toList ++ RecordError.badPatternMessage argument cause
  | problems ps =>
    "Config validation failed:\n".toList ++
      Text.join ['\n'] (ps.map fun p => "  - ".toList ++ p.message)

end ConfigError

end PixelScale
