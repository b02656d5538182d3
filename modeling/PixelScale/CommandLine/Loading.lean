import PixelScale.CommandLine.Arguments
import PixelScale.Options.Configuration
import PixelScale.Host

/-!
# Loading options

The options of a command come from a configuration file and from its arguments, which are laid over
every record of the file. The file is the one that is named, or else the nearest `px2unit.toml` in
the working folder or a folder around it, or else the one in the user's folder for configurations.

* `OptionArguments.load`: the option set for a command.
-/

namespace PixelScale

open Host

variable {m : Type → Type} [Monad m] [Host m]

def configName : Path := ⟨"px2unit.toml".toList⟩

namespace Path

/-- A path with the paths of the folders around it. The first argument bounds their number. -/
def outward : Nat → Path → List Path
  | 0, p => [p]
  | fuel + 1, p =>
    match p.parent? with
    | some q => p :: outward fuel q
    | none => [p]

/-- A path with the paths of the folders around it. -/
def selfAndParents (p : Path) : List Path := outward p.text.length p

end Path

/-- The first path that leads to something. -/
def firstThatExists : List Path → m (Option Path)
  | [] => return none
  | p :: ps => do if ← exists? p then return some p else firstThatExists ps

/-- The user's folder for configurations. -/
def userFolder? : m (Option Path) := do
  match ← variableValue? "XDG_CONFIG_HOME".toList with
  | some t => return some ⟨t⟩
  | none =>
    return (← variableValue? "HOME".toList).map fun t => Path.join ⟨t⟩ ⟨".config".toList⟩

/-- The configuration file for commands that name none. -/
def findConfig : m (Option Path) := do
  let here ← workingFolder
  match ← firstThatExists (here.selfAndParents.map fun p => p.join configName) with
  | some p => return some p
  | none =>
    match ← userFolder? with
    | some p => firstThatExists [(p.join ⟨"px2unit".toList⟩).join configName]
    | none => return none

/-- The option set of a file. -/
def loadFile (p : Path) : m (Except ConfigError OptionSet) := do
  match ← read p with
  | .ok t => return OptionSet.ofText (.ofExtension p.extension?) t
  | .error e => return .error (.unreadable e)

/-- The rules that arguments write. -/
def rulesOf (arguments : List Text) : Except ConfigError (List MatchRule) :=
  arguments.mapM fun t => (MatchRule.ofArgument t).mapError (.badRule t)

namespace OptionArguments

/-- The record that is laid over every record of a configuration. -/
def overrides (a : OptionArguments) : Except ConfigError Record := do
  let selectorBlackList ← a.selectorBlackList.mapM rulesOf
  let excludeFiles ← a.exclude.mapM rulesOf
  return { a.record with selectorBlackList, excludeFiles }

/-- The option set in front of the overrides. -/
def loadBase (a : OptionArguments) : m (Except ConfigError OptionSet) := do
  if a.noConfig then return .ok OptionSet.default
  else
    let p ← match a.config with
      | some p => pure (some p)
      | none => findConfig
    match p with
    | some p => loadFile p
    | none => return .ok OptionSet.default

/-- The option set for a command. -/
def load (a : OptionArguments) : m (Except ConfigError OptionSet) := do
  match ← a.loadBase with
  | .ok s => return do (s.override (← a.overrides)).validated
  | .error e => return .error e

end OptionArguments

end PixelScale
