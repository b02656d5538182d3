import PixelScale.CommandLine.Convert
import PixelScale.CommandLine.Template

/-!
# Running commands

* `runCommandLine`: runs the command that arguments ask for.
-/

namespace PixelScale

open Host

variable {m : Type → Type} [Monad m] [Host m]

namespace Command

/-- What is said about a file that no options are for. -/
def excludedText (file : Option Text) : Text :=
  ['\''] ++ file.getD [] ++ "' is excluded by every option entry".toList

/-- Converts a single value, whatever its property and selector. -/
def runValue (text : Text) (file : Option Text) (a : OptionArguments) : m ExitCode := do
  match ← a.load with
  | .error e => complain .badArguments e.message
  | .ok s =>
    match s.select file with
    | some settings => printLine (settings.converter.value text)
    | none =>
      warnLine ("Warning: ".toList ++ excludedText file)
      printLine text
    return .success

/-- Prints the options for a file. -/
def runConfig (file : Option Text) (a : OptionArguments) : m ExitCode := do
  match ← a.load with
  | .error e => complain .badArguments e.message
  | .ok s =>
    match s.select file with
    | some settings =>
      printLine (settings.options.toJson.printLines 0)
      return .success
    | none => complain .failure (excludedText file)

/-- Writes the starter configuration. -/
def runInit (folder : Path) (force : Bool) : m ExitCode := do
  let p := folder.join configName
  if !force && (← exists? p) then
    let code ← complain .failure (['\''] ++ p.text ++ "' already exists".toList)
    warnLine "Use --force to overwrite it".toList
    return code
  else
    match ← makeFolders folder with
    | .error e =>
      complain .failure
        ("Failed to create directory '".toList ++ folder.text ++ "': ".toList ++ e.message)
    | .ok () =>
      match ← write p configTemplate with
      | .error e => complain .failure (writeMessage p e)
      | .ok () =>
        printLine ("Created ".toList ++ p.text)
        return .success

def run : Command → m ExitCode
  | convert a => a.run
  | value text file a => runValue text file a
  | config file a => runConfig file a
  | init folder force => runInit folder force

end Command

def versionText : Text := "px2unit 0.1.0".toList

def usageText : Text :=
  "Usage: px2unit <convert|value|config|init> [arguments]".toList

/-- Runs the command that arguments ask for. -/
def runCommandLine (arguments : List Text) : m ExitCode := do
  match Command.ofArguments arguments with
  | .ok c => c.run
  | .error .version =>
    printLine versionText
    return .success
  | .error .help =>
    printLine usageText
    return .success
  | .error .usage =>
    warnLine usageText
    return .badArguments

end PixelScale
