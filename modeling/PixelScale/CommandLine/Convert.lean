import PixelScale.CommandLine.Jobs
import PixelScale.CommandLine.Loading
import PixelScale.RunLog

/-!
# Converting files and standard input

All jobs are run before anything is said about them. Messages, the converted text and the entries of
the run log follow in the order of the inputs. The exit code tells whether something failed or, if
nothing is written, whether something would change.

* `ConvertArguments.run`: running the command.
-/

namespace PixelScale

open Host

variable {m : Type → Type} [Monad m] [Host m]

/-- How a command ended. -/
inductive ExitCode where
  | success
  | failure
  | badArguments
deriving DecidableEq, Repr

def ExitCode.toNat : ExitCode → Nat
  | success => 0
  | failure => 1
  | badArguments => 2

/-- Says what went wrong. -/
def complain (code : ExitCode) (t : Text) : m ExitCode := do
  warnLine ("Error: ".toList ++ t)
  return code

/-- Puts entries behind a run log, if one is asked for. -/
def writeLog (log : Option Path) (entries : List RunLog.Entry) : m Unit := do
  match log with
  | none => return ()
  | some p =>
    match ← append p (RunLog.lines entries) with
    | .ok () => return ()
    | .error e =>
      warnLine ("Warning: Failed to write report '".toList ++ p.text ++ "': ".toList ++ e.message)

/-- The number of changes, in parentheses. -/
def changesText (n : Nat) : Text := " (".toList ++ Text.ofNat n ++ " changes)".toList

/-- What is said about a job that succeeded, if anything is. -/
def Job.remark? (j : Job) (c : Converted) : Option Text :=
  match c.report with
  | none => some ("Skipped ".toList ++ j.input.text ++ " (excluded)".toList)
  | some _ =>
    if c.changes = 0 then none
    else
      match j.destination with
      | .discard => some ("Would convert ".toList ++ j.input.text ++ changesText c.changes)
      | .file p =>
        some ("Converted ".toList ++ j.input.text ++ " -> ".toList ++ p.text ++
          changesText c.changes)
      | .stdout => none

/-- The entry of the run log for a job. -/
def Job.entry (timestamp : Text) (j : Job) : Except JobError Converted → RunLog.Entry
  | .ok c => .finished timestamp j.input.text c.report
  | .error e => .failed timestamp j.input.text e.message

/-- Says how a job ended. -/
def Job.announce (j : Job) : Except JobError Converted → m Unit
  | .error e => warnLine ("Error: ".toList ++ j.input.text ++ ": ".toList ++ e.message)
  | .ok c => do
    if j.destination = .stdout then print c.text
    match j.remark? c with
    | some t => warnLine t
    | none => return ()

/-- Whether a job failed, or would change something if it wrote. -/
def Job.alarms (j : Job) : Except JobError Converted → Bool
  | .error _ => true
  | .ok c => j.destination == .discard && 0 < c.changes

def isAlarm : Job × Except JobError Converted → Bool
  | (j, outcome) => j.alarms outcome

/-- The time as text. -/
def timestamp : m Text := do return Timestamp.ofSeconds (← seconds)

/-- Announces jobs and gives their entries of the run log. -/
def announceAll : List (Job × Except JobError Converted) → m (List RunLog.Entry)
  | [] => return []
  | (j, outcome) :: rest => do
    j.announce outcome
    let entry := j.entry (← timestamp) outcome
    return entry :: (← announceAll rest)

/-- Runs jobs. -/
def runJobs (s : OptionSet) (log : Option Path) (jobs : List Job) : m ExitCode := do
  let results ← jobs.mapM fun j => do return (j, ← j.run s)
  writeLog log (← announceAll results)
  return if results.any isAlarm then .failure else .success

/-- The name of standard input in messages. -/
def stdinName : Text := "<stdin>".toList

namespace ConvertArguments

/-- Converts standard input. -/
def runStdin (a : ConvertArguments) (s : OptionSet) : m ExitCode := do
  let name := a.stdinPath.getD stdinName
  match ← input with
  | .error e => complain .failure ("Failed to read stdin: ".toList ++ e.message)
  | .ok text =>
    match s.convert a.stdinPath text with
    | .error e =>
      let code ← complain .failure (name ++ ": ".toList ++ e.message)
      writeLog a.report [.failed (← timestamp) name e.message]
      return code
    | .ok c =>
      writeLog a.report [.finished (← timestamp) name c.report]
      if a.check then return if 0 < c.changes then .failure else .success
      else
        match a.output with
        | none =>
          print c.text
          return .success
        | some p =>
          match ← write p c.text with
          | .ok () => return .success
          | .error e => complain .failure (writeMessage p e)

/-- Whether a path is a folder or written as one. -/
def isFolderTarget (p : Path) : m Bool := do
  return (← isFolder p) || p.text.getLast? = some '/'

/-- What the arguments say about destinations. -/
def target (a : ConvertArguments) : m Target := do
  let outputIsFolder ← match a.output with
    | some p => isFolderTarget p
    | none => pure false
  return ⟨a.check, a.inPlace, a.output, outputIsFolder⟩

/-- Converts files. -/
def runFiles (a : ConvertArguments) (s : OptionSet) : m ExitCode := do
  match ← collectInputs a.inputs with
  | .error e => complain .failure e.message
  | .ok [] => complain .failure "No .css files found".toList
  | .ok inputs =>
    match planJobs (← a.target) inputs with
    | .error e => complain .badArguments e.message
    | .ok jobs => runJobs s a.report jobs

/-- Runs the command. -/
def run (a : ConvertArguments) : m ExitCode := do
  let readsStdin := a.stdin || (a.inputs.isEmpty && !(← isInteractive))
  if a.inPlace && a.output.isSome then
    complain .badArguments "--in-place cannot be combined with --output".toList
  else if readsStdin && !a.inputs.isEmpty then
    complain .badArguments "--stdin cannot be combined with input files".toList
  else if readsStdin && a.inPlace then
    complain .badArguments "--in-place needs input files".toList
  else if !readsStdin && a.inputs.isEmpty then
    complain .badArguments "No input files (pass paths, or pipe CSS on stdin)".toList
  else
    match ← a.options.load with
    | .error e => complain .badArguments e.message
    | .ok s => if readsStdin then a.runStdin s else a.runFiles s

end ConvertArguments

end PixelScale
