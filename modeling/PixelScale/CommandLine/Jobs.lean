import PixelScale.CommandLine.Inputs
import PixelScale.Transform

/-!
# Jobs

A job reads a file, converts it, and writes the result to its destination. A plan for a row of
inputs gives every input a job, and no two jobs the same destination.

* `planJobs`: the jobs for inputs.
* `Job.run`: running a job.
-/

namespace PixelScale

open Host

variable {m : Type → Type} [Monad m] [Host m]

/-- Where a converted text goes. -/
inductive Destination where
  | stdout
  | file (p : Path)
  /-- nowhere -/
  | discard
deriving DecidableEq, Repr

structure Job where
  input : Path
  destination : Destination
deriving DecidableEq, Repr

/-- What the arguments say about destinations. -/
structure Target where
  check : Bool
  inPlace : Bool
  output : Option Path
  /-- whether the output is a folder, or written as one -/
  outputIsFolder : Bool
deriving DecidableEq, Repr

/-- Why there is no plan. -/
inductive PlanError where
  | noOutput
  | shared (p : Path)
deriving DecidableEq, Repr

def PlanError.message : PlanError → Text
  | noOutput => "Multiple inputs need --output <dir>, --in-place or --check".toList
  | shared p => "More than one input would be written to '".toList ++ p.text ++ ['\'']

/-- The destination of an input, which may be the single one. -/
def Target.destination (t : Target) (single : Bool) (i : Input) : Except PlanError Destination :=
  if t.check then .ok .discard
  else if t.inPlace then .ok (.file i.path)
  else
    match t.output with
    | some out =>
      if single && !t.outputIsFolder then .ok (.file out) else .ok (.file (out.join i.relative))
    | none => if single then .ok .stdout else .error .noOutput

/-- The first destination that an earlier job has, too. -/
def firstShared? (earlier : List Path) : List Job → Option Path
  | [] => none
  | ⟨_, .file p⟩ :: js => if earlier.any (·.same p) then some p else firstShared? (p :: earlier) js
  | _ :: js => firstShared? earlier js

/-- The jobs for inputs. -/
def planJobs (t : Target) (is : List Input) : Except PlanError (List Job) := do
  let jobs ← is.mapM fun i => do return Job.mk i.path (← t.destination (is.length == 1) i)
  match firstShared? [] jobs with
  | some p => .error (.shared p)
  | none => return jobs

/-- Why a job failed. -/
inductive JobError where
  | read (e : FileError)
  | parse (e : Stylesheet.SyntaxError)
  | makeFolder (p : Path) (e : FileError)
  | write (p : Path) (e : FileError)
deriving DecidableEq, Repr

/-- What is said about a file that cannot be written. -/
def writeMessage (p : Path) (e : FileError) : Text :=
  "Failed to write '".toList ++ p.text ++ "': ".toList ++ e.message

def JobError.message : JobError → Text
  | read e => "Failed to read: ".toList ++ e.message
  | parse e => e.message
  | makeFolder p e => "Failed to create '".toList ++ p.text ++ "': ".toList ++ e.message
  | write p e => writeMessage p e

namespace Job

/-- Writes a text to a file, in a folder that is made if it is not there. -/
def writeTo (p : Path) (t : Text) : m (Except JobError Unit) := do
  let made : Except JobError Unit ← match p.parent? with
    | some q =>
      if q.text.isEmpty then pure (.ok ())
      else do pure ((← makeFolders q).mapError (JobError.makeFolder q))
    | none => pure (.ok ())
  match made with
  | .error e => return .error e
  | .ok () => return (← write p t).mapError (JobError.write p)

/-- Whether a file is written: one that stands for itself is left alone if nothing changed. -/
def writes? (j : Job) (c : Converted) : Option Path :=
  match j.destination with
  | .file p => if 0 < c.changes || !p.same j.input then some p else none
  | _ => none

/-- Runs a job. -/
def run (s : OptionSet) (j : Job) : m (Except JobError Converted) := do
  match ← read j.input with
  | .error e => return .error (.read e)
  | .ok text =>
    match s.convert (some j.input.text) text with
    | .error e => return .error (.parse e)
    | .ok c =>
      match j.writes? c with
      | none => return .ok c
      | some p =>
        match ← writeTo p c.text with
        | .ok () => return .ok c
        | .error e => return .error e

end Job

end PixelScale
