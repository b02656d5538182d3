import PixelScale.Files.Disk
import PixelScale.Files.Glob

/-!
# What a command asks of its surroundings

Commands are written over these operations and nothing else, so that the same command runs on a
real system and on a machine in memory.
-/

namespace PixelScale

inductive FileKind where
  | file
  | folder
deriving DecidableEq, Repr

class Host (m : Type → Type) where
  /-- the path of the working folder, from the root -/
  workingFolder : m Path
  /-- the value of an environment variable -/
  variableValue? : Text → m (Option Text)
  /-- what a path leads to -/
  kind? : Path → m (Option FileKind)
  /-- a disk that agrees with the real one wherever the pattern can lead -/
  survey : Glob → m Disk
  read : Path → m (Except FileError Text)
  /-- makes a file hold a text and nothing else -/
  write : Path → Text → m (Except FileError Unit)
  /-- puts a text behind what a file holds -/
  append : Path → Text → m (Except FileError Unit)
  /-- makes a folder, whose parent must be there -/
  makeFolder : Path → m (Except FileError Unit)
  /-- everything on standard input -/
  input : m (Except FileError Text)
  /-- whether someone types on standard input -/
  isInteractive : m Bool
  /-- writes to standard output -/
  print : Text → m Unit
  /-- writes to standard error -/
  warn : Text → m Unit
  /-- the seconds since the start of 1970 -/
  seconds : m Nat

namespace Host

variable {m : Type → Type} [Monad m] [Host m]

def isFile (p : Path) : m Bool := do return (← kind? p) = some .file

def isFolder (p : Path) : m Bool := do return (← kind? p) = some .folder

def exists? (p : Path) : m Bool := do return (← kind? p).isSome

def printLine (t : Text) : m Unit := print (t ++ ['\n'])

def warnLine (t : Text) : m Unit := warn (t ++ ['\n'])

/-- Makes a folder, with all folders around it. The first argument bounds their number. A folder that
is there already is no error. -/
def makeFoldersWithin : Nat → Path → m (Except FileError Unit)
  | 0, _ => return .ok ()
  | fuel + 1, p => do
    if p.text.isEmpty then return .ok ()
    let again : m (Except FileError Unit) := do
      match ← makeFolder p with
      | .ok () => return .ok ()
      | .error e => return if ← isFolder p then .ok () else .error e
    match ← makeFolder p with
    | .ok () => return .ok ()
    | .error .notFound =>
      match p.parent? with
      | none => return .error (.other "failed to create whole tree".toList)
      | some q =>
        match ← makeFoldersWithin fuel q with
        | .ok () => again
        | .error e => return .error e
    | .error e => return if ← isFolder p then .ok () else .error e

/-- Makes a folder, with all folders around it. -/
def makeFolders (p : Path) : m (Except FileError Unit) := makeFoldersWithin (p.text.length + 1) p

end Host

end PixelScale
