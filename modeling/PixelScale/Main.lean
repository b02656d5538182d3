import PixelScale.CommandLine.Run
import Std.Time.DateTime.Timestamp

/-!
# The program

Runs the command that the arguments ask for on the real system. Only this module does anything; all
others say what is to be done.
-/

namespace PixelScale.Program

/-- Why an operation failed, as far as the system says it in a way that the library knows. -/
def reason (e : IO.Error) : FileError :=
  match e with
  | .noFileOrDirectory .. => .notFound
  | .alreadyExists .. => .alreadyExists
  | .inappropriateType _ code _ => if code = 20 then .notDirectory else .isDirectory
  | .invalidArgument _ code details =>
    if code = 36 then .nameTooLong else .other details.toList
  | e => .other e.toString.toList

/-- The result of an operation that may fail. -/
def attempt {α : Type} (action : IO α) : IO (Except FileError α) := do
  try return .ok (← action)
  catch e => return .error (reason e)

def string (t : Text) : String := String.ofList t

/-- The text that bytes hold. -/
def decode (bytes : ByteArray) : Except FileError Text :=
  match String.fromUTF8? bytes with
  | some s => .ok s.toList
  | none => .error .notText

/-- The names in a folder, if the path leads to one. -/
def names? (path : String) : IO (Option (List Text)) := do
  let place := (← IO.currentDir) / path
  match ← attempt place.readDir with
  | .ok entries => return some (entries.toList.map fun e => e.fileName.toList)
  | .error _ => return none

/-- Whether a path leads to something that can be opened. -/
def opens (path : String) : IO Bool := do
  match ← attempt (IO.FS.Handle.mk path .read) with
  | .ok _ => return true
  | .error _ => return false

def kind? (path : String) : IO (Option FileKind) := do
  if path.isEmpty then return none
  else if (← names? path).isSome then return some .folder
  else if ← opens path then return some .file
  else return none

/-- What a path leads to, down to the given depth, with empty files. -/
def load : Nat → String → IO FileTree
  | 0, path => do return if (← names? path).isSome then .folder [] else .file (.text [])
  | depth + 1, path => do
    match ← names? path with
    | none => return .file (.text [])
    | some names =>
      let mut entries := []
      for name in names do
        let t ← load depth (path ++ "/" ++ string name)
        entries := FileTree.insertEntry name t entries
      return .folder entries

/-- How deep a pattern without a bound looks. Links can lead in circles. -/
def deepest : Nat := 40

/-- Where a path leads if no links are on the way. -/
def location (p : Path) : Location :=
  p.components.foldl
    (fun l c =>
      match c with
      | .name t => l ++ [t]
      | .up => l.dropLast
      | .here => l
      | .root => [])
    []

/-- The part of the real disk that a pattern can lead to. -/
def survey (here : Path) (g : Glob) : IO Disk := do
  let start := here.join g.start
  let working := location here
  let above : Disk := ⟨.folder [], working⟩
  let found ← if (← kind? (string start.text)).isSome then do
      let tree ← load (g.depth?.getD deepest) (string start.text)
      pure { above with root := above.root.put (location start) tree }
    else pure above
  if found.isFolderAt working then return found
  else return { found with root := found.root.put working (.folder []) }

/-- Everything on a stream, behind what was read of it. -/
partial def readAll (stream : IO.FS.Stream) (front : ByteArray) : IO ByteArray := do
  let more ← stream.read 65536
  if more.isEmpty then return front else readAll stream (front ++ more)

instance : Host IO where
  workingFolder := do return ⟨(← IO.currentDir).toString.toList⟩
  variableValue? name := do return (← IO.getEnv (string name)).map String.toList
  kind? p := kind? (string p.text)
  survey g := do survey ⟨(← IO.currentDir).toString.toList⟩ g
  read p := do return (← attempt (IO.FS.readBinFile (string p.text))).bind decode
  write p t := attempt (IO.FS.writeFile (string p.text) (string t))
  append p t := attempt do (← IO.FS.Handle.mk (string p.text) .append).putStr (string t)
  makeFolder p := attempt (IO.FS.createDir (string p.text))
  input := do
    match ← attempt (do readAll (← IO.getStdin) .empty) with
    | .ok bytes => return decode bytes
    | .error e => return .error e
  isInteractive := do (← IO.getStdin).isTty
  print t := do (← IO.getStdout).putStr (string t)
  warn t := do (← IO.getStderr).putStr (string t)
  seconds := do return (← Std.Time.Timestamp.now).toSecondsSinceUnixEpoch.val.toNat

end PixelScale.Program

def main (arguments : List String) : IO UInt32 := do
  let code ← PixelScale.runCommandLine (m := IO) (arguments.map String.toList)
  return UInt32.ofNat code.toNat
