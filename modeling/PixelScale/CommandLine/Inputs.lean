import PixelScale.Host

/-!
# Inputs

An input is a file, a folder, which stands for the stylesheets below it, or a glob pattern. Every
file has a path of its own below the place where it is written: behind the folder, or behind the
part of the pattern that holds no wildcard, or its name alone. A file that was collected already is
not collected again.

* `collectInputs`: the files of a row of inputs.
-/

namespace PixelScale

open Host

variable {m : Type → Type} [Monad m] [Host m]

/-- A file with its path below the place where it is written. -/
structure Input where
  path : Path
  relative : Path
deriving DecidableEq, Repr

/-- Why inputs cannot be collected. -/
inductive InputError where
  | badPattern (pattern : Text) (p : Glob.Problem)
  | noMatch (pattern : Text)
deriving DecidableEq, Repr

def InputError.message : InputError → Text
  | badPattern pattern p =>
    "Invalid glob pattern '".toList ++ pattern ++ "': ".toList ++ p.message
  | noMatch pattern => "No files match '".toList ++ pattern ++ ['\'']

/-- The name of a file as a path, or the whole path if it does not end in a name. -/
def Path.nameOnly (p : Path) : Path :=
  match p.fileName? with
  | some t => ⟨t⟩
  | none => p

namespace Input

/-- A file that is named itself. -/
def alone (p : Path) : Input := ⟨p, p.nameOnly⟩

/-- A file found below a folder. -/
def below (folder p : Path) : Input :=
  match folder.relativeTo? p with
  | some r => ⟨p, r⟩
  | none => alone p

/-- A file found by a pattern with the given base. -/
def matched (base p : Path) : Input :=
  match base.relativeTo? p with
  | some r => if r.text.isEmpty then alone p else ⟨p, r⟩
  | none => alone p

/-- Inputs without those whose file stands among the earlier ones. -/
def distinct (earlier : List Input) : List Input → List Input
  | [] => []
  | i :: is =>
    if earlier.any fun j => j.path.same i.path then distinct earlier is
    else i :: distinct (i :: earlier) is

end Input

/-- The files that a pattern stands for. -/
def filesMatching (g : Glob) (d : Disk) : List Path :=
  (g.paths d).filter fun p => (d.look? p).any FileTree.isFile

/-- The pattern for the stylesheets below a folder. -/
def stylesheetsPattern (folder : Path) : Text := folder.text ++ "/**/*.css".toList

/-- The stylesheets below a folder, in the order of paths. -/
def findStylesheets (folder : Path) : m (List Path) := do
  match Glob.ofText (stylesheetsPattern folder) with
  | .ok g => return (filesMatching g (← survey g)).mergeSort fun p q => !q.before p
  | .error _ => return []

/-- The files of one input. -/
def collectInput (t : Text) : m (Except InputError (List Input)) := do
  let p : Path := ⟨t⟩
  if ← isFolder p then return .ok ((← findStylesheets p).map (Input.below p))
  else if ← isFile p then
    if !p.isStylesheet then
      warnLine ("Warning: '".toList ++ t ++ "' does not have a .css extension".toList)
    return .ok [.alone p]
  else
    match Glob.ofText t with
    | .error e => return .error (.badPattern t e)
    | .ok g =>
      let files := filesMatching g (← survey g)
      return if files.isEmpty then .error (.noMatch t)
        else .ok (files.map (Input.matched (Glob.base t)))

/-- The files of a row of inputs, up to the first one that is wrong. -/
def collectAll : List Text → m (Except InputError (List Input))
  | [] => return .ok []
  | t :: ts => do
    match ← collectInput t with
    | .error e => return .error e
    | .ok is =>
      match ← collectAll ts with
      | .error e => return .error e
      | .ok js => return .ok (is ++ js)

/-- The files of a row of inputs, each file once. -/
def collectInputs (ts : List Text) : m (Except InputError (List Input)) := do
  return (← collectAll ts).map (Input.distinct [])

end PixelScale
