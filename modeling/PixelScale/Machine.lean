import PixelScale.Host

/-!
# A machine in memory

A machine is a disk with the rest of what commands ask for: variables, standard input, a clock, and
what was written to standard output and standard error so far.
-/

namespace PixelScale

structure Machine where
  disk : Disk
  environment : List (Text × Text) := []
  input : Content := .text []
  interactive : Bool := false
  printed : Text := []
  warned : Text := []
  seconds : Nat := 0

namespace Machine

/-- A change of the disk, if it succeeds. -/
def update (f : Disk → Except FileError Disk) : StateM Machine (Except FileError Unit) := do
  let s ← get
  match f s.disk with
  | .ok disk =>
    set { s with disk }
    return .ok ()
  | .error e => return .error e

instance : Host (StateM Machine) where
  workingFolder := do return ⟨'/' :: Text.join ['/'] (← get).disk.working⟩
  variableValue? name := do return (← get).environment.lookup name
  kind? p := do
    return ((← get).disk.look? p).map fun t => if t.isFolder then .folder else .file
  survey _ := do return (← get).disk
  read p := do return (← get).disk.read p
  write p t := update fun d => d.write p t
  append p t := update fun d => d.append p t
  makeFolder p := update fun d => d.makeFolder p
  input := do
    match (← get).input with
    | .text t => return .ok t
    | .binary _ => return .error .notText
  isInteractive := do return (← get).interactive
  print t := modify fun s => { s with printed := s.printed ++ t }
  warn t := modify fun s => { s with warned := s.warned ++ t }
  seconds := do return (← get).seconds

end Machine

end PixelScale
