import PixelScale.CommandLine.Convert
import PixelScale.Machine

/-!
# Commands that only look

A machine in memory can be watched: each path that is written to is noted, and a command does the
same as on the machine that is watched. A command that only looks leaves a machine as it is, and
nothing is noted.

* `Watched`, `Watched.watch`: watched machines, and commands on them that write nothing.
* `Looks`: a command that only looks; `looks_load`, `looks_target`.
-/

namespace PixelScale

/-- A machine with the paths that were written to so far. -/
structure Watched where
  machine : Machine
  written : List Path := []

namespace Watched

variable {α β : Type}

/-- What a command does to the machine, with nothing noted. -/
def watch (x : StateM Machine α) : StateM Watched α := fun w =>
  ((x.run w.machine).1, { w with machine := (x.run w.machine).2 })

/-- What is noted if something is written to a path. -/
def noted {ε : Type} (p : Path) : Except ε Unit → List Path
  | .ok _ => [p]
  | .error _ => []

/-- What a command does to the machine, with the path that it writes to noted if it succeeds. -/
def note (p : Path) (x : StateM Machine (Except FileError Unit)) :
    StateM Watched (Except FileError Unit) := fun w =>
  ((x.run w.machine).1, ⟨(x.run w.machine).2, w.written ++ noted p (x.run w.machine).1⟩)

/-- The operations on a machine. Writing and appending are noted. -/
instance : Host (StateM Watched) where
  workingFolder := watch Host.workingFolder
  variableValue? name := watch (Host.variableValue? name)
  kind? p := watch (Host.kind? p)
  survey g := watch (Host.survey g)
  read p := watch (Host.read p)
  write p t := note p (Host.write p t)
  append p t := note p (Host.append p t)
  makeFolder p := watch (Host.makeFolder p)
  input := watch Host.input
  isInteractive := watch Host.isInteractive
  print t := watch (Host.print t)
  warn t := watch (Host.warn t)
  seconds := watch Host.seconds

theorem watch_bind (x : StateM Machine β) (f : β → StateM Machine α) :
    watch (x >>= f) = watch x >>= fun b => watch (f b) := rfl

end Watched

open Watched (watch watch_bind)

theorem Machine.run_bind {α β : Type} (x : StateM Machine α) (f : α → StateM Machine β)
    (s : Machine) : (x >>= f).run s = (f (x.run s).1).run (x.run s).2 := rfl

/-- A command that leaves a machine as it is, here with the same command on watched machines. -/
structure Looks {α : Type} (x : StateM Watched α) (y : StateM Machine α) : Prop where
  watched : watch y = x
  reads : ∀ s, (y.run s).2 = s

namespace Looks

variable {α β : Type}

theorem pure (a : α) : Looks (pure a) (pure a) := ⟨rfl, fun _ => rfl⟩

theorem bind {x : StateM Watched β} {y : StateM Machine β} {f : β → StateM Watched α}
    {g : β → StateM Machine α} (hx : Looks x y) (hf : ∀ b, Looks (f b) (g b)) :
    Looks (x >>= f) (y >>= g) := by
  refine ⟨?_, fun s => ?_⟩
  · rw [watch_bind, hx.watched]
    exact bind_congr fun b => (hf b).watched
  · rw [Machine.run_bind, hx.reads s]
    exact (hf _).reads s

theorem run_eq {x : StateM Watched α} {y : StateM Machine α} (h : Looks x y) (s : Machine) :
    y.run s = ((y.run s).1, s) :=
  Prod.ext rfl (h.reads s)

end Looks

theorem looks_workingFolder : Looks Host.workingFolder Host.workingFolder := ⟨rfl, fun _ => rfl⟩

theorem looks_variableValue? (name : Text) :
    Looks (Host.variableValue? name) (Host.variableValue? name) := ⟨rfl, fun _ => rfl⟩

theorem looks_kind? (p : Path) : Looks (Host.kind? p) (Host.kind? p) := ⟨rfl, fun _ => rfl⟩

theorem looks_read (p : Path) : Looks (Host.read p) (Host.read p) := ⟨rfl, fun _ => rfl⟩

theorem looks_isFolder (p : Path) : Looks (Host.isFolder p) (Host.isFolder p) :=
  (looks_kind? p).bind fun _ => .pure _

theorem looks_exists? (p : Path) : Looks (Host.exists? p) (Host.exists? p) :=
  (looks_kind? p).bind fun _ => .pure _

theorem looks_firstThatExists (ps : List Path) :
    Looks (firstThatExists ps) (firstThatExists ps) := by
  induction ps with
  | nil => exact .pure none
  | cons p ps ih =>
    unfold firstThatExists
    refine (looks_exists? p).bind fun b => ?_
    cases b with
    | false => exact ih
    | true => exact .pure _

theorem looks_userFolder? : Looks userFolder? userFolder? := by
  unfold userFolder?
  refine (looks_variableValue? _).bind fun t => ?_
  cases t with
  | some t => exact .pure _
  | none => exact (looks_variableValue? _).bind fun _ => .pure _

theorem looks_findConfig : Looks findConfig findConfig := by
  unfold findConfig
  refine looks_workingFolder.bind fun here => (looks_firstThatExists _).bind fun p => ?_
  cases p with
  | some p => exact .pure _
  | none =>
    refine looks_userFolder?.bind fun folder => ?_
    cases folder with
    | some folder => exact looks_firstThatExists _
    | none => exact .pure _

theorem looks_loadFile (p : Path) : Looks (loadFile p) (loadFile p) := by
  unfold loadFile
  refine (looks_read p).bind fun r => ?_
  cases r with
  | ok t => exact .pure _
  | error e => exact .pure _

theorem looks_loadFile? (p : Option Path) : Looks (match p with
    | some p => loadFile p
    | none => return .ok OptionSet.default) (match p with
    | some p => loadFile p
    | none => return .ok OptionSet.default) := by
  cases p with
  | some p => exact looks_loadFile p
  | none => exact .pure _

theorem looks_loadBase (a : OptionArguments) : Looks a.loadBase a.loadBase := by
  unfold OptionArguments.loadBase
  split
  · exact .pure _
  · cases a.config with
    | some p => exact .bind (.pure _) looks_loadFile?
    | none => exact .bind looks_findConfig looks_loadFile?

/-- Loading options changes nothing. -/
theorem looks_load (a : OptionArguments) : Looks a.load a.load := by
  unfold OptionArguments.load
  refine (looks_loadBase a).bind fun r => ?_
  cases r with
  | ok s => exact .pure _
  | error e => exact .pure _

/-- Without a configuration and arguments, the options are the default ones. -/
theorem load_default (s : Machine) :
    ((({ noConfig := true } : OptionArguments).load : StateM Machine _).run s).1 =
      .ok OptionSet.default := by
  have hproblems : OptionSet.default.problems.isEmpty = true := by decide +kernel
  change OptionSet.default.validated = _
  rw [OptionSet.validated, if_pos hproblems]

/-- Looking for the destinations changes nothing. -/
theorem looks_target (a : ConvertArguments) : Looks a.target a.target := by
  unfold ConvertArguments.target
  cases a.output with
  | none => exact .pure _
  | some p => exact .bind (.bind (looks_isFolder p) fun _ => .pure _) fun _ => .pure _

end PixelScale
