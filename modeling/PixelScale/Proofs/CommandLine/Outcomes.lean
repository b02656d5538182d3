import PixelScale.Proofs.CommandLine.Jobs
import PixelScale.Proofs.CommandLine.Looking

/-!
# What comes of each job

A command looks at its surroundings before it runs any job, and leaves everything as it is until
then. Jobs are run in turn, so what comes of a job is told from the machine that the jobs in front
of it leave. A job fails for one of three reasons and no other: its input cannot be read, its text is
no stylesheet, or what is made of it cannot be written.

* `Job.Fails`: why a job fails; `Job.exists_error_iff_fails`.
* `outcomes_eq`: what comes of jobs in turn.
* `Disk.Grows.inTurn`: jobs in turn write to their destinations and nowhere else.
* `ConvertArguments.Plans`, `ConvertArguments.TakesStdin`: commands that get as far as jobs, or as
  standard input; `ConvertArguments.Plans.run_eq`, `ConvertArguments.TakesStdin.run_eq`.
-/

namespace PixelScale

open Disk (Grows)

/-! ## Why a job fails -/

/-- A text that is no stylesheet is not converted, and every other one is. -/
theorem OptionSet.convert_eq_error_iff {set : OptionSet} {source : Option Text} {text : Text}
    {e : Stylesheet.SyntaxError} :
    set.convert source text = .error e ↔ Stylesheet.parse text = .error e := by
  unfold OptionSet.convert
  cases Stylesheet.parse text with
  | error e' => exact ⟨fun h => by cases h; rfl, fun h => by cases h; rfl⟩
  | ok sheet => exact ⟨nofun, nofun⟩

/-- A job cannot read its input, finds no stylesheet in it, or cannot write what it makes of it. -/
inductive Job.Fails (set : OptionSet) (s : Machine) (j : Job) : Prop
  | read {e : FileError} (h : s.disk.read j.input = .error e)
  | parse {text : Text} {e : Stylesheet.SyntaxError} (h : s.disk.read j.input = .ok text)
      (hparse : Stylesheet.parse text = .error e)
  | write {text : Text} {c : Converted} {p : Path} {e : JobError}
      (h : s.disk.read j.input = .ok text)
      (hconvert : set.convert (some j.input.text) text = .ok c) (hp : j.writes? c = some p)
      (hwrite : ((Job.writeTo p c.text : StateM Machine _).run s).1 = .error e)

section

variable {set : OptionSet} {j : Job} {s : Machine}

theorem Machine.run_read (s : Machine) (p : Path) :
    (Host.read p : StateM Machine _).run s = (s.disk.read p, s) := rfl

theorem Machine.run_append (s : Machine) (p : Path) (t : Text) :
    (Host.append p t : StateM Machine _).run s =
      match s.disk.append p t with
      | .ok disk => (.ok (), { s with disk })
      | .error e => (.error e, s) := run_update s _

theorem run_andGive (c : Converted) (x : StateM Machine (Except JobError Unit)) (s : Machine) :
    (do match ← x with
        | .ok () => return .ok c
        | .error e => return .error e : StateM Machine (Except JobError Converted)).run s =
      ((x.run s).1.map fun _ => c, (x.run s).2) := by
  rw [Machine.run_bind]
  cases (x.run s).1 <;> rfl

/-- How a job runs, step by step. -/
theorem Job.run_eq (set : OptionSet) (j : Job) (s : Machine) :
    (j.run set : StateM Machine _).run s =
      match s.disk.read j.input with
      | .error e => (.error (.read e), s)
      | .ok text =>
        match set.convert (some j.input.text) text with
        | .error e => (.error (.parse e), s)
        | .ok c =>
          match j.writes? c with
          | none => (.ok c, s)
          | some p =>
            let r := (Job.writeTo p c.text : StateM Machine _).run s
            (r.1.map fun _ => c, r.2) := by
  unfold Job.run
  rw [StateT.run_bind, Machine.run_read]
  cases s.disk.read j.input with
  | error e => rfl
  | ok text =>
    dsimp only [bind, pure]
    cases set.convert (some j.input.text) text with
    | error e => rfl
    | ok c =>
      dsimp only
      cases j.writes? c with
      | none => rfl
      | some p => exact run_andGive c _ s

/-- A job that has an error fails for one of three reasons, and for each of them it has one. -/
theorem Job.exists_error_iff_fails :
    (∃ e, ((j.run set : StateM Machine _).run s).1 = .error e) ↔ j.Fails set s := by
  rw [Job.run_eq]
  constructor
  · rintro ⟨e, he⟩
    cases hread : s.disk.read j.input with
    | error e' => exact .read hread
    | ok text =>
      cases hconvert : set.convert (some j.input.text) text with
      | error e' => exact .parse hread (OptionSet.convert_eq_error_iff.mp hconvert)
      | ok c =>
        simp only [hread, hconvert] at he
        cases hp : j.writes? c with
        | none =>
          rw [hp] at he
          cases he
        | some p =>
          rw [hp] at he
          cases hwrite : ((Job.writeTo p c.text : StateM Machine _).run s).1 with
          | ok u =>
            simp only [hwrite, Except.map] at he
            cases he
          | error e' => exact .write hread hconvert hp hwrite
  · intro h
    cases h with
    | read h => exact ⟨_, by rw [h]⟩
    | parse h hparse => exact ⟨_, by simp only [h, OptionSet.convert_eq_error_iff.mpr hparse]; rfl⟩
    | write h hconvert hp hwrite =>
      exact ⟨_, by simp only [h, hconvert, hp, hwrite, Except.map]; rfl⟩

end

/-! ## Jobs in turn -/

section

variable {set : OptionSet} {jobs : List Job} {j : Job} {s s' : Machine}

/-- What comes of each job if they are run in turn. -/
def outcomes (set : OptionSet) (jobs : List Job) (s : Machine) :
    List (Job × Except JobError Converted) :=
  ((jobs.mapM fun j => do return (j, ← j.run set) : StateM Machine _).run s).1

theorem inTurn_cons (set : OptionSet) (j : Job) (jobs : List Job) (s : Machine) :
    inTurn set (j :: jobs) s = inTurn set jobs ((j.run set : StateM Machine _).run s).2 := by
  rw [inTurn, inTurn, List.mapM_cons]
  rfl

theorem outcomes_cons (set : OptionSet) (j : Job) (jobs : List Job) (s : Machine) :
    outcomes set (j :: jobs) s = (j, ((j.run set : StateM Machine _).run s).1) ::
      outcomes set jobs ((j.run set : StateM Machine _).run s).2 := by
  rw [outcomes, outcomes, List.mapM_cons]
  rfl

/-- What comes of a job is told from the machine that the jobs in front of it leave. -/
theorem outcomes_eq (set : OptionSet) (jobs : List Job) (s : Machine) :
    outcomes set jobs s =
      jobs.mapIdx fun k j => (j, ((j.run set : StateM Machine _).run
        (inTurn set (jobs.take k) s)).1) := by
  induction jobs generalizing s with
  | nil => rfl
  | cons j jobs ih =>
    rw [outcomes_cons, ih, List.mapIdx_cons]
    congr 1
    refine List.mapIdx_eq_mapIdx_iff.mpr fun k hk => ?_
    rw [List.take_succ_cons, inTurn_cons]

theorem map_fst_outcomes (set : OptionSet) (jobs : List Job) (s : Machine) :
    (outcomes set jobs s).map Prod.fst = jobs := by
  induction jobs generalizing s with
  | nil => rfl
  | cons j jobs ih => rw [outcomes_cons, List.map_cons, ih]

theorem mem_of_mem_outcomes {r : Job × Except JobError Converted} (h : r ∈ outcomes set jobs s) :
    r.1 ∈ jobs := by
  rw [← map_fst_outcomes set jobs s]
  exact List.mem_map_of_mem h

/-- A job writes to its destination and nowhere else. -/
theorem Job.grows_run (hj : j.Ready s.disk) :
    Grows (fun _ => True) (· ∈ j.goals s.disk) s.disk
      ((j.run set : StateM Machine _).run s).2.disk := by
  have hmeets : (j.run set : Process Machine _).Meets _ _ _ s := Job.meets_run hj
  have h := hmeets.execute_keeps Job.rely_refl
    (fun s₁ s₂ => Grows (fun _ => True) (· ∈ j.goals s.disk) s₁.disk s₂.disk)
    (fun s₁ => Grows.refl s₁.disk) (fun _ _ _ h h' => Grows.trans h h')
    (fun s₁ s₂ h => Grows.mono h (fun _ _ => trivial) fun _ hx => hx)
  rwa [Process.execute_run] at h

/-- A job stays ready while others make folders and write files. -/
theorem Job.Ready.grows {makes writes : Location → Prop} {d d' : Disk} (hj : j.Ready d)
    (h : Grows makes writes d d') : j.Ready d' := by
  refine ⟨h.leadsToFile hj.input, fun p hp => ?_⟩
  rw [h.start_eq]
  exact h.folder (hj.start p hp)

theorem Job.mem_goals_iff {d : Disk} {x : Location} :
    x ∈ j.goals d ↔ ∃ p, j.destination = .file p ∧ x = d.goal p := by
  unfold goals
  cases j.destination <;> simp

theorem Job.goals_grows {makes writes : Location → Prop} {d d' : Disk}
    (h : Grows makes writes d d') (j : Job) : j.goals d' = j.goals d := by
  unfold goals
  split
  · rw [h.goal_eq]
  · rfl
  · rfl

/-- Jobs in turn write to their destinations and nowhere else. -/
theorem Disk.Grows.inTurn (hready : ∀ j ∈ jobs, j.Ready s.disk) :
    Grows (fun _ => True) (fun x => ∃ j ∈ jobs, x ∈ j.goals s.disk) s.disk
      (inTurn set jobs s).disk := by
  induction jobs generalizing s with
  | nil => exact Grows.refl s.disk
  | cons j jobs ih =>
    have hfirst : Grows _ _ s.disk ((j.run set : StateM Machine _).run s).2.disk :=
      Job.grows_run (hready j List.mem_cons_self)
    have hrest := ih fun k hk => (hready k (List.mem_cons_of_mem j hk)).grows hfirst
    rw [inTurn_cons]
    refine (hfirst.mono (fun _ _ => trivial) fun x hx => ?_).trans
      (hrest.mono (fun _ _ => trivial) fun x hx => ?_)
    · exact ⟨j, List.mem_cons_self, hx⟩
    · obtain ⟨k, hk, hx⟩ := hx
      rw [Job.goals_grows hfirst] at hx
      exact ⟨k, List.mem_cons_of_mem j hk, hx⟩

end

/-! ## As far as jobs -/

/-- Every planned job is that of an input. -/
theorem exists_input_of_planJobs {t : Target} {is : List Input} {jobs : List Job}
    (h : planJobs t is = .ok jobs) :
    ∀ j ∈ jobs, ∃ i ∈ is, j.input = i.path ∧
      t.destination (is.length == 1) i = .ok j.destination := by
  obtain ⟨hforall, -⟩ := planJobs_spec h
  generalize hsingle : (is.length == 1) = single at hforall
  clear h hsingle
  induction hforall with
  | nil => exact nofun
  | @cons i j is jobs hij _ ih =>
    intro k hk
    rcases List.mem_cons.mp hk with rfl | hk
    · exact ⟨i, List.mem_cons_self, hij⟩
    · obtain ⟨i', hi', h⟩ := ih k hk
      exact ⟨i', List.mem_cons_of_mem i hi', h⟩

namespace ConvertArguments

section

variable {m : Type → Type} [Monad m] [Host m] {a : ConvertArguments}

/-- A command with inputs. -/
theorem run_of_inputs (hinputs : a.inputs ≠ []) (houtput : a.inPlace = true → a.output = none) :
    (a.run : m ExitCode) = (do
      let _ ← Host.isInteractive
      if a.stdin then
        complain .badArguments "--stdin cannot be combined with input files".toList
      else
        match ← a.options.load with
        | .error e => complain .badArguments e.message
        | .ok set => a.runFiles set) := by
  have hempty : a.inputs.isEmpty = false := List.isEmpty_eq_false_iff.mpr hinputs
  have hboth : (a.inPlace && a.output.isSome) = false := by
    cases h : a.inPlace with
    | false => rfl
    | true =>
      rw [houtput h]
      rfl
  unfold run
  simp only [hempty, hboth]
  refine congrArg _ (funext fun interactive => ?_)
  cases a.stdin with
  | true => rfl
  | false =>
    -- no refusal applies
    iterate 4 refine (if_neg Bool.false_ne_true).trans ?_
    rfl

/-- A command without inputs. -/
theorem run_of_no_inputs (hinputs : a.inputs = []) (hinPlace : a.inPlace = false) :
    (a.run : m ExitCode) = (do
      let interactive ← Host.isInteractive
      if a.stdin || !interactive then
        match ← a.options.load with
        | .error e => complain .badArguments e.message
        | .ok set => a.runStdin set
      else complain .badArguments "No input files (pass paths, or pipe CSS on stdin)".toList) := by
  have hempty : a.inputs.isEmpty = true := List.isEmpty_iff.mpr hinputs
  unfold run
  simp only [hempty, hinPlace]
  refine congrArg _ (funext fun interactive => ?_)
  cases a.stdin with
  | true => rfl
  | false => cases interactive <;> rfl

end

variable {a : ConvertArguments} {s s' : Machine} {set : OptionSet} {inputs : List Input}
  {jobs : List Job}

/-- A command whose options load, whose inputs are collected and planned, and what they are. The
second machine is what collecting leaves, which may have been warned. -/
structure Plans (a : ConvertArguments) (s : Machine) (set : OptionSet) (inputs : List Input)
    (jobs : List Job) (s' : Machine) : Prop where
  given : a.stdin = false ∧ a.inputs ≠ []
  compatible : a.inPlace = true → a.output = none
  loaded : ((a.options.load : StateM Machine _).run s).1 = .ok set
  collected : (collectInputs a.inputs : StateM Machine _).run s = (.ok inputs, s')
  found : inputs ≠ []
  planned : planJobs ((a.target : StateM Machine _).run s').1 inputs = .ok jobs

/-- A command that takes standard input, and its options. -/
structure TakesStdin (a : ConvertArguments) (s : Machine) (set : OptionSet) : Prop where
  given : a.stdin = true ∨ s.interactive = false
  noInputs : a.inputs = []
  notInPlace : a.inPlace = false
  loaded : ((a.options.load : StateM Machine _).run s).1 = .ok set

/-- A command that plans jobs runs them. -/
theorem Plans.run_eq (h : a.Plans s set inputs jobs s') :
    (a.run : StateM Machine _).run s = (runJobs set a.report jobs : StateM Machine _).run s' := by
  have hload := (looks_load a.options).run_eq s
  have htarget := (looks_target a).run_eq s'
  rw [h.loaded] at hload
  have hfiles : (a.runFiles set : StateM Machine _).run s =
      (runJobs set a.report jobs : StateM Machine _).run s' := by
    unfold runFiles
    rw [Machine.run_bind, h.collected]
    obtain ⟨i, is, rfl⟩ := List.exists_cons_of_ne_nil h.found
    dsimp only
    rw [Machine.run_bind, htarget]
    dsimp only
    rw [h.planned]
  rw [run_of_inputs h.given.2 h.compatible, StateT.run_bind]
  change (if a.stdin then _ else _ : StateM Machine _).run s = _
  rw [h.given.1, if_neg Bool.false_ne_true, StateT.run_bind, hload]
  exact hfiles

/-- A command that takes standard input runs on it. -/
theorem TakesStdin.run_eq (h : a.TakesStdin s set) :
    (a.run : StateM Machine _).run s = (a.runStdin set : StateM Machine _).run s := by
  have hload := (looks_load a.options).run_eq s
  rw [h.loaded] at hload
  have hreads : (a.stdin || !s.interactive) = true := by
    rcases h.given with hstdin | hinteractive
    · rw [hstdin]
      rfl
    · rw [hinteractive]
      exact Bool.or_true _
  rw [run_of_no_inputs h.noInputs h.notInPlace, StateT.run_bind]
  change (if (a.stdin || !s.interactive) = true then _ else _ : StateM Machine _).run s = _
  rw [hreads, if_pos rfl, StateT.run_bind, hload]
  rfl

/-- The jobs of a plan can run, if the working folder is one. -/
theorem Plans.ready (h : a.Plans s set inputs jobs s')
    (hworking : s.disk.stands? s.disk.working = some .folder) : ∀ j ∈ jobs, j.Ready s'.disk := by
  obtain ⟨hdisk, hfiles⟩ := inspects_collectInputs a.inputs s rfl
  rw [h.collected] at hdisk hfiles
  intro j hj
  obtain ⟨i, hi, hinput, -⟩ := exists_input_of_planJobs h.planned j hj
  rw [hdisk]
  refine ⟨?_, fun p _ => Disk.stands?_start hworking p⟩
  rw [hinput]
  exact hfiles inputs rfl i hi

end ConvertArguments

end PixelScale
