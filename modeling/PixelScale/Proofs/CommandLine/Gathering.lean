import PixelScale.Proofs.CommandLine.Outcomes

/-!
# In front of the jobs

A command with input files loads its options, collects its inputs and plans its jobs before it runs
any. The first two do not depend on what becomes of the converted files. They may end the command,
with an exit code that does not depend on it either.

* `ConvertArguments.gather`: loading and collecting; `ConvertArguments.run_eq_gather`.
* `ConvertArguments.gather_cases`: what is gathered, or why the command is refused.
* `ConvertArguments.collected_spec`: what is known about collected files.
-/

namespace PixelScale

/-- Collected inputs have paths with different components. -/
theorem pairwise_distinct (earlier is : List Input) :
    (Input.distinct earlier is).Pairwise (fun i j => ¬i.path.same j.path) ∧
      ∀ i ∈ Input.distinct earlier is, ∀ j ∈ earlier, ¬j.path.same i.path := by
  induction is generalizing earlier with
  | nil => exact ⟨.nil, nofun⟩
  | cons i is ih =>
    unfold Input.distinct
    split
    next => exact ih earlier
    next hnew =>
      obtain ⟨hpairwise, hrest⟩ := ih (i :: earlier)
      refine ⟨.cons (fun j hj => hrest j hj i List.mem_cons_self) hpairwise, fun k hk j hj => ?_⟩
      rcases List.mem_cons.mp hk with rfl | hk
      · simp only [List.any_eq_true, not_exists, not_and] at hnew
        exact hnew j hj
      · exact hrest k hk j (List.mem_cons_of_mem i hj)

namespace ConvertArguments

section

variable {m : Type → Type} [Monad m] [Host m]

/-- What a command does with input files before it plans: it loads its options and collects its
inputs, or it ends. None of this depends on what becomes of the converted files. -/
def gather (a : ConvertArguments) : m (Except ExitCode (OptionSet × List Input)) := do
  if a.stdin then
    return .error (← complain .badArguments "--stdin cannot be combined with input files".toList)
  else
    match ← a.options.load with
    | .error e => return .error (← complain .badArguments e.message)
    | .ok set =>
      match ← collectInputs a.inputs with
      | .error e => return .error (← complain .failure e.message)
      | .ok [] => return .error (← complain .failure "No .css files found".toList)
      | .ok inputs => return .ok (set, inputs)

/-- What a command without output does with what it gathered. -/
def finish (a : ConvertArguments) : Except ExitCode (OptionSet × List Input) → m ExitCode
  | .error code => return code
  | .ok (set, inputs) =>
    match planJobs ⟨a.check, a.inPlace, none, false⟩ inputs with
    | .error e => complain .badArguments e.message
    | .ok jobs => runJobs set a.report jobs

theorem finish_of_plan {a : ConvertArguments} {inputs : List Input} {jobs : List Job}
    (h : planJobs ⟨a.check, a.inPlace, none, false⟩ inputs = .ok jobs) (set : OptionSet) :
    (a.finish (.ok (set, inputs)) : m ExitCode) = runJobs set a.report jobs := by
  simp only [finish, h]

theorem finish_of_no_plan {a : ConvertArguments} {inputs : List Input} {e : PlanError}
    (h : planJobs ⟨a.check, a.inPlace, none, false⟩ inputs = .error e) (set : OptionSet) :
    (a.finish (.ok (set, inputs)) : m ExitCode) = complain .badArguments e.message := by
  simp only [finish, h]

theorem run_eq_gather [LawfulMonad m] {a : ConvertArguments} (hinputs : a.inputs ≠ [])
    (houtput : a.output = none) : (a.run : m ExitCode) = (do
      let _ ← Host.isInteractive
      a.finish (← a.gather)) := by
  have htarget : (a.target : m Target) = pure ⟨a.check, a.inPlace, none, false⟩ := by
    unfold target
    rw [houtput]
    exact pure_bind _ _
  rw [run_of_inputs hinputs fun _ => houtput]
  refine bind_congr fun _ => ?_
  unfold gather
  cases a.stdin with
  | true =>
    simp only [if_true, bind_assoc, pure_bind, finish, bind_pure]
  | false =>
    simp only [Bool.false_eq_true, if_false, bind_assoc]
    refine bind_congr fun r => ?_
    cases r with
    | error e => simp only [bind_assoc, pure_bind, finish, bind_pure]
    | ok set =>
      unfold runFiles
      simp only [bind_assoc]
      refine bind_congr fun r => ?_
      cases r with
      | error e => simp only [bind_assoc, pure_bind, finish, bind_pure]
      | ok inputs =>
        cases inputs with
        | nil => simp only [bind_assoc, pure_bind, finish, bind_pure]
        | cons i is =>
          rw [pure_bind]
          exact (congrArg (· >>= _) htarget).trans (pure_bind _ _)

end

variable {a : ConvertArguments}

/-- The files that the inputs of a command stand for, or none if they cannot be collected. -/
def collected (a : ConvertArguments) (s : Machine) : List Input :=
  match ((collectInputs a.inputs : StateM Machine _).run s).1 with
  | .ok inputs => inputs
  | .error _ => []

/-- A command is refused in front of its jobs. -/
def Refused (a : ConvertArguments) (s : Machine) : Prop :=
  a.stdin = true ∨ (∃ e, ((a.options.load : StateM Machine _).run s).1 = .error e) ∨
    a.collected s = []

/-- A command gathers the files it collects and the options it loads, unless it is refused. -/
theorem gather_cases (a : ConvertArguments) (s : Machine) :
    ((a.gather : StateM Machine _).run s).2.disk = s.disk ∧
    ((∃ code, ((a.gather : StateM Machine _).run s).1 = .error code ∧ code ≠ .success ∧
        a.Refused s) ∨
      ∃ set, ((a.gather : StateM Machine _).run s).1 = .ok (set, a.collected s) ∧
        ((a.options.load : StateM Machine _).run s).1 = .ok set ∧ ¬a.Refused s) := by
  unfold gather
  by_cases hstdin : a.stdin = true
  · rw [if_pos hstdin]
    exact ⟨rfl, .inl ⟨_, rfl, nofun, .inl hstdin⟩⟩
  · rw [if_neg hstdin, Machine.run_bind, (looks_load a.options).run_eq s]
    cases hload : ((a.options.load : StateM Machine _).run s).1 with
    | error e => exact ⟨rfl, .inl ⟨_, rfl, nofun, .inr (.inl ⟨e, hload⟩)⟩⟩
    | ok set =>
      obtain ⟨hdisk, -⟩ := inspects_collectInputs a.inputs s rfl
      have hcollected : a.collected s =
          match ((collectInputs a.inputs : StateM Machine _).run s).1 with
          | .ok inputs => inputs
          | .error _ => [] := rfl
      dsimp only
      rw [Machine.run_bind]
      cases hcollect : ((collectInputs a.inputs : StateM Machine _).run s).1 with
      | error e =>
        rw [hcollect] at hcollected
        exact ⟨hdisk, .inl ⟨_, rfl, nofun, .inr (.inr hcollected)⟩⟩
      | ok inputs =>
        rw [hcollect] at hcollected
        cases inputs with
        | nil => exact ⟨hdisk, .inl ⟨_, rfl, nofun, .inr (.inr hcollected)⟩⟩
        | cons i is =>
          refine ⟨hdisk, .inr ⟨set, by rw [hcollected]; rfl, rfl, ?_⟩⟩
          rintro (h | ⟨e, h⟩ | h)
          · exact hstdin h
          · rw [hload] at h
            cases h
          · rw [hcollected] at h
            cases h

/-- Collected files are files with different components. -/
theorem collected_spec (a : ConvertArguments) (s : Machine) :
    (a.collected s).Pairwise (fun i j => ¬i.path.same j.path) ∧
      ∀ i ∈ a.collected s, s.disk.LeadsToFile i.path := by
  obtain ⟨-, hfiles⟩ := inspects_collectInputs a.inputs s rfl
  unfold collected
  cases hcollect : ((collectInputs a.inputs : StateM Machine _).run s).1 with
  | error e => exact ⟨.nil, nofun⟩
  | ok inputs =>
    refine ⟨?_, hfiles inputs hcollect⟩
    have hdistinct : ((collectAll a.inputs : StateM Machine _).run s).1.map (Input.distinct []) =
        .ok inputs := hcollect
    cases hall : ((collectAll a.inputs : StateM Machine _).run s).1 with
    | error e =>
      rw [hall] at hdistinct
      cases hdistinct
    | ok is =>
      rw [hall] at hdistinct
      cases hdistinct
      exact (pairwise_distinct [] is).1

end ConvertArguments

end PixelScale
