import PixelScale.CommandLine.Run
import PixelScale.Proofs.CommandLine.Arguments
import PixelScale.Proofs.CommandLine.Logging
import PixelScale.Proofs.CommandLine.Watching

/-!
# What a check predicts

With `--check`, files are converted and not written. With `--in-place`, a file is written if
something in it changes. As long as nothing changes, every job of the second command starts from the
files that the first one sees, so the check succeeds if and only if the second command does and
writes no file. Whether it writes one is not told from the files, since a file may be given what it
held.

Once something changes, later jobs may see other files. A file that cannot be converted still makes
both commands fail if no two inputs are the same file.

* `calm_check_iff`, `calm_replace_iff`: both commands are silent about the same files.
* `alarm_check`, `alarm_replace`: both fail on the same files.
* `check_anyOrder`, `replace_anyOrder`: jobs that access the disk in any order.
* `ConvertArguments.Predicts`: what a check tells about replacing files.
* `check_predicts_inPlace`: whole commands.
-/

namespace PixelScale

open Disk (Grows)

variable {set : OptionSet} {s s' : Machine} {d : Disk} {i : Input} {inputs : List Input}

/-! ## Jobs -/

namespace Input

/-- The job that only checks a file. -/
def check (i : Input) : Job := ⟨i.path, .discard⟩

/-- The job that replaces a file. -/
def replace (i : Input) : Job := ⟨i.path, .file i.path⟩

/-- A file is a stylesheet in which nothing changes. -/
def Settled (set : OptionSet) (d : Disk) (i : Input) : Prop :=
  ∃ c, i.check.converted set d = .ok c ∧ c.changes = 0

theorem settled_iff_replace : i.Settled set d ↔
    ∃ c, i.replace.converted set d = .ok c ∧ c.changes = 0 := Iff.rfl

end Input

/-- What a job makes of its input depends on what it reads only. -/
theorem Job.converted_congr {d' : Disk} {j : Job} (h : d'.read j.input = d.read j.input) :
    j.converted set d' = j.converted set d := by
  unfold converted
  rw [h]

/-- A job that does not write its conversion only gives it. -/
theorem Job.run_of_writes?_eq_none {j : Job}
    (h : ∀ c, j.converted set s.disk = .ok c → j.writes? c = none) :
    (j.run set : StateM Machine _).run s = (j.converted set s.disk, s) := by
  rw [Job.run_eq]
  unfold Job.converted at h ⊢
  cases hread : s.disk.read j.input with
  | error e => rfl
  | ok text =>
    rw [hread] at h
    dsimp only at h ⊢
    cases hconvert : set.convert (some j.input.text) text with
    | error e => rfl
    | ok c =>
      rw [hconvert] at h
      simp only [h c rfl]
      rfl

theorem run_check (set : OptionSet) (i : Input) (s : Machine) :
    (i.check.run set : StateM Machine _).run s = (i.check.converted set s.disk, s) :=
  Job.run_of_writes?_eq_none fun _ _ => rfl

/-- Checks leave everything as it is, so each is a check of what is there at first. -/
theorem check_inTurn (set : OptionSet) (inputs : List Input) (s : Machine) :
    inTurn set (inputs.map Input.check) s = s ∧ outcomes set (inputs.map Input.check) s =
      inputs.map fun i => (i.check, i.check.converted set s.disk) := by
  induction inputs with
  | nil => exact ⟨rfl, rfl⟩
  | cons i inputs ih =>
    rw [List.map_cons, List.map_cons, inTurn_cons, outcomes_cons, run_check]
    exact ⟨ih.1, congrArg _ ih.2⟩

theorem not_alarms_check_iff (r : Except JobError Converted) :
    i.check.alarms r = false ↔ ∃ c, r = .ok c ∧ c.changes = 0 := by
  cases r with
  | error e => simp [Job.alarms]
  | ok c => simp [Job.alarms, Input.check]

/-- A check of files raises no alarm if and only if nothing in them changes. -/
theorem calm_check_iff : (outcomes set (inputs.map Input.check) s).any isAlarm = false ↔
    ∀ i ∈ inputs, i.Settled set s.disk := by
  rw [(check_inTurn set inputs s).2, List.any_map, List.any_eq_false]
  refine forall₂_congr fun i _ => ?_
  rw [Bool.not_eq_true]
  exact not_alarms_check_iff _

theorem Path.same_self (p : Path) : p.same p := by
  rw [Path.same, beq_iff_eq]

/-- A file is left alone if and only if nothing in it changes. -/
theorem writes?_replace_eq_none_iff {c : Converted} :
    i.replace.writes? c = none ↔ c.changes = 0 := by
  constructor
  · intro h
    exact (Job.same_of_writes? h rfl).1
  · intro h
    simp only [Job.writes?, Input.replace, h, Path.same_self]
    rfl

theorem run_replace_of_settled (h : i.Settled set s.disk) :
    ∃ c, (i.replace.run set : StateM Machine _).run s = (.ok c, s) ∧
      i.replace.wrote (.ok c) = [] := by
  obtain ⟨c, hc, hzero⟩ := Input.settled_iff_replace.mp h
  have hnone : i.replace.writes? c = none := writes?_replace_eq_none_iff.mpr hzero
  refine ⟨c, ?_, by rw [Job.wrote, hnone]; rfl⟩
  rw [Job.run_of_writes?_eq_none, hc]
  intro c' hc'
  rw [hc, Except.ok.injEq] at hc'
  rw [← hc', hnone]

/-- What a job gives is the conversion of what its input holds. -/
theorem Job.converted_of_run {j : Job} {c : Converted}
    (h : ((j.run set : StateM Machine _).run s).1 = .ok c) : j.converted set s.disk = .ok c := by
  rw [Job.run_eq] at h
  unfold Job.converted
  cases hread : s.disk.read j.input with
  | error e =>
    rw [hread] at h
    cases h
  | ok text =>
    rw [hread] at h
    dsimp only at h ⊢
    cases hconvert : set.convert (some j.input.text) text with
    | error e =>
      rw [hconvert] at h
      cases h
    | ok c' =>
      rw [hconvert] at h
      dsimp only at h
      cases hp : j.writes? c' with
      | none =>
        rw [hp] at h
        exact h
      | some p =>
        rw [hp] at h
        dsimp only at h
        cases hwrite : ((Job.writeTo p c'.text : StateM Machine _).run s).1 with
        | error e =>
          rw [hwrite] at h
          cases h
        | ok u =>
          rw [hwrite] at h
          exact h

/-- A file that is replaced without an error and without being written is one in which nothing
changes. -/
theorem settled_of_run_replace {c : Converted}
    (h : ((i.replace.run set : StateM Machine _).run s).1 = .ok c)
    (hwrote : i.replace.wrote (.ok c) = []) : i.Settled set s.disk := by
  have hnone : i.replace.writes? c = none := by
    rw [Job.wrote, Option.toList_eq_nil_iff] at hwrote
    exact hwrote
  exact Input.settled_iff_replace.mpr
    ⟨c, Job.converted_of_run h, writes?_replace_eq_none_iff.mp hnone⟩

theorem not_isAlarm_replace_iff {r : Except JobError Converted} :
    isAlarm (i.replace, r) = false ↔ ∃ c, r = .ok c := by
  cases r with
  | error e => simp [isAlarm, Job.alarms]
  | ok c => simp [isAlarm, Job.alarms, Input.replace]

/-- Files are replaced without an error and without any being written if and only if nothing in them
changes. As long as this is so, each job starts from what was there at first. -/
theorem calm_replace_iff : ((outcomes set (inputs.map Input.replace) s).any isAlarm = false ∧
    writtenBy (outcomes set (inputs.map Input.replace) s) = []) ↔
      ∀ i ∈ inputs, i.Settled set s.disk := by
  induction inputs with
  | nil => exact iff_of_true ⟨rfl, rfl⟩ nofun
  | cons i inputs ih =>
    rw [List.map_cons, outcomes_cons, List.any_cons, Bool.or_eq_false_iff, not_isAlarm_replace_iff,
      writtenBy, List.flatMap_cons, List.append_eq_nil_iff, List.forall_mem_cons]
    constructor
    · rintro ⟨⟨⟨c, hc⟩, hrest⟩, hwrote, hwritten⟩
      have hsettled := settled_of_run_replace hc (by rwa [hc] at hwrote)
      obtain ⟨c, hrun, -⟩ := run_replace_of_settled hsettled
      rw [hrun] at hrest hwritten
      exact ⟨hsettled, ih.mp ⟨hrest, hwritten⟩⟩
    · rintro ⟨hsettled, hrest⟩
      obtain ⟨c, hrun, hwrote⟩ := run_replace_of_settled hsettled
      rw [hrun]
      obtain ⟨hcalm, hwritten⟩ := ih.mpr hrest
      exact ⟨⟨⟨c, rfl⟩, hcalm⟩, hwrote, hwritten⟩

/-- Whatever is written is one of the files. -/
theorem exists_input_of_mem_writtenBy {p : Path}
    (h : p ∈ writtenBy (outcomes set (inputs.map Input.replace) s)) : ∃ i ∈ inputs, i.path = p := by
  obtain ⟨⟨j, r⟩, hr, hp⟩ := List.mem_flatMap.mp h
  obtain ⟨i, hi, rfl⟩ := List.mem_map.mp (mem_of_mem_outcomes hr)
  cases r with
  | error e => exact absurd hp List.not_mem_nil
  | ok c =>
    have hdestination := (Job.destination_of_writes? (Option.mem_toList.mp hp)).1
    exact ⟨i, hi, Destination.file.inj hdestination⟩

/-! ## Files that cannot be converted -/

/-- A file that cannot be read, or is no stylesheet, is an alarm for a check. -/
theorem alarm_check {e : JobError} (hi : i ∈ inputs) (h : i.check.converted set s.disk = .error e) :
    (outcomes set (inputs.map Input.check) s).any isAlarm = true := by
  rw [(check_inTurn set inputs s).2, List.any_map, List.any_eq_true]
  refine ⟨i, hi, ?_⟩
  change i.check.alarms _ = true
  rw [h]
  rfl

theorem Job.exists_error_of_converted {j : Job} {e : JobError}
    (h : j.converted set s.disk = .error e) :
    ∃ e, ((j.run set : StateM Machine _).run s).1 = .error e := by
  cases hrun : ((j.run set : StateM Machine _).run s).1 with
  | error e => exact ⟨e, rfl⟩
  | ok c =>
    rw [Job.converted_of_run hrun] at h
    cases h

/-- Files that lead to different places, from a working folder that is one. -/
structure Separate (d : Disk) (inputs : List Input) : Prop where
  working : d.stands? d.working = some .folder
  files : ∀ i ∈ inputs, d.LeadsToFile i.path
  apart : inputs.Pairwise fun i j => d.goal i.path ≠ d.goal j.path

theorem Separate.ready (h : Separate s.disk inputs) (hi : i ∈ inputs) :
    i.replace.Ready s.disk :=
  ⟨h.files i hi, fun p _ => Disk.stands?_start h.working p⟩

/-- Replacing the first file keeps the others apart, and does not change what they convert to. -/
theorem Separate.step (h : Separate s.disk (i :: inputs))
    (hrun : ((i.replace.run set : StateM Machine _).run s).2 = s') :
    Separate s'.disk inputs ∧ ∀ j ∈ inputs, j.check.converted set s'.disk =
      j.check.converted set s.disk := by
  obtain ⟨hapart, hrest⟩ := List.pairwise_cons.mp h.apart
  have hgrows : Grows _ _ s.disk s'.disk := hrun ▸ Job.grows_run (h.ready List.mem_cons_self)
  refine ⟨⟨?_, fun j hj => ?_, ?_⟩, fun j hj => ?_⟩
  · rw [hgrows.working]
    exact hgrows.folder h.working
  · exact hgrows.leadsToFile (h.files j (List.mem_cons_of_mem i hj))
  · exact hrest.imp fun hne => by rwa [hgrows.goal_eq, hgrows.goal_eq]
  · obtain ⟨l, c, hlocate, hfile⟩ := (h.files j (List.mem_cons_of_mem i hj)).exists_file
    have hread : s'.disk.read j.path = s.disk.read j.path := by
      refine hgrows.read_eq hlocate hfile fun hmem => hapart j hj ?_
      rw [Job.goals_eq (show i.replace.destination = .file i.path from rfl),
        List.mem_singleton] at hmem
      rw [← hmem, Disk.goal_of_locate hlocate]
    exact Job.converted_congr hread

/-- The same file is an alarm if files are replaced that are not the same. -/
theorem alarm_replace {e : JobError} (h : Separate s.disk inputs) (hi : i ∈ inputs)
    (hconverted : i.check.converted set s.disk = .error e) :
    (outcomes set (inputs.map Input.replace) s).any isAlarm = true := by
  induction inputs generalizing s with
  | nil => exact absurd hi List.not_mem_nil
  | cons j inputs ih =>
    rw [List.map_cons, outcomes_cons, List.any_cons, Bool.or_eq_true]
    rcases List.mem_cons.mp hi with rfl | hi
    · obtain ⟨e, he⟩ := Job.exists_error_of_converted (j := i.replace) hconverted
      left
      rw [he]
      rfl
    · obtain ⟨hseparate, hsame⟩ := h.step rfl
      exact .inr (ih hseparate hi ((hsame i hi).trans hconverted))

/-! ## In any order -/

section

variable {f : Input → Job} {results : Fin (inputs.map f).length → Except JobError Converted}

/-- If no job disturbs another one, each gives what it gives alone. -/
theorem forall_results_iff (h : Undisturbed set (inputs.map f) s s' results)
    (post : Job → Converted → Prop) :
    (∀ k, ∃ c, results k = .ok c ∧ post (inputs.map f)[k] c) ↔
      ∀ i ∈ inputs, ∃ c, (((f i).run set : StateM Machine _).run s).1 = .ok c ∧ post (f i) c := by
  have halone (k : Fin (inputs.map f).length) (c : Converted) : results k = .ok c ↔
      (((inputs.map f)[k].run set : StateM Machine _).run s).1 = .ok c := by
    rw [← toOption_eq_some, h.alone k, toOption_eq_some]
  simp only [halone]
  constructor
  · intro hall i hi
    obtain ⟨n, hn, rfl⟩ := List.mem_iff_getElem.mp hi
    have hk := hall ⟨n, by rwa [List.length_map]⟩
    simp only [Fin.getElem_fin, List.getElem_map] at hk
    exact hk
  · intro hall k
    simp only [Fin.getElem_fin, List.getElem_map]
    exact hall _ (List.getElem_mem _)

end

/-- Checks do not disturb each other. -/
theorem undisturbed_check
    {results : Fin (inputs.map Input.check).length → Except JobError Converted}
    (hfiles : ∀ i ∈ inputs, s.disk.LeadsToFile i.path)
    (hrun : Process.Interleaved s (processes set (inputs.map Input.check)) s' results) :
    Undisturbed set (inputs.map Input.check) s s' results := by
  have hspares (i j : Input) : i.check.Spares s.disk j.check := nofun
  refine undisturbed_of_interleaved (fun j hj => ?_) ?_ hrun
  · obtain ⟨i, hi, rfl⟩ := List.mem_map.mp hj
    exact ⟨hfiles i hi, nofun⟩
  · exact List.pairwise_map.mpr (List.pairwise_of_forall fun i j => ⟨hspares i j, hspares j i⟩)

/-- Replacing files that are not the same does not disturb one another. -/
theorem Separate.undisturbed
    {results : Fin (inputs.map Input.replace).length → Except JobError Converted}
    (h : Separate s.disk inputs)
    (hrun : Process.Interleaved s (processes set (inputs.map Input.replace)) s' results) :
    Undisturbed set (inputs.map Input.replace) s s' results := by
  refine undisturbed_of_interleaved (fun j hj => ?_) ?_ hrun
  · obtain ⟨i, hi, rfl⟩ := List.mem_map.mp hj
    exact h.ready hi
  · refine List.pairwise_map.mpr (h.apart.imp_of_mem fun hi hj hne => ?_)
    exact Job.apart_of_inPlace (h.files _ hi) (h.files _ hj) rfl rfl hne

/-- In any order, checks leave all files alone, and each tells whether something changes. -/
theorem check_anyOrder {results : Fin (inputs.map Input.check).length → Except JobError Converted}
    (hfiles : ∀ i ∈ inputs, s.disk.LeadsToFile i.path)
    (hrun : Process.Interleaved s (processes set (inputs.map Input.check)) s' results) :
    s'.disk.file? = s.disk.file? ∧
      ((∀ k, ∃ c, results k = .ok c ∧ c.changes = 0) ↔ ∀ i ∈ inputs, i.Settled set s.disk) := by
  have h := undisturbed_check hfiles hrun
  refine ⟨funext fun x => h.others x fun k c p _ hp => ?_, ?_⟩
  · simp only [Fin.getElem_fin, List.getElem_map] at hp
    cases hp
  · rw [forall_results_iff h fun _ c => c.changes = 0]
    simp only [run_check]
    rfl

/-- In any order, files are replaced without an error and without any being written if and only if
nothing in them changes. -/
theorem replace_anyOrder
    {results : Fin (inputs.map Input.replace).length → Except JobError Converted}
    (h : Separate s.disk inputs)
    (hrun : Process.Interleaved s (processes set (inputs.map Input.replace)) s' results) :
    (∀ k, ∃ c, results k = .ok c ∧ (inputs.map Input.replace)[k].writes? c = none) ↔
      ∀ i ∈ inputs, i.Settled set s.disk := by
  rw [forall_results_iff (h.undisturbed hrun) fun j c => j.writes? c = none]
  refine forall₂_congr fun i _ => ⟨?_, fun hsettled => ?_⟩
  · rintro ⟨c, hc, hnone⟩
    exact settled_of_run_replace hc (by rw [Job.wrote, hnone]; rfl)
  · obtain ⟨c, hc, hwrote⟩ := run_replace_of_settled hsettled
    refine ⟨c, by rw [hc], ?_⟩
    rwa [Job.wrote, Option.toList_eq_nil_iff] at hwrote

/-! ## Plans -/

theorem firstShared?_check (earlier : List Path) (is : List Input) :
    firstShared? earlier (is.map Input.check) = none := by
  induction is with
  | nil => rfl
  | cons i is ih => exact ih

theorem firstShared?_replace {earlier : List Path} {is : List Input}
    (his : is.Pairwise fun i j => ¬i.path.same j.path)
    (hearlier : ∀ i ∈ is, ∀ p ∈ earlier, ¬p.same i.path) :
    firstShared? earlier (is.map Input.replace) = none := by
  induction is generalizing earlier with
  | nil => rfl
  | cons i is ih =>
    obtain ⟨hfirst, hrest⟩ := List.pairwise_cons.mp his
    have hnew : (earlier.any (·.same i.path)) = false := by
      rw [List.any_eq_false]
      exact hearlier i List.mem_cons_self
    rw [List.map_cons, Input.replace, firstShared?, hnew, if_neg Bool.false_ne_true]
    refine ih hrest fun j hj p hp => ?_
    rcases List.mem_cons.mp hp with rfl | hp
    · exact hfirst j hj
    · exact hearlier j (List.mem_cons_of_mem i hj) p hp

/-- A check has a plan for any inputs. -/
theorem planJobs_check (is : List Input) :
    planJobs ⟨true, false, none, false⟩ is = .ok (is.map Input.check) := by
  unfold planJobs
  change ((is.mapM fun i => (pure i.check : Except PlanError Job)) >>= fun jobs => _) = _
  rw [List.mapM_pure, pure_bind, firstShared?_check]
  rfl

/-- Inputs with different components have a plan to be replaced. -/
theorem planJobs_replace {is : List Input} (his : is.Pairwise fun i j => ¬i.path.same j.path) :
    planJobs ⟨false, true, none, false⟩ is = .ok (is.map Input.replace) := by
  unfold planJobs
  change ((is.mapM fun i => (pure i.replace : Except PlanError Job)) >>= fun jobs => _) = _
  rw [List.mapM_pure, pure_bind,
    firstShared?_replace his fun _ _ _ hp => absurd hp List.not_mem_nil]
  rfl

/-! ## Runs of jobs -/

theorem runJobs_eq_success_iff {log : Option Path} {jobs : List Job} :
    ((runJobs set log jobs : StateM Machine _).run s).1 = .success ↔
      (outcomes set jobs s).any isAlarm = false := by
  rw [run_runJobs]
  cases (outcomes set jobs s).any isAlarm <;> simp

theorem runJobs_eq_failure {log : Option Path} {jobs : List Job}
    (h : (outcomes set jobs s).any isAlarm = true) :
    ((runJobs set log jobs : StateM Machine _).run s).1 = .failure := by
  rw [run_runJobs, if_pos h]

/-- A log is the only file that is changed when it is written. -/
theorem stands?_writeLog {log : Option Path} {x : Location} (entries : List RunLog.Entry)
    (hx : ∀ p, log = some p → x ≠ s.disk.goal p) :
    ((writeLog log entries : StateM Machine _).run s).2.disk.stands? x = s.disk.stands? x := by
  cases log with
  | none => rfl
  | some p =>
    unfold writeLog
    rw [Machine.run_bind, Machine.run_append]
    cases happend : s.disk.append p (RunLog.lines entries) with
    | error e => rfl
    | ok d' =>
      obtain ⟨-, hchanged⟩ := Disk.opens_of_append happend
      exact (hchanged.stands? x).trans (if_neg (hx p rfl))

/-- Behind its jobs, a run changes no file but the log. -/
theorem stands?_runJobs {log : Option Path} {jobs : List Job} {x : Location}
    (hx : ∀ p, log = some p → x ≠ (inTurn set jobs s).disk.goal p) :
    ((runJobs set log jobs : StateM Machine _).run s).2.disk.stands? x =
      (inTurn set jobs s).disk.stands? x := by
  obtain ⟨hdisk, -⟩ := inspects_announceAll (outcomes set jobs s) (inTurn set jobs s) rfl
  rw [← hdisk] at hx ⊢
  rw [run_runJobs]
  exact stands?_writeLog _ hx

/-! ## Commands -/

namespace ConvertArguments

variable {a : ConvertArguments}

/-- The same command, but files are only checked. -/
def checked (a : ConvertArguments) : ConvertArguments := { a with check := true, inPlace := false }

/-- The same command, but files are replaced. -/
def replaced (a : ConvertArguments) : ConvertArguments := { a with check := false, inPlace := true }

/-- What a check of files tells about replacing them. The check ends with `code` on `s₁`, and
replacing ends with `code'` and writes to the paths `written`. -/
structure Predicts (a : ConvertArguments) (s s₁ : Machine) (code code' : ExitCode)
    (written : List Path) : Prop where
  /-- a check changes no file but the log -/
  kept : ∀ x, (∀ p, a.report = some p → x ≠ s.disk.goal p) → s₁.disk.stands? x = s.disk.stands? x
  /-- unless the log is one of the files, a check succeeds if and only if replacing does and none of
  them is written -/
  success : (∀ p, a.report = some p → ∀ i ∈ a.collected s, s.disk.goal p ≠ s.disk.goal i.path) →
    (code = .success ↔ code' = .success ∧
      ∀ i ∈ a.collected s, ∀ p ∈ written, s.disk.goal p ≠ s.disk.goal i.path)
  /-- both are refused alike -/
  refused : a.Refused s → code = code' ∧ code ≠ .success
  /-- both fail if one of the files cannot be converted -/
  failed : ¬a.Refused s → s.disk.stands? s.disk.working = some .folder →
    (a.collected s).Pairwise (fun i j => s.disk.goal i.path ≠ s.disk.goal j.path) →
    ∀ set, ((a.options.load : StateM Machine _).run s).1 = .ok set →
      ∀ i ∈ a.collected s, ∀ e, i.check.converted set s.disk = .error e →
        code = .failure ∧ code' = .failure
  /-- in whatever order the jobs access the disk, a check leaves all files alone, and it succeeds if
  and only if they are replaced without an error and without any being written -/
  anyOrder : ¬a.Refused s → s.disk.stands? s.disk.working = some .folder →
    (a.collected s).Pairwise (fun i j => s.disk.goal i.path ≠ s.disk.goal j.path) →
    ∀ set, ((a.options.load : StateM Machine _).run s).1 = .ok set →
      (∀ s' results,
        Process.Interleaved s (processes set ((a.collected s).map Input.check)) s' results →
        s'.disk.file? = s.disk.file? ∧
          (code = .success ↔ ∀ k, ∃ c, results k = .ok c ∧ c.changes = 0)) ∧
      ∀ s' results,
        Process.Interleaved s (processes set ((a.collected s).map Input.replace)) s' results →
        (code = .success ↔ ∀ k, ∃ c, results k = .ok c ∧
          ((a.collected s).map Input.replace)[k].writes? c = none)

theorem run_gather (hinputs : a.inputs ≠ []) (houtput : a.output = none) (s : Machine) :
    (a.run : StateM Machine _).run s =
      (a.finish ((a.gather : StateM Machine _).run s).1 : StateM Machine _).run
        ((a.gather : StateM Machine _).run s).2 := by
  rw [run_eq_gather hinputs houtput]
  rfl

/-- Commands that are refused end before it matters what becomes of the converted files. -/
theorem predicts_of_refused {code : ExitCode} {written : List Path} (hrefused : a.Refused s)
    (hcode : code ≠ .success) (hdisk : s'.disk = s.disk) :
    a.Predicts s s' code code written where
  kept x _ := by rw [hdisk]
  success _ := iff_of_false hcode fun h => hcode h.1
  refused _ := ⟨rfl, hcode⟩
  failed h := absurd hrefused h
  anyOrder h := absurd hrefused h

/-- The jobs of a check predict those that replace the same files. -/
theorem predicts_of_jobs {last : List Path} (hnot : ¬a.Refused s)
    (hload : ((a.options.load : StateM Machine _).run s).1 = .ok set) (hdisk : s'.disk = s.disk)
    (hlast : ∀ p ∈ last, a.report = some p) :
    a.Predicts s
      ((runJobs set a.report ((a.collected s).map Input.check) : StateM Machine _).run s').2
      ((runJobs set a.report ((a.collected s).map Input.check) : StateM Machine _).run s').1
      ((runJobs set a.report ((a.collected s).map Input.replace) : StateM Machine _).run s').1
      (writtenBy (outcomes set ((a.collected s).map Input.replace) s') ++ last) where
  kept x hx := by
    have hturn := (check_inTurn set (a.collected s) s').1
    rw [stands?_runJobs (by rwa [hturn, hdisk]), hturn, hdisk]
  success hlog := by
    rw [runJobs_eq_success_iff, runJobs_eq_success_iff, calm_check_iff, ← calm_replace_iff]
    refine and_congr_right fun _ => ⟨fun hnone i hi p hp => ?_, fun hapart => ?_⟩
    · rw [hnone, List.nil_append] at hp
      exact hlog p (hlast p hp) i hi
    · refine List.eq_nil_iff_forall_not_mem.mpr fun p hp => ?_
      obtain ⟨i, hi, rfl⟩ := exists_input_of_mem_writtenBy hp
      exact hapart i hi i.path (List.mem_append_left last hp) rfl
  refused h := absurd h hnot
  failed _ hworking hapart set' hset i hi e he := by
    rw [hload, Except.ok.injEq] at hset
    subst hset
    rw [← hdisk] at he
    have hseparate : Separate s'.disk (a.collected s) := by
      rw [hdisk]
      exact ⟨hworking, (collected_spec a s).2, hapart⟩
    exact ⟨runJobs_eq_failure (alarm_check hi he),
      runJobs_eq_failure (alarm_replace hseparate hi he)⟩
  anyOrder _ hworking hapart set' hset := by
    rw [hload, Except.ok.injEq] at hset
    subst hset
    have hfiles := (collected_spec a s).2
    rw [runJobs_eq_success_iff, calm_check_iff, hdisk]
    refine ⟨fun s' results hrun => ?_, fun s' results hrun => ?_⟩
    · obtain ⟨hkept, hsettled⟩ := check_anyOrder hfiles hrun
      exact ⟨hkept, hsettled.symm⟩
    · exact (replace_anyOrder ⟨hworking, hfiles, hapart⟩ hrun).symm

/-- A check predicts what happens if the same command replaces files. -/
theorem checked_predicts_replaced (hinputs : a.inputs ≠ []) (houtput : a.output = none)
    (s : Machine) : ∃ code s₁ code' s₂ written,
      (a.checked.run : StateM Machine _).run s = (code, s₁) ∧
      (a.replaced.run : StateM Machine _).run s = (code', s₂) ∧
      (a.replaced.run : StateM Watched _).run ⟨s, []⟩ = (code', ⟨s₂, written⟩) ∧
      a.Predicts s s₁ code code' written := by
  obtain ⟨new, hagrees, hnew⟩ := Watched.agrees_run (a := a.replaced) hinputs houtput
  refine ⟨((a.checked.run : StateM Machine _).run s).1,
    ((a.checked.run : StateM Machine _).run s).2,
    ((a.replaced.run : StateM Machine _).run s).1,
    ((a.replaced.run : StateM Machine _).run s).2, new s, rfl, rfl, hagrees ⟨s, []⟩, ?_⟩
  have hcheck : (a.checked.run : StateM Machine _).run s =
      (a.checked.finish ((a.gather : StateM Machine _).run s).1 : StateM Machine _).run
        ((a.gather : StateM Machine _).run s).2 := run_gather (a := a.checked) hinputs houtput s
  have hreplace : (a.replaced.run : StateM Machine _).run s =
      (a.replaced.finish ((a.gather : StateM Machine _).run s).1 : StateM Machine _).run
        ((a.gather : StateM Machine _).run s).2 := run_gather (a := a.replaced) hinputs houtput s
  rw [hcheck, hreplace]
  obtain ⟨hdisk, hcases⟩ := gather_cases a s
  rcases hcases with ⟨code, hgather, hcode, hrefused⟩ | ⟨set, hgather, hload, hnot⟩
  · rw [hgather]
    exact predicts_of_refused hrefused hcode hdisk
  · have hplan := planJobs_replace (collected_spec a s).1
    obtain ⟨last, hlast, hwritten⟩ := hnew s set _ _ hgather hplan
    rw [hgather, finish_of_plan (a := a.checked) (planJobs_check _),
      finish_of_plan (a := a.replaced) hplan, hwritten]
    exact predicts_of_jobs hnot hload hdisk hlast

end ConvertArguments

open Command

theorem run_usage {args : List Text} (h : ofArguments args = .error .usage) (s : Machine) :
    ∃ s', (runCommandLine args : StateM Machine _).run s = (.badArguments, s') ∧
      s'.disk = s.disk := by
  unfold runCommandLine
  rw [h]
  exact ⟨_, rfl, rfl⟩

/-- What `--check` tells about `--in-place`. Arguments that make no sense are refused with either.
Otherwise both are given by themselves, and a check predicts what happens if files are replaced. -/
theorem check_predicts_inPlace (s : Machine) :
    (∀ rest, ofArguments (converting rest) = .error .usage → ∀ f : Flag, f.IsMode →
      ∃ s', (runCommandLine (converting (f.argument :: rest)) : StateM Machine _).run s =
        (.badArguments, s') ∧ s'.disk = s.disk) ∧
    (∀ rest (a : ConvertArguments), ofArguments (converting rest) = .ok (.convert a) →
      a.check = false → a.inPlace = false →
        ofArguments (converting (Flag.check.argument :: rest)) = .ok (.convert a.checked) ∧
        ofArguments (converting (Flag.inPlace.argument :: rest)) = .ok (.convert a.replaced)) ∧
    ∀ (a : ConvertArguments) (args args' : List Text), ofArguments args = .ok (.convert a.checked) →
      ofArguments args' = .ok (.convert a.replaced) → a.output = none → a.inputs ≠ [] →
      ∃ code s₁ code' s₂ written,
        (runCommandLine args : StateM Machine _).run s = (code, s₁) ∧
        (runCommandLine args' : StateM Machine _).run s = (code', s₂) ∧
        (runCommandLine args' : StateM Watched _).run ⟨s, []⟩ = (code', ⟨s₂, written⟩) ∧
        a.Predicts s s₁ code code' written := by
  refine ⟨fun rest h f hf => run_usage (ofArguments_usage hf h) s,
    fun rest a h hcheck hinPlace => ?_, fun a args args' hargs hargs' houtput hinputs => ?_⟩
  · obtain ⟨inputs, output, inPlace, check, stdin, stdinPath, report, options⟩ := a
    obtain rfl : check = false := hcheck
    obtain rfl : inPlace = false := hinPlace
    refine ⟨ofArguments_ok (.inl rfl) h fun hon => ?_, ofArguments_ok (.inr rfl) h fun hon => ?_⟩
    · exact absurd (congrArg ConvertArguments.check hon) nofun
    · exact absurd (congrArg ConvertArguments.inPlace hon) nofun
  · obtain ⟨code, s₁, code', s₂, written, hcheck, hreplace, hwatched, hpredicts⟩ :=
      a.checked_predicts_replaced hinputs houtput s
    refine ⟨code, s₁, code', s₂, written, ?_, ?_, ?_, hpredicts⟩
    · unfold runCommandLine
      rw [hargs]
      exact hcheck
    · unfold runCommandLine
      rw [hargs']
      exact hreplace
    · unfold runCommandLine
      rw [hargs']
      exact hwatched

/-- A stylesheet in which something changes, a file that is none, and a stylesheet in which nothing
changes. -/
def desk : Machine where
  disk :=
    { root := .folder [("w".toList, .folder
        [("a.css".toList, .file (.text "a { top: 16px; }".toList)),
          ("b.css".toList, .file (.text "\x7d".toList)),
          ("c.css".toList, .file (.text "a { top: 1rem; }".toList))])]
      working := ["w".toList] }

/-- Files and a log. -/
def deskArguments (files : List Text) : List Text :=
  "--no-config".toList :: "--report".toList :: "log".toList :: files

def deskCommand (files : List Text) : ConvertArguments where
  inputs := files
  report := some ⟨"log".toList⟩
  options := { noConfig := true }

/-- A flag without its value is refused with either switch. A file that is no stylesheet makes both
commands fail, and of a file with nothing to change they tell the same. -/
theorem check_predicts_inPlace_desk :
    (∃ s, (runCommandLine (converting (Flag.check.argument :: ["--unit".toList])) :
      StateM Machine _).run desk = (.badArguments, s) ∧ s.disk = desk.disk) ∧
    (∃ s₁ s₂ written,
      (runCommandLine (converting (Flag.check.argument ::
        deskArguments ["a.css".toList, "b.css".toList])) : StateM Machine _).run desk =
          (.failure, s₁) ∧
      (runCommandLine (converting (Flag.inPlace.argument ::
        deskArguments ["a.css".toList, "b.css".toList])) : StateM Watched _).run ⟨desk, []⟩ =
          (.failure, ⟨s₂, written⟩) ∧
      s₁.disk.stands? ["w".toList, "a.css".toList] =
        desk.disk.stands? ["w".toList, "a.css".toList]) ∧
    ∃ code s₁ code' s₂ written,
      (runCommandLine (converting (Flag.check.argument :: deskArguments ["c.css".toList])) :
        StateM Machine _).run desk = (code, s₁) ∧
      (runCommandLine (converting (Flag.inPlace.argument :: deskArguments ["c.css".toList])) :
        StateM Watched _).run ⟨desk, []⟩ = (code', ⟨s₂, written⟩) ∧
      (code = .success ↔ code' = .success ∧
        ∀ p ∈ written, desk.disk.goal p ≠ ["w".toList, "c.css".toList]) := by
  have hall := check_predicts_inPlace desk
  refine ⟨hall.1 _ rfl .check (.inl rfl), ?_, ?_⟩
  · have harguments : ofArguments (converting (deskArguments ["a.css".toList, "b.css".toList])) =
        .ok (.convert (deskCommand ["a.css".toList, "b.css".toList])) := rfl
    have hcollected : (deskCommand ["a.css".toList, "b.css".toList]).collected desk =
        [.alone ⟨"a.css".toList⟩, .alone ⟨"b.css".toList⟩] := by cbv
    have hworking : desk.disk.stands? desk.disk.working = some .folder := by decide +kernel
    have hapart : [Input.alone ⟨"a.css".toList⟩, .alone ⟨"b.css".toList⟩].Pairwise fun i j =>
        desk.disk.goal i.path ≠ desk.disk.goal j.path := by decide +kernel
    have hlog : ["w".toList, "a.css".toList] ≠ desk.disk.goal ⟨"log".toList⟩ := by decide +kernel
    obtain ⟨e, he⟩ : ∃ e,
        (Input.alone ⟨"b.css".toList⟩).check.converted .default desk.disk = .error e := by
      have hnot : ((Input.alone ⟨"b.css".toList⟩).check.converted .default desk.disk).isOk =
          false := by decide +kernel
      cases h : (Input.alone ⟨"b.css".toList⟩).check.converted .default desk.disk with
      | error e => exact ⟨e, rfl⟩
      | ok c =>
        rw [h] at hnot
        cases hnot
    obtain ⟨hcheck, hinPlace⟩ := hall.2.1 _ _ harguments rfl rfl
    obtain ⟨code, s₁, code', s₂, written, hrun, -, hwatched, hpredicts⟩ :=
      hall.2.2 _ _ _ hcheck hinPlace rfl (List.cons_ne_nil _ _)
    have hnot : ¬(deskCommand ["a.css".toList, "b.css".toList]).Refused desk := by
      rintro (h | ⟨e, h⟩ | h)
      · cases h
      · cases (load_default desk).symm.trans h
      · rw [hcollected] at h
        cases h
    obtain ⟨rfl, rfl⟩ := hpredicts.failed hnot hworking (by rwa [hcollected]) .default
      (load_default desk) (.alone ⟨"b.css".toList⟩) (by rw [hcollected]; simp) e he
    refine ⟨s₁, s₂, written, hrun, hwatched, hpredicts.kept _ fun p hp => ?_⟩
    cases hp
    exact hlog
  · have harguments : ofArguments (converting (deskArguments ["c.css".toList])) =
        .ok (.convert (deskCommand ["c.css".toList])) := rfl
    have hcollected : (deskCommand ["c.css".toList]).collected desk =
        [.alone ⟨"c.css".toList⟩] := by cbv
    have hgoal : desk.disk.goal ⟨"c.css".toList⟩ = ["w".toList, "c.css".toList] := by
      decide +kernel
    have hlog : desk.disk.goal ⟨"log".toList⟩ ≠ ["w".toList, "c.css".toList] := by decide +kernel
    obtain ⟨hcheck, hinPlace⟩ := hall.2.1 _ _ harguments rfl rfl
    obtain ⟨code, s₁, code', s₂, written, hrun, -, hwatched, hpredicts⟩ :=
      hall.2.2 _ _ _ hcheck hinPlace rfl (List.cons_ne_nil _ _)
    have hsuccess := hpredicts.success
    rw [hcollected] at hsuccess
    simp only [List.forall_mem_singleton] at hsuccess
    change (∀ p, some ⟨"log".toList⟩ = some p →
      desk.disk.goal p ≠ desk.disk.goal ⟨"c.css".toList⟩) → (code = .success ↔ code' = .success ∧
        ∀ p ∈ written, desk.disk.goal p ≠ desk.disk.goal ⟨"c.css".toList⟩) at hsuccess
    rw [hgoal] at hsuccess
    refine ⟨code, s₁, code', s₂, written, hrun, hwatched, hsuccess fun p hp => ?_⟩
    cases hp
    exact hlog

end PixelScale
