import Mathlib
import PixelScale.Proofs.CommandLine.Inputs

/-!
# Jobs among others

Jobs share the disk. A plan compares their destinations with each other, but not with the inputs: a
destination in a folder that is searched for inputs may be the input of another job, which then
reads what the first one wrote. Where no job writes to what another reads, to what another writes,
or to what is on the way there, the order of their accesses to the disk does not matter. Each job
ends as it would alone, its destination holds the conversion of what its input held before any job
ran, and no other file changes.

* `Process.execute_run`: a job as a process does alone what the job does.
* `Job.meets_run`: how a job ends among others.
* `Job.Apart`: two jobs that keep away from each other.
* `Undisturbed`: what a run comes to if no job disturbs another one.
* `undisturbed_of_interleaved`: no job does if they keep away from each other.
* `planned_undisturbed`: runs of planned jobs.
-/

namespace PixelScale

open Disk (Grows)

/-! ## A job alone -/

namespace Process

theorem execute_writeTo (p : Path) (t : Text) :
    execute (Job.writeTo p t) = (Job.writeTo p t : StateM Machine _) := by
  unfold Job.writeTo
  split
  next q _ =>
    split
    next => rfl
    next =>
      rw [Host.makeFolders, Host.makeFolders, execute_bind, execute_makeFoldersWithin]
      refine bind_congr fun r => ?_
      cases r <;> rfl
  next => rfl

theorem execute_run (set : OptionSet) (j : Job) :
    execute (j.run set) = (j.run set : StateM Machine _) := by
  unfold Job.run
  rw [execute_bind]
  refine bind_congr fun r => ?_
  split
  next => rfl
  next text =>
    split
    next => rfl
    next c _ =>
      split
      next => rfl
      next p _ =>
        rw [execute_bind, execute_writeTo]
        refine bind_congr fun r => ?_
        cases r <;> rfl

end Process

/-! ## A job among others -/

/-- A text in which nothing changes is left as it is. -/
theorem OptionSet.text_of_changes_eq_zero {set : OptionSet} {source : Option Text} {text : Text}
    {c : Converted} (h : set.convert source text = .ok c) (hc : c.changes = 0) : c.text = text := by
  unfold OptionSet.convert at h
  cases hparse : Stylesheet.parse text with
  | error e =>
    rw [hparse] at h
    cases h
  | ok sheet =>
    rw [hparse] at h
    cases h
    cases hrun : set.run { sheet with source } with
    | none => rfl
    | some run =>
      simp only [hrun, Converted.changes, Option.map_some, Option.getD_some] at hc ⊢
      rw [if_neg (by omega)]

namespace Job

/-- What a job makes of what its input holds. -/
def converted (set : OptionSet) (d : Disk) (j : Job) : Except JobError Converted :=
  match d.read j.input with
  | .error e => .error (.read e)
  | .ok text => (set.convert (some j.input.text) text).mapError .parse

theorem exists_of_converted {set : OptionSet} {d : Disk} {j : Job} {c : Converted}
    (h : j.converted set d = .ok c) :
    ∃ text, d.read j.input = .ok text ∧ set.convert (some j.input.text) text = .ok c := by
  unfold converted at h
  split at h
  next => cases h
  next text htext =>
    cases hconvert : set.convert (some j.input.text) text with
    | error e =>
      rw [hconvert] at h
      cases h
    | ok c' =>
      rw [hconvert] at h
      cases h
      exact ⟨text, htext, hconvert⟩

/-- How a job ends, told from the disk `d` at the start, with the disk `d'` at the end. -/
structure Ends (set : OptionSet) (d : Disk) (j : Job) (r : Except JobError Converted)
    (d' : Disk) : Prop where
  result : ∀ c, r = .ok c ↔
    j.converted set d = .ok c ∧ ∀ p, j.writes? c = some p → d.Receives p
  written : ∀ c p, r = .ok c → j.writes? c = some p → d'.file? (d.goal p) = some (.text c.text)
  kept : (∀ c p, r = .ok c → j.writes? c ≠ some p) → ∀ x ∈ j.goals d, d'.file? x = d.file? x

theorem destination_of_writes? {j : Job} {c : Converted} {p : Path} (h : j.writes? c = some p) :
    j.destination = .file p ∧ (0 < c.changes ∨ ¬p.same j.input) := by
  unfold writes? at h
  split at h
  next q hq =>
    split at h
    next hcond =>
      cases h
      exact ⟨hq, by simpa using hcond⟩
    next => cases h
  next => cases h

/-- A job with a destination that is not written changes nothing and stands for itself. -/
theorem same_of_writes? {j : Job} {c : Converted} {p : Path} (h : j.writes? c = none)
    (hp : j.destination = .file p) : c.changes = 0 ∧ p.same j.input := by
  unfold writes? at h
  rw [hp] at h
  simp only at h
  split at h
  next => cases h
  next hcond =>
    simp only [Bool.or_eq_true, decide_eq_true_eq, Bool.not_eq_true', not_or] at hcond
    exact ⟨by omega, by simpa using hcond.2⟩

/-- A job can run: what it reads is a file, and its destination has a start. -/
structure Ready (d : Disk) (j : Job) : Prop where
  input : d.LeadsToFile j.input
  start : ∀ p, j.destination = .file p → d.stands? (d.start p) = some .folder

section

variable {d : Disk} {j : Job} {set : OptionSet} {s s' : Machine}

theorem goals_subset_passes {x : Location} (h : x ∈ j.goals d) : x ∈ j.passes d := by
  unfold goals at h
  split at h
  next p hp =>
    rw [passes_eq hp, List.mem_singleton.mp h]
    exact d.goal_mem_trail p
  next => exact absurd h List.not_mem_nil
  next => exact absurd h List.not_mem_nil

theorem file?_of_rely (h : j.rely d s s') {x : Location} (hx : x ∈ j.goals d) :
    s'.disk.file? x = s.disk.file? x :=
  Grows.file?_eq h fun hwrites => hwrites.1 (goals_subset_passes hx)

theorem Ends.stable (r : Except JobError Converted) (s s' : Machine) (h : j.rely d s s')
    (hs : j.Ends set d r s.disk) : j.Ends set d r s'.disk := by
  refine ⟨hs.result, fun c p hr hp => ?_, fun hkept x hx => ?_⟩
  · rw [file?_of_rely h]
    · exact hs.written c p hr hp
    · rw [goals_eq (destination_of_writes? hp).1]
      exact List.mem_singleton_self _
  · rw [file?_of_rely h hx, hs.kept hkept x hx]

theorem rely_trans (s₁ s₂ s₃ : Machine) (h : j.rely d s₁ s₂) (h' : j.rely d s₂ s₃) :
    j.rely d s₁ s₃ := Grows.trans h h'

/-- What leads to a file is read again, whatever others do. -/
theorem read_of_rely (hinput : s.disk.LeadsToFile j.input) (h : j.rely s.disk s s') :
    s'.disk.read j.input = s.disk.read j.input := by
  obtain ⟨l, c, hlocate, hfile⟩ := hinput.exists_file
  refine Grows.read_eq h hlocate hfile fun hwrites => hwrites.2 ?_
  exact Disk.goal_of_locate hlocate

/-- A job that does not write has ended when it has read its input. -/
theorem ends_of_writes?_eq_none {r : Except JobError Converted} (h : j.rely s.disk s s')
    (hr : r = j.converted set s.disk) (hwrites : ∀ c, r = .ok c → j.writes? c = none) :
    j.Ends set s.disk r s'.disk := by
  refine ⟨fun c => ⟨fun hc => ⟨hr ▸ hc, fun p hp => ?_⟩, fun hc => hr.trans hc.1⟩, ?_, ?_⟩
  · rw [hwrites c hc] at hp
    cases hp
  · intro c p hc hp
    rw [hwrites c hc] at hp
    cases hp
  · exact fun _ x hx => file?_of_rely h hx

/-- The destination of a job that succeeds holds the conversion, also if it was not written. -/
theorem Ends.file?_destination {r : Except JobError Converted} {d' : Disk} {c : Converted}
    {p : Path} (h : j.Ends set d r d') (hc : r = .ok c) (hp : j.destination = .file p) :
    d'.file? (d.goal p) = some (.text c.text) := by
  cases hwrites : j.writes? c with
  | some p' =>
    obtain rfl : p = p' := by
      have := (destination_of_writes? hwrites).1
      rw [hp] at this
      exact Destination.file.inj this
    exact h.written c p hc hwrites
  | none =>
    obtain ⟨hzero, hsame⟩ := same_of_writes? hwrites hp
    obtain ⟨text, hread, hconvert⟩ := exists_of_converted ((h.result c).mp hc).1
    have hkept : d'.file? (d.goal p) = d.file? (d.goal p) := by
      refine h.kept (fun c' p' hc' hp' => ?_) _ (by simp [goals_eq hp])
      rw [hc, Except.ok.injEq] at hc'
      rw [← hc', hwrites] at hp'
      cases hp'
    rw [hkept, Disk.goal_of_same _ hsame, Disk.file?_of_read hread,
      OptionSet.text_of_changes_eq_zero hconvert hzero]

/-- A job that has written its conversion has ended. -/
theorem ends_of_written {c : Converted} {p : Path} (hc : j.converted set d = .ok c)
    (hp : j.writes? c = some p) (h : Written d p c.text (.ok ()) s) :
    j.Ends set d (.ok c) s.disk := by
  obtain ⟨hreceives, hfile⟩ := h.1 rfl
  refine ⟨fun c' => ?_, fun c' p' hc' hp' => ?_, fun hkept => absurd hp (hkept c p rfl)⟩
  · rw [hc, Except.ok.injEq]
    refine ⟨fun hc' => ⟨hc', fun p' hp' => ?_⟩, And.left⟩
    rw [← hc', hp] at hp'
    cases hp'
    exact hreceives
  · cases hc'
    rw [hp] at hp'
    cases hp'
    exact hfile

/-- A job that cannot write its conversion has ended, too. -/
theorem ends_of_not_written {c : Converted} {p : Path} {e : JobError}
    (hc : j.converted set d = .ok c) (hp : j.writes? c = some p)
    (h : Written d p c.text (.error e) s) : j.Ends set d (.error e) s.disk := by
  obtain ⟨hnot, hfile⟩ := h.2 e rfl
  refine ⟨fun c' => ⟨nofun, ?_⟩, nofun, fun _ x hx => ?_⟩
  · rintro ⟨hc', hreceives⟩
    rw [hc] at hc'
    cases hc'
    exact absurd (hreceives p hp) hnot
  · rw [goals_eq (destination_of_writes? hp).1] at hx
    rw [List.mem_singleton.mp hx]
    exact hfile

/-- How a job ends among others. -/
theorem meets_run (hj : j.Ready s.disk) :
    (j.run set : Process Machine _).Meets (j.rely s.disk) (j.guarantee s.disk)
      (fun r s' => j.Ends set s.disk r s'.disk) s := by
  have hread : (Host.read j.input : Process Machine _).Meets (j.rely s.disk)
      (j.guarantee s.disk) (fun r s' => j.rely s.disk s s' ∧ r = s.disk.read j.input) s := by
    refine Process.meets_lift (j.rely s.disk s) ?_ ?_ ?_ (rely_refl s)
    · exact fun s₁ s₂ h h' => rely_trans s s₁ s₂ h' h
    · exact fun r s₁ s₂ h h' => ⟨rely_trans s s₁ s₂ h'.1 h, h'.2⟩
    · exact fun s₁ h => ⟨guarantee_refl s₁, h, read_of_rely hj.input h⟩
  unfold Job.run
  refine Process.Meets.bind rely_refl hread ?_
  rintro r s₁ ⟨hs₁, rfl⟩
  cases htext : s.disk.read j.input with
  | error e =>
    refine Process.meets_pure Ends.stable (ends_of_writes?_eq_none hs₁ ?_ nofun)
    rw [converted, htext]
  | ok text =>
    simp only
    split
    next e hconvert =>
      refine Process.meets_pure Ends.stable (ends_of_writes?_eq_none hs₁ ?_ nofun)
      simp only [converted, htext, hconvert, Except.mapError]
    next c hconvert =>
      have hconverted : j.converted set s.disk = .ok c := by
        simp only [converted, htext, hconvert, Except.mapError]
      split
      next hnone =>
        refine Process.meets_pure Ends.stable (ends_of_writes?_eq_none hs₁ hconverted.symm ?_)
        intro c' hc'
        cases hc'
        exact hnone
      next p hp =>
        have hdestination := (destination_of_writes? hp).1
        have hunderway : j.Underway s.disk p s₁ :=
          Grows.mono hs₁ (fun x hx hmem => absurd hmem hx) fun _ hx => hx
        refine Process.Meets.bind rely_refl
          (meets_writeTo hdestination (hj.start p hdestination) hunderway c.text) ?_
        intro r s₂ hwritten
        cases r with
        | ok u => exact Process.meets_pure Ends.stable (ends_of_written hconverted hp hwritten)
        | error e =>
          exact Process.meets_pure Ends.stable (ends_of_not_written hconverted hp hwritten)

end

/-! ## Jobs that keep away from each other -/

/-- A job does not write to what another one reads, to what it writes, or to what is on the way
there. -/
def Spares (d : Disk) (j k : Job) : Prop :=
  ∀ x ∈ j.goals d, x ≠ d.goal k.input ∧ x ∉ k.passes d

/-- Two jobs keep away from each other. -/
def Apart (d : Disk) (j k : Job) : Prop := j.Spares d k ∧ k.Spares d j

instance (d : Disk) (j k : Job) : Decidable (j.Spares d k) :=
  inferInstanceAs (Decidable (∀ x ∈ j.goals d, x ≠ d.goal k.input ∧ x ∉ k.passes d))

instance (d : Disk) (j k : Job) : Decidable (j.Apart d k) :=
  inferInstanceAs (Decidable (j.Spares d k ∧ k.Spares d j))

/-- Files that are converted in place keep away from each other, unless a file is named twice. -/
theorem apart_of_inPlace {d : Disk} {j k : Job} (hj : d.LeadsToFile j.input)
    (hk : d.LeadsToFile k.input) (hjd : j.destination = .file j.input)
    (hkd : k.destination = .file k.input) (hne : d.goal j.input ≠ d.goal k.input) :
    j.Apart d k := by
  have spares {j k : Job} (hj : d.LeadsToFile j.input) (hk : d.LeadsToFile k.input)
      (hjd : j.destination = .file j.input) (hkd : k.destination = .file k.input)
      (hne : d.goal j.input ≠ d.goal k.input) : j.Spares d k := by
    intro x hx
    obtain rfl : x = d.goal j.input := by simpa [goals_eq hjd] using hx
    refine ⟨hne, fun hmem => ?_⟩
    rw [passes_eq hkd] at hmem
    obtain ⟨l, c, hlocate, hfile⟩ := hj.exists_file
    obtain ⟨l', c', hlocate', _⟩ := hk.exists_file
    obtain ⟨_, _, htrail⟩ := Disk.foldlM_step_of_ok (Disk.of_locate hlocate').2
    rcases htrail _ hmem with heq | hfolder
    · exact hne (heq.trans (Disk.goal_of_locate hlocate'))
    · rw [← Disk.goal_of_locate hlocate, hfile] at hfolder
      cases hfolder
  exact ⟨spares hj hk hjd hkd hne, spares hk hj hkd hjd hne.symm⟩

theorem rely_of_guarantee {d : Disk} {j k : Job} (h : j.Apart d k) (s s' : Machine)
    (hs : j.guarantee d s s') : k.rely d s s' := by
  refine Grows.mono hs (fun x hpass hgoal => ?_) (fun x hgoal => ?_)
  · exact (h.2 x hgoal).2 hpass
  · exact ⟨(h.1 x hgoal).2, (h.1 x hgoal).1⟩

theorem apart_of_pairwise {d : Disk} {jobs : List Job} (h : jobs.Pairwise (Apart d))
    (i k : Fin jobs.length) (hik : i ≠ k) : jobs[i].Apart d jobs[k] := by
  rw [List.pairwise_iff_getElem] at h
  rcases Nat.lt_or_gt_of_ne (fun heq => hik (Fin.ext heq)) with hlt | hgt
  · exact h i k i.isLt k.isLt hlt
  · exact (h k i k.isLt i.isLt hgt).symm

/-- The contracts of jobs that keep away from each other fit together. -/
def contracts {d : Disk} {jobs : List Job} (h : jobs.Pairwise (Apart d)) :
    Process.Contracts (Fin jobs.length) Machine where
  rely i := jobs[i].rely d
  guarantee i := jobs[i].guarantee d
  refl _ := rely_refl
  trans _ := rely_trans
  compatible i k hik := rely_of_guarantee (apart_of_pairwise h i k hik)

end Job

section

variable {set : OptionSet} {jobs : List Job} {s s' : Machine}
  {results : Fin jobs.length → Except JobError Converted}

/-- Jobs as processes. -/
def processes (set : OptionSet) (jobs : List Job) (i : Fin jobs.length) :
    Process Machine (Except JobError Converted) := jobs[i].run set

/-- What a run of jobs from `s` to `s'` comes to if no job disturbs another one. -/
structure Undisturbed (set : OptionSet) (jobs : List Job) (s s' : Machine)
    (results : Fin jobs.length → Except JobError Converted) : Prop where
  /-- a job gives what it gives alone, or fails if it fails alone -/
  alone : ∀ i, (results i).toOption = ((jobs[i].run set : StateM Machine _).run s).1.toOption
  /-- what it gives is the conversion of what its input held at first -/
  conversion : ∀ i c, results i = .ok c → ∃ text, s.disk.read jobs[i].input = .ok text ∧
    set.convert (some jobs[i].input.text) text = .ok c
  destination : ∀ i c p, results i = .ok c → jobs[i].destination = .file p →
    s'.disk.file? (s.disk.goal p) = some (.text c.text)
  others : ∀ x, (∀ i c p, results i = .ok c → jobs[i].destination = .file p →
    x ≠ s.disk.goal p) → s'.disk.file? x = s.disk.file? x

theorem toOption_eq_some {ε α : Type} {r : Except ε α} {a : α} :
    r.toOption = some a ↔ r = .ok a := by
  cases r <;> simp [Except.toOption]

/-- What is left of the files is told by what the jobs give alone. -/
theorem Undisturbed.file?_eq {s'' : Machine}
    {results' : Fin jobs.length → Except JobError Converted}
    (h : Undisturbed set jobs s s' results) (h' : Undisturbed set jobs s s'' results') :
    s'.disk.file? = s''.disk.file? := by
  have same (i : Fin jobs.length) (c : Converted) : results i = .ok c ↔ results' i = .ok c := by
    rw [← toOption_eq_some, ← toOption_eq_some, h.alone i, h'.alone i]
  funext x
  by_cases hx : ∀ i c p, results i = .ok c → jobs[i].destination = .file p → x ≠ s.disk.goal p
  · rw [h.others x hx, h'.others x fun i c p hc => hx i c p ((same i c).mpr hc)]
  · push Not at hx
    obtain ⟨i, c, p, hc, hp, rfl⟩ := hx
    rw [h.destination i c p hc hp, h'.destination i c p ((same i c).mp hc) hp]

/-- Jobs that keep away from each other do not disturb each other. -/
theorem undisturbed_of_interleaved (hready : ∀ j ∈ jobs, j.Ready s.disk)
    (hapart : jobs.Pairwise (Job.Apart s.disk))
    (h : Process.Interleaved s (processes set jobs) s' results) :
    Undisturbed set jobs s s' results := by
  have hmeets (i : Fin jobs.length) :
      (processes set jobs i).Meets (jobs[i].rely s.disk) (jobs[i].guarantee s.disk)
        (fun r s' => jobs[i].Ends set s.disk r s'.disk) s :=
    Job.meets_run (hready _ (List.getElem_mem i.isLt))
  have hends : ∀ i : Fin jobs.length, jobs[i].Ends set s.disk (results i) s'.disk :=
    h.meets (Job.contracts hapart) hmeets
  have hgrows : Grows (fun _ => True) (fun x => ∃ i : Fin jobs.length, x ∈ jobs[i].goals s.disk)
      s.disk s'.disk := by
    refine h.keeps (Job.contracts hapart) hmeets
      (fun s s' => Grows (fun _ => True) (fun x => ∃ i : Fin jobs.length, x ∈ jobs[i].goals _)
        s.disk s'.disk) (fun s => Grows.refl s.disk) (fun _ _ _ h h' => Grows.trans h h') ?_
    exact fun i s₁ s₂ hguarantee => Grows.mono hguarantee (fun _ _ => trivial) fun _ hx => ⟨i, hx⟩
  have hconverted (i : Fin jobs.length) (c : Converted) (hc : results i = .ok c) :
      ∃ text, s.disk.read jobs[i].input = .ok text ∧
        set.convert (some jobs[i].input.text) text = .ok c :=
    Job.exists_of_converted (((hends i).result c).mp hc).1
  refine ⟨fun i => ?_, hconverted, fun i c p hc hp => ?_, fun x hx => ?_⟩
  · have halone := (hmeets i).execute Job.rely_refl
    rw [processes, Process.execute_run] at halone
    refine Option.ext fun c => ?_
    rw [toOption_eq_some, toOption_eq_some, (hends i).result c]
    exact (halone.result c).symm
  · exact (hends i).file?_destination hc hp
  · by_cases hgoal : ∃ i : Fin jobs.length, x ∈ jobs[i].goals s.disk
    · obtain ⟨i, hi⟩ := hgoal
      refine (hends i).kept (fun c p hc hp => ?_) x hi
      have hdestination := (Job.destination_of_writes? hp).1
      rw [Job.goals_eq hdestination] at hi
      exact hx i c p hc hdestination (List.mem_singleton.mp hi)
    · exact Grows.file?_eq hgrows hgoal

/-- What the command makes of a machine, which runs the jobs one after another. -/
def inTurn (set : OptionSet) (jobs : List Job) (s : Machine) : Machine :=
  ((jobs.mapM fun j => do return (j, ← j.run set) : StateM Machine _).run s).2

/-- One after another, as the command runs them, is a run of the jobs. -/
theorem interleaved_inTurn (set : OptionSet) (jobs : List Job) (s : Machine) :
    ∃ results, Process.Interleaved s (processes set jobs) (inTurn set jobs s) results := by
  have hmapM (js : List Job) (s : Machine) :
      inTurn set js s = js.foldl (fun s j => ((j.run set : StateM Machine _).run s).2) s := by
    induction js generalizing s with
    | nil => rfl
    | cons j js ih =>
      rw [List.foldl_cons, ← ih, inTurn, List.mapM_cons]
      rfl
  have horder : Process.runInOrder (processes set jobs) (List.finRange jobs.length) s =
      inTurn set jobs s := by
    rw [hmapM]
    conv_rhs => rw [← List.map_getElem_finRange jobs]
    rw [List.foldl_map]
    refine List.foldl_ext _ _ s fun s i _ => ?_
    rw [processes, Process.execute_run]
    rfl
  rw [← horder]
  exact Process.Interleaved.inOrder _ (List.nodup_finRange _) List.mem_finRange s

/-- Planned jobs have destinations with different components. If they keep away from each other, no
job disturbs another one, and every run leaves the files that the command leaves, which runs them
one after another. -/
theorem planned_undisturbed {texts : List Text} {t : Target} {s₀ : Machine} {inputs : List Input}
    (hworking : s₀.disk.stands? s₀.disk.working = some .folder)
    (hinputs : (collectInputs texts : StateM Machine _).run s₀ = (.ok inputs, s))
    (hplan : planJobs t inputs = .ok jobs) (hapart : jobs.Pairwise (Job.Apart s.disk)) :
    jobs.Pairwise Job.Distinct ∧
      (∃ results, Process.Interleaved s (processes set jobs) (inTurn set jobs s) results) ∧
      ∀ s' results, Process.Interleaved s (processes set jobs) s' results →
        Undisturbed set jobs s s' results ∧ s'.disk.file? = (inTurn set jobs s).disk.file? := by
  obtain ⟨hdisk, hfiles⟩ := inspects_collectInputs texts s₀ rfl
  rw [hinputs] at hdisk hfiles
  obtain ⟨hinput, hdistinct⟩ := planJobs_spec hplan
  have hready : ∀ j ∈ jobs, j.Ready s.disk := by
    intro j hj
    obtain ⟨n, hn, rfl⟩ := List.mem_iff_getElem.mp hj
    obtain ⟨hlength, hpaths⟩ := List.forall₂_iff_get.mp hinput
    have hpath := (hpaths n (by omega) hn).1
    rw [hdisk]
    refine ⟨?_, fun p _ => Disk.stands?_start hworking p⟩
    change s₀.disk.LeadsToFile (jobs.get ⟨n, hn⟩).input
    rw [hpath]
    exact hfiles inputs rfl _ (List.get_mem ..)
  obtain ⟨results, hcommand⟩ := interleaved_inTurn set jobs s
  refine ⟨hdistinct, ⟨results, hcommand⟩, fun s' results' h => ?_⟩
  have hundisturbed := undisturbed_of_interleaved hready hapart h
  exact ⟨hundisturbed, hundisturbed.file?_eq (undisturbed_of_interleaved hready hapart hcommand)⟩

end

/-- A folder with a stylesheet, and a folder in it with another one. -/
def nested : Machine where
  disk :=
    { root := .folder [("w".toList, .folder [("css".toList, .folder
        [("a.css".toList, .file (.text "a { font-size: 16px; }\n".toList)),
          ("out".toList, .folder
            [("a.css".toList, .file (.text "b { font-size: 32px; }\n".toList))])])])]
      working := ["w".toList] }

def nestedInputs : List Input :=
  [⟨⟨"css/a.css".toList⟩, ⟨"a.css".toList⟩⟩, ⟨⟨"css/out/a.css".toList⟩, ⟨"out/a.css".toList⟩⟩]

theorem collectInputs_nested :
    (collectInputs ["css".toList] : StateM Machine _).run nested = (.ok nestedInputs, nested) := by
  cbv

/-- Both jobs make the folder that they share. -/
theorem planned_undisturbed_nested : ∃ jobs,
    nested.disk.stands? nested.disk.working = some .folder ∧
    (collectInputs ["css".toList] : StateM Machine _).run nested = (.ok nestedInputs, nested) ∧
    planJobs ⟨false, false, some ⟨"dist".toList⟩, false⟩ nestedInputs = .ok jobs ∧
    jobs.Pairwise (Job.Apart nested.disk) ∧
    ∀ s' results, Process.Interleaved nested (processes .default jobs) s' results →
      Undisturbed .default jobs nested s' results := by
  have hplan : planJobs ⟨false, false, some ⟨"dist".toList⟩, false⟩ nestedInputs =
      .ok [⟨⟨"css/a.css".toList⟩, .file ⟨"dist/a.css".toList⟩⟩,
        ⟨⟨"css/out/a.css".toList⟩, .file ⟨"dist/out/a.css".toList⟩⟩] := by cbv
  have hworking : nested.disk.stands? nested.disk.working = some .folder := by decide +kernel
  have hapart : [(⟨⟨"css/a.css".toList⟩, .file ⟨"dist/a.css".toList⟩⟩ : Job),
      ⟨⟨"css/out/a.css".toList⟩, .file ⟨"dist/out/a.css".toList⟩⟩].Pairwise
        (Job.Apart nested.disk) := by decide +kernel
  refine ⟨_, hworking, collectInputs_nested, hplan, hapart, fun s' results h => ?_⟩
  exact ((planned_undisturbed hworking collectInputs_nested hplan hapart).2.2 s' results h).1

/-- The jobs for these two and the inner folder as output. -/
def nestedJobs : List Job :=
  [⟨⟨"css/a.css".toList⟩, .file ⟨"css/out/a.css".toList⟩⟩,
    ⟨⟨"css/out/a.css".toList⟩, .file ⟨"css/out/out/a.css".toList⟩⟩]

/-- Written into the inner folder, the first stylesheet takes the place of the second one. What is
made of the second one depends on which job comes first. -/
theorem exists_runs_nested :
    (collectInputs ["css".toList] : StateM Machine _).run nested = (.ok nestedInputs, nested) ∧
    planJobs ⟨false, false, some ⟨"css/out".toList⟩, true⟩ nestedInputs = .ok nestedJobs ∧
    ∃ s s' results results',
      Process.Interleaved nested (processes .default nestedJobs) s results ∧
      Process.Interleaved nested (processes .default nestedJobs) s' results' ∧
      s.disk.file? (nested.disk.goal ⟨"css/out/out/a.css".toList⟩) =
        some (.text "a { font-size: 1rem; }\n".toList) ∧
      s'.disk.file? (nested.disk.goal ⟨"css/out/out/a.css".toList⟩) =
        some (.text "b { font-size: 2rem; }\n".toList) := by
  have hnodup := List.nodup_finRange nestedJobs.length
  obtain ⟨results, h⟩ :=
    Process.Interleaved.inOrder (processes .default nestedJobs) hnodup List.mem_finRange nested
  obtain ⟨results', h'⟩ :=
    Process.Interleaved.inOrder (processes .default nestedJobs) (List.nodup_reverse.mpr hnodup)
      (fun i => List.mem_reverse.mpr (List.mem_finRange i)) nested
  exact ⟨collectInputs_nested, by cbv, _, _, results, results', h, h', by decide +kernel,
    by decide +kernel⟩

/-- A stylesheet, and another one in a folder with the name of the first. -/
def crossed : Machine where
  disk :=
    { root := .folder [("w".toList, .folder
        [("one".toList, .folder [("x.css".toList, .file (.text "a{}".toList))]),
          ("two".toList, .folder
            [("x.css".toList, .folder [("y.css".toList, .file (.text "b{}".toList))])])])]
      working := ["w".toList] }

/-- The jobs for these two and the output folder `out`. -/
def crossedJobs : List Job :=
  [⟨⟨"one/x.css".toList⟩, .file ⟨"out/x.css".toList⟩⟩,
    ⟨⟨"two/x.css/y.css".toList⟩, .file ⟨"out/x.css/y.css".toList⟩⟩]

-- the first file is on the way to the second one, so only the job that comes first can write
example :
    let ps := processes .default crossedJobs
    let first := crossed.disk.goal ⟨"out/x.css".toList⟩
    (Process.runInOrder ps (List.finRange 2) crossed).disk.file? first =
        some (.text "a{}".toList) ∧
      (Process.runInOrder ps (List.finRange 2).reverse crossed).disk.file? first = none := by
  decide +kernel

end PixelScale
