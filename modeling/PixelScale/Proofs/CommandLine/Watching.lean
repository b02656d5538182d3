import PixelScale.Proofs.CommandLine.Gathering

/-!
# Watching a command write

Whether a command has written a file cannot be told from the disk, since a file may be given what it
held. On a watched machine each path that is written to is noted, and a command does what it does
unwatched. What is noted of a run of jobs are the paths that its jobs write, and of a whole command
perhaps the log with them.

* `Watched.Agrees`, `Watched.Notes`: a command does what it does unwatched, and some paths are noted.
* `Watched.notes_run`, `Watched.notes_outcomes`: what jobs write.
* `Watched.agrees_runJobs`: what a run of jobs writes.
* `Watched.agrees_run`: watching a command makes no difference.
-/

namespace PixelScale

namespace Watched

variable {α β : Type}

/-! ## Commands that write nothing -/

theorem watch_isFolder (p : Path) : watch (Host.isFolder p) = Host.isFolder p := rfl

theorem watch_isFile (p : Path) : watch (Host.isFile p) = Host.isFile p := rfl

theorem watch_findStylesheets (folder : Path) :
    watch (findStylesheets folder) = findStylesheets folder := by
  unfold findStylesheets
  split <;> rfl

theorem watch_collectInput (t : Text) : watch (collectInput t) = collectInput t := by
  unfold collectInput
  rw [watch_bind, watch_isFolder]
  refine bind_congr fun isFolder => ?_
  cases isFolder with
  | true =>
    rw [if_pos rfl, if_pos rfl, watch_bind, watch_findStylesheets]
    rfl
  | false =>
    rw [if_neg Bool.false_ne_true, if_neg Bool.false_ne_true, watch_bind, watch_isFile]
    refine bind_congr fun isFile => ?_
    cases isFile with
    | true =>
      rw [if_pos rfl, if_pos rfl]
      split <;> rfl
    | false =>
      rw [if_neg Bool.false_ne_true, if_neg Bool.false_ne_true]
      split <;> rfl

theorem watch_collectAll (ts : List Text) : watch (collectAll ts) = collectAll ts := by
  induction ts with
  | nil => rfl
  | cons t ts ih =>
    unfold collectAll
    rw [watch_bind, watch_collectInput]
    refine bind_congr fun r => ?_
    cases r with
    | error e => rfl
    | ok is =>
      dsimp only
      rw [watch_bind, ih]
      refine bind_congr fun r => ?_
      cases r <;> rfl

theorem watch_collectInputs (ts : List Text) : watch (collectInputs ts) = collectInputs ts := by
  unfold collectInputs
  rw [watch_bind, watch_collectAll]
  rfl

theorem watch_announce (j : Job) (r : Except JobError Converted) :
    watch (j.announce r) = j.announce r := by
  unfold Job.announce
  cases r with
  | error e => rfl
  | ok c =>
    dsimp only
    split <;> cases j.remark? c <;> rfl

theorem watch_announceAll (results : List (Job × Except JobError Converted)) :
    watch (announceAll results) = announceAll results := by
  induction results with
  | nil => rfl
  | cons r results ih =>
    unfold announceAll
    rw [watch_bind, watch_announce, ← ih]
    rfl

theorem watch_makeFoldersWithin (fuel : Nat) (p : Path) :
    watch (Host.makeFoldersWithin fuel p) = Host.makeFoldersWithin fuel p := by
  induction fuel generalizing p with
  | zero => rfl
  | succ fuel ih =>
    have check (e : FileError) : watch (do
        return if ← Host.isFolder p then .ok () else .error e) =
        (do return if ← Host.isFolder p then .ok () else .error e :
          StateM Watched (Except FileError Unit)) := rfl
    unfold Host.makeFoldersWithin
    split
    next => rfl
    next =>
      rw [watch_bind]
      refine bind_congr fun r => ?_
      split
      next => rfl
      next =>
        split
        next => rfl
        next q _ =>
          rw [watch_bind, ih]
          refine bind_congr fun r => ?_
          split
          next =>
            rw [watch_bind]
            refine bind_congr fun r => ?_
            split
            next => rfl
            next e => exact check e
          next => rfl
      next e _ => exact check e

/-! ## Commands that write -/

/-- A command does what it does unwatched, and what it writes is noted. -/
def Agrees (x : StateM Watched α) (y : StateM Machine α) (new : Machine → List Path) : Prop :=
  ∀ w, x.run w = ((y.run w.machine).1, ⟨(y.run w.machine).2, w.written ++ new w.machine⟩)

theorem agrees_of_watch {x : StateM Watched α} {y : StateM Machine α} (h : watch y = x) :
    Agrees x y fun _ => [] := by
  subst h
  intro w
  rw [List.append_nil]
  rfl

theorem Agrees.bind {x : StateM Watched β} {y : StateM Machine β} {f : β → StateM Watched α}
    {g : β → StateM Machine α} {new : Machine → List Path} {next : β → Machine → List Path}
    (h : Agrees x y new) (hf : ∀ b, Agrees (f b) (g b) (next b)) :
    Agrees (x >>= f) (y >>= g) fun s => new s ++ next (y.run s).1 (y.run s).2 := by
  intro w
  change (f (x.run w).1).run (x.run w).2 = _
  rw [h w, hf, List.append_assoc]
  rfl

/-- A command does what it does unwatched, and its result tells what is noted. -/
def Notes (x : StateM Watched α) (y : StateM Machine α) (f : α → List Path) : Prop :=
  Agrees x y fun s => f (y.run s).1

namespace Notes

variable {f : α → List Path} {f' : β → List Path}

theorem pure {a : α} (ha : f a = []) : Notes (pure a) (pure a) f := by
  intro w
  change _ = (a, Watched.mk w.machine (w.written ++ f a))
  rw [ha, List.append_nil]
  rfl

/-- What comes in front of a command and writes nothing makes no difference. -/
theorem after {x : StateM Watched β} {y : StateM Machine β} {k : β → StateM Watched α}
    {k' : β → StateM Machine α} (h : watch y = x) (hk : ∀ b, Notes (k b) (k' b) f) :
    Notes (x >>= k) (y >>= k') f :=
  (agrees_of_watch h).bind hk

/-- What comes behind a command and only gives a result makes no difference. -/
theorem gives {x : StateM Watched β} {y : StateM Machine β} {k : β → StateM Watched α}
    {k' : β → StateM Machine α} (h : Notes x y f')
    (hk : ∀ b, ∃ a, k b = Pure.pure a ∧ k' b = Pure.pure a ∧ f a = f' b) :
    Notes (x >>= k) (y >>= k') f := by
  intro w
  obtain ⟨a, ha, ha', hf⟩ := hk (y.run w.machine).1
  change (k (x.run w).1).run (x.run w).2 =
    (((k' (y.run w.machine).1).run (y.run w.machine).2).1, Watched.mk
      ((k' (y.run w.machine).1).run (y.run w.machine).2).2
      (w.written ++ f ((k' (y.run w.machine).1).run (y.run w.machine).2).1))
  rw [h w, ha, ha']
  change (a, _) = (a, Watched.mk _ (w.written ++ f a))
  rw [hf]
  rfl

theorem write (p : Path) (t : Text) : Notes (Host.write p t) (Host.write p t) (noted p) :=
  fun _ => rfl

theorem append (p : Path) (t : Text) : Notes (Host.append p t) (Host.append p t) (noted p) :=
  fun _ => rfl

end Notes

theorem noted_mapError {ε ε' : Type} (p : Path) (f : ε → ε') (r : Except ε Unit) :
    noted p (r.mapError f) = noted p r := by
  cases r <;> rfl

theorem notes_made (p : Path) (t : Text) (made : Except JobError Unit) : Notes (match made with
    | .error e => return .error e
    | .ok () => return (← Host.write p t).mapError (JobError.write p)) (match made with
    | .error e => return .error e
    | .ok () => return (← Host.write p t).mapError (JobError.write p)) (noted p) := by
  cases made with
  | error e => exact .pure rfl
  | ok u => exact (Notes.write p t).gives fun r => ⟨_, rfl, rfl, noted_mapError p _ r⟩

/-- A file is noted if it is written, and not the folders that are made for it. -/
theorem notes_writeTo (p : Path) (t : Text) :
    Notes (Job.writeTo p t) (Job.writeTo p t) (noted p) := by
  unfold Job.writeTo
  split
  next q _ =>
    split
    next => exact .after rfl (notes_made p t)
    next => exact .after (watch_makeFoldersWithin _ q) fun r => notes_made p t _
  next => exact .after rfl (notes_made p t)

/-! ## Jobs -/

end Watched

/-- The path that is written to by a job with this outcome. -/
def Job.wrote (j : Job) : Except JobError Converted → List Path
  | .ok c => (j.writes? c).toList
  | .error _ => []

/-- The paths that are written to by jobs with these outcomes. -/
def writtenBy (results : List (Job × Except JobError Converted)) : List Path :=
  results.flatMap fun r => r.1.wrote r.2

namespace Watched

theorem notes_run (set : OptionSet) (j : Job) : Notes (j.run set) (j.run set) j.wrote := by
  unfold Job.run
  refine .after rfl fun r => ?_
  cases r with
  | error e => exact .pure rfl
  | ok text =>
    dsimp only
    split
    next => exact .pure rfl
    next c _ =>
      split
      next hp =>
        exact .pure (by rw [Job.wrote, hp]; rfl)
      next p hp =>
        refine (notes_writeTo p c.text).gives fun r => ?_
        cases r with
        | error e => exact ⟨_, rfl, rfl, rfl⟩
        | ok u => exact ⟨_, rfl, rfl, by rw [Job.wrote, hp]; rfl⟩

/-- What is noted of jobs in turn is what they write. -/
theorem notes_outcomes (set : OptionSet) (jobs : List Job) :
    Notes (jobs.mapM fun j => do return (j, ← j.run set))
      (jobs.mapM fun j => do return (j, ← j.run set)) writtenBy := by
  induction jobs with
  | nil => exact .pure rfl
  | cons j jobs ih =>
    have hfirst : Notes (do return (j, ← j.run set)) (do return (j, ← j.run set))
        fun r => r.1.wrote r.2 :=
      (notes_run set j).gives fun r => ⟨(j, r), rfl, rfl, rfl⟩
    have hrest (r : Job × Except JobError Converted) := ih.gives
      (f := fun results => writtenBy results.tail) fun results => ⟨r :: results, rfl, rfl, rfl⟩
    rw [List.mapM_cons, List.mapM_cons]
    exact Agrees.bind hfirst hrest

theorem eq_of_mem_noted {ε : Type} {p q : Path} {r : Except ε Unit} (h : q ∈ noted p r) :
    q = p := by
  cases r with
  | ok u => exact List.mem_singleton.mp h
  | error e => exact absurd h List.not_mem_nil

theorem watch_logged (p : Path) (r : Except FileError Unit) : watch (match r with
    | .ok () => return ()
    | .error e => Host.warnLine
      ("Warning: Failed to write report '".toList ++ p.text ++ "': ".toList ++ e.message)) =
    (match r with
    | .ok () => return ()
    | .error e => Host.warnLine ("Warning: Failed to write report '".toList ++ p.text ++
      "': ".toList ++ e.message) : StateM Watched Unit) := by
  cases r <;> rfl

/-- A log is the only file that is noted when it is written. -/
theorem agrees_writeLog (log : Option Path) (entries : List RunLog.Entry) :
    ∃ new, Agrees (writeLog log entries) (writeLog log entries) new ∧
      ∀ s, ∀ p ∈ new s, log = some p := by
  cases log with
  | none => exact ⟨_, agrees_of_watch rfl, fun _ _ hp => absurd hp List.not_mem_nil⟩
  | some p =>
    refine ⟨_, Agrees.bind (Notes.append p (RunLog.lines entries)) fun r =>
      agrees_of_watch (watch_logged p r), fun s q hq => ?_⟩
    rw [List.append_nil] at hq
    rw [eq_of_mem_noted hq]

/-- What is noted of a run of jobs is what they write, and perhaps the log. -/
theorem agrees_runJobs (set : OptionSet) (log : Option Path) (jobs : List Job) :
    ∃ last : Machine → List Path,
      Agrees (runJobs set log jobs) (runJobs set log jobs)
        (fun s => writtenBy (outcomes set jobs s) ++ last s) ∧
      ∀ s, ∀ p ∈ last s, log = some p := by
  choose new hnew hlog using agrees_writeLog log
  have hrest (results : List (Job × Except JobError Converted)) :
      ∃ last, Agrees (do
          writeLog log (← announceAll results)
          return if results.any isAlarm then ExitCode.failure else .success) (do
          writeLog log (← announceAll results)
          return if results.any isAlarm then ExitCode.failure else .success) last ∧
        ∀ s, ∀ p ∈ last s, log = some p := by
    refine ⟨_, (agrees_of_watch (watch_announceAll results)).bind fun entries =>
      (hnew entries).bind fun _ => agrees_of_watch rfl, fun s p hp => ?_⟩
    rw [List.nil_append, List.append_nil] at hp
    exact hlog _ _ p hp
  choose last hlast hlog using hrest
  exact ⟨_, (notes_outcomes set jobs).bind hlast, fun s => hlog _ _⟩

/-! ## Commands -/

section

open ConvertArguments (finish_of_plan finish_of_no_plan run_eq_gather)

variable {a : ConvertArguments}

theorem watch_complain (code : ExitCode) (t : Text) :
    watch (complain code t) = complain code t := rfl

theorem watch_gather (a : ConvertArguments) : watch a.gather = a.gather := by
  unfold ConvertArguments.gather
  split
  · rfl
  · rw [watch_bind, (looks_load a.options).watched]
    refine bind_congr fun r => ?_
    cases r with
    | error e => rfl
    | ok set =>
      dsimp only
      rw [watch_bind, watch_collectInputs]
      refine bind_congr fun r => ?_
      cases r with
      | error e => rfl
      | ok inputs => cases inputs <;> rfl

/-- What is noted of a command with what it gathered is what its jobs write, and perhaps the log. -/
theorem agrees_finish (a : ConvertArguments) (r : Except ExitCode (OptionSet × List Input)) :
    ∃ new : Machine → List Path, Agrees (a.finish r) (a.finish r) new ∧
      ∀ set inputs jobs, r = .ok (set, inputs) →
        planJobs ⟨a.check, a.inPlace, none, false⟩ inputs = .ok jobs →
        ∀ s, ∃ last, (∀ p ∈ last, a.report = some p) ∧
          new s = writtenBy (outcomes set jobs s) ++ last := by
  cases r with
  | error code => exact ⟨_, agrees_of_watch rfl, nofun⟩
  | ok gathered =>
    obtain ⟨set, inputs⟩ := gathered
    cases hplan : planJobs ⟨a.check, a.inPlace, none, false⟩ inputs with
    | error e =>
      rw [finish_of_no_plan hplan, finish_of_no_plan hplan]
      refine ⟨_, agrees_of_watch (watch_complain .badArguments e.message), ?_⟩
      intro set' inputs' jobs hr hjobs
      cases hr
      rw [hplan] at hjobs
      cases hjobs
    | ok jobs =>
      rw [finish_of_plan hplan, finish_of_plan hplan]
      obtain ⟨last, hagrees, hlast⟩ := agrees_runJobs set a.report jobs
      refine ⟨_, hagrees, ?_⟩
      intro set' inputs' jobs' hr hjobs s
      cases hr
      rw [hplan] at hjobs
      cases hjobs
      exact ⟨last s, hlast s, rfl⟩

/-- Watching a command makes no difference. If it gets as far as jobs, what is noted is what they
write, and perhaps the log. -/
theorem agrees_run (hinputs : a.inputs ≠ []) (houtput : a.output = none) :
    ∃ new : Machine → List Path, Agrees a.run a.run new ∧
      ∀ s set inputs jobs, ((a.gather : StateM Machine _).run s).1 = .ok (set, inputs) →
        planJobs ⟨a.check, a.inPlace, none, false⟩ inputs = .ok jobs →
        ∃ last, (∀ p ∈ last, a.report = some p) ∧
          new s = writtenBy (outcomes set jobs ((a.gather : StateM Machine _).run s).2) ++ last := by
  choose new hnew hwritten using agrees_finish a
  have hagrees : Agrees (do
      let _ ← Host.isInteractive
      a.finish (← a.gather)) (do
      let _ ← Host.isInteractive
      a.finish (← a.gather)) _ :=
    (agrees_of_watch rfl).bind fun _ => (agrees_of_watch (watch_gather a)).bind hnew
  rw [← run_eq_gather hinputs houtput, ← run_eq_gather hinputs houtput] at hagrees
  exact ⟨_, hagrees, fun s set inputs jobs hgather hplan =>
    hwritten _ set inputs jobs hgather hplan _⟩

end

end Watched

end PixelScale
