import PixelScale.Proofs.CommandLine.Outcomes

/-!
# What a run log tells

For files, the log tells the truth: it gains an entry for every input, in the order of the inputs,
and an entry says that its input failed if and only if that input could not be read, understood or
written. Without a check, the command fails if and only if one of them did.

For standard input it does not. The entry is written before the text is, so it says nothing about
whether the text could be written. Standard input that is no text ends the command before any entry
is written. A command that fails this way leaves a log without a failed entry.

* `RunLog.Gains`: a log with more entries behind what it held.
* `Logged`: the entries of a run of jobs.
* `runJobs_logs`, `ConvertArguments.runStdin_logs`: what is logged for files and standard input.
* `ConvertArguments.run_logs`: what a command logs.
-/

namespace PixelScale

variable {d d' : Disk} {p : Path} {s s' : Machine} {set : OptionSet} {jobs : List Job}
  {inputs : List Input} {entries : List RunLog.Entry}

/-- A machine on which an error was reported. -/
def Machine.complained (s : Machine) (t : Text) : Machine :=
  { s with warned := s.warned ++ ("Error: ".toList ++ t ++ ['\n']) }

@[simp] theorem Machine.seconds_complained (s : Machine) (t : Text) :
    (s.complained t).seconds = s.seconds := rfl

theorem run_complain (code : ExitCode) (t : Text) (s : Machine) :
    (complain code t : StateM Machine _).run s = (code, s.complained t) := rfl

theorem run_timestamp (s : Machine) :
    (timestamp : StateM Machine _).run s = (Timestamp.ofSeconds s.seconds, s) := rfl

/-! ## Entries -/

/-- What a log holds, or nothing if it is not there, with entries behind. -/
def RunLog.extended (d : Disk) (p : Path) (entries : List RunLog.Entry) : Content :=
  ((d.file? (d.goal p)).getD (.text [])).append (RunLog.lines entries)

/-- A log holds what it held, with entries behind. -/
def RunLog.Gains (d d' : Disk) (p : Path) (entries : List RunLog.Entry) : Prop :=
  d'.file? (d.goal p) = some (RunLog.extended d p entries)

/-- A log was given entries, and nothing else changed. -/
def RunLog.Appended (d d' : Disk) (p : Path) (entries : List RunLog.Entry) : Prop :=
  d.Changed d' (d.goal p) (.file (RunLog.extended d p entries))

theorem RunLog.Appended.gains (h : RunLog.Appended d d' p entries) :
    RunLog.Gains d d' p entries := by
  rw [Gains, h.file?, if_pos rfl]

theorem RunLog.Entry.status_finished (timestamp file : Text) (report : Option Report) :
    (finished timestamp file report).status ≠ .failed := by
  unfold finished
  cases report with
  | none => exact nofun
  | some r =>
    dsimp only
    split <;> exact nofun

theorem Job.file_entry (timestamp : Text) (j : Job) (r : Except JobError Converted) :
    (j.entry timestamp r).file = j.input.text := by
  cases r <;> rfl

/-- The entry of a job says that it failed if and only if it did. -/
theorem Job.status_entry_iff (timestamp : Text) (j : Job) (r : Except JobError Converted) :
    (j.entry timestamp r).status = .failed ↔ ∃ e, r = .error e := by
  cases r with
  | ok c =>
    refine iff_of_false (RunLog.Entry.status_finished _ _ _) ?_
    rintro ⟨e, he⟩
    cases he
  | error e => exact iff_of_true rfl ⟨e, rfl⟩

/-- The entries that jobs with these outcomes get, at some time. -/
def Entered (results : List (Job × Except JobError Converted)) (entries : List RunLog.Entry) :
    Prop :=
  List.Forall₂ (fun r e => ∃ timestamp, e = r.1.entry timestamp r.2) results entries

theorem Entered.files {results : List (Job × Except JobError Converted)}
    (h : Entered results entries) :
    entries.map RunLog.Entry.file = results.map fun r => r.1.input.text := by
  induction h with
  | nil => rfl
  | @cons r e results entries hentry _ ih =>
    obtain ⟨timestamp, rfl⟩ := hentry
    rw [List.map_cons, List.map_cons, ih, Job.file_entry]

theorem Entered.exists_failed_iff {results : List (Job × Except JobError Converted)}
    (h : Entered results entries) :
    (∃ e ∈ entries, e.status = .failed) ↔ ∃ r ∈ results, ∃ e, r.2 = .error e := by
  induction h with
  | nil => simp
  | @cons r e results entries hentry _ ih =>
    obtain ⟨timestamp, rfl⟩ := hentry
    simp only [List.exists_mem_cons_iff, ih, Job.status_entry_iff]

/-! ## Announcing -/

theorem inspects_print (t : Text) : Inspects d (Host.print t) fun _ => True :=
  fun _ hs => ⟨hs, trivial⟩

theorem inspects_remark (remark : Option Text) : Inspects d (match remark with
    | some t => Host.warnLine t
    | none => return ()) fun _ => True := by
  cases remark with
  | some t => exact inspects_warnLine t
  | none => exact .pure trivial

theorem inspects_announce (j : Job) (r : Except JobError Converted) :
    Inspects d (j.announce r) fun _ => True := by
  cases r with
  | error e => exact inspects_warnLine _
  | ok c =>
    unfold Job.announce
    dsimp only
    split
    · exact (inspects_print c.text).bind fun _ _ => inspects_remark _
    · exact inspects_remark _

/-- Announcing outcomes leaves the disk as it is and gives their entries. -/
theorem inspects_announceAll (results : List (Job × Except JobError Converted)) :
    Inspects d (announceAll results) (Entered results) := by
  induction results with
  | nil => exact .pure .nil
  | cons r results ih =>
    obtain ⟨j, outcome⟩ := r
    have htime : Inspects d (timestamp : StateM Machine _) fun _ => True :=
      fun _ hs => ⟨hs, trivial⟩
    unfold announceAll
    refine (inspects_announce j outcome).bind fun _ _ => htime.bind fun t _ => ?_
    exact ih.bind fun entries hentries => .pure (.cons ⟨t, rfl⟩ hentries)

/-- A log that can be written gains the entries. -/
theorem run_writeLog (h : s.disk.Opens p) (entries : List RunLog.Entry) :
    ∃ s', (writeLog (some p) entries : StateM Machine _).run s = ((), s') ∧
      RunLog.Appended s.disk s'.disk p entries := by
  obtain ⟨d', happend, hchanged⟩ := Disk.append_of_opens h (RunLog.lines entries)
  refine ⟨{ s with disk := d' }, ?_, hchanged⟩
  unfold writeLog
  rw [StateT.run_bind, Machine.run_append, happend]
  rfl

/-! ## Files -/

/-- The entries of a run of jobs: one for each input, in their order, that says whether the job of
that input failed on the machine that the jobs in front of it left. -/
structure Logged (set : OptionSet) (inputs : List Input) (jobs : List Job) (s : Machine)
    (entries : List RunLog.Entry) : Prop where
  reads : jobs.map Job.input = inputs.map Input.path
  files : entries.map RunLog.Entry.file = inputs.map fun i => i.path.text
  failed : ∀ k (hj : k < jobs.length) (he : k < entries.length),
    entries[k].status = .failed ↔ jobs[k].Fails set (inTurn set (jobs.take k) s)

theorem map_input_of_planJobs {t : Target} (h : planJobs t inputs = .ok jobs) :
    jobs.map Job.input = inputs.map Input.path := by
  obtain ⟨hforall, -⟩ := planJobs_spec h
  generalize hsingle : (inputs.length == 1) = single at hforall
  clear h hsingle
  induction hforall with
  | nil => rfl
  | cons hij _ ih => rw [List.map_cons, List.map_cons, ih, hij.1]

theorem logged_of_entered (hinputs : jobs.map Job.input = inputs.map Input.path)
    (h : Entered (outcomes set jobs s) entries) : Logged set inputs jobs s entries := by
  refine ⟨hinputs, ?_, fun k hj he => ?_⟩
  · calc
      entries.map RunLog.Entry.file
        = (((outcomes set jobs s).map Prod.fst).map Job.input).map Path.text := by
        rw [h.files, List.map_map, List.map_map]
        rfl
      _ = (inputs.map Input.path).map Path.text := by rw [map_fst_outcomes, hinputs]
      _ = inputs.map fun i => i.path.text := List.map_map
  · obtain ⟨hlength, hget⟩ := List.forall₂_iff_get.mp h
    obtain ⟨timestamp, hentry⟩ := hget k (by omega) he
    change entries[k] = _ at hentry
    have houtcome : (outcomes set jobs s).get ⟨k, by omega⟩ =
        (jobs[k], ((jobs[k].run set : StateM Machine _).run (inTurn set (jobs.take k) s)).1) := by
      simp only [List.get_eq_getElem, outcomes_eq, List.getElem_mapIdx]
    rw [hentry, houtcome, Job.status_entry_iff, Job.exists_error_iff_fails]

/-- A job that is not only checked is an alarm if and only if it failed. -/
theorem isAlarm_iff {j : Job} {r : Except JobError Converted} (hj : j.destination ≠ .discard) :
    isAlarm (j, r) = true ↔ ∃ e, r = .error e := by
  cases r with
  | error e => exact iff_of_true rfl ⟨e, rfl⟩
  | ok c =>
    refine iff_of_false ?_ ?_
    · change ¬ (j.destination == .discard && 0 < c.changes) = true
      simp [hj]
    · rintro ⟨e, he⟩
      cases he

theorem check_target (a : ConvertArguments) (s : Machine) :
    ((a.target : StateM Machine _).run s).1.check = a.check := by
  unfold ConvertArguments.target
  cases a.output <;> rfl

/-- Without a check, planned jobs are more than checked. -/
theorem destination_ne_discard {t : Target} {single : Bool} {i : Input} {destination : Destination}
    (h : t.destination single i = .ok destination) (hcheck : t.check = false) :
    destination ≠ .discard := by
  rintro rfl
  unfold Target.destination at h
  rw [hcheck, if_neg Bool.false_ne_true] at h
  split at h
  · cases h
  · split at h
    · split at h <;> cases h
    · split at h <;> cases h

/-- A run of jobs announces what comes of them and writes the log. -/
theorem run_runJobs (set : OptionSet) (log : Option Path) (jobs : List Job) (s : Machine) :
    (runJobs set log jobs : StateM Machine _).run s =
      let announced := (announceAll (outcomes set jobs s) : StateM Machine _).run (inTurn set jobs s)
      (if (outcomes set jobs s).any isAlarm then .failure else .success,
        ((writeLog log announced.1 : StateM Machine _).run announced.2).2) := rfl

/-- What a run of jobs logs. -/
theorem runJobs_logs (hopens : (inTurn set jobs s).disk.Opens p) :
    ∃ entries s', (runJobs set (some p) jobs : StateM Machine _).run s =
        (if (outcomes set jobs s).any isAlarm then .failure else .success, s') ∧
      Entered (outcomes set jobs s) entries ∧
      RunLog.Appended (inTurn set jobs s).disk s'.disk p entries := by
  obtain ⟨hdisk, hentered⟩ := inspects_announceAll (outcomes set jobs s) (inTurn set jobs s) rfl
  rw [← hdisk] at hopens
  obtain ⟨s', hlog, hchanged⟩ := run_writeLog hopens
    ((announceAll (outcomes set jobs s) : StateM Machine _).run (inTurn set jobs s)).1
  rw [hdisk] at hchanged
  refine ⟨_, s', ?_, hentered, hchanged⟩
  rw [run_runJobs]
  dsimp only
  rw [hlog]

/-! ## Standard input -/

theorem run_input_text {t : Text} (h : s.input = .text t) :
    (Host.input : StateM Machine _).run s = (.ok t, s) := by
  obtain ⟨disk, environment, input⟩ := s
  obtain rfl : input = .text t := h
  rfl

theorem run_input_binary {bytes : List UInt8} (h : s.input = .binary bytes) :
    (Host.input : StateM Machine _).run s = (.error .notText, s) := by
  obtain ⟨disk, environment, input⟩ := s
  obtain rfl : input = .binary bytes := h
  rfl

namespace ConvertArguments

variable {a : ConvertArguments} {code : ExitCode}

/-- Nothing is logged for standard input that is no text. -/
theorem runStdin_binary {bytes : List UInt8} (h : s.input = .binary bytes)
    (hrun : (a.runStdin set : StateM Machine _).run s = (code, s')) :
    code = .failure ∧ s'.disk = s.disk := by
  unfold runStdin at hrun
  rw [Machine.run_bind, run_input_binary h] at hrun
  cases hrun
  exact ⟨rfl, rfl⟩

/-- A text on standard input is logged before what is made of it is written, to the disk `d`. -/
theorem runStdin_logs {text : Text} (hreport : a.report = some p) (hopens : s.disk.Opens p)
    (h : s.input = .text text) (hrun : (a.runStdin set : StateM Machine _).run s = (code, s')) :
    ∃ e d, RunLog.Appended s.disk d p [e] ∧ e.file = a.stdinPath.getD stdinName ∧
      (e.status = .failed ↔ ∃ x, Stylesheet.parse text = .error x) ∧
      ((∀ o, a.output = some o → s.disk.goal o ≠ s.disk.goal p) →
        RunLog.Gains s.disk s'.disk p [e]) ∧
      (a.check = false → (code = .failure ↔ e.status = .failed ∨
        ∃ o c x, a.output = some o ∧ set.convert a.stdinPath text = .ok c ∧
          d.write o c.text = .error x)) := by
  unfold runStdin at hrun
  rw [Machine.run_bind, run_input_text h, hreport] at hrun
  dsimp only at hrun
  cases hconvert : set.convert a.stdinPath text with
  | error x =>
    have hparse := OptionSet.convert_eq_error_iff.mp hconvert
    rw [hconvert] at hrun
    simp only [Machine.run_bind, run_complain, run_timestamp, Machine.seconds_complained] at hrun
    obtain ⟨s₁, hlog, hchanged⟩ := run_writeLog
      (s := s.complained (a.stdinPath.getD stdinName ++ ": ".toList ++ x.message)) hopens
      [.failed (Timestamp.ofSeconds s.seconds) (a.stdinPath.getD stdinName) x.message]
    rw [hlog] at hrun
    cases hrun
    have hgains := hchanged.gains
    exact ⟨_, _, hchanged, rfl, iff_of_true rfl ⟨x, hparse⟩, fun _ => hgains,
      fun _ => iff_of_true rfl (.inl rfl)⟩
  | ok c =>
    have hparse : ¬ ∃ x, Stylesheet.parse text = .error x := by
      rintro ⟨x, hx⟩
      rw [OptionSet.convert_eq_error_iff.mpr hx] at hconvert
      cases hconvert
    obtain ⟨s₁, hlog, hchanged⟩ := run_writeLog hopens
      [.finished (Timestamp.ofSeconds s.seconds) (a.stdinPath.getD stdinName) c.report]
    have hgains := hchanged.gains
    have hstatus := RunLog.Entry.status_finished (Timestamp.ofSeconds s.seconds)
      (a.stdinPath.getD stdinName) c.report
    rw [hconvert] at hrun
    simp only [Machine.run_bind, run_timestamp, hlog] at hrun
    refine ⟨_, s₁.disk, hchanged, rfl, iff_of_false hstatus hparse, ?_⟩
    by_cases hcheck : a.check = true
    · rw [if_pos hcheck] at hrun
      obtain rfl : s₁ = s' := congrArg Prod.snd hrun
      exact ⟨fun _ => hgains, fun hno => absurd hcheck (by rw [hno]; exact Bool.false_ne_true)⟩
    · rw [if_neg hcheck] at hrun
      cases houtput : a.output with
      | none =>
        rw [houtput] at hrun
        cases hrun
        refine ⟨fun _ => hgains, fun _ => iff_of_false nofun ?_⟩
        rintro (hfailed | ⟨o, _, _, ho, _⟩)
        · exact hstatus hfailed
        · cases ho
      | some o =>
        rw [houtput] at hrun
        simp only [Machine.run_bind, Machine.run_write] at hrun
        cases hwrite : s₁.disk.write o c.text with
        | ok d =>
          rw [hwrite] at hrun
          cases hrun
          obtain ⟨_, hwritten⟩ := Disk.opens_of_write hwrite
          refine ⟨fun hapart => ?_, fun _ => iff_of_false nofun ?_⟩
          · have hne := (hapart o rfl).symm
            rw [RunLog.Gains, hwritten.file?, hchanged.goal_eq, if_neg hne]
            exact hgains
          · rintro (hfailed | ⟨o', c', x, ho, hc, hx⟩)
            · exact hstatus hfailed
            · cases ho
              cases hc
              rw [hwrite] at hx
              cases hx
        | error x =>
          rw [hwrite] at hrun
          cases hrun
          exact ⟨fun _ => hgains, fun _ => iff_of_true rfl (.inr ⟨o, c, x, rfl, rfl, hwrite⟩)⟩

/-! ## The command -/

/-- A log that no job writes to gains the entries behind what it held before the jobs. -/
theorem Plans.gains {s₁ : Machine} (h : a.Plans s set inputs jobs s₁)
    (happended : RunLog.Appended (inTurn set jobs s₁).disk d' p entries)
    (hworking : s.disk.stands? s.disk.working = some .folder)
    (hapart : ∀ j ∈ jobs, ∀ q, j.destination = .file q → s.disk.goal q ≠ s.disk.goal p) :
    RunLog.Gains s.disk d' p entries := by
  have hdisk : s₁.disk = s.disk := by
    have := (inspects_collectInputs a.inputs s rfl).1
    rwa [h.collected] at this
  have hgrows : Disk.Grows _ _ s₁.disk (inTurn set jobs s₁).disk :=
    Disk.Grows.inTurn (h.ready hworking)
  have hkept : (inTurn set jobs s₁).disk.file? (s.disk.goal p) =
      s.disk.file? (s.disk.goal p) := by
    rw [hgrows.file?_eq, hdisk]
    rintro ⟨j, hj, hmem⟩
    rw [hdisk] at hmem
    obtain ⟨q, hq, hgoal⟩ := Job.mem_goals_iff.mp hmem
    exact hapart j hj q hq hgoal.symm
  have hgoal : (inTurn set jobs s₁).disk.goal p = s.disk.goal p := by
    rw [hgrows.goal_eq, hdisk]
  have hgains := happended.gains
  rw [RunLog.Gains, RunLog.extended, hgoal, hkept] at hgains
  exact hgains

/-- Without a check, there is an alarm if and only if a job failed. -/
theorem Plans.any_isAlarm_iff {s₁ : Machine} (h : a.Plans s set inputs jobs s₁)
    (hcheck : a.check = false) : (outcomes set jobs s₁).any isAlarm = true ↔
      ∃ r ∈ outcomes set jobs s₁, ∃ e, r.2 = .error e := by
  rw [List.any_eq_true]
  refine exists_congr fun r => and_congr_right fun hr => ?_
  obtain ⟨i, -, -, hdestination⟩ :=
    exists_input_of_planJobs h.planned r.1 (mem_of_mem_outcomes hr)
  exact isAlarm_iff (destination_ne_discard hdestination (by rw [check_target, hcheck]))

/-- What a command logs that gets as far as jobs or standard input, to a log that can be written.
For files, the entries are those of the inputs, and without a check the command fails if and only if
one of them says so. For a text on standard input, the one entry only says whether the text was
understood, and bytes that are no text have none. -/
theorem run_logs (hreport : a.report = some p)
    (hrun : (a.run : StateM Machine _).run s = (code, s')) :
    (∀ inputs jobs s₁, a.Plans s set inputs jobs s₁ → (inTurn set jobs s₁).disk.Opens p →
      ∃ entries, Logged set inputs jobs s₁ entries ∧
        RunLog.Appended (inTurn set jobs s₁).disk s'.disk p entries ∧
        (s.disk.stands? s.disk.working = some .folder →
          (∀ j ∈ jobs, ∀ q, j.destination = .file q → s.disk.goal q ≠ s.disk.goal p) →
          RunLog.Gains s.disk s'.disk p entries) ∧
        (a.check = false → (code = .failure ↔ ∃ e ∈ entries, e.status = .failed))) ∧
    (a.TakesStdin s set → s.disk.Opens p →
      (∀ bytes, s.input = .binary bytes → code = .failure ∧ s'.disk = s.disk) ∧
      ∀ text, s.input = .text text →
        ∃ e d, RunLog.Appended s.disk d p [e] ∧ e.file = a.stdinPath.getD stdinName ∧
          (e.status = .failed ↔ ∃ x, Stylesheet.parse text = .error x) ∧
          ((∀ o, a.output = some o → s.disk.goal o ≠ s.disk.goal p) →
            RunLog.Gains s.disk s'.disk p [e]) ∧
          (a.check = false → (code = .failure ↔ e.status = .failed ∨
            ∃ o c x, a.output = some o ∧ set.convert a.stdinPath text = .ok c ∧
              d.write o c.text = .error x))) := by
  constructor
  · intro inputs jobs s₁ hplans hopens
    obtain ⟨entries, s₂, hjobs, hentered, hchanged⟩ := runJobs_logs hopens
    rw [hplans.run_eq, hreport, hjobs] at hrun
    obtain ⟨rfl, rfl⟩ := Prod.mk.inj hrun
    have hlogged := logged_of_entered (map_input_of_planJobs hplans.planned) hentered
    refine ⟨entries, hlogged, hchanged, ?_, ?_⟩
    · exact hplans.gains hchanged
    · intro hcheck
      rw [hentered.exists_failed_iff, ← hplans.any_isAlarm_iff hcheck]
      split
      next h => exact iff_of_true rfl h
      next h => exact iff_of_false (fun hcode => by cases hcode) h
  · intro htakes hopens
    rw [htakes.run_eq] at hrun
    exact ⟨fun bytes h => runStdin_binary h hrun,
      fun text h => runStdin_logs hreport hopens h hrun⟩

end ConvertArguments

/-- A stylesheet, a file that is none, and a folder, with a stylesheet on standard input. -/
def shelf : Machine where
  disk :=
    { root := .folder [("w".toList, .folder
        [("a.css".toList, .file (.text "a { top: 16px; }".toList)),
          ("b.css".toList, .file (.text "\x7d".toList)), ("out".toList, .folder [])])]
      working := ["w".toList] }
  input := .text "a { }".toList

/-- Converts both files in place. -/
def shelfFiles : ConvertArguments where
  inputs := ["a.css".toList, "b.css".toList]
  inPlace := true
  report := some ⟨"log".toList⟩
  options := { noConfig := true }

def shelfInputs : List Input :=
  [⟨⟨"a.css".toList⟩, ⟨"a.css".toList⟩⟩, ⟨⟨"b.css".toList⟩, ⟨"b.css".toList⟩⟩]

def shelfJobs : List Job :=
  [⟨⟨"a.css".toList⟩, .file ⟨"a.css".toList⟩⟩, ⟨⟨"b.css".toList⟩, .file ⟨"b.css".toList⟩⟩]

/-- Converts standard input, to where there is a folder. -/
def shelfStdin : ConvertArguments where
  stdin := true
  output := some ⟨"out".toList⟩
  report := some ⟨"log".toList⟩
  options := { noConfig := true }

theorem plans_shelf : shelfFiles.Plans shelf .default shelfInputs shelfJobs shelf where
  given := ⟨rfl, List.cons_ne_nil _ _⟩
  compatible _ := rfl
  loaded := load_default shelf
  collected := by cbv
  found := List.cons_ne_nil _ _
  planned := by cbv

/-- The log of the files tells that the second one failed. The log of standard input tells of no
failure, although its conversion cannot be written. -/
theorem ConvertArguments.run_logs_shelf :
    (∃ entries code s', (shelfFiles.run : StateM Machine _).run shelf = (code, s') ∧
      Logged .default shelfInputs shelfJobs shelf entries ∧
      RunLog.Gains shelf.disk s'.disk ⟨"log".toList⟩ entries ∧
      (code = .failure ↔ ∃ e ∈ entries, e.status = .failed)) ∧
    ∃ e s', (shelfStdin.run : StateM Machine _).run shelf = (.failure, s') ∧
      RunLog.Gains shelf.disk s'.disk ⟨"log".toList⟩ [e] ∧ e.status ≠ .failed := by
  have opens {d : Disk} {q : Path} (h : (d.write q []).toOption.isSome = true) : d.Opens q := by
    cases hwrite : d.write q [] with
    | ok d' => exact (Disk.opens_of_write hwrite).1
    | error e =>
      rw [hwrite] at h
      cases h
  constructor
  · have hjobs : (inTurn .default shelfJobs shelf).disk.Opens ⟨"log".toList⟩ :=
      opens (by decide +kernel)
    have hworking : shelf.disk.stands? shelf.disk.working = some .folder := by decide +kernel
    have hapart : ∀ j ∈ shelfJobs, ∀ q, j.destination = .file q →
        shelf.disk.goal q ≠ shelf.disk.goal ⟨"log".toList⟩ := by
      intro j hj q hq
      rcases List.mem_pair.mp hj with rfl | rfl <;> cases hq <;> decide +kernel
    obtain ⟨entries, hlogged, _, hgains, hcode⟩ :=
      (ConvertArguments.run_logs rfl rfl).1 _ _ _ plans_shelf hjobs
    exact ⟨entries, _, _, rfl, hlogged, hgains hworking hapart, hcode rfl⟩
  · have hshelf : shelf.disk.Opens ⟨"log".toList⟩ := opens (by decide +kernel)
    have htakes : shelfStdin.TakesStdin shelf .default := ⟨.inl rfl, rfl, rfl, load_default shelf⟩
    have hparse : Stylesheet.parse "a { }".toList = .ok ⟨none, [.rule "a".toList []]⟩ := by cbv
    have hne : shelf.disk.goal ⟨"out".toList⟩ ≠ shelf.disk.goal ⟨"log".toList⟩ := by decide +kernel
    have hfolder : shelf.disk.stands? (shelf.disk.goal ⟨"out".toList⟩) = some .folder := by
      decide +kernel
    obtain ⟨code, s', hrun⟩ : ∃ code s',
        (shelfStdin.run : StateM Machine _).run shelf = (code, s') := ⟨_, _, rfl⟩
    obtain ⟨e, d, happended, -, hfailed, hgains, hcode⟩ :=
      ((ConvertArguments.run_logs rfl hrun).2 htakes hshelf).2 _ rfl
    have hnot : e.status ≠ .failed := by
      rw [Ne, hfailed, hparse]
      rintro ⟨x, hx⟩
      cases hx
    cases hconvert : OptionSet.default.convert none "a { }".toList with
    | error x =>
      rw [OptionSet.convert_eq_error_iff.mp hconvert] at hparse
      cases hparse
    | ok c =>
      cases hwrite : d.write ⟨"out".toList⟩ c.text with
      | ok d' =>
        refine absurd ?_ (Disk.opens_of_write hwrite).1.free
        rw [happended.goal_eq, happended.stands?, if_neg hne, hfolder]
      | error x =>
        obtain rfl := (hcode rfl).mpr (.inr ⟨_, c, x, rfl, hconvert, hwrite⟩)
        refine ⟨e, s', hrun, hgains ?_, hnot⟩
        intro o ho
        cases ho
        exact hne

end PixelScale
