import PixelScale.Proofs.CommandLine.Writing
import PixelScale.Proofs.Lists

/-!
# Inputs and plans

Collecting inputs changes nothing on the disk, and every input leads to a file. A plan gives every
input a job, and no two jobs destinations with the same components.

* `Inspects`: a command that leaves the disk as it is.
* `inspects_collectInputs`: what collected inputs lead to.
* `planJobs_spec`: what the jobs of a plan read, and where they write.
-/

namespace PixelScale

/-- Run on the disk `d`, a command leaves it as it is and gives something that fits `post`. -/
def Inspects {α : Type} (d : Disk) (x : StateM Machine α) (post : α → Prop) : Prop :=
  ∀ s, s.disk = d → (x.run s).2.disk = d ∧ post (x.run s).1

variable {d : Disk}

namespace Inspects

variable {α β : Type} {post : α → Prop} {mid : β → Prop}

theorem pure {a : α} (h : post a) : Inspects d (pure a) post := fun _ hs => ⟨hs, h⟩

theorem bind {x : StateM Machine β} {f : β → StateM Machine α} (hx : Inspects d x mid)
    (hf : ∀ b, mid b → Inspects d (f b) post) : Inspects d (x >>= f) post := by
  intro s hs
  obtain ⟨hdisk, hmid⟩ := hx s hs
  exact hf _ hmid _ hdisk

end Inspects

/-! ## Collecting -/

theorem inspects_isFolder (p : Path) :
    Inspects d (Host.isFolder p) fun b => b = (d.look? p).any FileTree.isFolder := by
  rintro s rfl
  rw [Machine.run_isFolder]
  exact ⟨rfl, rfl⟩

theorem inspects_isFile (p : Path) :
    Inspects d (Host.isFile p) fun b => b = (d.look? p).any FileTree.isFile := by
  rintro s rfl
  rw [Machine.run_isFile]
  exact ⟨rfl, rfl⟩

theorem inspects_survey (g : Glob) : Inspects d (Host.survey g) fun d' => d' = d :=
  fun _ hs => ⟨hs, hs⟩

theorem inspects_warnLine (t : Text) : Inspects d (Host.warnLine t) fun _ => True :=
  fun _ hs => ⟨hs, trivial⟩

theorem inspects_findStylesheets (folder : Path) :
    Inspects d (findStylesheets folder) fun ps => ∀ p ∈ ps, d.LeadsToFile p := by
  unfold findStylesheets
  split
  next g _ =>
    refine (inspects_survey g).bind fun d' hd' => .pure fun p hp => ?_
    rw [hd', List.mem_mergeSort] at hp
    exact (List.mem_filter.mp hp).2
  next => exact .pure nofun

/-- The inputs that a text stands for are files. -/
def AllFiles (d : Disk) (r : Except InputError (List Input)) : Prop :=
  ∀ is, r = .ok is → ∀ i ∈ is, d.LeadsToFile i.path

theorem path_below (folder p : Path) : (Input.below folder p).path = p := by
  unfold Input.below
  split <;> rfl

theorem path_matched (base p : Path) : (Input.matched base p).path = p := by
  unfold Input.matched
  split
  · split <;> rfl
  · rfl

theorem inspects_collectInput (t : Text) : Inspects d (collectInput t) (AllFiles d) := by
  have file_alone (h : (d.look? ⟨t⟩).any FileTree.isFile) :
      AllFiles d (.ok [Input.alone ⟨t⟩]) := by
    intro is his i hi
    cases his
    rw [List.mem_singleton.mp hi]
    exact h
  unfold collectInput
  refine (inspects_isFolder ⟨t⟩).bind fun b _ => ?_
  split
  next =>
    refine (inspects_findStylesheets ⟨t⟩).bind fun ps hps => .pure fun is his i hi => ?_
    cases his
    obtain ⟨p, hp, rfl⟩ := List.mem_map.mp hi
    rw [path_below]
    exact hps p hp
  next =>
    refine (inspects_isFile ⟨t⟩).bind fun b hb => ?_
    split
    next hfile =>
      rw [hfile] at hb
      split
      next => exact (inspects_warnLine _).bind fun _ _ => .pure (file_alone hb.symm)
      next => exact .pure (file_alone hb.symm)
    next =>
      split
      next => exact .pure nofun
      next g _ =>
        refine (inspects_survey g).bind fun d' hd' => .pure fun is his i hi => ?_
        subst hd'
        split at his
        · cases his
        · cases his
          obtain ⟨p, hp, rfl⟩ := List.mem_map.mp hi
          rw [path_matched]
          exact (List.mem_filter.mp hp).2

theorem inspects_collectAll (ts : List Text) : Inspects d (collectAll ts) (AllFiles d) := by
  induction ts with
  | nil => exact .pure fun is his i hi => by cases his; exact absurd hi List.not_mem_nil
  | cons t ts ih =>
    unfold collectAll
    refine (inspects_collectInput t).bind fun r hr => ?_
    split
    next => exact .pure nofun
    next is =>
      refine ih.bind fun r' hr' => ?_
      split
      next => exact .pure nofun
      next js =>
        refine .pure fun ks hks i hi => ?_
        cases hks
        rcases List.mem_append.mp hi with hi | hi
        · exact hr is rfl i hi
        · exact hr' js rfl i hi

theorem distinct_subset (earlier is : List Input) : Input.distinct earlier is ⊆ is := by
  induction is generalizing earlier with
  | nil => exact List.Subset.refl []
  | cons i is ih =>
    unfold Input.distinct
    split
    · exact List.subset_cons_of_subset i (ih earlier)
    · exact List.cons_subset_cons i (ih (i :: earlier))

/-- Collecting inputs leaves the disk as it is, and all inputs lead to files on it. -/
theorem inspects_collectInputs (ts : List Text) :
    Inspects d (collectInputs ts) (AllFiles d) := by
  unfold collectInputs
  refine (inspects_collectAll ts).bind fun r hr => .pure fun is his i hi => ?_
  cases r with
  | error e => cases his
  | ok js =>
    cases his
    exact hr js rfl i (distinct_subset [] js hi)

/-! ## Planning -/

/-- Two jobs that are not written to paths with the same components. -/
def Job.Distinct (j k : Job) : Prop :=
  ∀ p q, j.destination = .file p → k.destination = .file q → ¬p.same q

/-- A search that finds nothing has compared each destination with all in front of it. -/
theorem firstShared?_eq_none {earlier : List Path} {jobs : List Job}
    (h : firstShared? earlier jobs = none) :
    jobs.Pairwise Job.Distinct ∧
      ∀ j ∈ jobs, ∀ q, j.destination = .file q → ∀ p ∈ earlier, ¬p.same q := by
  induction jobs generalizing earlier with
  | nil => exact ⟨.nil, nofun⟩
  | cons j jobs ih =>
    obtain ⟨input, destination⟩ := j
    cases destination with
    | file p =>
      rw [firstShared?] at h
      split at h
      next => cases h
      next hnew =>
        obtain ⟨hpairwise, hrest⟩ := ih h
        refine ⟨.cons ?_ hpairwise, fun k hk q hq p' hp' => ?_⟩
        · intro k hk p' q hp hq
          cases hp
          exact hrest k hk q hq p List.mem_cons_self
        · rcases List.mem_cons.mp hk with rfl | hk
          · cases hq
            simp only [List.any_eq_true, not_exists, not_and] at hnew
            exact hnew p' hp'
          · exact hrest k hk q hq p' (List.mem_cons_of_mem p hp')
    | stdout =>
      obtain ⟨hpairwise, hrest⟩ := ih (by rwa [firstShared?] at h; exact nofun)
      refine ⟨.cons (fun _ _ _ _ hp => nomatch hp) hpairwise, fun k hk => ?_⟩
      rcases List.mem_cons.mp hk with rfl | hk
      · exact nofun
      · exact hrest k hk
    | discard =>
      obtain ⟨hpairwise, hrest⟩ := ih (by rwa [firstShared?] at h; exact nofun)
      refine ⟨.cons (fun _ _ _ _ hp => nomatch hp) hpairwise, fun k hk => ?_⟩
      rcases List.mem_cons.mp hk with rfl | hk
      · exact nofun
      · exact hrest k hk

theorem planJobs_spec {t : Target} {is : List Input} {jobs : List Job}
    (h : planJobs t is = .ok jobs) :
    List.Forall₂ (fun i j => j.input = i.path ∧
      t.destination (is.length == 1) i = .ok j.destination) is jobs ∧
      jobs.Pairwise Job.Distinct := by
  unfold planJobs at h
  cases hmap : is.mapM fun i => (do
      return Job.mk i.path (← t.destination (is.length == 1) i) : Except PlanError Job) with
  | error e =>
    rw [hmap] at h
    cases h
  | ok js =>
    rw [hmap] at h
    dsimp only [bind, Except.bind] at h
    split at h
    next => cases h
    next hnone =>
      cases h
      refine ⟨(forall₂_of_mapM hmap).imp fun i j hj => ?_, (firstShared?_eq_none hnone).1⟩
      cases hdestination : t.destination (is.length == 1) i with
      | error e =>
        rw [hdestination] at hj
        cases hj
      | ok destination =>
        rw [hdestination] at hj
        cases hj
        exact ⟨rfl, rfl⟩

end PixelScale
