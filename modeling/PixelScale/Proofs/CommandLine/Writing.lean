import PixelScale.CommandLine.Jobs
import PixelScale.Proofs.Files.Growth
import PixelScale.Proofs.Process

/-!
# Writing a file among others

A job makes the folders around its destination and writes the file there, one access to the disk
after the other. Others may make folders meanwhile, also the same ones, and write files elsewhere.
As they keep away from the destination and from its folders, whether the file is written depends on
the disk at the start only.

* `Job.rely`, `Job.guarantee`: what others may do, and what a job does itself.
* `Disk.Receives`: the destinations that can be written to, told from the disk at the start.
* `Job.meets_makeFoldersWithin`, `Job.meets_writeTo`: making folders and writing a file.
-/

namespace PixelScale

open Disk (Grows)

/-! ## Operations of a machine -/

namespace Machine

variable (s : Machine) (p : Path) (t : Text)

theorem run_update (f : Disk → Except FileError Disk) :
    (update f).run s = match f s.disk with
      | .ok disk => (.ok (), { s with disk })
      | .error e => (.error e, s) := by
  have : (update f).run s = (match f s.disk with
      | .ok disk => do
        set { s with disk }
        return .ok ()
      | .error e => return .error e : StateM Machine (Except FileError Unit)).run s := rfl
  rw [this]
  cases f s.disk <;> rfl

theorem run_makeFolder : (Host.makeFolder p : StateM Machine _).run s =
    match s.disk.makeFolder p with
      | .ok disk => (.ok (), { s with disk })
      | .error e => (.error e, s) := run_update s _

theorem run_write : (Host.write p t : StateM Machine _).run s =
    match s.disk.write p t with
      | .ok disk => (.ok (), { s with disk })
      | .error e => (.error e, s) := run_update s _

theorem run_kind? : (Host.kind? p : StateM Machine _).run s =
    ((s.disk.look? p).map fun t => if t.isFolder then .folder else .file, s) := rfl

theorem run_isFolder : (Host.isFolder p : StateM Machine _).run s =
    ((s.disk.look? p).any FileTree.isFolder, s) := by
  rw [Host.isFolder, StateT.run_bind, run_kind?]
  cases s.disk.look? p with
  | none => rfl
  | some t => cases t <;> rfl

theorem run_isFile : (Host.isFile p : StateM Machine _).run s =
    ((s.disk.look? p).any FileTree.isFile, s) := by
  rw [Host.isFile, StateT.run_bind, run_kind?]
  cases s.disk.look? p with
  | none => rfl
  | some t => cases t <;> rfl

end Machine

/-- The destinations that can be written to, if nobody writes to them or to what is on their way.
A path that passes its own end makes a folder there. -/
structure Disk.Receives (d : Disk) (p : Path) : Prop where
  names : p.NamesFile
  short : p.text.bytes < Disk.pathLimit
  fit : NamesFit p.moves
  clear : ∀ x ∈ d.around p, ∀ c, d.stands? x ≠ some (.file c)
  apart : d.goal p ∉ d.around p
  free : d.stands? (d.goal p) ≠ some .folder

/-- Nothing stops the folder around such a destination. -/
theorem Disk.Receives.not_blocked {d : Disk} {p q : Path} (h : d.Receives p)
    (hq : q.Surrounds p) : ¬d.Blocked q := by
  rintro (hlong | hblocked)
  · obtain ⟨c, t, ht⟩ := hq.text
    have hshort := h.short
    rw [ht, Text.bytes_append] at hshort
    omega
  · rw [Disk.start, hq.isAbsolute, hq.moves] at hblocked
    rcases hblocked with hfit | ⟨x, hx, c, hfile⟩
    · exact hfit h.fit.dropLast
    · exact h.clear x hx c hfile

namespace Job

/-- The location that a job writes to, if it writes. -/
def goals (d : Disk) (j : Job) : List Location :=
  match j.destination with
  | .file p => [d.goal p]
  | .stdout | .discard => []

/-- The locations on the way to where a job writes. -/
def passes (d : Disk) (j : Job) : List Location :=
  match j.destination with
  | .file p => d.trail p
  | .stdout | .discard => []

/-- Others leave alone what a job reads, what it writes to, and what is on its way, except for new
folders. -/
def rely (d : Disk) (j : Job) (s s' : Machine) : Prop :=
  Grows (fun x => x ∉ j.goals d) (fun x => x ∉ j.passes d ∧ x ≠ d.goal j.input) s.disk s'.disk

/-- A job makes folders on its way and writes to where it leads. -/
def guarantee (d : Disk) (j : Job) (s s' : Machine) : Prop :=
  Grows (· ∈ j.passes d) (· ∈ j.goals d) s.disk s'.disk

/-- What has become of the disk before a job writes to `p`. A path that passes its own end has made
a folder there. -/
def Underway (d : Disk) (j : Job) (p : Path) (s : Machine) : Prop :=
  Grows (fun x => x ∈ j.goals d → x ∈ d.around p) (fun x => x ∉ j.passes d ∧ x ≠ d.goal j.input)
    d s.disk

section

variable {d : Disk} {j : Job} {p q : Path} {s s' : Machine}

theorem rely_refl (s : Machine) : j.rely d s s := Grows.refl s.disk

theorem guarantee_refl (s : Machine) : j.guarantee d s s := Grows.refl s.disk

theorem Underway.stable (h : j.rely d s s') (hs : j.Underway d p s) : j.Underway d p s' :=
  Grows.trans hs (h.mono (fun _ hx hmem => absurd hmem hx) fun _ hx => hx)

theorem Underway.not_writes (hj : j.destination = .file p) {x : Location} (hx : x ∈ d.trail p) :
    ¬(x ∉ j.passes d ∧ x ≠ d.goal j.input) := by
  intro h
  refine h.1 ?_
  rw [passes, hj]
  exact hx

/-! ## Making folders -/

/-- A clean path to a folder on the way to `p`. -/
structure OnWay (d : Disk) (q p : Path) : Prop where
  clean : q.Clean
  start : d.stands? (d.start q) = some .folder
  passed : ∀ x ∈ d.trail q, x ∈ d.around p

/-- What is known after folders were made, or could not be made. -/
def Settled (d : Disk) (j : Job) (p q : Path) (r : Except FileError Unit) (s : Machine) : Prop :=
  j.Underway d p s ∧ (r = .ok () → s.disk.Reaches q) ∧ ∀ e, r = .error e → d.Blocked q

theorem Settled.stable (r : Except FileError Unit) (s s' : Machine) (h : j.rely d s s')
    (hs : j.Settled d p q r s) : j.Settled d p q r s' :=
  ⟨hs.1.stable h, fun hr => Grows.reaches h (hs.2.1 hr), hs.2.2⟩

/-- What making one folder does. -/
theorem makeFolder_spec (hj : j.destination = .file p) (hq : OnWay d q p) (hne : q.text ≠ [])
    (hs : j.Underway d p s) {r : Except FileError Unit}
    (hrun : (Host.makeFolder q : StateM Machine _).run s = (r, s')) :
    j.guarantee d s s' ∧ j.Underway d p s' ∧ (r = .ok () → s'.disk.Reaches q) ∧
      ∀ e, r = .error e → (e = .notFound ∧ ∃ x ∈ d.around q, s.disk.stands? x = none) ∨
        (e = .alreadyExists ∧ s'.disk.Reaches q) ∨ d.Blocked q := by
  rw [Machine.run_makeFolder] at hrun
  cases hmake : s.disk.makeFolder q with
  | ok disk =>
    rw [hmake] at hrun
    cases hrun
    obtain ⟨hmakes, hchanged⟩ := Disk.made_of_makeFolder hq.clean hmake
    have hgoal : s.disk.goal q = d.goal q := Grows.goal_eq hs q
    have haround := hq.passed _ (d.goal_mem_trail q)
    have hpasses : s.disk.goal q ∈ j.passes d := by
      rw [passes, hj, hgoal]
      exact Disk.mem_trail_iff.mpr (Or.inl haround)
    refine ⟨hchanged.grows_folder hmakes.missing hpasses,
      Grows.trans hs (hchanged.grows_folder hmakes.missing fun _ => ?_), fun _ => ?_, nofun⟩
    · rw [hgoal]
      exact haround
    · have hgrows : Grows (fun _ => True) (fun _ => True) s.disk disk :=
        hchanged.grows_folder hmakes.missing trivial
      refine Disk.reaches_of_around hmakes.short hmakes.fit (fun x hx => ?_) ?_
      · rw [hgrows.around_eq] at hx
        exact hgrows.folder (hmakes.folders x hx)
      · rw [hgrows.goal_eq, hchanged.stands?, if_pos rfl]
  | error e =>
    rw [hmake] at hrun
    cases hrun
    refine ⟨guarantee_refl s, hs, nofun, fun e' he => ?_⟩
    cases he
    have hstart : s.disk.stands? (s.disk.start q) = some .folder := by
      rw [Grows.start_eq hs]
      exact Grows.folder hs hq.start
    rcases Disk.makeFolder_error hq.clean hne hstart hmake with ⟨rfl, hnone⟩ | hreaches | hblocked
    · rw [Grows.around_eq hs] at hnone
      exact Or.inl ⟨rfl, hnone⟩
    · exact Or.inr (Or.inl hreaches)
    · refine Or.inr (Or.inr ((Grows.blocked_iff hs fun x hx => ?_).mp hblocked))
      exact Underway.not_writes hj (Disk.mem_trail_iff.mpr (Or.inl (hq.passed x hx)))

/-- Making one folder among others. If the folders around it are there, none of them is missed. -/
theorem meets_makeFolder (hj : j.destination = .file p) (hq : OnWay d q p) (hne : q.text ≠ [])
    (hs : j.Underway d p s) {known : Prop}
    (hknown : known → ∀ x ∈ d.around q, s.disk.stands? x = some .folder) :
    (Host.makeFolder q : Process Machine _).Meets (j.rely d) (j.guarantee d)
      (fun r s' => j.Underway d p s' ∧ (r = .ok () → s'.disk.Reaches q) ∧
        ∀ e, r = .error e → (e = .notFound ∧ ¬known) ∨
          (e = .alreadyExists ∧ s'.disk.Reaches q) ∨ d.Blocked q) s := by
  refine Process.meets_lift (fun s => j.Underway d p s ∧
    (known → ∀ x ∈ d.around q, s.disk.stands? x = some .folder)) ?_ ?_ ?_ ⟨hs, hknown⟩
  · rintro s s' h ⟨hs, hknown⟩
    exact ⟨hs.stable h, fun hk x hx => Grows.folder h (hknown hk x hx)⟩
  · rintro r s s' h ⟨hs, hok, herror⟩
    refine ⟨hs.stable h, fun hr => Grows.reaches h (hok hr), fun e he => ?_⟩
    exact (herror e he).imp_right (Or.imp_left (And.imp_right (Grows.reaches h)))
  · rintro s ⟨hs, hknown⟩
    obtain ⟨hguarantee, hs', hok, herror⟩ := makeFolder_spec hj hq hne hs rfl
    refine ⟨hguarantee, hs', hok, fun e he => ?_⟩
    refine (herror e he).imp_left (And.imp_right ?_)
    rintro ⟨x, hx, hnone⟩ hk
    rw [hknown hk x hx] at hnone
    cases hnone

/-- Looking whether a folder is there, where it is or never will be. -/
theorem meets_isFolder (hq : OnWay d q p) (hne : q.text ≠ [])
    (hs : j.Underway d p s) (hend : s.disk.Reaches q ∨ d.Blocked q) (e : FileError) :
    (do return if ← Host.isFolder q then .ok () else .error e :
      Process Machine (Except FileError Unit)).Meets (j.rely d) (j.guarantee d)
      (j.Settled d p q) s := by
  intro s₁ h₁
  refine ⟨guarantee_refl s₁, fun s₂ h₂ => ?_⟩
  change j.Settled d p q (if ((Host.isFolder q : StateM Machine Bool).run s₁).1 then .ok ()
    else .error e) s₂
  change j.rely d s₁ s₂ at h₂
  have hs₁ := hs.stable h₁
  have hstart : s₁.disk.stands? (s₁.disk.start q) = some .folder := by
    rw [Grows.start_eq hs₁]
    exact Grows.folder hs₁ hq.start
  have hlook := Disk.look?_isFolder_iff hne hstart
  rw [Machine.run_isFolder]
  refine Settled.stable _ s₁ s₂ h₂ ⟨hs₁, fun hok => ?_, fun e' he => ?_⟩
  · by_contra hnot
    rw [← hlook] at hnot
    simp [hnot] at hok
  · refine hend.resolve_left fun hreaches => ?_
    have hfolder := hlook.mpr (Grows.reaches h₁ hreaches)
    simp [hfolder] at he

/-- Making a folder once more, with all folders around it there. -/
theorem meets_retry (hj : j.destination = .file p) (hq : OnWay d q p) (hne : q.text ≠ [])
    (hs : j.Underway d p s) (haround : ∀ x ∈ d.around q, s.disk.stands? x = some .folder) :
    (do match ← Host.makeFolder q with
        | .ok () => return .ok ()
        | .error e => return if ← Host.isFolder q then .ok () else .error e :
      Process Machine (Except FileError Unit)).Meets (j.rely d) (j.guarantee d)
      (j.Settled d p q) s := by
  have hknown : True → ∀ x ∈ d.around q, s.disk.stands? x = some .folder := fun _ => haround
  refine Process.Meets.bind rely_refl (meets_makeFolder hj hq hne hs hknown) ?_
  rintro r s₁ ⟨hs₁, hok, herror⟩
  split
  next => exact Process.meets_pure Settled.stable ⟨hs₁, hok, nofun⟩
  next e =>
    refine meets_isFolder hq hne hs₁ ?_ e
    rcases herror e rfl with ⟨_, hnot⟩ | ⟨_, hreaches⟩ | hblocked
    · exact absurd trivial hnot
    · exact Or.inl hreaches
    · exact Or.inr hblocked

/-- The folder around a path on the way is on the way. -/
theorem OnWay.of_surrounds {q' : Path} (hq : OnWay d q p) (h : q'.Surrounds q) :
    OnWay d q' p := by
  have hstart : d.start q' = d.start q := by rw [Disk.start, Disk.start, h.isAbsolute]
  refine ⟨h.clean, by rw [hstart]; exact hq.start, fun x hx => hq.passed x ?_⟩
  rw [Disk.trail, hstart, h.moves] at hx
  exact Disk.mem_trail_iff.mpr (Or.inl hx)

/-- A path without text leads to where it starts. -/
theorem settled_of_isEmpty (hq : OnWay d q p) (hempty : q.text.isEmpty) (hs : j.Underway d p s) :
    j.Settled d p q (.ok ()) s := by
  obtain rfl : q = ⟨[]⟩ := by
    cases q
    simpa using hempty
  refine ⟨hs, fun _ => ⟨by decide, fun n hn => absurd hn List.not_mem_nil, fun x hx => ?_⟩, nofun⟩
  obtain rfl : x = s.disk.start ⟨[]⟩ := List.mem_singleton.mp hx
  rw [Grows.start_eq hs]
  exact Grows.folder hs hq.start

/-- Making folders among others: they are there afterwards, unless something stops them for good. -/
theorem meets_makeFoldersWithin (hj : j.destination = .file p) (hq : OnWay d q p)
    (hs : j.Underway d p s) {fuel : Nat} (hfuel : q.text.length < fuel) :
    (Host.makeFoldersWithin fuel q : Process Machine _).Meets (j.rely d) (j.guarantee d)
      (j.Settled d p q) s := by
  induction fuel generalizing q s with
  | zero => omega
  | succ fuel ih =>
    unfold Host.makeFoldersWithin
    split
    next hempty => exact Process.meets_pure Settled.stable (settled_of_isEmpty hq hempty hs)
    next hempty =>
      have hne : q.text ≠ [] := by simpa using hempty
      have hfirst : q.parent? = none → ∀ x ∈ d.around q, s.disk.stands? x = some .folder := by
        intro hnone x hx
        rw [Disk.around, Path.moves_of_parent?_eq_none hnone] at hx
        obtain rfl : x = d.start q := List.mem_singleton.mp hx
        exact Grows.folder hs hq.start
      refine Process.Meets.bind rely_refl (meets_makeFolder hj hq hne hs hfirst) ?_
      rintro r s₁ ⟨hs₁, hok, herror⟩
      split
      next => exact Process.meets_pure Settled.stable ⟨hs₁, hok, fun e he => by cases he⟩
      next =>
        split
        next hnone =>
          -- nothing is missing around a path without a folder around it
          refine Process.meets_pure Settled.stable ⟨hs₁, fun hok => (by cases hok), fun _ _ => ?_⟩
          rcases herror _ rfl with ⟨_, hknown⟩ | ⟨he, _⟩ | hblocked
          · exact absurd hnone hknown
          · cases he
          · exact hblocked
        next q' hparent =>
          have hsurrounds := Path.surrounds_of_parent? hparent
          have hlength : q'.text.length < fuel := by
            obtain ⟨c, t, ht⟩ := hsurrounds.text
            rw [ht, List.length_append, List.length_cons] at hfuel
            omega
          refine Process.Meets.bind rely_refl (ih (hq.of_surrounds hsurrounds) hs₁ hlength) ?_
          rintro r s₂ ⟨hs₂, hreaches, hblocked⟩
          split
          next =>
            refine meets_retry hj hq hne hs₂ fun x hx => ?_
            refine (hreaches rfl).around_of_surrounds hsurrounds x ?_
            rwa [Grows.around_eq hs₂]
          next e =>
            exact Process.meets_pure Settled.stable
              ⟨hs₂, fun hok => (by cases hok), fun _ _ => (hblocked e rfl).of_surrounds hsurrounds⟩
      next e hnot =>
        refine meets_isFolder hq hne hs₁ ?_ e
        rcases herror e rfl with ⟨he, _⟩ | ⟨_, hreaches⟩ | hblocked
        · exact absurd he hnot
        · exact Or.inl hreaches
        · exact Or.inr hblocked

/-! ## Writing a file -/

/-- How writing a text to a path has ended: it is there, or it can never be. -/
def Written (d : Disk) (p : Path) (t : Text) (r : Except JobError Unit) (s : Machine) : Prop :=
  (r = .ok () → d.Receives p ∧ s.disk.file? (d.goal p) = some (.text t)) ∧
    ∀ e, r = .error e → ¬d.Receives p ∧ s.disk.file? (d.goal p) = d.file? (d.goal p)

theorem goals_eq (hj : j.destination = .file p) : j.goals d = [d.goal p] := by
  rw [goals, hj]

theorem passes_eq (hj : j.destination = .file p) : j.passes d = d.trail p := by
  rw [passes, hj]

theorem Written.stable (hj : j.destination = .file p) (t : Text) (r : Except JobError Unit)
    (s s' : Machine) (h : j.rely d s s') (hs : Written d p t r s) : Written d p t r s' := by
  have hfile : s'.disk.file? (d.goal p) = s.disk.file? (d.goal p) := by
    refine Grows.file?_eq h fun hwrites => hwrites.1 ?_
    rw [passes_eq hj]
    exact d.goal_mem_trail p
  unfold Written
  rwa [hfile]

/-- A file that cannot be written leaves the destination as it was. -/
theorem Underway.file?_goal (hj : j.destination = .file p) (hs : j.Underway d p s) :
    s.disk.file? (d.goal p) = d.file? (d.goal p) :=
  Grows.file?_eq hs (Underway.not_writes hj (d.goal_mem_trail p))

/-- Where the folders around a destination are there, it depends on the disk at the start whether a
file can be written. -/
theorem opens_iff (hj : j.destination = .file p) (hs : j.Underway d p s)
    (haround : ∀ x ∈ d.around p, s.disk.stands? x = some .folder) :
    s.disk.Opens p ↔ d.Receives p := by
  have hgoal : s.disk.goal p = d.goal p := Grows.goal_eq hs p
  constructor
  · intro h
    have hfree := h.free
    rw [hgoal] at hfree
    refine ⟨h.names, h.short, h.fit, fun x hx c hfile => ?_, fun hmem => ?_, fun hfolder => ?_⟩
    · obtain ⟨c', hc'⟩ := Grows.exists_file hs hfile
      rw [haround x hx] at hc'
      cases hc'
    · exact hfree (haround _ hmem)
    · exact hfree (Grows.folder hs hfolder)
  · intro h
    refine ⟨h.names, h.short, h.fit, fun x hx => ?_, fun hfolder => ?_⟩
    · rw [Grows.around_eq hs] at hx
      exact haround x hx
    · rw [hgoal] at hfolder
      rcases Disk.Grows.stands? hs (d.goal p) with heq | ⟨hmakes, _⟩ | ⟨_, _, c, hfile⟩
      · exact h.free (heq.symm.trans hfolder)
      · refine h.apart (hmakes ?_)
        rw [goals_eq hj]
        exact List.mem_singleton_self _
      · rw [hfolder] at hfile
        cases hfile

/-- Writing a file among others, with all folders around it there. -/
theorem meets_write (hj : j.destination = .file p) (hs : j.Underway d p s)
    (haround : ∀ x ∈ d.around p, s.disk.stands? x = some .folder) (t : Text) :
    (Host.write p t : Process Machine _).Meets (j.rely d) (j.guarantee d)
      (fun r s' => Written d p t (r.mapError (JobError.write p)) s') s := by
  refine Process.meets_lift (fun s => j.Underway d p s ∧
    ∀ x ∈ d.around p, s.disk.stands? x = some .folder) ?_ ?_ ?_ ⟨hs, haround⟩
  · rintro s s' h ⟨hs, haround⟩
    exact ⟨hs.stable h, fun x hx => Grows.folder h (haround x hx)⟩
  · exact fun r s s' => Written.stable hj t _ s s'
  · rintro s ⟨hs, haround⟩
    have hgoal : s.disk.goal p = d.goal p := Grows.goal_eq hs p
    have hopens := opens_iff hj hs haround
    rw [Machine.run_write]
    cases hwrite : s.disk.write p t with
    | ok disk =>
      obtain ⟨h, hchanged⟩ := Disk.opens_of_write hwrite
      rw [hgoal] at hchanged
      refine ⟨hchanged.grows_file ?_ ?_, fun _ => ⟨hopens.mp h, ?_⟩, nofun⟩
      · rw [← hgoal]
        exact h.free
      · rw [goals_eq hj]
        exact List.mem_singleton_self _
      · rw [Disk.file?_eq_some, hchanged.stands?, if_pos rfl]
    | error e =>
      refine ⟨guarantee_refl s, nofun, fun _ _ => ⟨fun h => ?_, hs.file?_goal hj⟩⟩
      obtain ⟨disk, hok⟩ := Disk.write_of_opens (hopens.mpr h) t
      rw [hwrite] at hok
      cases hok

/-- Writing a text to a path among others. -/
theorem meets_writeTo (hj : j.destination = .file p)
    (hstart : d.stands? (d.start p) = some .folder) (hs : j.Underway d p s) (t : Text) :
    (Job.writeTo p t : Process Machine _).Meets (j.rely d) (j.guarantee d)
      (Written d p t) s := by
  have write {s : Machine} (hs : j.Underway d p s)
      (haround : ∀ x ∈ d.around p, s.disk.stands? x = some .folder) :
      (do return (← Host.write p t).mapError (JobError.write p) :
        Process Machine _).Meets (j.rely d) (j.guarantee d) (Written d p t) s :=
    Process.Meets.bind rely_refl (meets_write hj hs haround t) fun _ _ hwritten =>
      Process.meets_pure (Written.stable hj t) hwritten
  unfold Job.writeTo
  split
  next q hparent =>
    have hsurrounds := Path.surrounds_of_parent? hparent
    have htrail : d.trail q = d.around p := by
      rw [Disk.trail, hsurrounds.moves, Disk.start, hsurrounds.isAbsolute]
      rfl
    have hq : OnWay d q p := by
      refine ⟨hsurrounds.clean, ?_, fun x hx => htrail ▸ hx⟩
      rw [Disk.start, hsurrounds.isAbsolute]
      exact hstart
    have haround {s : Machine} (hs : j.Underway d p s) (h : s.disk.Reaches q) :
        ∀ x ∈ d.around p, s.disk.stands? x = some .folder := by
      intro x hx
      rw [← Grows.around_eq hs] at hx
      exact h.around_of_surrounds hsurrounds x hx
    split
    next hempty =>
      obtain ⟨hs, hreaches, _⟩ := settled_of_isEmpty hq hempty hs
      exact write hs (haround hs (hreaches rfl))
    next =>
      refine Process.Meets.bind rely_refl
        (meets_makeFoldersWithin hj hq hs (Nat.lt_succ_self _)) ?_
      rintro r s₁ ⟨hs₁, hreaches, hblocked⟩
      cases r with
      | ok u => exact write hs₁ (haround hs₁ (hreaches rfl))
      | error e =>
        refine Process.meets_pure (Written.stable hj t)
          ⟨fun hok => (by cases hok), fun _ _ => ⟨fun h => ?_, ?_⟩⟩
        · exact h.not_blocked hsurrounds (hblocked e rfl)
        · exact hs₁.file?_goal hj
  next hnone =>
    refine write hs fun x hx => ?_
    rw [Disk.around, Path.moves_of_parent?_eq_none hnone] at hx
    obtain rfl : x = d.start p := List.mem_singleton.mp hx
    exact Grows.folder hs hstart

end

end Job

end PixelScale
