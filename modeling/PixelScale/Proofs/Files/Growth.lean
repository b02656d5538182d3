import PixelScale.Proofs.Files.Operations

/-!
# Disks that grow

No operation of a command takes a file or a folder away. What others may do meanwhile is told by the
locations where they make folders and those where they write files. Everything that is not written
to is found again: a folder that a path has passed, a file that it leads to, and what stops it.

* `Disk.file?`: what the file at a location holds.
* `Disk.Grows`: one disk becomes another by new folders and written files at given locations.
* `Disk.Grows.blocked_iff`, `Disk.Grows.read_eq`: paths that keep away from written files.
-/

namespace PixelScale

namespace Disk

variable {d d' d'' : Disk} {l : Location} {p : Path} {makes writes : Location → Prop}

/-- What the file at a location holds. -/
def file? (d : Disk) (l : Location) : Option Content :=
  match d.stands? l with
  | some (.file c) => some c
  | _ => none

theorem file?_eq_some {c : Content} : d.file? l = some c ↔ d.stands? l = some (.file c) := by
  unfold file?
  split
  next h => simp [h]
  next h => exact ⟨nofun, fun hc => absurd hc (h c)⟩

/-- A path that is read leads to a file with what was read. -/
theorem file?_of_read {t : Text} (h : d.read p = .ok t) :
    d.file? (d.goal p) = some (.text t) := by
  unfold read at h
  cases hl : d.locate p with
  | error e =>
    rw [hl] at h
    cases h
  | ok l =>
    obtain rfl := goal_of_locate hl
    rw [hl] at h
    simp only [bind, Except.bind] at h
    split at h <;> cases h
    next hat => exact file?_eq_some.mpr (FileTree.stands?_eq_file.mpr hat)

theorem Changed.goal_eq {e : Entry} (h : d.Changed d' l e) (p : Path) : d'.goal p = d.goal p := by
  rw [goal, goal, start, start, h.working]

theorem Changed.file? {c : Content} (h : d.Changed d' l (.file c)) (x : Location) :
    d'.file? x = if x = l then some c else d.file? x := by
  refine Option.ext fun c' => ?_
  by_cases hx : x = l
  · subst hx
    rw [file?_eq_some, h.stands?, if_pos rfl, if_pos rfl]
    simp
  · rw [file?_eq_some, h.stands?, if_neg hx, if_neg hx, file?_eq_some]

/-- A file that was written can be written again. -/
theorem Opens.of_changed {c : Content} (h : d.Opens p)
    (hchanged : d.Changed d' (d.goal p) (.file c)) : d'.Opens p := by
  have hstart : d'.start p = d.start p := by rw [start, start, hchanged.working]
  have haround : d'.around p = d.around p := by rw [around, around, hstart]
  refine ⟨h.names, h.short, h.fit, fun x hx => ?_, ?_⟩
  · rw [haround] at hx
    have hne : x ≠ d.goal p := by
      rintro rfl
      exact h.free (h.folders _ hx)
    rw [hchanged.stands?, if_neg hne, h.folders x hx]
  · rw [hchanged.goal_eq, hchanged.stands?, if_pos rfl]
    intro hfolder
    cases hfolder

/-- A text is put behind what a file holds, or into a new file. -/
theorem append_of_opens (h : d.Opens p) (t : Text) : ∃ d', d.append p t = .ok d' ∧
    d.Changed d' (d.goal p) (.file (((d.file? (d.goal p)).getD (.text [])).append t)) := by
  have hfree := h.free
  have hholds : ∀ c, d.root.at? (d.goal p) = some (.file c) → d.file? (d.goal p) = some c :=
    fun c hat => file?_eq_some.mpr (FileTree.stands?_eq_file.mpr hat)
  unfold append
  rw [target_of_opens h]
  cases hat : d.root.at? (d.goal p) with
  | none =>
    have hnone : d.file? (d.goal p) = none := by
      refine Option.eq_none_iff_forall_ne_some.mpr fun c hc => ?_
      rw [file?_eq_some, stands?, FileTree.stands?_eq_file, hat] at hc
      cases hc
    rw [hnone]
    refine ⟨_, ?_, h.changed_put _⟩
    simp only [bind, Except.bind, hat]
    rfl
  | some f =>
    cases f with
    | file c =>
      rw [hholds c hat]
      refine ⟨_, ?_, h.changed_put _⟩
      simp only [bind, Except.bind, hat]
      rfl
    | folder es =>
      exact absurd (isFolderAt_iff.mp (by rw [isFolderAt, hat]; rfl)) hfree

theorem opens_of_append {t : Text} (h : d.append p t = .ok d') :
    d.Opens p ∧
      d.Changed d' (d.goal p) (.file (((d.file? (d.goal p)).getD (.text [])).append t)) := by
  cases htarget : d.target p with
  | error e =>
    rw [append, htarget] at h
    cases h
  | ok l =>
    have hopens := (of_target htarget).1
    obtain ⟨d'', happend, hchanged⟩ := append_of_opens hopens t
    rw [h, Except.ok.injEq] at happend
    subst happend
    exact ⟨hopens, hchanged⟩

/-- `d` has become `d'` by new folders at locations that `makes` allows, and by files that were
written at locations that `writes` allows. -/
structure Grows (makes writes : Location → Prop) (d d' : Disk) : Prop where
  working : d'.working = d.working
  stands? : ∀ x, d'.stands? x = d.stands? x ∨
    (makes x ∧ d.stands? x = none ∧ d'.stands? x = some .folder) ∨
    (writes x ∧ d.stands? x ≠ some .folder ∧ ∃ c, d'.stands? x = some (.file c))

namespace Grows

theorem refl (d : Disk) : Grows makes writes d d := ⟨rfl, fun _ => Or.inl rfl⟩

theorem mono {makes' writes' : Location → Prop} (h : Grows makes writes d d')
    (hmakes : ∀ x, makes x → makes' x) (hwrites : ∀ x, writes x → writes' x) :
    Grows makes' writes' d d' :=
  ⟨h.working, fun x => (h.stands? x).imp_right (Or.imp (And.imp_left (hmakes x))
    (And.imp_left (hwrites x)))⟩

theorem trans (h : Grows makes writes d d') (h' : Grows makes writes d' d'') :
    Grows makes writes d d'' := by
  refine ⟨h'.working.trans h.working, fun x => ?_⟩
  rcases h'.stands? x with heq | ⟨hmakes, hnone, hfolder⟩ | ⟨hwrites, hfree, hfile⟩
  · rw [heq]
    exact h.stands? x
  · rcases h.stands? x with heq | ⟨_, _, hfolder'⟩ | ⟨_, _, c, hfile⟩
    · exact Or.inr (Or.inl ⟨hmakes, by rw [← heq, hnone], hfolder⟩)
    · simp [hnone] at hfolder'
    · simp [hnone] at hfile
  · rcases h.stands? x with heq | ⟨_, _, hfolder⟩ | ⟨hwrites', hfree', _⟩
    · exact Or.inr (Or.inr ⟨hwrites, by rwa [← heq], hfile⟩)
    · exact absurd hfolder hfree
    · exact Or.inr (Or.inr ⟨hwrites, hfree', hfile⟩)

/-! ## What is found again -/

theorem folder (h : Grows makes writes d d') (hl : d.stands? l = some .folder) :
    d'.stands? l = some .folder := by
  rcases h.stands? l with heq | ⟨_, hnone, _⟩ | ⟨_, hfree, _⟩
  · rw [heq, hl]
  · simp [hl] at hnone
  · exact absurd hl hfree

theorem exists_file (h : Grows makes writes d d') {c : Content}
    (hl : d.stands? l = some (.file c)) : ∃ c', d'.stands? l = some (.file c') := by
  rcases h.stands? l with heq | ⟨_, hnone, _⟩ | ⟨_, _, hfile⟩
  · exact ⟨c, heq.trans hl⟩
  · simp [hl] at hnone
  · exact hfile

theorem isSome (h : Grows makes writes d d') (hl : (d.stands? l).isSome) :
    (d'.stands? l).isSome := by
  obtain ⟨e, he⟩ := Option.isSome_iff_exists.mp hl
  cases e with
  | folder => rw [h.folder he]; rfl
  | file c =>
    obtain ⟨c', hc'⟩ := h.exists_file he
    rw [hc']
    rfl

/-- A location that is not written to holds the same file before and after. -/
theorem file_iff (h : Grows makes writes d d') (hl : ¬writes l) {c : Content} :
    d'.stands? l = some (.file c) ↔ d.stands? l = some (.file c) := by
  rcases h.stands? l with heq | ⟨_, hnone, hfolder⟩ | ⟨hwrites, _⟩
  · rw [heq]
  · simp [hnone, hfolder]
  · exact absurd hwrites hl

theorem file?_eq (h : Grows makes writes d d') (hl : ¬writes l) : d'.file? l = d.file? l :=
  Option.ext fun c => by rw [file?_eq_some, file?_eq_some, h.file_iff hl]

/-! ## Paths -/

theorem start_eq (h : Grows makes writes d d') (p : Path) : d'.start p = d.start p := by
  rw [start, start, h.working]

theorem trail_eq (h : Grows makes writes d d') (p : Path) : d'.trail p = d.trail p := by
  rw [trail, trail, h.start_eq]

theorem around_eq (h : Grows makes writes d d') (p : Path) : d'.around p = d.around p := by
  rw [around, around, h.start_eq]

theorem goal_eq (h : Grows makes writes d d') (p : Path) : d'.goal p = d.goal p := by
  rw [goal, goal, h.start_eq]

theorem reaches (h : Grows makes writes d d') (hp : d.Reaches p) : d'.Reaches p :=
  ⟨hp.short, hp.fit, fun x hx => h.folder (hp.folders x (by rwa [← h.trail_eq]))⟩

/-- What stops a path for good is there before and after. -/
theorem blocked_iff (h : Grows makes writes d d') (hp : ∀ x ∈ d.trail p, ¬writes x) :
    d'.Blocked p ↔ d.Blocked p := by
  have htrail : d'.BlockedFrom (d'.start p) p.moves ↔ d.BlockedFrom (d.start p) p.moves := by
    rw [h.start_eq]
    refine or_congr_right (exists_congr fun x => and_congr_right fun hx => ?_)
    exact exists_congr fun c => h.file_iff (hp x hx)
  exact or_congr_right htrail

/-- What a path leads to is there before and after. -/
theorem locate_eq (h : Grows makes writes d d') (hlocate : d.locate p = .ok l) :
    d'.locate p = .ok l := by
  unfold locate at hlocate ⊢
  cases ho : d.origin p with
  | error e =>
    rw [ho] at hlocate
    cases hlocate
  | ok m =>
    have ho' : d'.origin p = .ok m := by
      rw [← ho, origin, origin, h.working]
    rw [ho] at hlocate
    rw [ho']
    exact foldlM_step_mono (fun _ => h.folder) (fun _ => h.isSome) hlocate

/-- A file is read again as long as it is not written to. -/
theorem read_eq (h : Grows makes writes d d') {c : Content} (hlocate : d.locate p = .ok l)
    (hfile : d.stands? l = some (.file c)) (hl : ¬writes l) : d'.read p = d.read p := by
  have hlocate' := h.locate_eq hlocate
  have hat := FileTree.stands?_eq_file.mp hfile
  have hat' := FileTree.stands?_eq_file.mp ((h.file_iff hl).mpr hfile)
  unfold read
  rw [hlocate, hlocate']
  simp only [hat, hat', bind, Except.bind]

/-- A path that leads to a file leads to a file afterwards. -/
theorem leadsToFile (h : Grows makes writes d d') (hp : d.LeadsToFile p) : d'.LeadsToFile p := by
  obtain ⟨l, c, hlocate, hfile⟩ := hp.exists_file
  obtain ⟨c', hfile'⟩ := h.exists_file hfile
  unfold LeadsToFile look?
  simp only [h.locate_eq hlocate, FileTree.stands?_eq_file.mp hfile']
  rfl

end Grows

/-- A changed disk has grown by what it was changed to. -/
theorem Changed.grows_folder (h : d.Changed d' l .folder) (hl : d.stands? l = none)
    (hmakes : makes l) : Grows makes writes d d' := by
  refine ⟨h.working, fun x => ?_⟩
  by_cases hx : x = l
  · subst hx
    exact Or.inr (Or.inl ⟨hmakes, hl, by rw [h.stands?, if_pos rfl]⟩)
  · exact Or.inl (by rw [h.stands?, if_neg hx])

theorem Changed.grows_file {c : Content} (h : d.Changed d' l (.file c))
    (hl : d.stands? l ≠ some .folder) (hwrites : writes l) : Grows makes writes d d' := by
  refine ⟨h.working, fun x => ?_⟩
  by_cases hx : x = l
  · subst hx
    exact Or.inr (Or.inr ⟨hwrites, hl, c, by rw [h.stands?, if_pos rfl]⟩)
  · exact Or.inl (by rw [h.stands?, if_neg hx])

end Disk

end PixelScale
