import PixelScale.Proofs.Files.Walking

/-!
# Making folders and writing files

What an operation on a disk does is told by what stands at the locations of its path. A change is
seen at one location, where the path leads.

* `Disk.trail`, `Disk.around`, `Disk.goal`: the locations that a path passes, those before the last
  one, and the last one.
* `Disk.Reaches`, `Disk.Blocked`: a path passes folders only, or can never do so.
* `Disk.look?_isFolder_iff`: when a path is found to lead to a folder.
* `Disk.made_of_makeFolder`, `Disk.makeFolder_error`: a folder is made, or why not.
* `Disk.opens_of_write`, `Disk.write_of_opens`: when a file is written.
-/

namespace PixelScale

open PixelScale.Path (component?)

namespace Disk

open Location

variable {d d' : Disk} {l : Location} {p q : Path} {t : Text}

/-- Where a path starts, if it has a start. -/
def start (d : Disk) (p : Path) : Location := if p.isAbsolute then [] else d.working

/-- The locations that a path passes. -/
def trail (d : Disk) (p : Path) : List Location := Location.trail (d.start p) p.moves

/-- The locations that a path passes before its last move. -/
def around (d : Disk) (p : Path) : List Location := Location.trail (d.start p) p.moves.dropLast

/-- Where a path leads by its text. -/
def goal (d : Disk) (p : Path) : Location := Location.goal (d.start p) p.moves

theorem goal_mem_trail (d : Disk) (p : Path) : d.goal p ∈ d.trail p :=
  Location.goal_mem_trail (d.start p) p.moves

theorem mem_trail_iff : l ∈ d.trail p ↔ l ∈ d.around p ∨ l = d.goal p := Location.mem_trail_iff

/-- Paths with equal components lead to one location. -/
theorem goal_of_same (d : Disk) (h : p.same q) : d.goal p = d.goal q := by
  obtain ⟨hmoves, habsolute⟩ := Path.moves_of_same h
  rw [goal, goal, start, start, hmoves, habsolute]

/-- All paths start in a folder if the working folder is one. -/
theorem stands?_start (h : d.stands? d.working = some .folder) (p : Path) :
    d.stands? (d.start p) = some .folder := by
  unfold start
  split
  · cases hw : d.working with
    | nil => rwa [hw] at h
    | cons n l =>
      rw [hw] at h
      exact FileTree.stands?_eq_folder_of_append (List.cons_ne_nil n l) (Option.isSome_of_eq_some h)
  · exact h

/-- A path passes folders only. -/
structure Reaches (d : Disk) (p : Path) : Prop where
  short : p.text.bytes < pathLimit
  fit : NamesFit p.moves
  folders : ∀ x ∈ d.trail p, d.stands? x = some .folder

/-- Something on its way or in its text stops a path, and no folder that is made changes that. -/
def Blocked (d : Disk) (p : Path) : Prop :=
  pathLimit ≤ p.text.bytes ∨ d.BlockedFrom (d.start p) p.moves

theorem Reaches.not_blocked (h : d.Reaches p) : ¬d.Blocked p := by
  rintro (hlong | hfit | ⟨x, hx, c, hfile⟩)
  · have := h.short
    omega
  · exact hfit h.fit
  · rw [h.folders x hx] at hfile
    cases hfile

theorem BlockedFrom.of_dropLast {cs : List Path.Component} (h : d.BlockedFrom l cs.dropLast) :
    d.BlockedFrom l cs := by
  rcases h with h | ⟨x, hx, hfile⟩
  · exact Or.inl fun hfit => h hfit.dropLast
  · exact Or.inr ⟨x, Location.mem_trail_iff.mpr (Or.inl hx), hfile⟩

/-- What stops the path of a folder stops a path into it. -/
theorem Blocked.of_surrounds (hq : q.Surrounds p) (h : d.Blocked q) : d.Blocked p := by
  rcases h with hlong | h
  · obtain ⟨c, t, ht⟩ := hq.text
    refine Or.inl (hlong.trans ?_)
    rw [ht, Text.bytes_append]
    exact Nat.le_add_right ..
  · rw [start, hq.isAbsolute, hq.moves] at h
    exact Or.inr h.of_dropLast

theorem Reaches.around_of_surrounds (hq : q.Surrounds p) (h : d.Reaches q) :
    ∀ x ∈ d.around p, d.stands? x = some .folder := by
  intro x hx
  refine h.folders x ?_
  rw [trail, hq.moves, start, hq.isAbsolute]
  exact hx

theorem moves_eq_of_getLast? {cs : List Path.Component} {c : Path.Component}
    (h : cs.getLast? = some c) : cs = cs.dropLast ++ [c] := by
  obtain ⟨cs, rfl⟩ := List.getLast?_eq_some_iff.mp h
  rw [List.dropLast_concat]

/-- A path that ends in a name leads to that name in the folder around. -/
theorem goal_of_moves {cs : List Path.Component} {n : Text} (h : p.moves = cs ++ [.name n]) :
    d.goal p = Location.goal (d.start p) p.moves.dropLast ++ [n] := by
  rw [goal, h, goal_append, List.dropLast_concat]
  rfl

/-- A path that passes folders reaches the last location if that is a folder, too. -/
theorem reaches_of_around (hshort : p.text.bytes < pathLimit) (hfit : NamesFit p.moves)
    (haround : ∀ x ∈ d.around p, d.stands? x = some .folder)
    (hgoal : d.stands? (d.goal p) = some .folder) : d.Reaches p := by
  refine ⟨hshort, hfit, fun x hx => ?_⟩
  rcases mem_trail_iff.mp hx with hx | rfl
  · exact haround x hx
  · exact hgoal

/-! ## The start of a path -/

theorem origin_eq (hne : p.text ≠ []) (hshort : p.text.bytes < pathLimit) :
    d.origin p = .ok (d.start p) := by
  have : p.text.isEmpty = false := by simpa using hne
  rw [origin, this, if_neg (by simp), if_neg (by omega)]
  rfl

theorem of_origin (h : d.origin p = .ok l) :
    p.text ≠ [] ∧ p.text.bytes < pathLimit ∧ l = d.start p := by
  unfold origin at h
  split at h
  · cases h
  · split at h
    · cases h
    · cases h
      rename_i hne hlong
      exact ⟨by simpa using hne, by omega, rfl⟩

/-! ## Looking -/

theorem of_locate (h : d.locate p = .ok l) :
    p.text.bytes < pathLimit ∧ p.fields.foldlM d.step (d.start p) = .ok l := by
  unfold locate at h
  cases ho : d.origin p with
  | error e =>
    rw [ho] at h
    cases h
  | ok m =>
    rw [ho] at h
    obtain ⟨_, hshort, rfl⟩ := of_origin ho
    exact ⟨hshort, h⟩

theorem goal_of_locate (h : d.locate p = .ok l) : l = d.goal p :=
  (foldlM_step_of_ok (of_locate h).2).1

theorem look?_isFolder_iff (hne : p.text ≠ []) (hstart : d.stands? (d.start p) = some .folder) :
    (d.look? p).any FileTree.isFolder ↔ d.Reaches p := by
  have hany : (d.look? p).any FileTree.isFolder ↔
      ∃ l, d.locate p = .ok l ∧ d.stands? l = some .folder := by
    unfold look?
    cases hl : d.locate p with
    | error e => simp
    | ok l => simp [← isFolderAt_iff, isFolderAt]
  rw [hany]
  constructor
  · rintro ⟨l, hl, hfolder⟩
    obtain ⟨hshort, hwalk⟩ := of_locate hl
    obtain ⟨_, hfit, htrail⟩ := foldlM_step_of_ok hwalk
    exact ⟨hshort, hfit, fun x hx => (htrail x hx).elim (· ▸ hfolder) id⟩
  · intro h
    refine ⟨d.goal p, ?_, h.folders _ (d.goal_mem_trail p)⟩
    unfold locate
    rw [origin_eq hne h.short]
    rcases foldlM_step_cases hstart p.fields with ⟨hok, _⟩ | ⟨_, x, hx, hnone⟩ | hblocked
    · exact hok
    · rw [h.folders x hx] at hnone
      cases hnone
    · exact absurd (Or.inr hblocked) h.not_blocked

/-- A path leads to a file. -/
def LeadsToFile (d : Disk) (p : Path) : Prop := (d.look? p).any FileTree.isFile

theorem LeadsToFile.exists_file (h : d.LeadsToFile p) :
    ∃ l c, d.locate p = .ok l ∧ d.stands? l = some (.file c) := by
  unfold LeadsToFile look? at h
  cases hl : d.locate p with
  | error e => simp [hl] at h
  | ok l =>
    cases hat : d.root.at? l with
    | none => simp [hl, hat] at h
    | some t =>
      cases t with
      | file c => exact ⟨l, c, rfl, FileTree.stands?_eq_file.mpr hat⟩
      | folder es => simp [hl, hat, FileTree.isFile, FileTree.isFolder] at h

/-! ## The folder of a path's last field -/

theorem of_folderOf {cs : List Path.Component} (hcs : (splitTarget p).1.filterMap component? = cs)
    (h : d.folderOf p = .ok l) :
    p.text ≠ [] ∧ p.text.bytes < pathLimit ∧ l = Location.goal (d.start p) cs ∧ NamesFit cs ∧
      ∀ x ∈ Location.trail (d.start p) cs, d.stands? x = some .folder := by
  unfold folderOf at h
  cases ho : d.origin p with
  | error e =>
    rw [ho] at h
    cases h
  | ok m =>
    rw [ho] at h
    obtain ⟨hne, hshort, rfl⟩ := of_origin ho
    change (splitTarget p).1.foldlM d.step (d.start p) >>= _ = _ at h
    cases hwalk : (splitTarget p).1.foldlM d.step (d.start p) with
    | error e =>
      rw [hwalk] at h
      cases h
    | ok m =>
      rw [hwalk] at h
      change (if d.isFolderAt m then _ else _) = _ at h
      split at h
      next hfolder =>
        cases h
        obtain ⟨hgoal, hfit, htrail⟩ := foldlM_step_of_ok hwalk
        rw [hcs] at hgoal hfit htrail
        rw [isFolderAt_iff] at hfolder
        exact ⟨hne, hshort, hgoal, hfit, fun x hx => (htrail x hx).elim (· ▸ hfolder) id⟩
      next => cases h

theorem folderOf_cases {cs : List Path.Component}
    (hcs : (splitTarget p).1.filterMap component? = cs) (hne : p.text ≠ [])
    (hshort : p.text.bytes < pathLimit) (hstart : d.stands? (d.start p) = some .folder) :
    d.folderOf p = .ok (Location.goal (d.start p) cs) ∨
    (d.folderOf p = .error .notFound ∧
      ∃ x ∈ Location.trail (d.start p) cs, d.stands? x = none) ∨
    d.BlockedFrom (d.start p) cs := by
  unfold folderOf
  rw [origin_eq hne hshort]
  change (splitTarget p).1.foldlM d.step (d.start p) >>= _ = _ ∨
    (splitTarget p).1.foldlM d.step (d.start p) >>= _ = _ ∧ _ ∨ _
  have hwalk := foldlM_step_cases hstart (splitTarget p).1
  rw [hcs] at hwalk
  rcases hwalk with ⟨hok, htrail⟩ | ⟨herror, hnone⟩ | hblocked
  · have hfolder := isFolderAt_iff.mpr (htrail _ (Location.goal_mem_trail _ cs))
    rw [hok]
    exact Or.inl (if_pos hfolder)
  · rw [herror]
    exact Or.inr (Or.inl ⟨rfl, hnone⟩)
  · exact Or.inr (Or.inr hblocked)

/-! ## Making a folder -/

/-- A disk with one entry more or another one. -/
structure Changed (d d' : Disk) (l : Location) (e : Entry) : Prop where
  working : d'.working = d.working
  stands? : ∀ x, d'.stands? x = if x = l then some e else d.stands? x

/-- What a folder that is made needs. -/
structure Makes (d : Disk) (p : Path) : Prop where
  short : p.text.bytes < pathLimit
  fit : NamesFit p.moves
  folders : ∀ x ∈ d.around p, d.stands? x = some .folder
  missing : d.stands? (d.goal p) = none

theorem made_of_makeFolder (hclean : p.Clean) (h : d.makeFolder p = .ok d') :
    d.Makes p ∧ d.Changed d' (d.goal p) .folder := by
  unfold makeFolder at h
  cases hf : d.folderOf p with
  | error e =>
    rw [hf] at h
    cases h
  | ok l =>
    rw [hf] at h
    dsimp only [bind, Except.bind] at h
    obtain ⟨_, hshort, rfl, hfit, htrail⟩ := of_folderOf hclean.front hf
    split at h
    next n hlast =>
      split at h
      · cases h
      · split at h
        · cases h
        next hlong hmissing =>
          cases h
          rw [hclean.last] at hlast
          have hmoves := moves_eq_of_getLast? hlast
          have hgoal := goal_of_moves (d := d) hmoves
          have hnone : d.stands? (d.goal p) = none := by
            rw [hgoal, ← Option.not_isSome_iff_eq_none, stands?_isSome]
            exact hmissing
          refine ⟨⟨hshort, ?_, htrail, hnone⟩, rfl, fun x => ?_⟩
          · rw [hmoves]
            exact hfit.append (by omega)
          · rw [hgoal] at hnone ⊢
            refine FileTree.stands?_put (htrail _ (Location.goal_mem_trail _ _)) ?_ rfl x
            rw [← stands?, hnone]
            exact fun hfolder => by cases hfolder
    next => cases h

/-- Only a name leads to something that is not a folder. -/
theorem stands?_toward {c : Path.Component} (hl : d.stands? l = some .folder)
    (hc : ∀ n, c ≠ .name n) : d.stands? (toward l c) = some .folder := by
  cases c with
  | name n => exact absurd rfl (hc n)
  | up => exact stands?_dropLast hl
  | root => exact hl
  | here => exact hl

/-- A path that does not end in a name leads to a folder if it passes folders before. -/
theorem reaches_of_getLast? (hshort : p.text.bytes < pathLimit) (hfit : NamesFit p.moves.dropLast)
    (haround : ∀ x ∈ d.around p, d.stands? x = some .folder)
    (hlast : ∀ n, p.moves.getLast? ≠ some (.name n)) : d.Reaches p := by
  have hfolder := haround _ (Location.goal_mem_trail _ _)
  cases hc : p.moves.getLast? with
  | none =>
    have hmoves := List.getLast?_eq_none_iff.mp hc
    refine reaches_of_around hshort ?_ haround ?_
    · rw [hmoves]
      exact fun n hn => absurd hn List.not_mem_nil
    · rw [goal, hmoves]
      rwa [hmoves] at hfolder
  | some c =>
    have hname : ∀ n, c ≠ .name n := fun n hn => hlast n (by rw [hc, hn])
    have hmoves := moves_eq_of_getLast? hc
    refine reaches_of_around hshort ?_ haround ?_
    · rw [hmoves]
      intro n hn
      rcases List.mem_append.mp hn with hn | hn
      · exact hfit n hn
      · exact absurd (List.mem_singleton.mp hn).symm (hname n)
    · rw [goal, hmoves, goal_append]
      exact stands?_toward hfolder hname

/-- Why a folder cannot be made in a folder that is there. -/
theorem makeFolder_error_of_folderOf {e : FileError} (hclean : p.Clean)
    (hok : d.folderOf p = .ok l) (h : d.makeFolder p = .error e) :
    (e = .alreadyExists ∧ d.Reaches p) ∨ d.Blocked p := by
  obtain ⟨_, hshort, rfl, hfit, haround⟩ := of_folderOf hclean.front hok
  unfold makeFolder at h
  rw [hok] at h
  dsimp only [bind, Except.bind] at h
  rw [hclean.last] at h
  split at h
  next n hlast =>
    have hmoves := moves_eq_of_getLast? hlast
    have hgoal := goal_of_moves (d := d) hmoves
    split at h
    next hlong =>
      refine Or.inr (Or.inr (Or.inl fun hfit => ?_))
      have := hfit n (List.mem_of_getLast? hlast)
      omega
    next hlong =>
      split at h
      next hsome =>
        cases h
        rw [← stands?_isSome, ← hgoal] at hsome
        obtain ⟨e, he⟩ := Option.isSome_iff_exists.mp hsome
        cases e with
        | folder =>
          refine Or.inl ⟨rfl, reaches_of_around hshort ?_ haround he⟩
          rw [hmoves]
          exact hfit.append (by omega)
        | file c => exact Or.inr (Or.inr (Or.inr ⟨_, d.goal_mem_trail p, c, he⟩))
      next => cases h
  next hlast =>
    cases h
    exact Or.inl ⟨rfl, reaches_of_getLast? hshort hfit haround hlast⟩

/-- Why a folder cannot be made: a folder around it is missing, it is there already, or something
is in the way. -/
theorem makeFolder_error {e : FileError} (hclean : p.Clean) (hne : p.text ≠ [])
    (hstart : d.stands? (d.start p) = some .folder) (h : d.makeFolder p = .error e) :
    (e = .notFound ∧ ∃ x ∈ d.around p, d.stands? x = none) ∨
      (e = .alreadyExists ∧ d.Reaches p) ∨ d.Blocked p := by
  by_cases hshort : p.text.bytes < pathLimit
  · rcases folderOf_cases hclean.front hne hshort hstart with hok | ⟨herror, hnone⟩ | hblocked
    · exact Or.inr (makeFolder_error_of_folderOf hclean hok h)
    · unfold makeFolder at h
      rw [herror] at h
      cases h
      exact Or.inl ⟨rfl, hnone⟩
    · exact Or.inr (Or.inr (Or.inr hblocked.of_dropLast))
  · exact Or.inr (Or.inr (Or.inl (by omega)))

/-! ## Writing a file -/

/-- When a file can be written. -/
structure Opens (d : Disk) (p : Path) : Prop where
  names : p.NamesFile
  short : p.text.bytes < pathLimit
  fit : NamesFit p.moves
  folders : ∀ x ∈ d.around p, d.stands? x = some .folder
  free : d.stands? (d.goal p) ≠ some .folder

/-- Where a file can be written is in the folder that the other fields lead to. -/
theorem of_target (h : d.target p = .ok l) :
    d.Opens p ∧ ∃ n, l = Location.goal (d.start p) p.moves.dropLast ++ [n] ∧ l = d.goal p := by
  unfold target at h
  cases hf : d.folderOf p with
  | error e =>
    rw [hf] at h
    cases h
  | ok m =>
    rw [hf] at h
    dsimp only [bind, Except.bind] at h
    split at h
    next fs f hsplit =>
      split at h
      next n hn =>
        have hmoves := Path.NamesFile.moves hsplit hn
        have hfront : fs.filterMap component? = p.moves.dropLast := by
          rw [hmoves, List.dropLast_concat]
        obtain ⟨_, hshort, rfl, hfit, htrail⟩ := of_folderOf (by rw [hsplit]) hf
        rw [hfront] at hmoves hfit htrail h
        have hgoal := goal_of_moves (d := d) hmoves
        split at h
        · cases h
        · split at h
          · cases h
          next hlong hfree =>
            cases h
            refine ⟨⟨⟨fs, f, n, hsplit, hn⟩, hshort, ?_, htrail, ?_⟩, n, rfl, hgoal.symm⟩
            · rw [hmoves]
              exact hfit.append (by omega)
            · rw [hgoal]
              exact fun hfolder => hfree (isFolderAt_iff.mpr hfolder)
      next => cases h
    next => cases h

theorem target_of_opens (h : d.Opens p) : d.target p = .ok (d.goal p) := by
  obtain ⟨⟨fs, f, n, hsplit, hn⟩, hshort, hfit, hfolders, hfree⟩ := h
  have hmoves := Path.NamesFile.moves hsplit hn
  have hfront : (splitTarget p).1.filterMap component? = p.moves.dropLast := by
    rw [hmoves, List.dropLast_concat, hsplit]
  have hne : p.text ≠ [] := by
    intro hempty
    have hfields := Path.fields_of_splitTarget hsplit
    have hlast : f = [] := by
      have hmem : f ∈ p.fields := by simp [hfields]
      simpa [Path.fields, hempty, Text.fields] using hmem
    rw [hlast] at hn
    cases hn
  have hfolder : d.folderOf p = .ok (Location.goal (d.start p) p.moves.dropLast) := by
    rcases folderOf_cases hfront hne hshort (hfolders _ (mem_trail_self _ _)) with
      hok | ⟨_, x, hx, hnone⟩ | hfit' | ⟨x, hx, c, hfile⟩
    · exact hok
    · rw [hfolders x hx] at hnone
      cases hnone
    · exact absurd hfit.dropLast hfit'
    · rw [hfolders x hx] at hfile
      cases hfile
  have hgoal := goal_of_moves (d := d) hmoves
  have hlong := hfit n (by simp [hmoves])
  have hnot : d.isFolderAt (Location.goal (d.start p) p.moves.dropLast ++ [n]) = false := by
    rw [← hgoal, ← Bool.not_eq_true]
    exact fun hfolder => hfree (isFolderAt_iff.mp hfolder)
  unfold target
  rw [hfolder]
  dsimp only [bind, Except.bind]
  rw [hsplit]
  simp only [hn]
  rw [if_neg (by omega), hnot, hgoal]
  rfl

/-- A file that is put where a path leads is seen there and nowhere else. -/
theorem Opens.changed_put (h : d.Opens p) (c : Content) :
    d.Changed (d.put (d.goal p) c) (d.goal p) (.file c) := by
  obtain ⟨_, n, hgoal, _⟩ := of_target (target_of_opens h)
  have hfolder := h.folders _ (Location.goal_mem_trail _ _)
  have hfree := h.free
  rw [hgoal] at hfree ⊢
  exact ⟨rfl, fun x => FileTree.stands?_put hfolder hfree rfl x⟩

/-- A file is written where its path leads. -/
theorem opens_of_write (h : d.write p t = .ok d') :
    d.Opens p ∧ d.Changed d' (d.goal p) (.file (.text t)) := by
  unfold write at h
  cases ht : d.target p with
  | error e =>
    rw [ht] at h
    cases h
  | ok l =>
    rw [ht] at h
    cases h
    obtain ⟨hopens, _, _, rfl⟩ := of_target ht
    exact ⟨hopens, hopens.changed_put _⟩

theorem write_of_opens (h : d.Opens p) (t : Text) : ∃ d', d.write p t = .ok d' := by
  unfold write
  rw [target_of_opens h]
  exact ⟨_, rfl⟩

end Disk

end PixelScale
