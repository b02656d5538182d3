import PixelScale.Proofs.Files.Path
import PixelScale.Proofs.Files.Tree

/-!
# Where a path leads by its text

There are no links, so the text of a path and the working folder fix the locations that it passes
and the one it leads to, whatever stands there. What stands there decides how far an operation
gets: folders let it pass, a missing folder stops it until someone makes one, and a file or a name
that is too long stops it for good.

* `Location.trail`, `Location.goal`: the locations that components lead through, and the last one.
* `Disk.step_cases`: what one more field does.
* `Disk.foldlM_step_of_ok`: what a walk that succeeds has passed.
* `Disk.foldlM_step_cases`: how a walk ends.
* `Disk.BlockedFrom`: something stops components for good.
-/

namespace PixelScale

open PixelScale.Path (component?)

namespace Location

/-- Where a component leads from a location. -/
def toward (l : Location) : Path.Component → Location
  | .name n => l ++ [n]
  | .up => l.dropLast
  | .root | .here => l

/-- Where components lead, one after another. -/
def goal (l : Location) (cs : List Path.Component) : Location := cs.foldl toward l

/-- The locations that components lead through, with the first and the last one. -/
def trail (l : Location) : List Path.Component → List Location
  | [] => [l]
  | c :: cs => l :: trail (toward l c) cs

theorem goal_append (l : Location) (cs : List Path.Component) (c : Path.Component) :
    goal l (cs ++ [c]) = toward (goal l cs) c := by
  simp [goal]

theorem mem_trail_self (l : Location) (cs : List Path.Component) : l ∈ trail l cs := by
  cases cs <;> simp [trail]

theorem goal_mem_trail (l : Location) (cs : List Path.Component) : goal l cs ∈ trail l cs := by
  induction cs generalizing l with
  | nil => exact List.mem_singleton_self l
  | cons c cs ih => exact List.mem_cons_of_mem l (ih (toward l c))

theorem trail_append (l : Location) (cs : List Path.Component) (c : Path.Component) :
    trail l (cs ++ [c]) = trail l cs ++ [goal l (cs ++ [c])] := by
  induction cs generalizing l with
  | nil => rfl
  | cons d cs ih =>
    rw [List.cons_append, trail, ih (toward l d)]
    rfl

/-- The last location is the only one that a last component adds. -/
theorem mem_trail_iff {l x : Location} {cs : List Path.Component} :
    x ∈ trail l cs ↔ x ∈ trail l cs.dropLast ∨ x = goal l cs := by
  rcases List.eq_nil_or_concat cs with rfl | ⟨cs, c, rfl⟩
  · simp [trail, goal]
  · rw [List.concat_eq_append, List.dropLast_concat, trail_append, List.mem_append,
      List.mem_singleton]

end Location

/-- Names that are short enough for a disk. -/
def NamesFit (cs : List Path.Component) : Prop :=
  ∀ n : Text, .name n ∈ cs → n.bytes ≤ Disk.longestName

theorem NamesFit.dropLast {cs : List Path.Component} (h : NamesFit cs) : NamesFit cs.dropLast :=
  fun n hn => h n (List.dropLast_subset cs hn)

theorem NamesFit.append {cs : List Path.Component} {n : Text} (h : NamesFit cs)
    (hn : n.bytes ≤ Disk.longestName) : NamesFit (cs ++ [.name n]) := by
  intro m hm
  rcases List.mem_append.mp hm with hm | hm
  · exact h m hm
  · obtain rfl : m = n := by simpa using hm
    exact hn

namespace Disk

open Location

variable {d d' : Disk} {l l' : Location} {p q : Path} {fs : List Text}

def stands? (d : Disk) (l : Location) : Option Entry := d.root.stands? l

theorem isFolderAt_iff : d.isFolderAt l ↔ d.stands? l = some .folder := by
  unfold isFolderAt stands? FileTree.stands?
  cases d.root.at? l with
  | none => simp
  | some t => simp [FileTree.entry_eq_folder]

theorem stands?_isSome : (d.stands? l).isSome = (d.root.at? l).isSome := by
  simp [stands?, FileTree.stands?]

/-- Above a folder are folders. -/
theorem stands?_dropLast (h : d.stands? l = some .folder) :
    d.stands? l.dropLast = some .folder := by
  rcases List.eq_nil_or_concat l with rfl | ⟨m, n, rfl⟩
  · exact h
  · rw [List.concat_eq_append] at h ⊢
    rw [List.dropLast_concat]
    exact FileTree.stands?_eq_folder_of_append (List.cons_ne_nil n []) (Option.isSome_of_eq_some h)

/-! ## Steps -/

theorem step_of_not_folder (h : d.stands? l ≠ some .folder) (f : Text) :
    d.step l f = .error .notDirectory := by
  have : d.isFolderAt l = false := by
    rw [← Bool.not_eq_true, isFolderAt_iff]
    exact h
  simp [step, this]

/-- What one more field does in a folder. -/
theorem step_cases (h : d.stands? l = some .folder) (f : Text) :
    (component? f = none ∧ d.step l f = .ok l) ∨
    (component? f = some .up ∧ d.step l f = .ok l.dropLast) ∨
    ∃ n, component? f = some (.name n) ∧
      (longestName < n.bytes ∧ d.step l f = .error .nameTooLong ∨
        n.bytes ≤ longestName ∧ (d.stands? (l ++ [n])).isSome ∧ d.step l f = .ok (l ++ [n]) ∨
        d.stands? (l ++ [n]) = none ∧ d.step l f = .error .notFound) := by
  have hfolder := isFolderAt_iff.mpr h
  cases hc : component? f with
  | none => exact Or.inl ⟨rfl, by simp [step, hfolder, hc]⟩
  | some c =>
    rcases Path.component?_eq_some hc with rfl | ⟨n, rfl⟩
    · exact Or.inr (Or.inl ⟨rfl, by simp [step, hfolder, hc]⟩)
    · refine Or.inr (Or.inr ⟨n, rfl, ?_⟩)
      by_cases hlong : longestName < n.bytes
      · exact Or.inl ⟨hlong, by simp [step, hfolder, hc, hlong]⟩
      · refine Or.inr ?_
        cases hn : d.root.at? (l ++ [n]) with
        | none => exact Or.inr ⟨by simp [stands?, FileTree.stands?, hn],
            by simp [step, hfolder, hc, hlong, hn]⟩
        | some t => exact Or.inl ⟨by omega, by simp [stands?, FileTree.stands?, hn],
            by simp [step, hfolder, hc, hlong, hn]⟩

/-- A step is still possible where folders are still folders and nothing has gone. -/
theorem step_mono (hfolder : ∀ x, d.stands? x = some .folder → d'.stands? x = some .folder)
    (hsome : ∀ x, (d.stands? x).isSome → (d'.stands? x).isSome) {f : Text}
    (h : d.step l f = .ok l') : d'.step l f = .ok l' := by
  by_cases hl : d.stands? l = some .folder
  · have hl' := step_cases (hfolder l hl) f
    rcases step_cases hl f with ⟨hc, hs⟩ | ⟨hc, hs⟩ | ⟨n, hc, hs⟩
    · simp_all
    · simp_all
    · rcases hs with ⟨_, hs⟩ | ⟨hn, hsome', hs⟩ | ⟨_, hs⟩
      · simp [hs] at h
      · rw [hs, Except.ok.injEq] at h
        subst h
        have := hsome _ hsome'
        rcases hl' with ⟨hc', _⟩ | ⟨hc', _⟩ | ⟨m, hc', hs'⟩
        · simp [hc] at hc'
        · simp [hc] at hc'
        · obtain rfl : n = m := by simpa [hc] using hc'
          rcases hs' with ⟨hlong, _⟩ | ⟨_, _, hs'⟩ | ⟨hnone, _⟩
          · omega
          · exact hs'
          · simp [hnone] at this
      · simp [hs] at h
  · rw [step_of_not_folder hl] at h
    cases h

theorem foldlM_step_mono (hfolder : ∀ x, d.stands? x = some .folder → d'.stands? x = some .folder)
    (hsome : ∀ x, (d.stands? x).isSome → (d'.stands? x).isSome)
    (h : fs.foldlM d.step l = .ok l') : fs.foldlM d'.step l = .ok l' := by
  induction fs generalizing l with
  | nil => exact h
  | cons f fs ih =>
    rw [List.foldlM_cons] at h ⊢
    cases hs : d.step l f with
    | error e =>
      rw [hs] at h
      cases h
    | ok m =>
      rw [hs] at h
      rw [step_mono hfolder hsome hs]
      exact ih h

/-! ## Walks -/

/-- What a walk has passed if it succeeds: folders, up to what it leads to. -/
theorem foldlM_step_of_ok (h : fs.foldlM d.step l = .ok l') :
    l' = goal l (fs.filterMap component?) ∧ NamesFit (fs.filterMap component?) ∧
      ∀ x ∈ trail l (fs.filterMap component?), x = l' ∨ d.stands? x = some .folder := by
  induction fs generalizing l with
  | nil =>
    cases h
    exact ⟨rfl, fun _ hn => absurd hn List.not_mem_nil,
      fun x hx => Or.inl (List.mem_singleton.mp hx)⟩
  | cons f fs ih =>
    rw [List.foldlM_cons] at h
    by_cases hl : d.stands? l = some .folder
    · have pass {c : Path.Component} (hc : component? f = some c)
          (hfit : ∀ n, c = .name n → n.bytes ≤ longestName) (hs : d.step l f = .ok (toward l c)) :
          l' = goal l ((f :: fs).filterMap component?) ∧
            NamesFit ((f :: fs).filterMap component?) ∧
            ∀ x ∈ trail l ((f :: fs).filterMap component?),
              x = l' ∨ d.stands? x = some .folder := by
        rw [hs] at h
        obtain ⟨hgoal, hrest, htrail⟩ := ih h
        rw [List.filterMap_cons_some hc]
        refine ⟨hgoal, fun n hn => ?_, fun x hx => ?_⟩
        · rcases List.mem_cons.mp hn with hn | hn
          · exact hfit n hn.symm
          · exact hrest n hn
        · rcases List.mem_cons.mp hx with rfl | hx
          · exact Or.inr hl
          · exact htrail x hx
      rcases step_cases hl f with ⟨hc, hs⟩ | ⟨hc, hs⟩ | ⟨n, hc, ⟨_, hs⟩ | ⟨hn, _, hs⟩ | ⟨_, hs⟩⟩
      · rw [hs] at h
        rw [List.filterMap_cons_none hc]
        exact ih h
      · exact pass hc nofun hs
      · rw [hs] at h
        cases h
      · exact pass hc (fun m hm => by cases hm; exact hn) hs
      · rw [hs] at h
        cases h
    · rw [step_of_not_folder hl] at h
      cases h

/-- Something stops components on their way that will never be a folder. -/
def BlockedFrom (d : Disk) (l : Location) (cs : List Path.Component) : Prop :=
  ¬NamesFit cs ∨ ∃ x ∈ trail l cs, ∃ c, d.stands? x = some (.file c)

theorem BlockedFrom.cons {cs : List Path.Component} {c : Path.Component}
    (h : d.BlockedFrom (toward l c) cs) : d.BlockedFrom l (c :: cs) := by
  rcases h with h | ⟨x, hx, hfile⟩
  · exact Or.inl fun hfit => h fun n hn => hfit n (List.mem_cons_of_mem c hn)
  · exact Or.inr ⟨x, List.mem_cons_of_mem l hx, hfile⟩

/-- How a walk from a folder ends. -/
theorem foldlM_step_cases (h : d.stands? l = some .folder) (fs : List Text) :
    (fs.foldlM d.step l = .ok (goal l (fs.filterMap component?)) ∧
      ∀ x ∈ trail l (fs.filterMap component?), d.stands? x = some .folder) ∨
    (fs.foldlM d.step l = .error .notFound ∧
      ∃ x ∈ trail l (fs.filterMap component?), d.stands? x = none) ∨
    d.BlockedFrom l (fs.filterMap component?) := by
  induction fs generalizing l with
  | nil => exact Or.inl ⟨rfl, by simpa [trail] using h⟩
  | cons f fs ih =>
    rw [List.foldlM_cons]
    -- a step to a folder leaves the rest of the walk
    have pass {c : Path.Component} (hc : component? f = some c) (hs : d.step l f = .ok (toward l c))
        (hfolder : d.stands? (toward l c) = some .folder) :
        (d.step l f >>= fs.foldlM d.step = .ok (goal l (c :: fs.filterMap component?)) ∧
          ∀ x ∈ trail l (c :: fs.filterMap component?), d.stands? x = some .folder) ∨
        (d.step l f >>= fs.foldlM d.step = .error .notFound ∧
          ∃ x ∈ trail l (c :: fs.filterMap component?), d.stands? x = none) ∨
        d.BlockedFrom l (c :: fs.filterMap component?) := by
      rw [hs]
      rcases ih hfolder with ⟨hok, htrail⟩ | ⟨herror, x, hx, hnone⟩ | hblocked
      · refine Or.inl ⟨hok, fun x hx => ?_⟩
        rcases List.mem_cons.mp hx with rfl | hx
        · exact h
        · exact htrail x hx
      · exact Or.inr (Or.inl ⟨herror, x, List.mem_cons_of_mem l hx, hnone⟩)
      · exact Or.inr (Or.inr hblocked.cons)
    rcases step_cases h f with ⟨hc, hs⟩ | ⟨hc, hs⟩ | ⟨n, hc, hs⟩
    · rw [hs, List.filterMap_cons_none hc]
      exact ih h
    · rw [List.filterMap_cons_some hc]
      exact pass hc hs (stands?_dropLast h)
    · rw [List.filterMap_cons_some hc]
      have hmem : l ++ [n] ∈ trail l (.name n :: fs.filterMap component?) :=
        List.mem_cons_of_mem l (mem_trail_self (l ++ [n]) _)
      rcases hs with ⟨hlong, hs⟩ | ⟨_, hsome, hs⟩ | ⟨hnone, hs⟩
      · refine Or.inr (Or.inr (Or.inl fun hfit => ?_))
        have := hfit n List.mem_cons_self
        omega
      · obtain ⟨e, he⟩ := Option.isSome_iff_exists.mp hsome
        cases e with
        | folder => exact pass hc hs he
        | file c => exact Or.inr (Or.inr (Or.inr ⟨_, hmem, c, he⟩))
      · rw [hs]
        exact Or.inr (Or.inl ⟨rfl, _, hmem, hnone⟩)

end Disk

end PixelScale
