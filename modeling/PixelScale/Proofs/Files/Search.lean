import Mathlib.Data.List.Nodup
import PixelScale.Proofs.Files.Naming
import PixelScale.Proofs.Lists

/-!
# Walks through a tree

A walk through everything below a folder passes each place once, so far as no folder has two entries
with one name. The names of a path that has no wildcard lead a walk to where the path leads. There
is one exception: an empty field behind nothing but dots is looked up as an empty path, which is
nowhere.

* `FileTree.places`: everything below a tree; `FileTree.mem_places_iff`, `FileTree.nodup_places`.
* `Glob.below_eq`: a walk goes through these places.
* `Glob.walk_names`: a walk along names.
-/

namespace PixelScale

namespace FileTree

mutual

/-- Everything below a tree, each told by its folder and its name there. -/
def places : FileTree → List (Location × Text)
  | file _ => []
  | folder es => placesOfEntries es

def placesOfEntries : List (Text × FileTree) → List (Location × Text)
  | [] => []
  | (n, t) :: es => ([], n) :: ((places t).map fun x => (n :: x.1, x.2)) ++ placesOfEntries es

end

/-- The entries of every folder have different names, and names that entries can have. -/
def Named (t : FileTree) : Prop :=
  ∀ l es, t.at? l = some (folder es) →
    (es.map Prod.fst).Nodup ∧ ∀ n ∈ es.map Prod.fst, Glob.IsName n

variable {t u : FileTree} {es : List (Text × FileTree)} {l : Location} {n : Text}

theorem Named.at? (h : t.Named) (hu : t.at? l = some u) : u.Named := by
  intro m es hes
  refine h (l ++ m) es ?_
  rw [at?_append, hu, Option.bind_some, hes]

theorem Named.entry (h : (folder es).Named) (hu : (n, u) ∈ es) : u.Named := by
  have hlookup := lookup_of_mem (h [] es rfl).1 hu
  refine h.at? (l := [n]) ?_
  rw [FileTree.at?, entries, hlookup]
  rfl

theorem named_file (c : Content) : (file c).Named := by
  intro l es h
  cases l <;> cases h

theorem named_folder (hnodup : (es.map Prod.fst).Nodup)
    (hnames : ∀ n ∈ es.map Prod.fst, Glob.IsName n) (h : ∀ e ∈ es, e.2.Named) :
    (folder es).Named := by
  intro l fs hfs
  cases l with
  | nil =>
    cases hfs
    exact ⟨hnodup, hnames⟩
  | cons k l =>
    obtain ⟨u, hu, hat⟩ := Option.bind_eq_some_iff.mp hfs
    exact h _ (mem_of_lookup hu) l fs hat

/-- What leads somewhere in a tree are names that entries can have. -/
theorem Named.isName (h : t.Named) (hl : (t.at? l).isSome) : ∀ n ∈ l, Glob.IsName n := by
  induction l generalizing t with
  | nil => exact nofun
  | cons k l ih =>
    cases t with
    | file c => cases hl
    | folder es =>
      rw [FileTree.at?, entries] at hl
      cases hu : es.lookup k with
      | none =>
        rw [hu] at hl
        cases hl
      | some u =>
        rw [hu] at hl
        have hmem := mem_of_lookup hu
        intro n hn
        rcases List.mem_cons.mp hn with rfl | hn
        · exact (h [] es rfl).2 n (List.mem_map.mpr ⟨_, hmem, rfl⟩)
        · exact ih (h.entry hmem) hl n hn

theorem mem_placesOfEntries_iff : (l, n) ∈ placesOfEntries es ↔
    match l with
    | [] => n ∈ es.map Prod.fst
    | k :: l => ∃ u, (k, u) ∈ es ∧ (l, n) ∈ places u := by
  induction es with
  | nil => cases l <;> simp [placesOfEntries]
  | cons e es ih =>
    obtain ⟨m, t⟩ := e
    rw [placesOfEntries, List.cons_append, List.mem_cons, List.mem_append, ih]
    cases l with
    | nil => simp
    | cons k l =>
      simp only [List.mem_map, Prod.mk.injEq, Prod.exists, List.mem_cons, reduceCtorEq, false_and,
        false_or, List.cons.injEq]
      constructor
      · rintro (⟨l', n', hmem, ⟨rfl, rfl⟩, rfl⟩ | ⟨u, hu, hmem⟩)
        · exact ⟨t, .inl ⟨rfl, rfl⟩, hmem⟩
        · exact ⟨u, .inr hu, hmem⟩
      · rintro ⟨u, ⟨rfl, rfl⟩ | hu, hmem⟩
        · exact .inl ⟨l, n, hmem, ⟨rfl, rfl⟩, rfl⟩
        · exact .inr ⟨u, hu, hmem⟩

/-- The places below a tree are where something is in it. -/
theorem mem_places_iff (h : t.Named) : (l, n) ∈ t.places ↔ (t.at? (l ++ [n])).isSome := by
  induction l generalizing t with
  | nil =>
    cases t with
    | file c => simp [places, at?, entries]
    | folder es =>
      rw [places, mem_placesOfEntries_iff, List.nil_append, at?, entries]
      constructor
      · intro hn
        obtain ⟨⟨m, u⟩, hu, rfl⟩ := List.mem_map.mp hn
        rw [lookup_of_mem (h [] es rfl).1 hu]
        rfl
      · intro hsome
        obtain ⟨u, hu, -⟩ := Option.bind_eq_some_iff.mp (Option.eq_some_of_isSome hsome)
        exact List.mem_map_of_mem (f := Prod.fst) (mem_of_lookup hu)
  | cons k l ih =>
    cases t with
    | file c => simp [places, at?, entries]
    | folder es =>
      rw [places, mem_placesOfEntries_iff, List.cons_append, at?, entries]
      constructor
      · rintro ⟨u, hu, hmem⟩
        rw [lookup_of_mem (h [] es rfl).1 hu]
        exact (ih (h.entry hu)).mp hmem
      · intro hsome
        cases hu : es.lookup k with
        | none =>
          rw [hu] at hsome
          cases hsome
        | some u =>
          rw [hu] at hsome
          exact ⟨u, mem_of_lookup hu, (ih (h.entry (mem_of_lookup hu))).mpr hsome⟩

mutual

theorem nodup_places (t : FileTree) (h : t.Named) : t.places.Nodup := by
  cases t with
  | file c => exact List.nodup_nil
  | folder es =>
    exact nodup_placesOfEntries es (h [] es rfl).1 fun n u hu => h.entry hu

theorem nodup_placesOfEntries (es : List (Text × FileTree)) (hnodup : (es.map Prod.fst).Nodup)
    (h : ∀ n u, (n, u) ∈ es → u.Named) : (placesOfEntries es).Nodup := by
  cases es with
  | nil => exact List.nodup_nil
  | cons e es =>
    obtain ⟨n, t⟩ := e
    rw [List.map_cons, List.nodup_cons] at hnodup
    have hbelow := nodup_places t (h n t List.mem_cons_self)
    have hrest := nodup_placesOfEntries es hnodup.2 fun m u hu =>
      h m u (List.mem_cons_of_mem _ hu)
    rw [placesOfEntries, List.cons_append, List.nodup_cons, List.nodup_append]
    refine ⟨?_, ?_, hrest, ?_⟩
    · rw [List.mem_append, mem_placesOfEntries_iff]
      rintro (hmem | hmem)
      · obtain ⟨⟨l, m⟩, -, heq⟩ := List.mem_map.mp hmem
        cases heq
      · exact hnodup.1 hmem
    · refine List.Nodup.map ?_ hbelow
      rintro ⟨l, m⟩ ⟨l', m'⟩ heq
      cases heq
      rfl
    · rintro p hp q hq rfl
      obtain ⟨⟨l, m⟩, -, rfl⟩ := List.mem_map.mp hp
      obtain ⟨u, hu, -⟩ := mem_placesOfEntries_iff.mp hq
      exact hnodup.1 (List.mem_map.mpr ⟨(n, u), hu, rfl⟩)

end

end FileTree

namespace Glob

variable {d : Disk} {p q : Path} {l l' : Location} {t u : FileTree} {fs : List Text}

/-! ## Everything below a tree -/

mutual

/-- A walk for names goes through the places below a tree. -/
theorem below_eq (accept : Text → Bool) (p : Path) (t : FileTree) :
    below (fun n q _ => if accept n then [q] else []) p t =
      (t.places.filter fun x => accept x.2).map fun x => along p (x.1 ++ [x.2]) := by
  cases t with
  | file c => rfl
  | folder es => exact belowEntries_eq accept p es

theorem belowEntries_eq (accept : Text → Bool) (p : Path) (es : List (Text × FileTree)) :
    belowEntries (fun n q _ => if accept n then [q] else []) p es =
      ((FileTree.placesOfEntries es).filter fun x => accept x.2).map
        fun x => along p (x.1 ++ [x.2]) := by
  cases es with
  | nil => rfl
  | cons e es =>
    obtain ⟨n, t⟩ := e
    have hbelow := below_eq accept (under p n) t
    have hrest := belowEntries_eq accept p es
    have hentry : (if accept n then [under p n] else []) =
        ([([], n)].filter fun x : Location × Text => accept x.2).map
          fun x => along p (x.1 ++ [x.2]) := by
      by_cases h : accept n <;> simp [h, along]
    have hsplit : FileTree.placesOfEntries ((n, t) :: es) =
        [([], n)] ++ (t.places.map fun x => (n :: x.1, x.2)) ++ FileTree.placesOfEntries es := rfl
    rw [belowEntries, hbelow, hrest, hentry, hsplit, List.filter_append, List.filter_append,
      List.map_append, List.map_append, List.filter_map, List.map_map]
    rfl

end

/-! ## Along names -/

/-- Fields that are an empty one behind nothing but dots. -/
def Stalls (fs : List Text) : Prop := (fs.dropWhile fun f => f = ['.']).head? = some []

instance (fs : List Text) : Decidable (Stalls fs) := inferInstanceAs (Decidable (_ = _))

theorem stalls_dot (fs : List Text) : Stalls (['.'] :: fs) ↔ Stalls fs := by
  simp [Stalls]

theorem stalls_nil (fs : List Text) : Stalls ([] :: fs) := by
  simp [Stalls]

theorem not_stalls_cons {f : Text} (hne : f ≠ []) (hdot : f ≠ ['.']) (fs : List Text) :
    ¬Stalls (f :: fs) := by
  simp [Stalls, hne, hdot]

/-- What a step leads to is there. -/
theorem at?_of_step {f : Text} (h : d.step l f = .ok l') :
    d.stands? l = some .folder ∧ ∃ u, d.root.at? l' = some u := by
  have hfolder : d.stands? l = some .folder := by
    by_contra hne
    rw [Disk.step_of_not_folder hne] at h
    cases h
  refine ⟨hfolder, ?_⟩
  rw [← Option.isSome_iff_exists, ← Disk.stands?_isSome]
  rcases Disk.step_cases hfolder f with ⟨-, hs⟩ | ⟨-, hs⟩ |
      ⟨n, -, ⟨-, hs⟩ | ⟨-, hsome, hs⟩ | ⟨-, hs⟩⟩ <;> rw [hs] at h <;> cases h
  · exact Option.isSome_of_eq_some hfolder
  · exact Option.isSome_of_eq_some (Disk.stands?_dropLast hfolder)
  · exact hsome

theorem walk_name (onlyFolders : Bool) (f : Text) (parts : List Part) (p : Path)
    (ht : t.isFolder) (hu : d.look? (under p f) = some u) :
    walk d onlyFolders (.name f :: parts) p t = walk d onlyFolders parts (under p f) u := by
  have hfile : ¬(t.isFile = true) := by simp [FileTree.isFile, ht]
  simp only [walk, if_neg fun h => hfile (And.right h), hu]

theorem walk_name_of_nowhere (onlyFolders : Bool) (f : Text) (parts : List Part) (p : Path)
    (ht : t.isFolder) (hu : d.look? (under p f) = none) :
    walk d onlyFolders (.name f :: parts) p t = [] := by
  have hfile : ¬(t.isFile = true) := by simp [FileTree.isFile, ht]
  simp only [walk, if_neg fun h => hfile (And.right h), hu]

/-- What is left for the names behind a path, in bytes. -/
def Room (p : Path) (fs : List Text) : Prop :=
  fs ≠ [] → lead p + (Text.join ['/'] fs).bytes < Disk.pathLimit

theorem Room.under {f : Text} (h : Room p (f :: fs)) (hp : Tidy p) (hf : '/' ∉ f) :
    (Glob.under p f).text.bytes < Disk.pathLimit ∧ Room (Glob.under p f) fs := by
  have hroom := h (List.cons_ne_nil f fs)
  have hbytes := bytes_under hp hf
  have hlead := lead_le (Glob.under p f)
  have hslash : ('/' : Char).utf8Size = 1 := rfl
  cases fs with
  | nil =>
    rw [Text.join] at hroom
    exact ⟨by omega, fun hne => absurd rfl hne⟩
  | cons g gs =>
    have hjoin : Text.join ['/'] (f :: g :: gs) = f ++ ['/'] ++ Text.join ['/'] (g :: gs) := rfl
    rw [hjoin, Text.bytes_append, Text.bytes_append, Text.bytes_cons, Text.bytes_nil] at hroom
    exact ⟨by omega, fun _ => by omega⟩

/-- Names lead a walk to where they lead as fields of a path. -/
theorem walk_names (parts : List Part) (hp : Tidy p) (hl : d.locate p = .ok l)
    (ht : d.root.at? l = some t) (hfs : ∀ f ∈ fs, '/' ∉ f)
    (hstalls : p = ⟨['.']⟩ → ¬Stalls fs) (hroom : Room p fs)
    (hwalk : fs.foldlM d.step l = .ok l') (hu : d.root.at? l' = some u) :
    walk d false (fs.map .name ++ parts) p t = walk d false parts (along p fs) u ∧
      d.locate (along p fs) = .ok l' ∧ Tidy (along p fs) := by
  induction fs generalizing p l t with
  | nil =>
    cases hwalk
    rw [ht] at hu
    cases hu
    exact ⟨rfl, hl, hp⟩
  | cons f fs ih =>
    have hf := hfs f List.mem_cons_self
    rw [List.foldlM_cons] at hwalk
    cases hs : d.step l f with
    | error e =>
      rw [hs] at hwalk
      cases hwalk
    | ok m =>
      rw [hs] at hwalk
      obtain ⟨hfolder, v, hv⟩ := at?_of_step hs
      obtain ⟨hshort, hrest⟩ := hroom.under hp hf
      have hne : p = ⟨['.']⟩ → f ≠ [] := by
        rintro rfl rfl
        exact hstalls rfl (stalls_nil fs)
      have htidy := hp.under_field hf hne
      have hlocate : d.locate (under p f) = .ok m := by
        rw [locate_under hl hp hf htidy.ne_nil hshort, hs]
      have hgoes : under p f = ⟨['.']⟩ → ¬Stalls fs := by
        intro hdot
        rcases hp with rfl | hp
        · rw [under_dot] at hdot
          cases hdot
          exact (stalls_dot fs).not.mp (hstalls rfl)
        · rw [hp.under_eq] at hdot
          refine absurd ?_ (hp.join hf).head?
          rw [hdot]
          rfl
      have hisFolder : t.isFolder := by
        rw [← FileTree.entry_eq_folder]
        rw [Disk.stands?, FileTree.stands?, ht] at hfolder
        exact Option.some.inj hfolder
      have hlook : d.look? (under p f) = some v := by
        rw [Disk.look?, hlocate]
        exact hv
      rw [List.map_cons, List.cons_append, walk_name _ _ _ _ hisFolder hlook]
      exact ih htidy hlocate hv (fun g hg => hfs g (List.mem_cons_of_mem f hg)) hgoes hrest hwalk

/-- An empty field behind dots ends a walk from the working folder. -/
theorem walk_stalls (parts : List Part) (hl : d.locate ⟨['.']⟩ = .ok l)
    (ht : d.root.at? l = some t) (hfolder : t.isFolder) (hstalls : Stalls fs) :
    walk d false (fs.map .name ++ parts) ⟨['.']⟩ t = [] := by
  induction fs with
  | nil => cases hstalls
  | cons f fs ih =>
    rw [List.map_cons, List.cons_append]
    by_cases hdot : f = ['.']
    · subst hdot
      have hlook : d.look? ⟨['.']⟩ = some t := by
        rw [Disk.look?, hl]
        exact ht
      rw [walk_name _ _ _ _ hfolder hlook]
      exact ih ((stalls_dot fs).mp hstalls)
    · by_cases hne : f = []
      · subst hne
        exact walk_name_of_nowhere _ _ _ _ hfolder rfl
      · exact absurd hstalls (not_stalls_cons hne hdot fs)

end Glob

end PixelScale
