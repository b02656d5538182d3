import Mathlib.Tactic.ByContra
import PixelScale.Files.Tree

/-!
# What stands at a location

The operations that change a tree put a file or an empty folder into a folder, at a place where no
folder is. Nothing is below such a place, before or after, so the change is seen at that location
and nowhere else.

* `FileTree.stands?`: what stands at a location, without what is below it.
* `FileTree.stands?_put`: what stands where after such a change.
-/

namespace PixelScale

/-- A file or a folder, without what is below it. -/
inductive Entry where
  | folder
  | file (content : Content)
deriving DecidableEq, Repr

namespace FileTree

def entry : FileTree → Entry
  | file content => .file content
  | folder _ => .folder

def stands? (t : FileTree) (l : Location) : Option Entry := (t.at? l).map entry

theorem entry_eq_folder {t : FileTree} : t.entry = .folder ↔ t.isFolder := by
  cases t <;> simp [entry, isFolder]

theorem stands?_eq_file {t : FileTree} {l : Location} {c : Content} :
    t.stands? l = some (.file c) ↔ t.at? l = some (.file c) := by
  unfold stands?
  cases t.at? l with
  | none => simp
  | some u => cases u <;> simp [entry]

@[simp] theorem stands?_nil (t : FileTree) : t.stands? [] = some t.entry := rfl

theorem stands?_cons (t : FileTree) (n : Text) (l : Location) :
    t.stands? (n :: l) = (t.entries.lookup n).bind (stands? · l) := by
  unfold stands?
  rw [at?]
  cases t.entries.lookup n <;> rfl

theorem at?_append (t : FileTree) (l m : Location) : t.at? (l ++ m) = (t.at? l).bind (at? m) := by
  induction l generalizing t with
  | nil => rfl
  | cons n l ih =>
    simp only [List.cons_append, at?]
    cases t.entries.lookup n with
    | none => rfl
    | some u => exact ih u

theorem lookup_insertEntry (name other : Text) (t : FileTree) (es : List (Text × FileTree)) :
    (insertEntry name t es).lookup other = if other = name then some t else es.lookup other := by
  have lookup_cons (n : Text) (u : FileTree) (es : List (Text × FileTree)) :
      ((n, u) :: es).lookup other = if other = n then some u else es.lookup other := by
    by_cases h : other = n
    · simp [h]
    · rw [List.lookup_cons, beq_eq_false_iff_ne.mpr h, if_neg h]
  induction es with
  | nil => exact lookup_cons name t []
  | cons e es ih =>
    obtain ⟨n, u⟩ := e
    unfold insertEntry
    by_cases hn : name = n
    · subst hn
      by_cases h : other = name <;> simp [lookup_cons, h]
    · rw [if_neg hn]
      split
      · rw [lookup_cons]
      · rw [lookup_cons, lookup_cons, ih]
        by_cases ho : other = n
        · have : other ≠ name := fun h => hn (h.symm.trans ho)
          rw [if_pos ho, if_pos ho, if_neg this]
        · rw [if_neg ho, if_neg ho]

/-- What has no entries has nothing below it. -/
theorem stands?_cons_of_entries_eq_nil {t : FileTree} (h : t.entries = []) (n : Text)
    (l : Location) : t.stands? (n :: l) = none := by
  rw [stands?_cons, h]
  rfl

theorem entries_eq_nil {t : FileTree} (h : t.entry ≠ .folder) : t.entries = [] := by
  cases t with
  | file _ => rfl
  | folder _ => exact absurd rfl h

/-- What stands around a place is a folder. -/
theorem stands?_eq_folder_of_append {t : FileTree} {l m : Location} (hm : m ≠ [])
    (h : (t.stands? (l ++ m)).isSome) : t.stands? l = some .folder := by
  unfold stands? at h ⊢
  rw [at?_append] at h
  cases hu : t.at? l with
  | none => simp [hu] at h
  | some u =>
    by_contra hne
    have hnil := entries_eq_nil (t := u) fun he => hne (by simp [he])
    cases m with
    | nil => exact hm rfl
    | cons n m =>
      have := stands?_cons_of_entries_eq_nil hnil n m
      rw [stands?] at this
      simp [hu, this] at h

/-- A change at a place where no folder is, in a folder, to something with nothing below it. -/
theorem stands?_put {t u : FileTree} {m : Location} {n : Text} (hm : t.stands? m = some .folder)
    (hfree : t.stands? (m ++ [n]) ≠ some .folder) (hu : u.entries = []) (l : Location) :
    (t.put (m ++ [n]) u).stands? l = if l = m ++ [n] then some u.entry else t.stands? l := by
  induction m generalizing t l with
  | nil =>
    cases l with
    | nil => simpa [put, entry] using hm.symm
    | cons k l =>
      rw [List.nil_append] at hfree ⊢
      rw [put, put, stands?_cons, entries, lookup_insertEntry]
      by_cases hk : k = n
      · subst hk
        cases l with
        | nil => simp
        | cons k' l =>
          have hbelow : t.stands? (k :: k' :: l) = none := by
            by_contra hne
            have := stands?_eq_folder_of_append (t := t) (l := [k]) (List.cons_ne_nil k' l)
              (Option.isSome_iff_ne_none.mpr hne)
            exact hfree this
          simp [stands?_cons_of_entries_eq_nil hu, hbelow]
      · simp [hk, stands?_cons]
  | cons k m ih =>
    rw [stands?_cons] at hm
    cases hlook : t.entries.lookup k with
    | none => simp [hlook] at hm
    | some t' =>
      rw [hlook, Option.bind_some] at hm
      rw [List.cons_append, stands?_cons, hlook, Option.bind_some] at hfree
      rw [List.cons_append, put, hlook, Option.getD_some]
      cases l with
      | nil =>
        have hfolder : t.entry = .folder := by
          by_contra hne
          rw [entries_eq_nil hne] at hlook
          cases hlook
        rw [if_neg (by simp), stands?_nil, stands?_nil, hfolder]
        rfl
      | cons k' l =>
        rw [stands?_cons, entries, lookup_insertEntry, stands?_cons]
        by_cases hk : k' = k
        · subst hk
          rw [if_pos rfl, Option.bind_some, ih hm hfree, hlook]
          simp
        · simp [hk]

end FileTree

end PixelScale
