import Mathlib.Data.List.Basic
import PixelScale.Options.Renaming

/-!
# What renaming does to the fields of a record

Older names are replaced one after another, and two of them by the same present name, so a later
replacement can undo an earlier one. It all comes to one renaming at once: no older name is the
present name of another one, so what a present name gets is the latest of its older names that the
record had, or else what it had itself. Empty white lists are no exception to this. They are taken
away in front of the renaming, which then has nothing left to put in the place of the star.

* `Json.lookup_insertField`, `Json.lookup_eraseField`: fields after one change.
* `sources`: the older names of a field, the latest one first.
* `lookup_renamed`: what a field gets.
* `Renames`: the fields of a record under their present names.
* `renames_renamed`: renaming makes these fields, and does nothing the second time.
-/

namespace PixelScale

namespace Json

variable {name k : Text} {fs : List (Text × Json)}

theorem lookup_cons_ite (n : Text) (w : Json) :
    ((n, w) :: fs).lookup k = if k = n then some w else fs.lookup k := by
  rw [List.lookup_cons]
  by_cases hk : k = n
  · simp [hk]
  · rw [if_neg hk, beq_eq_false_iff_ne.mpr hk]

theorem lookup_insertField (v : Json) :
    (insertField name v fs).lookup k = if k = name then some v else fs.lookup k := by
  induction fs with
  | nil => exact lookup_cons_ite name v
  | cons f fs ih =>
    obtain ⟨n, w⟩ := f
    rw [insertField]
    split
    · rename_i hn
      subst hn
      rw [lookup_cons_ite, lookup_cons_ite]
      by_cases hk : k = name <;> simp only [hk, if_true, if_false]
    · rename_i hn
      split
      · rw [lookup_cons_ite]
      · rw [lookup_cons_ite, ih, lookup_cons_ite]
        by_cases hk : k = n
        · subst hk
          rw [if_pos rfl, if_neg (Ne.symm hn), if_pos rfl]
        · rw [if_neg hk, if_neg hk]

theorem lookup_eraseField :
    (eraseField name fs).lookup k = if k = name then none else fs.lookup k := by
  induction fs with
  | nil => simp [eraseField]
  | cons f fs ih =>
    obtain ⟨n, w⟩ := f
    rw [eraseField] at ih ⊢
    by_cases hn : n = name
    · subst hn
      rw [List.filter_cons_of_neg (by simp), ih, lookup_cons_ite]
      by_cases hk : k = n <;> simp only [hk, if_true, if_false]
    · rw [List.filter_cons_of_pos (by simpa using hn), lookup_cons_ite, ih, lookup_cons_ite]
      by_cases hk : k = n
      · subst hk
        rw [if_pos rfl, if_neg hn, if_pos rfl]
      · rw [if_neg hk, if_neg hk]

theorem not_mem_names_iff : k ∉ fs.map Prod.fst ↔ fs.lookup k = none := by
  rw [List.lookup_eq_none_iff]
  constructor
  · intro h f hf
    rw [bne_iff_ne]
    rintro rfl
    exact h (List.mem_map_of_mem hf)
  · intro h hmem
    obtain ⟨f, hf, rfl⟩ := List.mem_map.mp hmem
    exact bne_iff_ne.mp (h f hf) rfl

end Json

namespace Renaming

open Json

/-! ## One name -/

theorem lookup_replaceName {fs : Fields} {older present k : Text} (hne : older ≠ present) :
    (replaceName fs older present).lookup k =
      if k = older then none
      else if k = present then (fs.lookup older).or (fs.lookup present) else fs.lookup k := by
  unfold replaceName
  cases holder : fs.lookup older with
  | none =>
    dsimp only
    split
    · rename_i hk
      rw [hk]
      exact holder
    · split
      · rename_i hk
        rw [hk, Option.none_or]
      · rfl
  | some v =>
    dsimp only
    rw [lookup_insertField, lookup_eraseField, Option.some_or]
    by_cases hk : k = older
    · rw [if_pos hk, if_neg (hk ▸ hne), if_pos hk]
    · rw [if_neg hk, if_neg hk]

theorem replaceName_eq_self {fs : Fields} {older : Text} (present : Text)
    (h : fs.lookup older = none) : replaceName fs older present = fs := by
  rw [replaceName, h]

/-! ## All names at once -/

/-- The older names that are replaced by the name `k`, the latest one first. -/
def sources (ps : List (Text × Text)) (k : Text) : List Text :=
  ((ps.filter fun p => p.2 = k).map Prod.fst).reverse

theorem sources_cons (p : Text × Text) (ps : List (Text × Text)) (k : Text) :
    sources (p :: ps) k = sources ps k ++ if p.2 = k then [p.1] else [] := by
  rw [sources, List.filter_cons]
  by_cases hk : p.2 = k <;> simp [hk, sources]

theorem mem_sources {ps : List (Text × Text)} {k older : Text} :
    older ∈ sources ps k ↔ (older, k) ∈ ps := by
  simp [sources]

/-- The value that the first of some names has. -/
def first? (fs : Fields) (ks : List Text) : Option Json := ks.findSome? fun k => fs.lookup k

@[simp] theorem first?_nil (fs : Fields) : first? fs [] = none := rfl

@[simp] theorem first?_cons (fs : Fields) (k : Text) (ks : List Text) :
    first? fs (k :: ks) = (fs.lookup k).or (first? fs ks) := by
  rw [first?, List.findSome?_cons]
  cases fs.lookup k <;> rfl

theorem first?_append (fs : Fields) (ks ls : List Text) :
    first? fs (ks ++ ls) = (first? fs ks).or (first? fs ls) := List.findSome?_append

theorem first?_congr {fs gs : Fields} {ks : List Text} (h : ∀ k ∈ ks, fs.lookup k = gs.lookup k) :
    first? fs ks = first? gs ks := by
  induction ks with
  | nil => rfl
  | cons k ks ih =>
    rw [first?_cons, first?_cons, h k List.mem_cons_self,
      ih fun l hl => h l (List.mem_cons_of_mem _ hl)]

theorem first?_eq_none_iff {fs : Fields} {ks : List Text} :
    first? fs ks = none ↔ ∀ k ∈ ks, fs.lookup k = none := List.findSome?_eq_none_iff

/-- Names that can be replaced at once: none is replaced twice, and none is the present name of
another one. -/
structure Separate (ps : List (Text × Text)) : Prop where
  nodup : (ps.map Prod.fst).Nodup
  apart : ∀ p ∈ ps, ∀ q ∈ ps, p.1 ≠ q.2

/-- Replacing names one after another comes to replacing them at once. -/
theorem lookup_foldl_replaceName {ps : List (Text × Text)} (h : Separate ps) (fs : Fields)
    (k : Text) :
    (ps.foldl (fun fs (older, present) => replaceName fs older present) fs).lookup k =
      if k ∈ ps.map Prod.fst then none else (first? fs (sources ps k)).or (fs.lookup k) := by
  induction ps generalizing fs with
  | nil => rfl
  | cons p ps ih =>
    obtain ⟨older, present⟩ := p
    obtain ⟨hfresh, hnodup⟩ := List.nodup_cons.mp h.nodup
    have hne : older ≠ present := h.apart _ List.mem_cons_self _ List.mem_cons_self
    have hrest : Separate ps := ⟨hnodup, fun p hp q hq =>
      h.apart p (List.mem_cons_of_mem _ hp) q (List.mem_cons_of_mem _ hq)⟩
    have hlater : first? (replaceName fs older present) (sources ps k) =
        first? fs (sources ps k) := by
      refine first?_congr fun o ho => ?_
      have hmem := mem_sources.mp ho
      have holder : o ≠ older := by
        rintro rfl
        exact hfresh (List.mem_map.mpr ⟨_, hmem, rfl⟩)
      have hpresent : o ≠ present :=
        h.apart _ (List.mem_cons_of_mem _ hmem) _ List.mem_cons_self
      rw [lookup_replaceName hne, if_neg holder, if_neg hpresent]
    rw [List.foldl_cons, ih hrest, List.map_cons, hlater, lookup_replaceName hne, sources_cons,
      first?_append]
    by_cases hk : k ∈ ps.map Prod.fst
    · rw [if_pos hk, if_pos (List.mem_cons_of_mem _ hk)]
    · rw [if_neg hk]
      by_cases holder : k = older
      · subst holder
        rw [if_pos rfl, if_pos List.mem_cons_self, Option.or_none, first?_eq_none_iff]
        intro o ho
        exact absurd rfl (h.apart _ List.mem_cons_self _
          (List.mem_cons_of_mem _ (mem_sources.mp ho)))
      · have hnone : k ∉ older :: ps.map Prod.fst := List.not_mem_cons_of_ne_of_not_mem holder hk
        rw [if_neg holder, if_neg hnone, Option.or_assoc]
        by_cases hpresent : k = present
        · rw [if_pos hpresent, if_pos hpresent.symm, first?_cons, first?_nil, Option.or_none,
            hpresent]
        · rw [if_neg hpresent, if_neg (Ne.symm hpresent), first?_nil, Option.none_or]

theorem separate_names : Separate names := ⟨by decide, by decide⟩

theorem mem_names_of_whiteList : ∀ n ∈ whiteLists, (n, propList) ∈ names := by decide

/-- The fields in front of the renaming. -/
def starred (fs : Fields) : Fields := if acceptsAll fs then withStar fs else fs

/-- What a field gets: the value of the latest of its older names, or else its own. -/
theorem lookup_renamed (fs : Fields) (k : Text) :
    (renamed fs).lookup k =
      if k ∈ names.map Prod.fst then none
      else (first? (starred fs) (sources names k)).or ((starred fs).lookup k) :=
  lookup_foldl_replaceName separate_names (starred fs) k

/-! ## The white lists -/

/-- An empty white list stands for all properties, there being no property list. -/
def IsStarred (fs : Fields) : Prop :=
  fs.lookup propList = none ∧
    ∃ n ∈ whiteLists, fs.lookup n = some (.array []) ∨ fs.lookup n = some (.string [])

theorem acceptsAll_iff {fs : Fields} : acceptsAll fs = true ↔ IsStarred fs := by
  have hempty : ∀ v, isEmptyList v = true ↔ v = .array [] ∨ v = .string [] := by
    intro v
    cases v <;> simp [isEmptyList]
  simp only [acceptsAll, IsStarred, Bool.and_eq_true, List.any_eq_true, Option.any_eq_true, hempty,
    Option.isNone_iff_eq_none]
  rw [and_comm]
  refine and_congr_right fun _ => exists_congr fun n => and_congr_right fun _ => ?_
  constructor
  · rintro ⟨v, hv, rfl | rfl⟩
    · exact .inl hv
    · exact .inr hv
  · rintro (hv | hv)
    · exact ⟨_, hv, .inl rfl⟩
    · exact ⟨_, hv, .inr rfl⟩

theorem not_isStarred {fs : Fields} (h : ∀ n ∈ whiteLists, fs.lookup n = none) :
    ¬ IsStarred fs := by
  rintro ⟨-, n, hn, hv⟩
  rw [h n hn] at hv
  rcases hv with hv | hv <;> cases hv

theorem lookup_withStar (fs : Fields) (k : Text) :
    (withStar fs).lookup k =
      if k = propList then some (.array [.string ['*']])
      else if k ∈ whiteLists then none else fs.lookup k := by
  have herase : (whiteLists.foldr eraseField fs).lookup k =
      if k ∈ whiteLists then none else fs.lookup k := by
    simp only [whiteLists, List.foldr_cons, List.foldr_nil, lookup_eraseField, List.mem_cons,
      List.not_mem_nil, or_false]
    by_cases h₁ : k = "prop_white_list".toList
    · rw [if_pos h₁, if_pos (.inl h₁)]
    · by_cases h₂ : k = "propWhiteList".toList
      · rw [if_neg h₁, if_pos h₂, if_pos (.inr h₂)]
      · rw [if_neg h₁, if_neg h₂, if_neg (not_or.mpr ⟨h₁, h₂⟩)]
  rw [withStar, lookup_insertField, herase]

/-! ## Records under their present names -/

/-- The fields `r` are the fields `m` under their present names. -/
structure Renames (m r : Fields) : Prop where
  /-- no older name is left -/
  older : ∀ p ∈ names, p.1 ∉ r.map Prod.fst
  /-- other fields stay as they are -/
  other : ∀ k, (∀ p ∈ names, k ≠ p.1 ∧ k ≠ p.2) → r.lookup k = m.lookup k
  /-- of an older and a present name the older one counts -/
  present : ∀ p ∈ names, p.2 ≠ propList → r.lookup p.2 = (m.lookup p.1).or (m.lookup p.2)
  star : IsStarred m → r.lookup propList = some (.array [.string ['*']])
  /-- of the white lists the later one counts, and either counts more than a property list -/
  propList : ¬ IsStarred m → r.lookup propList =
    (m.lookup "propWhiteList".toList).or
      ((m.lookup "prop_white_list".toList).or (m.lookup propList))
  /-- a field without any of its names is not there -/
  absent : ∀ p ∈ names, (∀ q ∈ names, q.2 = p.2 → m.lookup q.1 = none) → m.lookup p.2 = none →
    r.lookup p.2 = none

theorem lookup_starred_of_ne {fs : Fields} {k : Text} (hlist : k ≠ propList)
    (hwhite : k ∉ whiteLists) : (starred fs).lookup k = fs.lookup k := by
  unfold starred
  split
  · rw [lookup_withStar, if_neg hlist, if_neg hwhite]
  · rfl

/-- Fields without older names are not renamed. -/
theorem renamed_eq_self {fs : Fields} (h : ∀ p ∈ names, fs.lookup p.1 = none) :
    renamed fs = fs := by
  have hplain : ¬ acceptsAll fs = true :=
    acceptsAll_iff.not.mpr (not_isStarred fun n hn => h (n, propList) (mem_names_of_whiteList n hn))
  have hfold : ∀ ps : List (Text × Text), (∀ p ∈ ps, fs.lookup p.1 = none) →
      ps.foldl (fun fs (older, present) => replaceName fs older present) fs = fs := by
    intro ps hps
    induction ps with
    | nil => rfl
    | cons p ps ih =>
      have hhead := replaceName_eq_self p.2 (hps p List.mem_cons_self)
      change ps.foldl _ (replaceName fs p.1 p.2) = fs
      rw [hhead]
      exact ih fun q hq => hps q (List.mem_cons_of_mem _ hq)
  rw [renamed, if_neg hplain]
  exact hfold names h

theorem lookup_renamed_older (fs : Fields) {p : Text × Text} (hp : p ∈ names) :
    (renamed fs).lookup p.1 = none := by
  rw [lookup_renamed, if_pos (List.mem_map_of_mem hp)]

/-- What a field gets that has never had another name. -/
theorem lookup_renamed_other (m : Fields) {k : Text} (hk : ∀ p ∈ names, k ≠ p.1 ∧ k ≠ p.2) :
    (renamed m).lookup k = m.lookup k := by
  have holder : k ∉ names.map Prod.fst := by
    intro hmem
    obtain ⟨p, hp, rfl⟩ := List.mem_map.mp hmem
    exact (hk p hp).1 rfl
  have hsources : sources names k = [] := by
    refine List.eq_nil_iff_forall_not_mem.mpr fun o ho => ?_
    exact (hk _ (mem_sources.mp ho)).2 rfl
  have hlist : k ≠ propList := (hk _ (mem_names_of_whiteList _ List.mem_cons_self)).2
  have hwhite : k ∉ whiteLists := fun hmem => (hk _ (mem_names_of_whiteList k hmem)).1 rfl
  rw [lookup_renamed, if_neg holder, hsources, first?_nil, Option.none_or,
    lookup_starred_of_ne hlist hwhite]

/-- What a field gets that has one older name. -/
theorem lookup_renamed_present (m : Fields) {p : Text × Text} (hp : p ∈ names)
    (hne : p.2 ≠ propList) : (renamed m).lookup p.2 = (m.lookup p.1).or (m.lookup p.2) := by
  have hfacts : ∀ p ∈ names, p.2 ≠ propList → p.2 ∉ names.map Prod.fst ∧
      sources names p.2 = [p.1] ∧ p.1 ≠ propList ∧ p.1 ∉ whiteLists ∧ p.2 ∉ whiteLists := by
    decide
  obtain ⟨hnone, hsources, hlist, hwhite, hwhite'⟩ := hfacts p hp hne
  rw [lookup_renamed, if_neg hnone, hsources, first?_cons, first?_nil, Option.or_none,
    lookup_starred_of_ne hlist hwhite, lookup_starred_of_ne hne hwhite']

/-- What the property list gets, which has two older names. -/
theorem lookup_renamed_propList (m : Fields) :
    (renamed m).lookup propList =
      ((starred m).lookup "propWhiteList".toList).or
        (((starred m).lookup "prop_white_list".toList).or ((starred m).lookup propList)) := by
  have hnone : propList ∉ names.map Prod.fst := by decide
  have hsources : sources names propList =
      ["propWhiteList".toList, "prop_white_list".toList] := by decide
  rw [lookup_renamed, if_neg hnone, hsources, first?_cons, first?_cons, first?_nil,
    Option.or_none, Option.or_assoc]

/-- The fields of a record are renamed at once and nothing else becomes of them. A second renaming
finds nothing to do. -/
theorem renames_renamed (m : Fields) : Renames m (renamed m) ∧ renamed (renamed m) = renamed m := by
  have hplain : ¬ IsStarred m → starred m = m := fun h => if_neg (acceptsAll_iff.not.mpr h)
  refine ⟨⟨?older, fun k => lookup_renamed_other m, fun p => lookup_renamed_present m, ?star,
    ?propList, ?absent⟩, ?again⟩
  case older =>
    intro p hp
    exact not_mem_names_iff.mpr (lookup_renamed_older m hp)
  case star =>
    intro h
    have hstar : starred m = withStar m := if_pos (acceptsAll_iff.mpr h)
    rw [lookup_renamed_propList, hstar, lookup_withStar, lookup_withStar, lookup_withStar]
    rfl
  case propList =>
    intro h
    rw [lookup_renamed_propList, hplain h]
  case absent =>
    intro p hp holder hnone
    by_cases hp' : p.2 = propList
    · have hwhite : ∀ n ∈ whiteLists, m.lookup n = none :=
        fun n hn => holder (n, propList) (mem_names_of_whiteList n hn) hp'.symm
      have hfirst : m.lookup "prop_white_list".toList = none := hwhite _ List.mem_cons_self
      have hsecond : m.lookup "propWhiteList".toList = none :=
        hwhite _ (List.mem_cons_of_mem _ List.mem_cons_self)
      rw [hp'] at hnone ⊢
      rw [lookup_renamed_propList, hplain (not_isStarred hwhite), hfirst, hsecond, hnone]
      rfl
    · rw [lookup_renamed_present m hp hp', holder p hp rfl, hnone]
      rfl
  case again =>
    exact renamed_eq_self fun p hp => lookup_renamed_older m hp

-- a property list is there, so the empty white list is none that stands for all properties
example :
    (renamed [("propList".toList, .array [.string "font".toList]),
      ("propWhiteList".toList, .array [])]).lookup propList = some (.array []) := rfl

end Renaming

end PixelScale
