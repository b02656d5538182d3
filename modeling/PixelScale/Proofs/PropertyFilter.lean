import Mathlib.Data.List.Basic
import PixelScale.PropertyFilter

/-!
# What a property list says

The entries of a property list are globs, in which a star stands for any text. A filter does not
match globs: it sorts the entries by where their stars stand, drops those that say nothing, and
compares names with the start, the end, a part or the whole of a property. Both come to the same: a
property is converted if an entry asks for it and no entry bars it. So a list says what its entries
say, in whatever order and however often it has them, and a list that accepts everything at sight
need not be looked at further.

* `Fits`, `IsGlob`: globs, and those that say something.
* `Asks`, `Bars`: what an entry says of a property.
* `accepts_iff`: a filter accepts what an entry asks for and no entry bars.
* `accepts_ofList`: what a list says of a property.
-/

namespace PixelScale.PropertyFilter

open Text

/-! ## Globs -/

/-- The first text is a glob for the second one: a star stands for any text, every other character
for itself. -/
inductive Fits : Text → Text → Prop
  | nil : Fits [] []
  | star {p t : Text} (s : Text) : Fits p t → Fits ('*' :: p) (s ++ t)
  | char {c : Char} {p t : Text} : c ≠ '*' → Fits p t → Fits (c :: p) (c :: t)

/-- A glob that says something: without a `!`, and what is left of it is a name without stars if at
most one star at its start and at most one at its end are taken away. -/
def IsGlob (p : Text) : Prop :=
  '!' ∉ p ∧ ∃ i j name, i ≤ 1 ∧ j ≤ 1 ∧ name ≠ [] ∧ '*' ∉ name ∧
    p = List.replicate i '*' ++ name ++ List.replicate j '*'

/-- The entry asks for the property. -/
def Asks (entry property : Text) : Prop :=
  entry = ['*'] ∨ IsGlob entry ∧ Fits entry property

/-- The entry has a `!` in front and bars the property. -/
def Bars (entry property : Text) : Prop :=
  ∃ p, entry = '!' :: p ∧ IsGlob p ∧ Fits p property

section

variable {name p t : Text}

@[simp] theorem fits_nil_iff : Fits [] t ↔ t = [] := by
  constructor
  · intro h
    cases h
    rfl
  · rintro rfl
    exact .nil

@[simp] theorem fits_star_iff : Fits ('*' :: p) t ↔ ∃ s u, t = s ++ u ∧ Fits p u := by
  constructor
  · intro h
    cases h with
    | star s h => exact ⟨s, _, rfl, h⟩
    | char hc _ => exact absurd rfl hc
  · rintro ⟨s, u, rfl, h⟩
    exact .star s h

theorem fits_char_iff {c : Char} (hc : c ≠ '*') : Fits (c :: p) t ↔ ∃ u, t = c :: u ∧ Fits p u := by
  constructor
  · intro h
    cases h with
    | star _ _ => exact absurd rfl hc
    | char _ h => exact ⟨_, rfl, h⟩
  · rintro ⟨u, rfl, h⟩
    exact .char hc h

/-- A name in a glob stands for itself. -/
theorem fits_append_iff (hname : '*' ∉ name) :
    Fits (name ++ p) t ↔ ∃ u, t = name ++ u ∧ Fits p u := by
  induction name generalizing t with
  | nil => simp
  | cons c name ih =>
    obtain ⟨hc, hname⟩ := List.ne_and_not_mem_of_not_mem_cons hname
    rw [List.cons_append, fits_char_iff hc.symm]
    constructor
    · rintro ⟨u, rfl, h⟩
      exact (ih hname).mp h |>.imp fun v hv => ⟨by rw [hv.1]; rfl, hv.2⟩
    · rintro ⟨u, rfl, h⟩
      exact ⟨name ++ u, rfl, (ih hname).mpr ⟨u, rfl, h⟩⟩

theorem fits_name_iff (hname : '*' ∉ name) : Fits name t ↔ t = name := by
  have h := fits_append_iff (p := []) (t := t) hname
  rw [List.append_nil] at h
  simp [h]

end

/-! ## Shapes -/

/-- The glob that a name of a shape is taken from. -/
def Shape.glob : Shape → Text → Text
  | exact, name => name
  | starting, name => name ++ ['*']
  | ending, name => '*' :: name
  | containing, name => '*' :: (name ++ ['*'])

/-- A property is compared with a name just as the glob says. -/
theorem Shape.meets_iff (shape : Shape) {name property : Text} (hname : '*' ∉ name) :
    shape.meets name property = true ↔ Fits (shape.glob name) property := by
  have hall : ∀ u, Fits ['*'] u := fun u => by simp
  cases shape with
  | exact => rw [meets, glob, fits_name_iff hname, beq_iff_eq, eq_comm]
  | starting =>
    rw [meets, glob, fits_append_iff hname, List.isPrefixOf_iff_prefix]
    constructor
    · rintro ⟨u, rfl⟩
      exact ⟨u, rfl, hall u⟩
    · rintro ⟨u, rfl, -⟩
      exact ⟨u, rfl⟩
  | ending =>
    rw [meets, glob, fits_star_iff, List.isSuffixOf_iff_suffix]
    constructor
    · rintro ⟨s, rfl⟩
      exact ⟨s, name, rfl, (fits_name_iff hname).mpr rfl⟩
    · rintro ⟨s, u, rfl, hu⟩
      rw [(fits_name_iff hname).mp hu]
      exact ⟨s, rfl⟩
  | containing =>
    rw [meets, glob, fits_star_iff, occurs_iff]
    constructor
    · rintro ⟨s, u, rfl⟩
      exact ⟨s, name ++ u, List.append_assoc _ _ _, (fits_append_iff hname).mpr ⟨u, rfl, hall u⟩⟩
    · rintro ⟨s, v, rfl, hv⟩
      obtain ⟨u, rfl, -⟩ := (fits_append_iff hname).mp hv
      exact ⟨s, u, List.append_assoc _ _ _⟩

theorem stripStar?_eq_some_iff {t u : Text} : stripStar? t = some u ↔ t = u ++ ['*'] := by
  rw [stripStar?]
  constructor
  · intro h
    split at h
    · rename_i hlast
      obtain ⟨v, rfl⟩ := List.getLast?_eq_some_iff.mp hlast
      rw [List.dropLast_concat] at h
      cases h
      rfl
    · cases h
  · rintro rfl
    simp

theorem stripStar?_append {name : Text} (hne : name ≠ []) (hname : '*' ∉ name) (s : Text) :
    stripStar? (s ++ name) = none := by
  have hlast : (s ++ name).getLast? ≠ some '*' := by
    intro hlast
    rw [List.getLast?_append_of_ne_nil _ hne] at hlast
    exact hname (List.mem_of_getLast? hlast)
  rw [stripStar?, if_neg hlast]

/-- The shape of a glob is told by its stars, and a name without stars is left. -/
theorem shape?_eq_some_iff {p name : Text} {shape : Shape} :
    shape? p = some (shape, name) ↔ name ≠ [] ∧ '*' ∉ name ∧ p = shape.glob name := by
  constructor
  · intro h
    unfold shape? at h
    obtain ⟨hfound, hsays⟩ := Option.filter_eq_some_iff.mp h
    obtain ⟨hne, hname⟩ : name ≠ [] ∧ '*' ∉ name := by simpa using hsays
    refine ⟨hne, hname, ?_⟩
    split at hfound
    · split at hfound
      · obtain ⟨u, hu, heq⟩ := Option.map_eq_some_iff.mp hfound
        cases heq
        rw [stripStar?_eq_some_iff.mp hu]
        rfl
      · cases hfound
        rfl
    · split at hfound
      · rename_i hstrip
        cases hfound
        exact stripStar?_eq_some_iff.mp hstrip
      · cases hfound
        rfl
  · rintro ⟨hne, hname, rfl⟩
    obtain ⟨c, rest, rfl⟩ := List.exists_cons_of_ne_nil hne
    obtain ⟨hc, hrest⟩ := List.ne_and_not_mem_of_not_mem_cons hname
    have hbare := stripStar?_append hne hname []
    have hfront := stripStar?_append hne hname ['*']
    have hback := stripStar?_eq_some_iff.mpr (Eq.refl (c :: rest ++ ['*']))
    have hboth := stripStar?_eq_some_iff.mpr (Eq.refl ('*' :: c :: rest ++ ['*']))
    simp only [List.nil_append, List.cons_append] at hbare hfront hback hboth
    cases shape with
    | exact => simp [shape?, Shape.glob, hc, hrest, hc.symm, hbare]
    | starting => simp [shape?, Shape.glob, hc, hrest, hc.symm, hback]
    | ending => simp [shape?, Shape.glob, hc, hrest, hfront]
    | containing => simp [shape?, Shape.glob, hc, hrest, hback, hboth]

/-- A glob says something if it is that of a name of some shape. -/
theorem isGlob_iff {p : Text} :
    IsGlob p ↔ '!' ∉ p ∧ ∃ shape name, shape? p = some (shape, name) := by
  refine and_congr_right fun _ => ?_
  constructor
  · rintro ⟨i, j, name, hi, hj, hne, hname, rfl⟩
    have hshape : ∃ shape : Shape, List.replicate i '*' ++ name ++ List.replicate j '*' =
        shape.glob name := by
      rcases Nat.le_one_iff_eq_zero_or_eq_one.mp hi with rfl | rfl
      · rcases Nat.le_one_iff_eq_zero_or_eq_one.mp hj with rfl | rfl
        · exact ⟨.exact, by simp [Shape.glob]⟩
        · exact ⟨.starting, by simp [Shape.glob]⟩
      · rcases Nat.le_one_iff_eq_zero_or_eq_one.mp hj with rfl | rfl
        · exact ⟨.ending, by simp [Shape.glob]⟩
        · exact ⟨.containing, by simp [Shape.glob]⟩
    obtain ⟨shape, heq⟩ := hshape
    exact ⟨shape, name, shape?_eq_some_iff.mpr ⟨hne, hname, heq⟩⟩
  · rintro ⟨shape, name, h⟩
    obtain ⟨hne, hname, rfl⟩ := shape?_eq_some_iff.mp h
    cases shape with
    | exact => exact ⟨0, 0, name, by simp, by simp, hne, hname, by simp [Shape.glob]⟩
    | starting => exact ⟨0, 1, name, by simp, by simp, hne, hname, by simp [Shape.glob]⟩
    | ending => exact ⟨1, 0, name, by simp, by simp, hne, hname, by simp [Shape.glob]⟩
    | containing => exact ⟨1, 1, name, by simp, by simp, hne, hname, by simp [Shape.glob]⟩

/-! ## Entries -/

theorem ofText?_negated (p : Text) : Entry.ofText? ('!' :: p) =
    if p.contains '!' then none else (shape? p).map fun (shape, name) => .named true shape name :=
  rfl

theorem ofText?_plain {t : Text} (hstar : t ≠ ['*']) (hplain : ∀ p, t ≠ '!' :: p) :
    Entry.ofText? t =
      if t.contains '!' then none
      else (shape? t).map fun (shape, name) => .named false shape name := by
  unfold Entry.ofText?
  rw [if_neg hstar]
  split
  rename_i negated p heq
  split at heq
  · exact absurd rfl (hplain _)
  · cases heq
    rfl

/-- The name that is taken from a glob is compared just as the glob says. -/
theorem meets_shape?_iff {p property : Text} (hp : '!' ∉ p) :
    ((shape? p).any fun (shape, name) => shape.meets name property) = true ↔
      IsGlob p ∧ Fits p property := by
  rw [isGlob_iff, Option.any_eq_true]
  constructor
  · rintro ⟨⟨shape, name⟩, hshape, hmeets⟩
    obtain ⟨-, hname, rfl⟩ := shape?_eq_some_iff.mp hshape
    exact ⟨⟨hp, shape, name, hshape⟩, (shape.meets_iff hname).mp hmeets⟩
  · rintro ⟨⟨-, shape, name, hshape⟩, hfits⟩
    obtain ⟨-, hname, rfl⟩ := shape?_eq_some_iff.mp hshape
    exact ⟨(shape, name), hshape, (shape.meets_iff hname).mpr hfits⟩

theorem asksFor_ofText?_iff {t property : Text} :
    (Entry.ofText? t).any (·.asksFor property) = true ↔ Asks t property := by
  unfold Asks
  by_cases hstar : t = ['*']
  · subst hstar
    exact iff_of_true rfl (.inl rfl)
  rw [or_iff_right hstar]
  by_cases hnegated : ∃ p, t = '!' :: p
  · obtain ⟨p, rfl⟩ := hnegated
    refine iff_of_false ?_ fun h => h.1.1 List.mem_cons_self
    rw [ofText?_negated]
    split
    · simp
    · simp [Option.any_map, Entry.asksFor]
  · rw [ofText?_plain hstar (not_exists.mp hnegated)]
    split
    · rename_i hmark
      refine iff_of_false (by simp) fun h => h.1.1 (List.contains_iff_mem.mp hmark)
    · rename_i hmark
      rw [← meets_shape?_iff fun h => hmark (List.contains_iff_mem.mpr h), Option.any_map]
      rfl

theorem rulesOut_ofText?_iff {t property : Text} :
    (Entry.ofText? t).any (·.rulesOut property) = true ↔ Bars t property := by
  by_cases hnegated : ∃ p, t = '!' :: p
  · obtain ⟨p, rfl⟩ := hnegated
    have hbars : Bars ('!' :: p) property ↔ IsGlob p ∧ Fits p property := by
      simp [Bars]
    rw [hbars, ofText?_negated]
    split
    · rename_i hmark
      exact iff_of_false (by simp) fun h => h.1.1 (List.contains_iff_mem.mp hmark)
    · rename_i hmark
      rw [← meets_shape?_iff fun h => hmark (List.contains_iff_mem.mpr h), Option.any_map]
      rfl
  · refine iff_of_false ?_ fun ⟨p, hp, _⟩ => hnegated ⟨p, hp⟩
    by_cases hstar : t = ['*']
    · subst hstar
      exact Bool.false_ne_true
    · rw [ofText?_plain hstar (not_exists.mp hnegated)]
      split
      · simp
      · simp [Option.any_map, Entry.rulesOut]

/-! ## Lists -/

theorem any_entries_iff {asks : Entry → Bool} {P : Text → Prop}
    (h : ∀ t, (Entry.ofText? t).any asks = true ↔ P t) (list : List Text) :
    (ofList list).entries.any asks = true ↔ ∃ t ∈ list, P t := by
  rw [List.any_eq_true]
  constructor
  · rintro ⟨e, hmem, he⟩
    obtain ⟨t, ht, hentry⟩ := List.mem_filterMap.mp hmem
    exact ⟨t, ht, (h t).mp ((Option.any_eq_true _ _).mpr ⟨e, hentry, he⟩)⟩
  · rintro ⟨t, ht, hP⟩
    obtain ⟨e, hentry, he⟩ := (Option.any_eq_true _ _).mp ((h t).mpr hP)
    exact ⟨e, List.mem_filterMap.mpr ⟨t, ht, hentry⟩, he⟩

/-- A list that accepts everything at sight would do so if its entries were looked at. -/
theorem accepts_eq_accepts_entries (list : List Text) (property : Text) :
    (ofList list).accepts property = { ofList list with all := false }.accepts property := by
  cases hall : isAll list with
  | false => rw [ofList, hall]
  | true =>
    rw [show list = [['*']] from beq_iff_eq.mp hall]
    rfl

/-- A property is converted if an entry asks for it and none bars it. -/
theorem accepts_iff {list : List Text} {property : Text} :
    (ofList list).accepts property = true ↔
      (∃ e ∈ list, Asks e property) ∧ ¬ ∃ e ∈ list, Bars e property := by
  rw [accepts_eq_accepts_entries, accepts, Bool.false_or, Bool.and_eq_true, Bool.not_eq_true',
    ← Bool.not_eq_true, any_entries_iff fun _ => asksFor_ofText?_iff,
    any_entries_iff fun _ => rulesOut_ofText?_iff]

theorem not_asks_negated {p property : Text} : ¬ Asks ('!' :: p) property := by
  rintro (h | h)
  · cases h
  · exact h.1.1 List.mem_cons_self

/-- A list accepts just what its entries say. The order of the entries and repetitions do not
matter, accepting at sight changes nothing, and one more entry only adds properties, or only takes
some away if it has a `!` in front. -/
theorem accepts_ofList (list : List Text) (property : Text) :
    ((ofList list).accepts property = true ↔
      (∃ e ∈ list, Asks e property) ∧ ¬ ∃ e ∈ list, Bars e property) ∧
    (∀ list' : List Text, (∀ e, e ∈ list' ↔ e ∈ list) →
      (ofList list').accepts property = (ofList list).accepts property) ∧
    (ofList list).accepts property = { ofList list with all := false }.accepts property ∧
    (∀ e : Text, e.head? ≠ some '!' → (ofList list).accepts property = true →
      (ofList (e :: list)).accepts property = true) ∧
    ∀ p : Text, (ofList (('!' :: p) :: list)).accepts property = true →
      (ofList list).accepts property = true := by
  refine ⟨accepts_iff, fun list' hsame => ?same, accepts_eq_accepts_entries list property,
    fun e he h => ?more, fun p h => ?fewer⟩
  case same =>
    rw [Bool.eq_iff_iff, accepts_iff, accepts_iff]
    simp only [hsame]
  case more =>
    obtain ⟨⟨a, ha, hasks⟩, hbars⟩ := accepts_iff.mp h
    refine accepts_iff.mpr ⟨⟨a, List.mem_cons_of_mem _ ha, hasks⟩, ?_⟩
    rintro ⟨b, hb, hbar⟩
    rcases List.mem_cons.mp hb with rfl | hb
    · obtain ⟨p, rfl, -⟩ := hbar
      exact he rfl
    · exact hbars ⟨b, hb, hbar⟩
  case fewer =>
    obtain ⟨⟨a, ha, hasks⟩, hbars⟩ := accepts_iff.mp h
    rcases List.mem_cons.mp ha with rfl | ha
    · exact absurd hasks not_asks_negated
    · refine accepts_iff.mpr ⟨⟨a, ha, hasks⟩, ?_⟩
      rintro ⟨b, hb, hbar⟩
      exact hbars ⟨b, List.mem_cons_of_mem _ hb, hbar⟩

-- a star inside of a name and a second `!` make an entry that says nothing
example :
    (ofList ["!f*t".toList, "!!font".toList, "font*".toList]).accepts "font-size".toList = true ∧
      (ofList ["f*t".toList, "!*".toList, "**".toList]).accepts "font-size".toList = false := by
  decide

end PixelScale.PropertyFilter
