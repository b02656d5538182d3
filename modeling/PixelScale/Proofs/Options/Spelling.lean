import PixelScale.Proofs.Lists
import PixelScale.Proofs.Options.Coding

/-!
# What a record that was read has from which field

A field is looked up twice on its way into a record: renaming moves it to its present name, and
reading takes it for the option that has this name. Both steps keep every field as long as no option
is spelled twice. Renaming puts a star in place of an empty white list and leaves the other values
alone; reading stops at a name that it does not know, and sets the option that the field is for and
no other one.

* `Renaming.exists_lookup_renamed`: where renaming moves a field to, and what becomes of its value.
* `Field.spellings`: the names under which an option is read.
* `Record.reads_of_ofFields`: what the options of a record that was read have been set by.
-/

namespace PixelScale

namespace Renaming

open Json

/-! ## Where a field is moved to -/

/-- A name under which a field is moved to the name `l`, or stays there. -/
def StandsFor (k l : Text) : Prop := k = l ∨ (k, l) ∈ names

/-- What renaming makes of the value of a field that is alone in spelling its option. -/
def meant (k : Text) (v : Json) : Json :=
  if k ∈ whiteLists ∧ isEmptyList v = true then .array [.string ['*']] else v

theorem isEmptyList_iff {v : Json} : isEmptyList v = true ↔ v = .array [] ∨ v = .string [] := by
  cases v <;> simp [isEmptyList]

theorem whiteList_of_names {k : Text} (h : (k, propList) ∈ names) : k ∈ whiteLists := by
  have hall : ∀ p ∈ names, p.2 = propList → p.1 ∈ whiteLists := by decide
  exact hall _ h rfl

theorem standsFor_propList {k : Text} (h : StandsFor k propList) :
    k = "propWhiteList".toList ∨ k = "prop_white_list".toList ∨ k = propList := by
  rcases h with rfl | h
  · exact .inr (.inr rfl)
  · rcases List.mem_pair.mp (whiteList_of_names h) with rfl | rfl
    · exact .inr (.inl rfl)
    · exact .inl rfl

theorem lookup_renamed_star {m : Fields} (h : IsStarred m) :
    (renamed m).lookup propList = some (.array [.string ['*']]) := by
  have hstar : starred m = withStar m := if_pos (acceptsAll_iff.mpr h)
  rw [lookup_renamed_propList, hstar, lookup_withStar, lookup_withStar, lookup_withStar]
  rfl

theorem lookup_renamed_plain {m : Fields} (h : ¬ IsStarred m) :
    (renamed m).lookup propList =
      (m.lookup "propWhiteList".toList).or
        ((m.lookup "prop_white_list".toList).or (m.lookup propList)) := by
  rw [lookup_renamed_propList, show starred m = m from if_neg (acceptsAll_iff.not.mpr h)]

/-- No other field stands for the name `l` than `k`. -/
def Alone (m : Fields) (k l : Text) : Prop :=
  ∀ k', StandsFor k' l → k' ≠ k → m.lookup k' = none

theorem Alone.unique {m : Fields} {k k' l : Text} {v w : Json} (halone : Alone m k l)
    (h : m.lookup k = some v) (h' : m.lookup k' = some w) (hk' : StandsFor k' l) : w = v := by
  by_cases heq : k' = k
  · subst heq
    exact Option.some.inj (h'.symm.trans h)
  · rw [halone k' hk' heq] at h'
    cases h'

theorem isStarred_of_meant {m : Fields} {k : Text} {v : Json} (h : m.lookup k = some v)
    (hk : k ∈ whiteLists ∧ isEmptyList v = true) (halone : Alone m k propList) : IsStarred m := by
  have hne : propList ≠ k := by
    rintro rfl
    exact absurd hk.1 (by decide)
  refine ⟨halone _ (.inl rfl) hne, k, hk.1, ?_⟩
  rw [h, Option.some.injEq, Option.some.injEq]
  exact isEmptyList_iff.mp hk.2

theorem exists_lookup_propList {m : Fields} {k : Text} {v : Json} (hk : StandsFor k propList)
    (h : m.lookup k = some v) :
    ∃ w, (renamed m).lookup propList = some w ∧ (Alone m k propList → w = meant k v) := by
  by_cases hstar : IsStarred m
  · refine ⟨_, lookup_renamed_star hstar, fun halone => ?_⟩
    obtain ⟨-, n, hn, hempty⟩ := hstar
    obtain rfl : n = k := by
      by_contra hne
      rw [halone n (.inr (mem_names_of_whiteList n hn)) hne] at hempty
      rcases hempty with hempty | hempty <;> cases hempty
    rw [h, Option.some.injEq, Option.some.injEq] at hempty
    rw [meant, if_pos ⟨hn, isEmptyList_iff.mpr hempty⟩]
  · rw [lookup_renamed_plain hstar]
    have hmeant : Alone m k propList → meant k v = v := fun halone =>
      if_neg fun hempty => hstar (isStarred_of_meant h hempty halone)
    cases hsecond : m.lookup "propWhiteList".toList with
    | some w =>
      refine ⟨w, rfl, fun halone => ?_⟩
      rw [hmeant halone, halone.unique h hsecond (.inr (by decide))]
    | none =>
      cases hfirst : m.lookup "prop_white_list".toList with
      | some w =>
        refine ⟨w, rfl, fun halone => ?_⟩
        rw [hmeant halone, halone.unique h hfirst (.inr (by decide))]
      | none =>
        rcases standsFor_propList hk with rfl | rfl | rfl
        · rw [hsecond] at h
          cases h
        · rw [hfirst] at h
          cases h
        · exact ⟨v, h, fun halone => (hmeant halone).symm⟩

/-- A field is moved to a name that it stands for. Its value stays if the field is alone there, but
for an empty white list. -/
theorem exists_lookup_renamed {m : Fields} {k : Text} {v : Json} (h : m.lookup k = some v) :
    ∃ l w, StandsFor k l ∧ (renamed m).lookup l = some w ∧ (Alone m k l → w = meant k v) := by
  by_cases hlist : StandsFor k propList
  · obtain ⟨w, hw, hmeant⟩ := exists_lookup_propList hlist h
    exact ⟨propList, w, hlist, hw, hmeant⟩
  · have hwhite : k ∉ whiteLists := fun hmem => hlist (.inr (mem_names_of_whiteList k hmem))
    have hmeant : meant k v = v := if_neg fun hempty => hwhite hempty.1
    rw [hmeant]
    by_cases holder : ∃ l, (k, l) ∈ names
    · obtain ⟨l, hl⟩ := holder
      have hne : l ≠ propList := by
        rintro rfl
        exact hlist (.inr hl)
      refine ⟨l, v, .inr hl, ?_, fun _ => rfl⟩
      rw [lookup_renamed_present m hl hne, h]
      rfl
    · by_cases hpresent : ∃ k', (k', k) ∈ names
      · obtain ⟨k', hk'⟩ := hpresent
        have hne : k ≠ propList := fun heq => hlist (.inl heq)
        have hlookup := lookup_renamed_present m hk' hne
        cases hother : m.lookup k' with
        | none =>
          rw [hother, h] at hlookup
          exact ⟨k, v, .inl rfl, hlookup, fun _ => rfl⟩
        | some w =>
          rw [hother] at hlookup
          exact ⟨k, w, .inl rfl, hlookup, fun halone => halone.unique h hother (.inr hk')⟩
      · refine ⟨k, v, .inl rfl, ?_, fun _ => rfl⟩
        rw [lookup_renamed_other m fun p hp => ?_, h]
        constructor
        · rintro rfl
          exact holder ⟨_, hp⟩
        · rintro rfl
          exact hpresent ⟨_, hp⟩

/-- Where no field is moved to nothing is. -/
theorem lookup_renamed_eq_none {m : Fields} {l : Text}
    (h : ∀ k, StandsFor k l → m.lookup k = none) : (renamed m).lookup l = none := by
  have hown : m.lookup l = none := h l (.inl rfl)
  by_cases hlist : l = propList
  · subst hlist
    have hwhite : ∀ n ∈ whiteLists, m.lookup n = none :=
      fun n hn => h n (.inr (mem_names_of_whiteList n hn))
    rw [lookup_renamed_plain (not_isStarred hwhite), hown, h _ (.inr (by decide)),
      h _ (.inr (by decide))]
    rfl
  · by_cases holder : ∃ k, (l, k) ∈ names
    · obtain ⟨k, hk⟩ := holder
      exact lookup_renamed_older m hk
    · by_cases hpresent : ∃ k, (k, l) ∈ names
      · obtain ⟨k, hk⟩ := hpresent
        rw [lookup_renamed_present m hk hlist, hown, h k (.inr hk)]
        rfl
      · rw [lookup_renamed_other m fun p hp => ?_, hown]
        constructor
        · rintro rfl
          exact holder ⟨_, hp⟩
        · rintro rfl
          exact hpresent ⟨_, hp⟩

end Renaming

namespace Field

/-- The names under which an option is read: those of its field, and older ones of these. -/
def spellings (f : Field) : List Text :=
  f.names ++ (Renaming.names.filter fun p => p.2 ∈ f.names).map Prod.fst

theorem mem_spellings {f : Field} {k : Text} :
    k ∈ f.spellings ↔ ∃ l ∈ f.names, Renaming.StandsFor k l := by
  simp only [spellings, List.mem_append, List.mem_map, List.mem_filter, decide_eq_true_eq,
    Renaming.StandsFor]
  constructor
  · rintro (h | ⟨⟨k, l⟩, ⟨hnames, hl⟩, rfl⟩)
    · exact ⟨k, h, .inl rfl⟩
    · exact ⟨l, hl, .inr hnames⟩
  · rintro ⟨l, hl, rfl | hnames⟩
    · exact .inl hl
    · exact .inr ⟨(k, l), ⟨hnames, hl⟩, rfl⟩

theorem mem_names_of_ofName? {f : Field} {l : Text} (h : ofName? l = some f) : l ∈ f.names := by
  simpa using List.find?_some h

end Field

namespace Record

open Json

/-! ## What sets an option -/

section

variable (s r t : Record) (f g : Field)

theorem take_self : s.take f s = s := by
  cases f <;> rfl

theorem take_of_take : r.take f (t.take f s) = r.take f s := by
  cases f <;> rfl

theorem take_take_of_ne (h : f ≠ g) : (s.take f r).take g t = (s.take g t).take f r := by
  cases f <;> cases g <;> first | rfl | exact absurd rfl h

end

/-- The value `v` is read as what the record says of the option. -/
def Reads (r : Record) (v : Json) : Field → Prop
  | .unit => unlessNull (readBy asText) v = .ok r.unit
  | .rootValue => unlessNull (readBy asFloat) v = .ok r.rootValue
  | .unitPrecision => unlessNull (readBy asBounded) v = .ok r.unitPrecision
  | .selectorBlackList => unlessNull (listOf MatchRule.ofJson) v = .ok r.selectorBlackList
  | .propList => unlessNull (listOf (readBy asText)) v = .ok r.propList
  | .replace => unlessNull (readBy asBool) v = .ok r.replace
  | .mediaQuery => unlessNull (readBy asBool) v = .ok r.mediaQuery
  | .minPixelValue => unlessNull (readBy asFloat) v = .ok r.minPixelValue
  | .excludeFiles => unlessNull (listOf MatchRule.ofJson) v = .ok r.excludeFiles

theorem reads_take {s r : Record} {v : Json} {f : Field} :
    (s.take f r).Reads v f ↔ r.Reads v f := by
  cases f <;> rfl

/-- A field sets its option and no other one. -/
theorem set_eq_ok {s s' : Record} {f : Field} {v : Json} (h : s.set f v = .ok s') :
    s'.Reads v f ∧ s.take f s' = s' := by
  cases f <;>
  · obtain ⟨a, hread, ha⟩ := bind_eq_ok h
    cases ha
    exact ⟨hread, rfl⟩

/-! ## All fields -/

/-- The fields that were read name options, a different one each, which are what they were read as.
Options that no field names stay as they were. -/
theorem reads_of_setAll {used : List Field} {s r : Record} {fs : List (Text × Json)}
    (h : setAll used s fs = .ok r) :
    (∀ p ∈ fs, ∃ f ∉ used, Field.ofName? p.1 = some f ∧ r.Reads p.2 f) ∧
      ∀ f, (∀ p ∈ fs, Field.ofName? p.1 ≠ some f) → r.take f s = r := by
  induction fs generalizing used s with
  | nil =>
    cases h
    exact ⟨by simp, fun f _ => take_self _ f⟩
  | cons p fs ih =>
    obtain ⟨name, v⟩ := p
    rw [setAll] at h
    cases hname : Field.ofName? name with
    | none => simp [hname] at h
    | some f =>
      simp only [hname] at h
      by_cases hf : f ∈ used
      · simp [hf] at h
      · rw [if_neg hf] at h
        obtain ⟨s₁, hset, hrest⟩ := bind_eq_ok h
        obtain ⟨hreads, htake⟩ := set_eq_ok hset
        obtain ⟨hnamed, hunnamed⟩ := ih hrest
        constructor
        · rintro q hq
          rcases List.mem_cons.mp hq with rfl | hq
          · -- no later field names the option again, since it counts as used by now
            have hlast : r.take f s₁ = r := by
              refine hunnamed f fun q hq heq => ?_
              obtain ⟨g, hg, hgname, -⟩ := hnamed q hq
              rw [heq] at hgname
              cases hgname
              exact hg List.mem_cons_self
            refine ⟨f, hf, hname, ?_⟩
            rw [← hlast]
            exact reads_take.mpr hreads
          · obtain ⟨g, hg, hgname, hgreads⟩ := hnamed q hq
            exact ⟨g, fun hmem => hg (List.mem_cons_of_mem _ hmem), hgname, hgreads⟩
        · intro g hg
          have hne : f ≠ g := by
            rintro rfl
            exact hg _ List.mem_cons_self hname
          have hkept : s₁.take g s = s₁ := by
            calc s₁.take g s = (s.take f s₁).take g s := by rw [htake]
              _ = (s.take g s).take f s₁ := take_take_of_ne s s₁ s f g hne
              _ = s₁ := by rw [take_self, htake]
          have hlater : r.take g s₁ = r := hunnamed g fun q hq => hg q (List.mem_cons_of_mem _ hq)
          calc r.take g s = r.take g (s₁.take g s) := (take_of_take s r s₁ g).symm
            _ = r := by rw [hkept, hlater]

/-- Every field of a record that is read spells an option. If the option is spelled once then it is
what the value of the field is read as, and if it is not spelled then the record does not mention
it. -/
theorem reads_of_ofFields {m : List (Text × Json)} {r : Record} (h : ofFields m = .ok r) :
    (∀ k v, m.lookup k = some v → ∃ f : Field, k ∈ f.spellings ∧
      ((∀ k' ∈ f.spellings, k' ≠ k → m.lookup k' = none) → r.Reads (Renaming.meant k v) f)) ∧
      ∀ f : Field, (∀ k ∈ f.spellings, m.lookup k = none) → r.get? f = none := by
  obtain ⟨hnamed, hunnamed⟩ := reads_of_setAll h
  constructor
  · intro k v hk
    obtain ⟨l, w, hl, hw, hmeant⟩ := Renaming.exists_lookup_renamed hk
    obtain ⟨f, -, hname, hreads⟩ := hnamed _ (mem_of_lookup hw)
    have hmem := Field.mem_names_of_ofName? hname
    refine ⟨f, Field.mem_spellings.mpr ⟨l, hmem, hl⟩, fun halone => ?_⟩
    rw [← hmeant fun k' hk' hne => halone k' (Field.mem_spellings.mpr ⟨l, hmem, hk'⟩) hne]
    exact hreads
  · intro f hf
    have htake : r.take f {} = r := by
      refine hunnamed f fun p hp hname => ?_
      have hnone : (Renaming.renamed m).lookup p.1 = none :=
        Renaming.lookup_renamed_eq_none fun k hk =>
          hf k (Field.mem_spellings.mpr ⟨p.1, Field.mem_names_of_ofName? hname, hk⟩)
      exact not_mem_names_iff.mpr hnone (List.mem_map_of_mem hp)
    rw [← htake]
    cases f <;> rfl

end Record

end PixelScale
