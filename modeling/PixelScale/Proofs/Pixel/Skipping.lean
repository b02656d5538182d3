import Mathlib.Data.List.Basic
import PixelScale.Pixel.Segment

/-!
# Strings and groups that are skipped

Quoted strings and `url(...)` groups are taken from the left, each from its opening up to the first
character that closes it, and an opening that nothing closes is an ordinary character. A reader that
looks for nothing else comes to stand in front of every character that is not inside of one of them.

A text can be given as a row of segments with what is written for each of them. If no part opens
anything that was not open before, then the reader passes over exactly the kept segments. The text
itself is such a row, and so is a converted text, provided the conversion is careful.

* `Segment.Skipped`, `Segment.Reaches`: what is skipped, and where the reader comes to stand.
* `Segment.IsRow`: the segments of a text, one after another.
* `Segment.Aligned`: rows in which exactly the kept segments are skipped.
* `Segment.Aligned.reaches_iff`: the places that the reader reaches in such a row.
-/

namespace PixelScale.Pixel.Segment

open Text

/-! ## What is skipped -/

/-- A quoted string or a `url(...)` group, up to its first closing character. -/
inductive Skipped : Text → Prop
  | double {s : Text} : '"' ∉ s → Skipped ('"' :: (s ++ ['"']))
  | single {s : Text} : '\'' ∉ s → Skipped ('\'' :: (s ++ ['\'']))
  | group {s : Text} : ')' ∉ s → Skipped ('u' :: 'r' :: 'l' :: '(' :: (s ++ [')']))

theorem upTo?_append {x : Char} {s : Text} (hs : x ∉ s) (t : Text) :
    upTo? x (s ++ x :: t) = some (s ++ [x]) := by
  induction s with
  | nil => simp [upTo?]
  | cons c s ih =>
    obtain ⟨hc, hs⟩ := List.ne_and_not_mem_of_not_mem_cons hs
    rw [List.cons_append, upTo?, if_neg hc.symm, ih hs]
    rfl

theorem exists_of_upTo? {x : Char} {t u : Text} (h : upTo? x t = some u) :
    ∃ s, u = s ++ [x] ∧ x ∉ s := by
  induction t generalizing u with
  | nil => cases h
  | cons c t ih =>
    simp only [upTo?] at h
    split at h
    · rename_i hc
      cases h
      exact ⟨[], by rw [hc]; rfl, List.not_mem_nil⟩
    · rename_i hc
      obtain ⟨v, hv, rfl⟩ := Option.map_eq_some_iff.mp h
      obtain ⟨s, rfl, hs⟩ := ih hv
      exact ⟨c :: s, rfl, List.not_mem_cons_of_ne_of_not_mem (Ne.symm hc) hs⟩

theorem skipped_of_kept? {t u : Text} (h : kept? t = some u) : Skipped u := by
  unfold kept? at h
  split at h
  · obtain ⟨v, hv, rfl⟩ := Option.map_eq_some_iff.mp h
    obtain ⟨s, rfl, hs⟩ := exists_of_upTo? hv
    exact .double hs
  · obtain ⟨v, hv, rfl⟩ := Option.map_eq_some_iff.mp h
    obtain ⟨s, rfl, hs⟩ := exists_of_upTo? hv
    exact .single hs
  · obtain ⟨v, hv, rfl⟩ := Option.map_eq_some_iff.mp h
    obtain ⟨s, rfl, hs⟩ := exists_of_upTo? hv
    exact .group hs
  · cases h

theorem Skipped.kept?_append {u : Text} (h : Skipped u) (t : Text) : kept? (u ++ t) = some u := by
  cases h with
  | double hs => simp [kept?, upTo?_append hs]
  | single hs => simp [kept?, upTo?_append hs]
  | group hs => simp [kept?, upTo?_append hs]

/-- The skipped segment at the start of a text, if there is one. -/
theorem kept?_eq_some_iff {t u : Text} : kept? t = some u ↔ Skipped u ∧ u <+: t := by
  constructor
  · exact fun h => ⟨skipped_of_kept? h, kept?_prefix h⟩
  · rintro ⟨hu, r, rfl⟩
    exact hu.kept?_append r

/-- Nothing that starts a text is skipped. -/
def Plain (t : Text) : Prop := ∀ u, Skipped u → ¬ u <+: t

theorem kept?_eq_none_iff {t : Text} : kept? t = none ↔ Plain t := by
  rw [Option.eq_none_iff_forall_not_mem]
  exact forall_congr' fun u => by
    rw [Option.mem_def, kept?_eq_some_iff, not_and]

/-- The characters that a skipped segment can start with. -/
def opens (c : Char) : Bool := c == '"' || c == '\'' || c == 'u'

theorem Skipped.exists_cons {u : Text} (h : Skipped u) : ∃ c v, u = c :: v ∧ opens c = true := by
  cases h with
  | double _ => exact ⟨_, _, rfl, rfl⟩
  | single _ => exact ⟨_, _, rfl, rfl⟩
  | group _ => exact ⟨_, _, rfl, rfl⟩

theorem plain_of_opens {c : Char} (hc : opens c = false) (t : Text) : Plain (c :: t) := by
  intro u hu hprefix
  obtain ⟨d, v, rfl, hd⟩ := hu.exists_cons
  rw [(List.cons_prefix_cons.mp hprefix).1, hc] at hd
  cases hd

/-- A quote is skipped if it occurs again. -/
theorem plain_double_iff {t : Text} : Plain ('"' :: t) ↔ '"' ∉ t := by
  constructor
  · intro h hmem
    obtain ⟨s, r, rfl, hs⟩ := List.eq_append_cons_of_mem hmem
    exact h _ (.double hs) ⟨r, by simp⟩
  · rintro h u hu ⟨r, hr⟩
    cases hu with
    | double _ =>
      obtain ⟨-, rfl⟩ := List.cons.inj hr
      simp at h
    | single _ => exact absurd (List.cons.inj hr).1 (by decide)
    | group _ => exact absurd (List.cons.inj hr).1 (by decide)

theorem plain_single_iff {t : Text} : Plain ('\'' :: t) ↔ '\'' ∉ t := by
  constructor
  · intro h hmem
    obtain ⟨s, r, rfl, hs⟩ := List.eq_append_cons_of_mem hmem
    exact h _ (.single hs) ⟨r, by simp⟩
  · rintro h u hu ⟨r, hr⟩
    cases hu with
    | double _ => exact absurd (List.cons.inj hr).1 (by decide)
    | single _ =>
      obtain ⟨-, rfl⟩ := List.cons.inj hr
      simp at h
    | group _ => exact absurd (List.cons.inj hr).1 (by decide)

/-- The opening of a group is skipped if a parenthesis closes it. -/
theorem plain_group_iff {t : Text} :
    Plain ('u' :: t) ↔ ∀ r, t = 'r' :: 'l' :: '(' :: r → ')' ∉ r := by
  constructor
  · rintro h r rfl hmem
    obtain ⟨s, r, rfl, hs⟩ := List.eq_append_cons_of_mem hmem
    exact h _ (.group hs) ⟨r, by simp⟩
  · rintro h u hu ⟨r, hr⟩
    cases hu with
    | double _ => exact absurd (List.cons.inj hr).1 (by decide)
    | single _ => exact absurd (List.cons.inj hr).1 (by decide)
    | @group s _ =>
      obtain ⟨-, ht⟩ := List.cons.inj hr
      exact h (s ++ [')'] ++ r) ht.symm (by simp)

/-- The character that ends a skipped segment is a quote or a parenthesis. -/
theorem Skipped.getLast? {u : Text} (h : Skipped u) :
    ∃ c, u.getLast? = some c ∧ (c = '"' ∨ c = '\'' ∨ c = ')') := by
  cases h with
  | double _ => exact ⟨'"', by simp [List.getLast?_cons], by simp⟩
  | single _ => exact ⟨'\'', by simp [List.getLast?_cons], by simp⟩
  | group _ => exact ⟨')', by simp [List.getLast?_cons], by simp⟩

/-! ## The reader -/

/-- A reader of a text that looks for skipped segments from the left comes to stand in front of the
second text. -/
inductive Reaches : Text → Text → Prop
  | here {t : Text} : Reaches t t
  | skip {u t r : Text} : Skipped u → Reaches t r → Reaches (u ++ t) r
  | char {c : Char} {t r : Text} : Plain (c :: t) → Reaches t r → Reaches (c :: t) r

theorem Reaches.trans {t r q : Text} (h : Reaches t r) (h' : Reaches r q) : Reaches t q := by
  induction h with
  | here => exact h'
  | skip hu _ ih => exact .skip hu (ih h')
  | char hplain _ ih => exact .char hplain (ih h')

/-- A part of a text where nothing is skipped is passed character by character. -/
theorem Reaches.of_plain {w t r : Text}
    (hw : ∀ v v', w = v ++ v' → v' ≠ [] → Plain (v' ++ t)) (h : Reaches t r) :
    Reaches (w ++ t) r := by
  induction w with
  | nil => exact h
  | cons c w ih =>
    refine .char (hw [] _ rfl (List.cons_ne_nil c w)) (ih fun v v' hv => hw (c :: v) v' ?_)
    rw [hv, List.cons_append]

theorem Reaches.pass {w t r : Text}
    (hw : ∀ v v', w = v ++ v' → v' ≠ [] → Plain (v' ++ t)) (h : Reaches (w ++ t) r) :
    (∃ v v', w = v ++ v' ∧ v' ≠ [] ∧ r = v' ++ t) ∨ Reaches t r := by
  induction w with
  | nil => exact .inr h
  | cons c w ih =>
    have hplain := hw [] _ rfl (List.cons_ne_nil c w)
    rw [List.cons_append] at h hplain
    generalize ht : c :: (w ++ t) = whole at h
    cases h with
    | here => exact .inl ⟨[], c :: w, rfl, List.cons_ne_nil c w, by rw [← ht]; rfl⟩
    | skip hu _ => exact absurd ⟨_, ht.symm⟩ (hplain _ hu)
    | char _ hrest =>
      obtain ⟨rfl, rfl⟩ := List.cons.inj ht
      have hw' : ∀ v v', w = v ++ v' → v' ≠ [] → Plain (v' ++ t) := by
        intro v v' hv
        exact hw (c :: v) v' (by rw [hv, List.cons_append])
      refine (ih hw' hrest).imp_left ?_
      rintro ⟨v, v', rfl, hne, rfl⟩
      exact ⟨c :: v, v', rfl, hne, rfl⟩

theorem Reaches.pass_skipped {u t r : Text} (hu : Skipped u) (h : Reaches (u ++ t) r) :
    r = u ++ t ∨ Reaches t r := by
  generalize ht : u ++ t = whole at h
  cases h with
  | here => exact .inl rfl
  | skip hv hrest =>
    have hkept := hu.kept?_append t
    rw [ht, hv.kept?_append] at hkept
    cases hkept
    rw [List.append_cancel_left ht]
    exact .inr hrest
  | char hplain _ => exact absurd ⟨t, ht⟩ (hplain u hu)

/-! ## Rows of segments -/

/-- The segments of a text, each the first one of what is left of the text. -/
inductive IsRow : Text → List Segment → Prop
  | nil : IsRow [] []
  | first {s : Segment} {t : Text} {ss : List Segment} :
      first? (s.text ++ t) = some s → IsRow t ss → IsRow (s.text ++ t) (s :: ss)
  | char {c : Char} {t : Text} {ss : List Segment} :
      first? (c :: t) = none → IsRow t ss → IsRow (c :: t) (char c :: ss)

theorem isRow_after (n : Nat) (t : Text) : IsRow (t.drop n) (after n t) := by
  induction t generalizing n with
  | nil =>
    rw [List.drop_nil, after]
    exact .nil
  | cons c t ih =>
    cases n with
    | succ n => exact ih n
    | zero =>
      rw [List.drop_zero, after]
      split
      · rename_i s hs
        obtain ⟨u, hu⟩ := first?_prefix hs
        obtain ⟨d, v, hv⟩ := List.exists_cons_of_ne_nil (text_ne_nil hs)
        have hrow := ih (s.text.length - 1)
        have htail : t.drop (s.text.length - 1) = u := by
          rw [hv, List.cons_append] at hu
          rw [hv, ← (List.cons.inj hu).2]
          simp
        rw [htail] at hrow
        rw [← hu] at hs ⊢
        exact .first hs hrow
      · rename_i hnone
        exact .char hnone (ih 0)

theorem isRow_ofText (t : Text) : IsRow t (ofText t) := isRow_after 0 t

@[simp] theorem joined_nil : joined [] = [] := rfl

@[simp] theorem joined_cons (s : Segment) (ss : List Segment) :
    joined (s :: ss) = s.text ++ joined ss := rfl

@[simp] theorem joined_append (ss ts : List Segment) :
    joined (ss ++ ts) = joined ss ++ joined ts := List.flatMap_append

namespace IsRow

theorem joined_eq {t : Text} {ss : List Segment} (h : IsRow t ss) : joined ss = t := by
  induction h with
  | nil => rfl
  | first _ _ ih => rw [joined_cons, ih]
  | char _ _ ih =>
    rw [joined_cons, ih]
    rfl

/-- What stands behind a part of a row is a row. -/
theorem right {t : Text} {ps qs : List Segment} (h : IsRow t (ps ++ qs)) : IsRow (joined qs) qs := by
  induction ps generalizing t with
  | nil =>
    have := h.joined_eq
    rw [List.nil_append] at h this
    rwa [this]
  | cons p ps ih =>
    cases h with
    | first _ h => exact ih h
    | char _ h => exact ih h

/-- What the first segment of a row tells of the text. -/
theorem first?_eq {t : Text} {s : Segment} {ss : List Segment} (h : IsRow t (s :: ss)) :
    first? t = some s ∨ first? t = none ∧ ∃ c, s = .char c := by
  cases h with
  | first h _ => exact .inl h
  | char h _ => exact .inr ⟨h, _, rfl⟩

theorem not_char_of_first? {t : Text} {c : Char} : first? t ≠ some (.char c) := by
  intro h
  unfold first? at h
  split at h
  · cases h
  · obtain ⟨n, -, hn⟩ := Option.map_eq_some_iff.mp h
    cases hn

theorem first?_char {t : Text} {c : Char} {ss : List Segment} (h : IsRow t (.char c :: ss)) :
    first? t = none := by
  rcases h.first?_eq with h | h
  · exact absurd h not_char_of_first?
  · exact h.1

theorem kept?_kept {t u : Text} {ss : List Segment} (h : IsRow t (kept u :: ss)) :
    kept? t = some u := by
  rcases h.first?_eq with h | ⟨-, c, hc⟩
  · unfold first? at h
    split at h
    · rename_i hk
      cases h
      exact hk
    · obtain ⟨n, -, hn⟩ := Option.map_eq_some_iff.mp h
      cases hn
  · cases hc

theorem number?_pixels {t n : Text} {ss : List Segment} (h : IsRow t (pixels n :: ss)) :
    number? t = some n := by
  rcases h.first?_eq with h | ⟨-, c, hc⟩
  · unfold first? at h
    split at h
    · cases h
    · obtain ⟨m, hm, heq⟩ := Option.map_eq_some_iff.mp h
      cases heq
      exact hm
  · cases hc

end IsRow

/-! ## Rows with what is written for them -/

/-- What is written for a row of segments. -/
def written (es : List (Segment × Text)) : Text := es.flatMap Prod.snd

@[simp] theorem written_nil : written [] = [] := rfl

@[simp] theorem written_cons (e : Segment × Text) (es : List (Segment × Text)) :
    written (e :: es) = e.2 ++ written es := rfl

@[simp] theorem written_append (es fs : List (Segment × Text)) :
    written (es ++ fs) = written es ++ written fs := List.flatMap_append

/-- In what is written for a row exactly the kept segments are skipped. -/
inductive Aligned : List (Segment × Text) → Prop
  | nil : Aligned []
  | kept {u : Text} {es : List (Segment × Text)} :
      Skipped u → Aligned es → Aligned ((kept u, u) :: es)
  | other {s : Segment} {w : Text} {es : List (Segment × Text)} : (∀ u, s ≠ .kept u) →
      (∀ v v', w = v ++ v' → v' ≠ [] → Plain (v' ++ written es)) → Aligned es →
      Aligned ((s, w) :: es)

/-- The reader stands in front of a part of what is written, unless it would have to stand inside of
a kept segment. -/
theorem Aligned.reaches_iff {es : List (Segment × Text)} (h : Aligned es) {r : Text} (hr : r ≠ []) :
    Reaches (written es) r ↔
      ∃ fs s v v' gs, es = fs ++ (s, v ++ v') :: gs ∧ r = v' ++ written gs ∧ v' ≠ [] ∧
        ((∃ u, s = .kept u) → v = []) := by
  induction h with
  | nil =>
    constructor
    · intro h
      generalize ht : written [] = t at h
      cases h with
      | here => exact absurd ht.symm hr
      | skip hu _ =>
        obtain ⟨c, v, rfl, -⟩ := hu.exists_cons
        cases ht
      | char _ _ => cases ht
    · rintro ⟨fs, s, v, v', gs, hes, -⟩
      simp at hes
  | @kept u es hu _ ih =>
    constructor
    · intro h
      rcases h.pass_skipped hu with rfl | h
      · refine ⟨[], _, [], u, es, rfl, rfl, ?_, fun _ => rfl⟩
        obtain ⟨c, v, rfl, -⟩ := hu.exists_cons
        exact List.cons_ne_nil c v
      · obtain ⟨fs, s, v, v', gs, rfl, rest⟩ := ih.mp h
        exact ⟨_ :: fs, s, v, v', gs, rfl, rest⟩
    · rintro ⟨fs, s, v, v', gs, hes, hr', hv', hkept⟩
      rcases List.cons_eq_append_iff.mp hes with ⟨rfl, hcons⟩ | ⟨fs, rfl, htail⟩
      · obtain ⟨heq, rfl⟩ := List.cons.inj hcons
        obtain ⟨rfl, huv⟩ := Prod.mk.inj heq
        obtain rfl := hkept ⟨u, rfl⟩
        rw [hr', show v' = u from huv]
        exact .here
      · exact .skip hu (ih.mpr ⟨fs, s, v, v', gs, htail, hr', hv', hkept⟩)
  | @other s w es hs hw _ ih =>
    constructor
    · intro h
      rcases h.pass hw with ⟨v, v', rfl, hv', rfl⟩ | h
      · exact ⟨[], s, v, v', es, rfl, rfl, hv', fun ⟨u, hu⟩ => absurd hu (hs u)⟩
      · obtain ⟨fs, s, v, v', gs, rfl, rest⟩ := ih.mp h
        exact ⟨_ :: fs, s, v, v', gs, rfl, rest⟩
    · rintro ⟨fs, s', v, v', gs, hes, hr', hv', hkept⟩
      rcases List.cons_eq_append_iff.mp hes with ⟨rfl, hcons⟩ | ⟨fs, rfl, htail⟩
      · obtain ⟨heq, rfl⟩ := List.cons.inj hcons
        obtain ⟨rfl, rfl⟩ := Prod.mk.inj heq
        rw [hr', written_cons, List.append_assoc]
        refine .of_plain (fun x x' hx hne => ?_) .here
        have := hw x (x' ++ v') (by rw [hx, List.append_assoc]) (by simp [hne])
        rwa [List.append_assoc] at this
      · exact .of_plain hw (ih.mpr ⟨fs, s', v, v', gs, htail, hr', hv', hkept⟩)

end PixelScale.Pixel.Segment
