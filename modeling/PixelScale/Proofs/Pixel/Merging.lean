import PixelScale.Proofs.Pixel.Parts
import PixelScale.Proofs.Pixel.Stability

/-!
# Numbers that run into each other

The sign of a length belongs to its number, and what is written for it has a sign only if it is
negative: `1+16px` is a number in front of a length, and `11rem` is one number. A second point starts
a number as well, as in `1.2.3px` or `1..5px`. Any other number behind a digit or a point would take
it in. So these are the only converted lengths that run into the text in front of them, and they do
unless they are written with a minus sign.

* `Segment.LengthAt.ofText_eq`: the segments around a length.
* `Segment.Glued`: lengths whose numbers come right behind another number.
* `Converter.replaceAll_length`: a text is converted around a length.
* `Converter.replaceAll_runsInto_iff`: the converted lengths that run into what is in front of them.
-/

namespace PixelScale.Pixel

open Text Numeral

namespace Segment

/-! ## Segments around a length -/

theorem first?_eq_none_of_start {t t' : Text} (h : first? t = none) (hstart : t' <+: t) :
    first? t' = none := by
  obtain ⟨hplain, hlengths⟩ := first?_eq_none_iff.mp h
  exact first?_eq_none_iff.mpr ⟨fun u hu hu' => hplain u hu (hu'.trans hstart),
    fun n hn hn' => hlengths n hn (hn'.trans hstart)⟩

/-- What stands in front of a part of a row is a row. -/
theorem IsRow.left {t : Text} {ps qs : List Segment} (h : IsRow t (ps ++ qs)) :
    IsRow (joined ps) ps := by
  induction ps generalizing t with
  | nil => exact .nil
  | cons s ps ih =>
    have hfront : ∀ {r : Text}, IsRow r (ps ++ qs) → joined ps <+: r := by
      intro r hr
      rw [← hr.joined_eq, joined_append]
      exact List.prefix_append _ _
    cases h with
    | first hs hrest =>
      exact .first (first?_eq_some_of_start hs (List.prefix_append _ _)) (ih hrest)
    | char hnone hrest =>
      exact .char (first?_eq_none_of_start hnone
        (List.cons_prefix_cons.mpr ⟨rfl, hfront hrest⟩)) (ih hrest)

theorem IsRow.foldl_getLast? {t : Text} {ps qs : List Segment} (h : IsRow t (ps ++ qs)) :
    ps.foldl (fun _ s => s.text.getLast?) none = (joined ps).getLast? := by
  rcases List.eq_nil_or_concat' ps with rfl | ⟨ps, s, rfl⟩
  · rfl
  · have hrow : IsRow t (ps ++ s :: qs) := by simpa using h
    rw [List.foldl_append, hrow.getLast?_joined]
    rfl

/-- A length parts the segments of a text. -/
theorem LengthAt.ofText_eq {a n b : Text} (h : LengthAt a n b) :
    ofText (a ++ n ++ pxSuffix ++ b) = ofText a ++ pixels n :: ofText b := by
  have hrow := isRow_ofText (a ++ n ++ pxSuffix ++ b)
  obtain ⟨ps, qs, hss, hps, hqs⟩ := hrow.exists_split_iff.mpr ⟨rfl, h⟩
  rw [hss] at hrow ⊢
  have hfront : IsRow a ps := hps ▸ hrow.left
  have hbehind : IsRow b qs := hqs ▸ @IsRow.right _ [pixels n] qs hrow.right
  rw [hfront.unique (isRow_ofText a), hbehind.unique (isRow_ofText b)]

/-! ## Numbers behind numbers -/

/-- The characters that a number can end with or go on with. -/
def isNumeric (c : Char) : Bool := isDigit c || c == '.'

/-- A number right behind a digit or a point: it has a sign, or it has a point and stands behind
another one. -/
def Glued (a n : Text) : Prop :=
  ∃ c ∈ a.getLast?, isNumeric c = true ∧
    (n.head? = some '+' ∨ n.head? = some '-' ∨ c = '.' ∧ '.' ∈ n)

/-- Behind a digit or a point, any other number would not be the longest one. -/
theorem LengthAt.glued_iff {a n b : Text} (h : LengthAt a n b) :
    Glued a n ↔ ∃ c ∈ a.getLast?, isNumeric c = true := by
  refine ⟨fun ⟨c, hc, hnumeric, _⟩ => ⟨c, hc, hnumeric⟩, ?_⟩
  rintro ⟨c, hc, hnumeric⟩
  refine ⟨c, hc, hnumeric, ?_⟩
  obtain ⟨v, rfl⟩ := List.getLast?_eq_some_iff.mp hc
  have hlongest : ¬ IsUnsigned (c :: n) := by
    intro hn
    have := h.longest v (c :: n) (by simp) (.unsigned hn)
    rw [List.length_cons] at this
    omega
  cases h.numeral with
  | signed hsign _ =>
    rcases hsign with rfl | rfl
    · exact .inl rfl
    · exact .inr (.inl rfl)
  | unsigned hn =>
    right
    right
    cases hn with
    | whole hne hds =>
      exfalso
      rcases (Bool.or_eq_true _ _).mp hnumeric with hdigit | hpoint
      · exact hlongest (.whole (by simp) (List.forall_mem_cons.mpr ⟨hdigit, hds⟩))
      · obtain rfl := beq_iff_eq.mp hpoint
        exact hlongest (@IsUnsigned.point [] n (by simp) hne hds)
    | @point ds es hds hne hes =>
      rcases (Bool.or_eq_true _ _).mp hnumeric with hdigit | hpoint
      · refine absurd ?_ hlongest
        exact @IsUnsigned.point (c :: ds) es (List.forall_mem_cons.mpr ⟨hdigit, hds⟩) hne hes
      · exact ⟨beq_iff_eq.mp hpoint, by simp⟩

end Segment

namespace Converter

open Segment

/-! ## Conversion around a length -/

section

variable (k : Converter)

/-- A segment other than a length ends the converted text as well. -/
theorem exists_segments_concat (last : Option Char) (ps : List Segment) {s : Segment}
    (hs : ∀ n, s ≠ .pixels n) : ∃ w, k.segments last (ps ++ [s]) = w ++ s.text := by
  induction ps generalizing last with
  | nil =>
    refine ⟨[], ?_⟩
    cases s with
    | pixels n => exact absurd rfl (hs n)
    | _ => simp [segments]
  | cons p ps ih =>
    obtain ⟨w, hw⟩ := ih p.text.getLast?
    exact ⟨_ ++ w, (congrArg (_ ++ ·) hw).trans (List.append_assoc _ w s.text).symm⟩

/-- A text that does not end with a letter ends with the same character when it is converted. -/
theorem getLast?_replaceAll {a : Text} (ha : touches a.getLast? = false) :
    (k.replaceAll a).getLast? = a.getLast? := by
  have hrow := isRow_ofText a
  rcases List.eq_nil_or_concat' (ofText a) with hnil | ⟨ps, s, hps⟩
  · rw [replaceAll, hnil, ← joined_ofText a, hnil]
    rfl
  · rw [hps] at hrow
    have hlast : a.getLast? = s.text.getLast? := by rw [← hrow.getLast?_joined, hrow.joined_eq]
    have hs : ∀ n, s ≠ .pixels n := by
      rintro n rfl
      rw [hlast, getLast?_pixels] at ha
      cases ha
    obtain ⟨w, hw⟩ := k.exists_segments_concat none ps hs
    rw [replaceAll, hps, hw, List.getLast?_append_of_ne_nil _ hrow.text_ne_nil, hlast]

/-- A text is converted in front of a length, at the length and behind it. -/
theorem replaceAll_length {a n b : Text} (h : LengthAt a n b) :
    k.replaceAll (a ++ n ++ pxSuffix ++ b) =
      k.replaceAll a ++ (if touches a.getLast? || touches b.head? then n ++ pxSuffix
        else k.literal n) ++ k.segments (some 'x') (ofText b) := by
  have hrow := isRow_ofText (a ++ n ++ pxSuffix ++ b)
  rw [h.ofText_eq] at hrow
  have hnext : touches ((pixels n :: ofText b).head?.bind fun s => s.text.head?) = false := by
    obtain ⟨c, m, rfl⟩ := List.exists_cons_of_ne_nil h.numeral.ne_nil
    exact isAlpha_of_isPart (h.numeral.part c List.mem_cons_self)
  have hlast := hrow.foldl_getLast?
  have hbehind : b.head? = (ofText b).head?.bind fun s => s.text.head? := by
    have := @head?_joined b [] (ofText b) (isRow_ofText b)
    rwa [joined_ofText] at this
  rw [joined_ofText] at hlast
  rw [replaceAll, h.ofText_eq, k.segments_append _ _ hnext, hlast, hbehind, ← getLast?_pixels n,
    List.append_assoc]
  rfl

end

/-! ## Lengths that run into what is in front of them -/

/-- The second text goes on with a number at the end of the first one: the first text ends in a
digit or a point, and the second one does not start with a sign. -/
def RunsInto (front t : Text) : Prop :=
  (∃ c ∈ front.getLast?, isNumeric c = true) ∧ t.head? ≠ some '+' ∧ t.head? ≠ some '-'

variable {rootValue minPixelValue : Float} {unitPrecision : Nat} {unit : Text}

/-- A number in another unit has no plus sign. -/
theorem head?_inUnits (n : Text) : (inUnits rootValue unitPrecision unit n).head? ≠ some '+' := by
  rcases @inUnits_cases rootValue unitPrecision unit n with hzero | ⟨x, hx⟩
  · rw [hzero]
    decide
  · rw [hx, List.head?_append_of_ne_nil _ (write_ne_nil x)]
    intro hhead
    have hmem : '+' ∈ Layout.inText.write x := List.mem_of_mem_head? hhead
    rcases Layout.mem_write x with hpositional | hword
    · have := hpositional.part '+' hmem
      revert this
      decide
    · have hwords : ∀ w ∈ ["NaN".toList, "inf".toList, "-inf".toList], '+' ∉ w := by decide
      exact hwords _ hword hmem

/-- A text is converted around each of its lengths, and a converted length runs into the text in
front of it if its number comes right behind another one and it is written without a minus sign. -/
theorem replaceAll_runsInto_iff {a n b : Text} (h : LengthAt a n b) :
    (builtin rootValue unitPrecision minPixelValue unit).replaceAll (a ++ n ++ pxSuffix ++ b) =
        (builtin rootValue unitPrecision minPixelValue unit).replaceAll a ++
          respelled rootValue unitPrecision minPixelValue unit a n b ++
          (builtin rootValue unitPrecision minPixelValue unit).segments (some 'x') (ofText b) ∧
      (Convertible minPixelValue a n b →
        respelled rootValue unitPrecision minPixelValue unit a n b =
            inUnits rootValue unitPrecision unit n ∧
          (RunsInto ((builtin rootValue unitPrecision minPixelValue unit).replaceAll a)
              (inUnits rootValue unitPrecision unit n) ↔
            Glued a n ∧ (inUnits rootValue unitPrecision unit n).head? ≠ some '-')) := by
  refine ⟨?_, fun hconvertible => ⟨if_pos hconvertible, ?_⟩⟩
  · rw [replaceAll_length _ h, respelled_eq _ _ _ _ h.numeral]
  · rw [RunsInto, getLast?_replaceAll _ (Bool.eq_false_iff.mpr hconvertible.2.1), ← h.glued_iff]
    exact ⟨fun hruns => ⟨hruns.1, hruns.2.2⟩,
      fun hglued => ⟨hglued.1, head?_inUnits n, hglued.2⟩⟩

/-- In `1+16px` the number of the length comes right behind another one. -/
theorem replaceAll_runsInto_iff_plus :
    ∃ a n b : Text, a ++ n ++ pxSuffix ++ b = "1+16px".toList ∧ LengthAt a n b ∧ Glued a n ∧
      (builtin 16 5 0 "rem".toList).replaceAll (a ++ n ++ pxSuffix ++ b) =
          (builtin 16 5 0 "rem".toList).replaceAll a ++ respelled 16 5 0 "rem".toList a n b ++
            (builtin 16 5 0 "rem".toList).segments (some 'x') (ofText b) ∧
      (Convertible 0 a n b →
        respelled 16 5 0 "rem".toList a n b = inUnits 16 5 "rem".toList n ∧
          (RunsInto ((builtin 16 5 0 "rem".toList).replaceAll a) (inUnits 16 5 "rem".toList n) ↔
            Glued a n ∧ (inUnits 16 5 "rem".toList n).head? ≠ some '-')) := by
  have hlength : LengthAt "1".toList "+16".toList [] :=
    ((isRow_ofText "1+16px".toList).exists_split_iff.mp
      ⟨[.char '1'], [], by decide, rfl, rfl⟩).2
  exact ⟨"1".toList, "+16".toList, [], rfl, hlength, ⟨'1', rfl, rfl, .inl rfl⟩,
    replaceAll_runsInto_iff hlength⟩

end Converter

end PixelScale.Pixel
