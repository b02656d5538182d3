import PixelScale.Pixel.Conversion
import PixelScale.Proofs.Number.Numerals
import PixelScale.Proofs.Pixel.Skipping

/-!
# The pixel lengths of a text

The segments of a text are found from the left: at every place the first pattern that fits is taken,
and it is as long as it can be. This finds the same pixel lengths as a look backwards from every `px`
outside of what is skipped: if a digit stands in front of it, the longest numeral that ends there is
the number of a length. The two agree because a numeral has no characters in common with the start or
the end of what is skipped, nor with `px`, and because the end of a numeral is a numeral: a search
from the left that comes upon a numeral comes upon its first character first.

* `Segment.number?_eq_some_iff`: the number of a length at the start of a text.
* `Segment.LengthAt`: the longest numeral in front of a `px` that is not skipped.
* `Segment.IsRow.exists_split_iff`: these are the pixel lengths among the segments.
* `Converter.exists_row_replaceAll`: what the built-in conversion makes of a text.
-/

namespace PixelScale.Pixel

open Text Numeral

namespace Segment

/-! ## The number of a length -/

theorem isUnsigned_of_unsigned? {t n : Text} (h : unsigned? t = some n) : IsUnsigned n := by
  have hdigits : ∀ r : Text, ∀ c ∈ r.takeWhile isDigit, isDigit c = true :=
    fun r c hc => List.mem_takeWhile_imp hc
  simp only [unsigned?] at h
  split at h
  · split at h
    · rename_i hfraction
      cases h
      exact .point (hdigits t) hfraction.1 (hdigits _)
    · cases h
  · split at h
    · rename_i hwhole
      cases h
      exact .whole hwhole.1 (hdigits t)
    · cases h

theorem isNumeral_of_number? {t n : Text} (h : number? t = some n) : IsNumeral n := by
  unfold number? at h
  split at h
  · obtain ⟨m, hm, rfl⟩ := Option.map_eq_some_iff.mp h
    exact .signed (.inl rfl) (isUnsigned_of_unsigned? hm)
  · obtain ⟨m, hm, rfl⟩ := Option.map_eq_some_iff.mp h
    exact .signed (.inr rfl) (isUnsigned_of_unsigned? hm)
  · exact .unsigned (isUnsigned_of_unsigned? h)

theorem takeWhile_digits {ds r : Text} (hds : ∀ c ∈ ds, isDigit c = true)
    (hr : ∀ c ∈ r.head?, isDigit c = false) :
    (ds ++ r).takeWhile isDigit = ds ∧ (ds ++ r).dropWhile isDigit = r := by
  rw [List.takeWhile_append_of_pos hds, List.dropWhile_append_of_pos hds]
  cases r with
  | nil => simp
  | cons c r => simp [hr c rfl]

theorem unsigned?_append {n : Text} (hn : IsUnsigned n) (b : Text) :
    unsigned? (n ++ pxSuffix ++ b) = some n := by
  have hpx : ∀ c ∈ (pxSuffix ++ b).head?, isDigit c = false := by
    intro c hc
    cases hc
    decide
  cases hn with
  | whole hne hds =>
    obtain ⟨htake, hdrop⟩ := takeWhile_digits hds hpx
    rw [List.append_assoc]
    simp only [unsigned?, htake, hdrop]
    rw [pxSuffix, List.cons_append]
    simp [hne]
  | @point ds es hds hne hes =>
    obtain ⟨htake, hdrop⟩ := takeWhile_digits (r := '.' :: (es ++ (pxSuffix ++ b))) hds
      (by intro c hc; cases hc; decide)
    obtain ⟨htake', hdrop'⟩ := takeWhile_digits hes hpx
    have ht : ds ++ '.' :: es ++ pxSuffix ++ b = ds ++ '.' :: (es ++ (pxSuffix ++ b)) := by simp
    rw [ht]
    simp only [unsigned?, htake, hdrop, htake', hdrop']
    rw [if_pos ⟨hne, List.prefix_append _ _⟩]

/-- The number at the start of a text, if `px` follows it. -/
theorem number?_eq_some_iff {t n : Text} :
    number? t = some n ↔ IsNumeral n ∧ n ++ pxSuffix <+: t := by
  constructor
  · exact fun h => ⟨isNumeral_of_number? h, number?_prefix h⟩
  · rintro ⟨hn, b, rfl⟩
    cases hn with
    | unsigned hn =>
      obtain ⟨c, m, rfl⟩ := List.exists_cons_of_ne_nil hn.ne_nil
      obtain ⟨hplus, hminus⟩ := hn.cons_part
      rw [← unsigned?_append hn b]
      unfold number?
      split
      · rename_i heq
        exact absurd (List.cons.inj heq).1 hplus
      · rename_i heq
        exact absurd (List.cons.inj heq).1 hminus
      · rfl
    | signed hc hn =>
      rcases hc with rfl | rfl
      · simp [number?, unsigned?_append hn b, -List.append_assoc]
      · simp [number?, unsigned?_append hn b, -List.append_assoc]

/-- No segment of more than one character starts a text if nothing there is skipped and no length
starts there. -/
theorem first?_eq_none_iff {t : Text} :
    first? t = none ↔ Plain t ∧ ∀ n, IsNumeral n → ¬ n ++ pxSuffix <+: t := by
  have hnumber : number? t = none ↔ ∀ n, IsNumeral n → ¬ n ++ pxSuffix <+: t := by
    rw [Option.eq_none_iff_forall_not_mem]
    exact forall_congr' fun n => by rw [Option.mem_def, number?_eq_some_iff, not_and]
  rw [← hnumber, ← kept?_eq_none_iff, first?]
  cases kept? t <;> simp

/-! ## Segments of a row -/

theorem IsRow.skipped {t u : Text} {ps qs : List Segment} (h : IsRow t (ps ++ kept u :: qs)) :
    Skipped u :=
  skipped_of_kept? h.right.kept?_kept

theorem IsRow.isNumeral {t n : Text} {ps qs : List Segment} (h : IsRow t (ps ++ pixels n :: qs)) :
    IsNumeral n :=
  isNumeral_of_number? h.right.number?_pixels

/-- No segment of a row is empty. -/
theorem IsRow.text_ne_nil {t : Text} {s : Segment} {ps qs : List Segment}
    (h : IsRow t (ps ++ s :: qs)) : s.text ≠ [] := by
  cases s with
  | char c => exact List.cons_ne_nil c []
  | kept u =>
    obtain ⟨c, v, rfl, -⟩ := h.skipped.exists_cons
    exact List.cons_ne_nil c v
  | pixels n => simp [text, pxSuffix]

theorem IsRow.getLast?_joined {t : Text} {s : Segment} {ps qs : List Segment}
    (h : IsRow t (ps ++ s :: qs)) : (joined (ps ++ [s])).getLast? = s.text.getLast? := by
  rw [joined_append, joined_cons, joined_nil, List.append_nil,
    List.getLast?_append_of_ne_nil _ h.text_ne_nil]

theorem getLast?_pixels (n : Text) : (pixels n).text.getLast? = some 'x' := by
  rw [text, List.getLast?_append_of_ne_nil _ (by simp [pxSuffix])]
  rfl

/-- Only a character on its own can end in a character of numerals. -/
theorem IsRow.eq_char_of_getLast? {t : Text} {s : Segment} {ps qs : List Segment}
    (h : IsRow t (ps ++ s :: qs)) {c : Char} (hc : s.text.getLast? = some c)
    (hpart : isPart c = true) : s = .char c := by
  cases s with
  | char d =>
    cases hc
    rfl
  | kept u =>
    obtain ⟨d, hd, hclose⟩ := h.skipped.getLast?
    rw [text, hd] at hc
    cases hc
    rcases hclose with rfl | rfl | rfl <;> exact absurd hpart (by decide)
  | pixels n =>
    rw [getLast?_pixels] at hc
    cases hc
    exact absurd hpart (by decide)

/-- A numeral with `px` behind it does not reach over the start of a segment: it would have been
found at its first character. -/
theorem IsRow.not_prefix {t a m n : Text} {ps qs : List Segment} (h : IsRow t (ps ++ qs))
    (hjoined : joined ps = a ++ m) (hm : m ≠ []) (hn : IsNumeral (m ++ n)) :
    ¬ n ++ pxSuffix <+: joined qs := by
  intro hprefix
  obtain ⟨m, c, rfl⟩ := (List.eq_nil_or_concat' m).resolve_left hm
  have hpart := hn.part c (by simp)
  have hlast : (joined ps).getLast? = some c := by simp [hjoined]
  rcases List.eq_nil_or_concat' ps with rfl | ⟨ps, s, rfl⟩
  · cases hlast
  have hrow : IsRow t (ps ++ s :: qs) := by simpa using h
  rw [hrow.getLast?_joined] at hlast
  obtain rfl := hrow.eq_char_of_getLast? hlast hpart
  have hnumeral : IsNumeral (c :: n) := by
    rw [List.append_assoc] at hn
    exact hn.right (by simp)
  exact (first?_eq_none_iff.mp hrow.right.first?_char).2 _ hnumeral
    (List.cons_prefix_cons.mpr ⟨rfl, hprefix⟩)

/-- A length has no character that a skipped segment can start with. -/
theorem opens_of_mem_length {n : Text} (hn : IsNumeral n) : ∀ c ∈ n ++ pxSuffix, opens c = false := by
  intro c hc
  rcases List.mem_append.mp hc with hc | hc
  · refine Bool.eq_false_iff.mpr fun hopens => ?_
    have hpart := hn.part c hc
    simp only [opens, Bool.or_eq_true, beq_iff_eq] at hopens
    rcases hopens with (rfl | rfl) | rfl <;> exact absurd hpart (by decide)
  · rcases List.mem_pair.mp hc with rfl | rfl <;> rfl

theorem IsRow.opens_pixels {t n : Text} {ps qs : List Segment} (h : IsRow t (ps ++ pixels n :: qs)) :
    ∀ c ∈ n ++ pxSuffix, opens c = false :=
  opens_of_mem_length h.isNumeral

/-- Nothing that is skipped starts inside of a length. -/
theorem plain_of_length {n v v' : Text} (hn : IsNumeral n) (hv : n ++ pxSuffix = v ++ v')
    (hne : v' ≠ []) (t : Text) : Plain (v' ++ t) := by
  obtain ⟨c, w, rfl⟩ := List.exists_cons_of_ne_nil hne
  refine plain_of_opens (opens_of_mem_length hn c ?_) _
  rw [hv]
  simp

/-- The segments of a row with their own texts. -/
def itself (ss : List Segment) : List (Segment × Text) := ss.map fun s => (s, s.text)

@[simp] theorem written_itself (ss : List Segment) : written (itself ss) = joined ss := by
  induction ss with
  | nil => rfl
  | cons s ss ih => rw [itself, List.map_cons, written_cons, ← itself, ih, joined_cons]

/-- In a text itself exactly the kept segments are skipped. -/
theorem IsRow.aligned {t : Text} {ss : List Segment} (h : IsRow t ss) : Aligned (itself ss) := by
  induction h with
  | nil => exact .nil
  | @first s t ss hs hrow ih =>
    have hwhole := IsRow.first hs hrow
    cases s with
    | char c => exact absurd hs IsRow.not_char_of_first?
    | kept u => exact .kept (skipped_of_kept? hwhole.kept?_kept) ih
    | pixels n =>
      have hn : IsNumeral n := @IsRow.isNumeral _ _ [] _ hwhole
      exact .other (fun u hu => by cases hu) (fun v v' hv hne => plain_of_length hn hv hne _) ih
  | @char c t ss hnone hrow ih =>
    refine .other (fun u hu => by cases hu) (fun v v' hv hne => ?_) ih
    rcases List.cons_eq_append_iff.mp hv with ⟨rfl, rfl⟩ | ⟨w, rfl, hw⟩
    · have ht := written_itself ss
      rw [hrow.joined_eq, itself] at ht
      rw [ht]
      exact (first?_eq_none_iff.mp hnone).1
    · exact absurd (List.append_eq_nil_iff.mp hw.symm).2 hne

/-- The places of a text that the reader reaches, told by its segments. -/
theorem IsRow.reaches_iff {t r : Text} {ss : List Segment} (h : IsRow t ss) (hr : r ≠ []) :
    Reaches t r ↔
      ∃ ps s qs v v', ss = ps ++ s :: qs ∧ s.text = v ++ v' ∧ v' ≠ [] ∧ r = v' ++ joined qs ∧
        ((∃ u, s = kept u) → v = []) := by
  have hreaches := h.aligned.reaches_iff hr
  rw [written_itself, h.joined_eq] at hreaches
  rw [hreaches]
  constructor
  · rintro ⟨fs, s, v, v', gs, hes, rfl, hne, hkept⟩
    obtain ⟨ps, rest, rfl, -, hrest⟩ := List.map_eq_append_iff.mp hes
    obtain ⟨s, qs, rfl, heq, rfl⟩ := List.map_eq_cons_iff.mp hrest
    obtain ⟨rfl, hs⟩ := Prod.mk.inj heq
    exact ⟨ps, s, qs, v, v', rfl, hs, hne, by rw [← written_itself, itself], hkept⟩
  · rintro ⟨ps, s, qs, v, v', rfl, hs, hne, rfl, hkept⟩
    exact ⟨itself ps, s, v, v', itself qs, by simp [itself, hs], by rw [written_itself], hne, hkept⟩

/-! ## Lengths -/

/-- The text `n` is the number of a pixel length between `a` and `b`: behind it stands a `px` that
is not skipped, and it is the longest numeral that ends there. -/
structure LengthAt (a n b : Text) : Prop where
  numeral : IsNumeral n
  outside : Reaches (a ++ n ++ pxSuffix ++ b) (pxSuffix ++ b)
  longest : ∀ a' n', a' ++ n' = a ++ n → IsNumeral n' → n'.length ≤ n.length

/-- A character that does not occur in the first part of a text stands in the second one. -/
theorem exists_of_append_eq {s t v w : Text} {c : Char} (hc : c ∉ s) (h : s ++ t = v ++ c :: w) :
    ∃ z, v = s ++ z ∧ t = z ++ c :: w := by
  rcases List.append_eq_append_iff.mp h with ⟨z, rfl, rfl⟩ | ⟨z, rfl, hz⟩
  · exact ⟨z, rfl, rfl⟩
  · rcases List.cons_eq_append_iff.mp hz with ⟨rfl, rfl⟩ | ⟨z, rfl, -⟩
    · exact ⟨[], by simp, rfl⟩
    · simp at hc

/-- The first `px` of a number with `px` behind it stands at its end. -/
theorem eq_of_append_pxSuffix {n v w : Text} (hn : 'p' ∉ n)
    (h : n ++ pxSuffix = v ++ 'p' :: w) : v = n ∧ w = ['x'] := by
  obtain ⟨z, rfl, hz⟩ := exists_of_append_eq hn h
  rcases List.cons_eq_append_iff.mp hz with ⟨rfl, hw⟩ | ⟨z, rfl, htail⟩
  · cases hw
    exact ⟨List.append_nil n, rfl⟩
  · rcases List.cons_eq_append_iff.mp htail with ⟨-, hw⟩ | ⟨_, -, hw⟩
    · cases hw
    · simp at hw

theorem not_mem_numeral {n : Text} (hn : IsNumeral n) : 'p' ∉ n :=
  fun h => absurd (hn.part _ h) (by decide)

/-- A `px` that is not skipped, with a digit in front of it, belongs to a length among the segments. -/
theorem IsRow.exists_pixels {t v b : Text} {ss : List Segment} (h : IsRow t ss)
    (ht : t = v ++ pxSuffix ++ b) (hreaches : Reaches t (pxSuffix ++ b)) {c : Char}
    (hlast : v.getLast? = some c) (hc : isDigit c = true) :
    ∃ ps n qs, ss = ps ++ pixels n :: qs ∧ v = joined ps ++ n ∧ b = joined qs := by
  obtain ⟨ps, s, qs, x, y, rfl, hs, hy, hr, hkept⟩ := (h.reaches_iff (by simp [pxSuffix])).mp hreaches
  obtain ⟨d, y, rfl⟩ := List.exists_cons_of_ne_nil hy
  obtain ⟨rfl, hb⟩ : 'p' = d ∧ 'x' :: b = y ++ joined qs := List.cons.inj hr
  have hv : v = joined ps ++ x := by
    have hjoined := h.joined_eq
    rw [joined_append, joined_cons, hs, ht, List.append_assoc v, hr, List.append_assoc x,
      ← List.append_assoc (joined ps)] at hjoined
    exact (List.append_cancel_right hjoined).symm
  cases s with
  | char e =>
    exfalso
    rcases List.cons_eq_append_iff.mp hs with ⟨rfl, hy⟩ | ⟨x, -, hnil⟩
    · obtain ⟨rfl, rfl⟩ := List.cons.inj hy
      rw [List.append_nil] at hv
      rw [hv] at hlast
      obtain ⟨a, ha⟩ := List.getLast?_eq_some_iff.mp hlast
      refine h.not_prefix ha (n := []) (by simp) (isNumeral_digit hc) ?_
      exact ⟨b, hr⟩
    · simp at hnil
  | kept u =>
    exfalso
    obtain rfl := hkept ⟨u, rfl⟩
    obtain ⟨e, w, rfl, he⟩ := h.skipped.exists_cons
    obtain ⟨rfl, -⟩ := List.cons.inj hs
    exact absurd he (by decide)
  | pixels n =>
    obtain ⟨rfl, rfl⟩ := eq_of_append_pxSuffix (not_mem_numeral h.isNumeral) hs
    exact ⟨ps, x, qs, rfl, hv, (List.cons.inj hb).2⟩

/-- A length among the segments is the longest numeral in front of its `px`. -/
theorem IsRow.lengthAt {t n : Text} {ps qs : List Segment} (h : IsRow t (ps ++ pixels n :: qs)) :
    LengthAt (joined ps) n (joined qs) := by
  refine ⟨h.isNumeral, ?_, fun a' n' heq hn' => ?_⟩
  · have ht : joined ps ++ n ++ pxSuffix ++ joined qs = t := by
      rw [← h.joined_eq]
      simp [text]
    rw [ht, h.reaches_iff (by simp [pxSuffix])]
    refine ⟨ps, pixels n, qs, n, pxSuffix, rfl, rfl, by simp [pxSuffix], rfl, ?_⟩
    rintro ⟨u, hu⟩
    cases hu
  · by_contra hlength
    rcases List.append_eq_append_iff.mp heq with ⟨m, hjoined, rfl⟩ | ⟨m, -, rfl⟩
    · have hm : m ≠ [] := by
        rintro rfl
        simp at hlength
      refine h.not_prefix hjoined hm hn' ?_
      rw [joined_cons]
      exact List.prefix_append _ _
    · exact hlength (by simp)

/-- The lengths among the segments of a text are its lengths. -/
theorem IsRow.exists_split_iff {t a n b : Text} {ss : List Segment} (h : IsRow t ss) :
    (∃ ps qs, ss = ps ++ pixels n :: qs ∧ joined ps = a ∧ joined qs = b) ↔
      t = a ++ n ++ pxSuffix ++ b ∧ LengthAt a n b := by
  constructor
  · rintro ⟨ps, qs, rfl, rfl, rfl⟩
    refine ⟨?_, h.lengthAt⟩
    rw [← h.joined_eq]
    simp [text]
  · rintro ⟨ht, hlength⟩
    obtain ⟨c, hlast, hc⟩ := hlength.numeral.exists_getLast?
    have hreaches := hlength.outside
    rw [← ht] at hreaches
    obtain ⟨ps, n', qs, rfl, hv, hb⟩ := h.exists_pixels ht hreaches
      (by rw [List.getLast?_append_of_ne_nil _ hlength.numeral.ne_nil]; exact hlast) hc
    have hlength' := h.lengthAt
    have hle := hlength.longest _ _ hv.symm hlength'.numeral
    have hge := hlength'.longest _ _ hv hlength.numeral
    obtain ⟨ha, rfl⟩ := List.append_inj' hv (by omega)
    exact ⟨ps, qs, rfl, ha.symm, hb.symm⟩

-- a point without a digit behind it belongs to no number, and a sign in front of digits does
example : ofText "1.+2px url(3px)".toList =
    [.char '1', .char '.', .pixels "+2".toList, .char ' ', .kept "url(3px)".toList] := by
  decide

/-! ## Rows with other lengths -/

section

variable (write : Text → Text → Text → Text)

/-- What stands for a segment between two texts, if `write` tells what stands for a length. -/
def spelled (a : Text) (s : Segment) (b : Text) : Text :=
  match s with
  | pixels n => write a n b
  | s => s.text

/-- The segments of a row behind the text `a`, with what stands for each of them. -/
def entries : Text → List Segment → List (Segment × Text)
  | _, [] => []
  | a, s :: ss => (s, spelled write a s (joined ss)) :: entries (a ++ s.text) ss

end

end Segment

/-! ## The built-in conversion -/

namespace Converter

open Segment

/-- Whether the length with the number `n` between `a` and `b` is converted: all its digits are ASCII
digits, no ASCII letter touches it, and it is not below the threshold. -/
def Convertible (minPixelValue : Float) (a n b : Text) : Prop :=
  IsAscii n ∧ ¬ touches a.getLast? ∧ ¬ touches b.head? ∧ ¬ (Numeral.value n).abs < minPixelValue

instance (minPixelValue : Float) (a n b : Text) : Decidable (Convertible minPixelValue a n b) :=
  inferInstanceAs (Decidable (_ ∧ _))

/-- A number of pixels in another unit. -/
def inUnits (rootValue : Float) (unitPrecision : Nat) (unit n : Text) : Text :=
  let x := Double.toFixed (Numeral.value n / rootValue) unitPrecision
  if x == 0 then ['0'] else Layout.inText.write x ++ unit

/-- What the built-in conversion writes for the length with the number `n` between `a` and `b`. -/
def respelled (rootValue : Float) (unitPrecision : Nat) (minPixelValue : Float)
    (unit a n b : Text) : Text :=
  if Convertible minPixelValue a n b then inUnits rootValue unitPrecision unit n
  else n ++ pxSuffix

variable (rootValue : Float) (unitPrecision : Nat) (minPixelValue : Float) (unit : Text)

theorem respelled_eq {n : Text} (hn : IsNumeral n) (a b : Text) :
    respelled rootValue unitPrecision minPixelValue unit a n b =
      if touches a.getLast? || touches b.head? then n ++ pxSuffix
      else (builtin rootValue unitPrecision minPixelValue unit).literal n := by
  rw [literal, hn.toFloat?_eq]
  simp only [respelled, Convertible]
  by_cases hascii : IsAscii n
  · simp only [hascii, if_true, Option.bind_some, pixels?, builtin?, true_and]
    by_cases hlast : touches a.getLast? = true
    · simp [hlast]
    by_cases hnext : touches b.head? = true
    · simp [hnext]
    by_cases hbelow : (Numeral.value n).abs < minPixelValue
    · simp [hlast, hnext, hbelow]
    · by_cases hzero : Double.toFixed (Numeral.value n / rootValue) unitPrecision == 0
      · simp [hlast, hnext, hbelow, hzero, inUnits]
      · simp [hlast, hnext, hbelow, hzero, inUnits]
  · simp [hascii]

theorem head?_joined {t : Text} {ps qs : List Segment} (h : IsRow t (ps ++ qs)) :
    (joined qs).head? = qs.head?.bind fun s => s.text.head? := by
  cases qs with
  | nil => rfl
  | cons s qs => rw [joined_cons, List.head?_append_of_ne_nil _ h.text_ne_nil]; rfl

/-- The character in front of a segment is the last one of the text so far, and the one behind it is
the first one of the text to come. -/
theorem segments_eq_written {t : Text} {ps qs : List Segment} (h : IsRow t (ps ++ qs)) :
    (builtin rootValue unitPrecision minPixelValue unit).segments (joined ps).getLast? qs =
      written (entries (respelled rootValue unitPrecision minPixelValue unit) (joined ps) qs) := by
  induction qs generalizing ps with
  | nil => rfl
  | cons s qs ih =>
    have hrow : IsRow t ((ps ++ [s]) ++ qs) := by simpa using h
    have hjoined : joined (ps ++ [s]) = joined ps ++ s.text := by simp
    have htail := ih hrow
    rw [h.getLast?_joined, hjoined] at htail
    rw [entries, written_cons, ← htail]
    cases s with
    | char c => rfl
    | kept u => rfl
    | pixels n =>
      have hhead := respelled_eq rootValue unitPrecision minPixelValue unit h.isNumeral (joined ps)
        (joined qs)
      rw [head?_joined hrow] at hhead
      exact congrArg (· ++ _) hhead.symm

theorem replaceAll_eq_written (t : Text) :
    (builtin rootValue unitPrecision minPixelValue unit).replaceAll t =
      written (entries (respelled rootValue unitPrecision minPixelValue unit) [] (ofText t)) :=
  @segments_eq_written _ _ _ _ t [] _ (isRow_ofText t)

/-- Every text is a row whose lengths are the longest numerals in front of a `px` that is not
skipped, one for each such `px` with a digit in front of it, and the built-in conversion writes
these lengths anew and keeps all the rest. -/
theorem exists_row_replaceAll (t : Text) :
    ∃ ss : List Segment, joined ss = t ∧
      (∀ a n b, (∃ ps qs, ss = ps ++ pixels n :: qs ∧ joined ps = a ∧ joined qs = b) ↔
        t = a ++ n ++ pxSuffix ++ b ∧ LengthAt a n b) ∧
      (∀ v c b, t = v ++ pxSuffix ++ b → Reaches t (pxSuffix ++ b) →
        v.getLast? = some c → isDigit c = true → ∃ a n, v = a ++ n ∧ LengthAt a n b) ∧
      (builtin rootValue unitPrecision minPixelValue unit).replaceAll t =
        written (entries (respelled rootValue unitPrecision minPixelValue unit) [] ss) := by
  have hrow := isRow_ofText t
  refine ⟨ofText t, joined_ofText t, fun a n b => hrow.exists_split_iff, ?_,
    replaceAll_eq_written _ _ _ _ t⟩
  intro v c b ht hreaches hlast hc
  obtain ⟨ps, n, qs, hss, rfl, rfl⟩ := hrow.exists_pixels ht hreaches hlast hc
  rw [hss] at hrow
  exact ⟨joined ps, n, rfl, hrow.lengthAt⟩

end Converter

end PixelScale.Pixel
