import PixelScale.Proofs.Pixel.Recognition

/-!
# Converted text is stable

The built-in conversion finds nothing to convert in what it has written. A converted length ends with
a letter where `px` ended with one, so a length behind it stays touched, and a length that was kept
for its number still has the same number in front of the same `px`.

There are two exceptions. A length that becomes zero loses its unit: a length right behind it is
touched no longer, and may even have got another digit. And a unit that ends in `url` opens a group
if a parenthesis follows, so that another part of the text is skipped than before. Where neither
happens, a second conversion changes nothing.

* `Converter.Unjoined`: nothing that is converted joins up with what stands behind it.
* `Converter.not_convertible_written`: a length of a converted text is not converted.
* `Converter.replaceAll_replaceAll`: a second conversion changes nothing.
-/

namespace PixelScale.Pixel

open Text Numeral

namespace Segment

variable {write : Text → Text → Text → Text}

/-! ## Entries of a row -/

/-- What stands for the segments between `a` and `b`, told by the last one of them. -/
inductive Front (write : Text → Text → Text → Text) (a b : Text) : List Segment → Text → Prop
  | nil : Front write a b [] []
  | concat {ps : List Segment} {s : Segment} {v : Text} :
      Front write a b (ps ++ [s]) (v ++ spelled write (a ++ joined ps) s b)

theorem Front.cons {a b v : Text} {s : Segment} {ps : List Segment}
    (h : Front write (a ++ s.text) b ps v) :
    Front write a b (s :: ps) (spelled write a s (joined ps ++ b) ++ v) := by
  cases h with
  | nil => simpa using @Front.concat write a b [] s []
  | @concat ps s' v =>
    have := @Front.concat write a b (s :: ps) s' (spelled write a s (joined (ps ++ [s']) ++ b) ++ v)
    simpa using this

/-- What stands at a place of a row, in front of it, and behind it. -/
theorem entries_cases {a : Text} {ss : List Segment} {fs gs : List (Segment × Text)} {s : Segment}
    {o : Text} (h : entries write a ss = fs ++ (s, o) :: gs) :
    ∃ ps qs, ss = ps ++ s :: qs ∧ Front write a (joined (s :: qs)) ps (written fs) ∧
      o = spelled write (a ++ joined ps) s (joined qs) ∧
      gs = entries write (a ++ joined ps ++ s.text) qs := by
  induction fs generalizing a ss with
  | nil =>
    cases ss with
    | nil => cases h
    | cons s ss =>
      obtain ⟨hs, rfl⟩ := List.cons.inj h
      obtain ⟨rfl, rfl⟩ := Prod.mk.inj hs
      exact ⟨[], ss, rfl, .nil, by simp, by simp⟩
  | cons f fs ih =>
    cases ss with
    | nil => cases h
    | cons s' ss =>
      obtain ⟨rfl, htail⟩ := List.cons.inj h
      obtain ⟨ps, qs, rfl, hfront, ho, hgs⟩ := ih htail
      refine ⟨s' :: ps, qs, rfl, ?_, by simpa using ho, by simpa using hgs⟩
      simpa using hfront.cons

/-- If every length stays as it is, then so does the whole text. -/
theorem written_entries_eq {a : Text} {ss : List Segment}
    (h : ∀ ps n qs, ss = ps ++ pixels n :: qs →
      write (a ++ joined ps) n (joined qs) = n ++ pxSuffix) :
    written (entries write a ss) = joined ss := by
  induction ss generalizing a with
  | nil => rfl
  | cons s ss ih =>
    rw [entries, written_cons, joined_cons, ih]
    · congr 1
      cases s with
      | char c => rfl
      | kept u => rfl
      | pixels n =>
        have hn := h [] n ss rfl
        rwa [joined_nil, List.append_nil] at hn
    · intro ps n qs hss
      simpa using h (s :: ps) n qs (by rw [hss, List.cons_append])

/-- A number that reaches up to a `px` is a length if it cannot be made longer by the character in
front of it. -/
theorem LengthAt.eq_of_append_eq {a n b v m : Text} (h : LengthAt a n b) (heq : a ++ n = v ++ m)
    (hm : IsNumeral m) (hv : ∀ c ∈ v.getLast?, ¬ IsNumeral (c :: m)) : a = v ∧ n = m := by
  rcases List.append_eq_append_iff.mp heq with ⟨e, rfl, rfl⟩ | ⟨e, rfl, rfl⟩
  · rcases List.eq_nil_or_concat' e with rfl | ⟨e, c, rfl⟩
    · simp
    · refine absurd ?_ (hv c (by simp))
      have hright := h.numeral
      rw [List.append_assoc] at hright
      exact hright.right (by simp)
  · have hlength := h.longest v (e ++ n) (by simp) hm
    have : e = [] := by
      rw [List.length_append] at hlength
      exact List.length_eq_zero_iff.mp (by omega)
    simp [this]

end Segment

namespace Converter

open Segment

variable {rootValue minPixelValue : Float} {unitPrecision : Nat} {unit : Text}

/-! ## What is written for a length -/

/-- The letters of the words for what is no number. -/
def wordLetters : Text := ['N', 'a', 'i', 'n', 'f']

/-- The characters of a written double. -/
theorem mem_write_cases (x : Float) :
    ∀ c ∈ Layout.inText.write x, isPart c = true ∨ c ∈ wordLetters := by
  intro c hc
  rcases Layout.mem_write x with ⟨-, hpart⟩ | hword
  · left
    rcases hpart c hc with hc | rfl | rfl
    · simp [isPart, isDigit, hc]
    · rfl
    · rfl
  · have hwords : ∀ w ∈ ["NaN".toList, "inf".toList, "-inf".toList],
        w.all (fun c => c == '-' || wordLetters.contains c) = true := by
      decide
    rcases (Bool.or_eq_true _ _).mp (List.all_eq_true.mp (hwords _ hword) c hc) with hc | hc
    · obtain rfl := beq_iff_eq.mp hc
      exact .inl rfl
    · exact .inr (List.contains_iff_mem.mp hc)

theorem write_ne_nil (x : Float) : Layout.inText.write x ≠ [] := by
  rcases Layout.mem_write x with ⟨⟨d, hd, -⟩, -⟩ | hword
  · exact List.ne_nil_of_mem hd
  · have hwords : ∀ w ∈ ["NaN".toList, "inf".toList, "-inf".toList], w ≠ [] := by decide
    exact hwords _ hword

theorem inUnits_cases (n : Text) :
    inUnits rootValue unitPrecision unit n = ['0'] ∨
      ∃ x, inUnits rootValue unitPrecision unit n = Layout.inText.write x ++ unit := by
  simp only [inUnits]
  split
  · exact .inl rfl
  · exact .inr ⟨_, rfl⟩

/-- A character that is in no written double is in the unit. -/
theorem exists_unit {n v y : Text} {c : Char} (hpart : isPart c = false) (hword : c ∉ wordLetters)
    (h : inUnits rootValue unitPrecision unit n = v ++ c :: y) :
    inUnits rootValue unitPrecision unit n ≠ ['0'] ∧
      ∃ x z, v = Layout.inText.write x ++ z ∧ unit = z ++ c :: y := by
  have hzero : inUnits rootValue unitPrecision unit n ≠ ['0'] := by
    intro hzero
    rw [hzero] at h
    have hmem : c ∈ ['0'] := by
      rw [h]
      simp
    rw [List.mem_singleton.mp hmem] at hpart
    cases hpart
  obtain ⟨x, hx⟩ := (inUnits_cases n).resolve_left hzero
  have hnumber : c ∉ Layout.inText.write x := by
    intro hmem
    rcases mem_write_cases x c hmem with hc | hc
    · rw [hpart] at hc
      cases hc
    · exact hword hc
  rw [hx] at h
  obtain ⟨z, hv, hunit⟩ := exists_of_append_eq hnumber h
  exact ⟨hzero, x, z, hv, hunit⟩

/-- The characters that a segment of more than one character starts with, or what stands for it. -/
def starts (c : Char) : Bool := isPart c || opens c || wordLetters.contains c

/-- A segment of more than one character does so, and what stands for it as well. -/
theorem exists_starts {t a b : Text} {s : Segment} {ps qs : List Segment}
    (h : IsRow t (ps ++ s :: qs)) (hs : ∀ c, s ≠ .char c) :
    ∃ c v, spelled (respelled rootValue unitPrecision minPixelValue unit) a s b = c :: v ∧
      starts c = true := by
  cases s with
  | char c => exact absurd rfl (hs c)
  | kept u =>
    obtain ⟨c, v, rfl, hc⟩ := h.skipped.exists_cons
    exact ⟨c, v, rfl, by simp [starts, hc]⟩
  | pixels n =>
    show ∃ c v, respelled rootValue unitPrecision minPixelValue unit a n b = c :: v ∧ _
    unfold respelled
    split
    · rcases inUnits_cases n with hzero | ⟨x, hx⟩
      · exact ⟨'0', [], hzero, by decide⟩
      · obtain ⟨c, v, hcons⟩ := List.exists_cons_of_ne_nil (write_ne_nil x)
        refine ⟨c, v ++ unit, by rw [hx, hcons, List.cons_append], ?_⟩
        rcases mem_write_cases x c (by rw [hcons]; exact List.mem_cons_self) with hc | hc
        · simp [starts, hc]
        · simp only [starts, List.contains_iff_mem.mpr hc, Bool.or_true]
    · obtain ⟨c, v, rfl⟩ := List.exists_cons_of_ne_nil h.isNumeral.ne_nil
      exact ⟨c, v ++ pxSuffix, rfl, by simp [starts, h.isNumeral.part c List.mem_cons_self]⟩

/-- Any other character was there before. -/
theorem eq_char_of_written {t a y : Text} {ps qs : List Segment} {c : Char}
    (h : IsRow t (ps ++ qs)) (hc : starts c = false)
    (heq : written (entries (respelled rootValue unitPrecision minPixelValue unit) a qs) = c :: y) :
    ∃ qs', qs = .char c :: qs' ∧
      y = written (entries (respelled rootValue unitPrecision minPixelValue unit) (a ++ [c]) qs') := by
  cases qs with
  | nil => cases heq
  | cons s qs =>
    rw [entries, written_cons] at heq
    by_cases hs : ∃ d, s = .char d
    · obtain ⟨d, rfl⟩ := hs
      obtain ⟨rfl, rfl⟩ := List.cons.inj heq
      exact ⟨qs, rfl, rfl⟩
    · obtain ⟨d, v, hd, hstarts⟩ := @exists_starts rootValue minPixelValue unitPrecision unit t a
        (joined qs) s ps qs h (not_exists.mp hs)
      rw [hd, List.cons_append] at heq
      obtain ⟨rfl, -⟩ := List.cons.inj heq
      rw [hc] at hstarts
      cases hstarts

theorem eq_chars_of_written {t a y v : Text} {ps qs : List Segment} (h : IsRow t (ps ++ qs))
    (hv : ∀ c ∈ v, starts c = false)
    (heq : written (entries (respelled rootValue unitPrecision minPixelValue unit) a qs) = v ++ y) :
    ∃ qs', qs = v.map .char ++ qs' ∧ y =
      written (entries (respelled rootValue unitPrecision minPixelValue unit) (a ++ v) qs') := by
  induction v generalizing a ps qs with
  | nil => exact ⟨qs, rfl, by rw [List.append_nil, heq, List.nil_append]⟩
  | cons c v ih =>
    obtain ⟨hc, hv⟩ := List.forall_mem_cons.mp hv
    obtain ⟨qs', rfl, htail⟩ := eq_char_of_written h hc heq
    have hrow : IsRow t ((ps ++ [.char c]) ++ qs') := by simpa using h
    obtain ⟨qs, rfl, rfl⟩ := ih hrow hv htail.symm
    exact ⟨qs, rfl, by rw [List.append_assoc, List.singleton_append]⟩

/-- A letter at the start of what is left of a text is kept. -/
theorem touches_written {t a : Text} {ps qs : List Segment} (h : IsRow t (ps ++ qs))
    (htouches : touches (joined qs).head? = true) :
    touches (written (entries (respelled rootValue unitPrecision minPixelValue unit) a qs)).head? =
      true := by
  cases qs with
  | nil => cases htouches
  | cons s qs =>
    cases s with
    | char c => exact htouches
    | kept u =>
      obtain ⟨c, v, rfl, -⟩ := h.skipped.exists_cons
      exact htouches
    | pixels n =>
      obtain ⟨c, v, rfl⟩ := List.exists_cons_of_ne_nil h.isNumeral.ne_nil
      have hletter := isAlpha_of_isPart (h.isNumeral.part c List.mem_cons_self)
      have : c.isAlpha = true := htouches
      rw [hletter] at this
      cases this

theorem mem_respelled (hunit : ∀ c ∈ unit, c.isAlpha = true) {n : Text} (hn : IsNumeral n)
    (a b : Text) : ∀ c ∈ respelled rootValue unitPrecision minPixelValue unit a n b,
      isPart c = true ∨ c.isAlpha = true := by
  intro c hc
  unfold respelled at hc
  split at hc
  · rcases inUnits_cases n with hzero | ⟨x, hx⟩
    · rw [hzero] at hc
      rw [List.mem_singleton.mp hc]
      exact .inl rfl
    · rw [hx] at hc
      rcases List.mem_append.mp hc with hc | hc
      · refine (mem_write_cases x c hc).imp_right fun hc => ?_
        have hletters : wordLetters.all Char.isAlpha = true := rfl
        exact List.all_eq_true.mp hletters c hc
      · exact .inr (hunit c hc)
  · rcases List.mem_append.mp hc with hc | hc
    · exact .inl (hn.part c hc)
    · rcases List.mem_pair.mp hc with rfl | rfl
      · exact .inr rfl
      · exact .inr rfl

/-- A character that is written for no length stood in the text before. -/
theorem mem_joined_of_mem_written (hunit : ∀ c ∈ unit, c.isAlpha = true) {t a : Text}
    {ps qs : List Segment} {c : Char} (h : IsRow t (ps ++ qs)) (hpart : isPart c = false)
    (hletter : c.isAlpha = false)
    (hc : c ∈ written (entries (respelled rootValue unitPrecision minPixelValue unit) a qs)) :
    c ∈ joined qs := by
  induction qs generalizing a ps with
  | nil => cases hc
  | cons s qs ih =>
    rw [entries, written_cons] at hc
    rw [joined_cons]
    rcases List.mem_append.mp hc with hc | hc
    · refine List.mem_append_left _ ?_
      cases s with
      | char d => exact hc
      | kept u => exact hc
      | pixels n =>
        exfalso
        rcases mem_respelled hunit h.isNumeral a (joined qs) c hc with hc | hc
        · rw [hpart] at hc
          cases hc
        · rw [hletter] at hc
          cases hc
    · have hrow : IsRow t ((ps ++ [s]) ++ qs) := by simpa using h
      exact List.mem_append_right _ (ih hrow hc)

/-! ## What joins up with a converted length -/

/-- Nothing that is converted joins up with what stands behind it. -/
structure Unjoined (rootValue : Float) (unitPrecision : Nat) (minPixelValue : Float)
    (unit t : Text) : Prop where
  /-- A length right behind one that becomes a bare zero is touched by a letter behind it. -/
  zero : ∀ a n b, t = a ++ n ++ pxSuffix ++ b → LengthAt a n b →
    Convertible minPixelValue a n b → inUnits rootValue unitPrecision unit n = ['0'] →
    ∀ m c, IsNumeral m → b = m ++ pxSuffix ++ c → touches c.head? = true
  /-- If the unit ends as a group begins, no parenthesis follows it. -/
  group : "url".toList <:+ unit → ∀ a n b, t = a ++ n ++ pxSuffix ++ b → LengthAt a n b →
    Convertible minPixelValue a n b → inUnits rootValue unitPrecision unit n ≠ ['0'] →
    b.head? ≠ some '('

variable {t : Text}

/-- A character on its own is still on its own: what could be skipped from there on is closed where
it was closed before. -/
theorem plain_char (hunit : ∀ c ∈ unit, c.isAlpha = true) {a : Text} {ps qs : List Segment}
    {c : Char} (h : IsRow t (ps ++ qs)) (hc : Plain (c :: joined qs)) :
    Plain (c :: written (entries (respelled rootValue unitPrecision minPixelValue unit) a qs)) := by
  by_cases hopens : opens c = true
  · simp only [opens, Bool.or_eq_true, beq_iff_eq] at hopens
    rcases hopens with (rfl | rfl) | rfl
    · rw [plain_double_iff] at hc ⊢
      exact fun hmem => hc (mem_joined_of_mem_written hunit h (by decide) rfl hmem)
    · rw [plain_single_iff] at hc ⊢
      exact fun hmem => hc (mem_joined_of_mem_written hunit h (by decide) rfl hmem)
    · rw [plain_group_iff] at hc ⊢
      intro r hr hmem
      have hstarts : ∀ c ∈ ['r', 'l', '('], starts c = false := by
        simp only [List.forall_mem_cons]
        exact ⟨by decide, by decide, by decide, by simp⟩
      obtain ⟨qs, rfl, rfl⟩ := eq_chars_of_written h hstarts hr
      have hrow : IsRow t ((ps ++ [.char 'r', .char 'l', .char '(']) ++ qs) := by simpa using h
      exact hc _ rfl (mem_joined_of_mem_written hunit hrow (by decide) rfl hmem)
  · exact plain_of_opens (Bool.eq_false_iff.mpr hopens) _

/-- The letters at the start of a text. -/
theorem eq_of_letters {y w v r : Text} (hy : ∀ c ∈ y, c.isAlpha = true)
    (hv : ∀ c ∈ v, c.isAlpha = true) (hw : ¬ touches w.head?) (hr : ¬ touches r.head?)
    (h : y ++ w = v ++ r) : y = v ∧ w = r := by
  rcases List.append_eq_append_iff.mp h with ⟨e, rfl, rfl⟩ | ⟨e, rfl, rfl⟩
  · cases e with
    | nil => simp
    | cons c e => exact absurd (hv c (by simp)) hw
  · cases e with
    | nil => simp
    | cons c e => exact absurd (hy c (by simp)) hr

/-- A length right behind another one stays as it is. -/
theorem respelled_behind (a n m b : Text) :
    respelled rootValue unitPrecision minPixelValue unit (a ++ (pixels n).text) m b =
      m ++ pxSuffix := by
  refine if_neg fun hconvertible => hconvertible.2.1 ?_
  rw [List.getLast?_append_of_ne_nil _ (by simp [text, pxSuffix]), getLast?_pixels]
  rfl

/-- No letter comes to stand right behind a length where there was none. -/
theorem not_touches_written {a n : Text} {ps qs : List Segment}
    (h : IsRow t (ps ++ pixels n :: qs)) (hnext : ¬ touches (joined qs).head?) :
    ¬ touches (written (entries (respelled rootValue unitPrecision minPixelValue unit)
      (a ++ (pixels n).text) qs)).head? := by
  cases qs with
  | nil => exact hnext
  | cons s qs =>
    have hrow : IsRow t ((ps ++ [pixels n]) ++ s :: qs) := by simpa using h
    cases s with
    | char c => exact hnext
    | kept u =>
      obtain ⟨c, v, rfl, -⟩ := hrow.skipped.exists_cons
      exact hnext
    | pixels m =>
      rw [entries, spelled, respelled_behind]
      obtain ⟨c, v, rfl⟩ := List.exists_cons_of_ne_nil hrow.isNumeral.ne_nil
      exact hnext

/-- The unit does not begin a group. -/
theorem plain_unit (hunit : ∀ c ∈ unit, c.isAlpha = true)
    (ht : Unjoined rootValue unitPrecision minPixelValue unit t) {n v y : Text}
    {ps qs : List Segment} (h : IsRow t (ps ++ pixels n :: qs))
    (heq : respelled rootValue unitPrecision minPixelValue unit (joined ps) n (joined qs) =
      v ++ 'u' :: y) :
    Plain ('u' :: y ++ written (entries (respelled rootValue unitPrecision minPixelValue unit)
      (joined ps ++ (pixels n).text) qs)) := by
  unfold respelled at heq
  split at heq
  · rename_i hconvertible
    have hrow : IsRow t ((ps ++ [pixels n]) ++ qs) := by simpa using h
    obtain ⟨htext, hlength⟩ := h.exists_split_iff.mp ⟨ps, qs, rfl, rfl, rfl⟩
    obtain ⟨hzero, -, z, -, rfl⟩ := exists_unit (by decide) (by decide) heq
    refine plain_group_iff.mpr fun r hr _ => ?_
    have hy : ∀ c ∈ y, c.isAlpha = true :=
      fun c hc => hunit c (List.mem_append_right _ (List.mem_cons_of_mem _ hc))
    have hrl : ∀ c ∈ ['r', 'l'], c.isAlpha = true := List.all_eq_true.mp rfl
    obtain ⟨rfl, hr⟩ := @eq_of_letters y _ ['r', 'l'] ('(' :: r) hy hrl
      (not_touches_written h hconvertible.2.2.1) Bool.false_ne_true hr
    obtain ⟨qs', rfl, -⟩ := eq_char_of_written hrow (by decide) hr
    exact ht.group ⟨z, rfl⟩ _ _ _ htext hlength hconvertible hzero rfl
  · have hmem : 'u' ∈ n ++ pxSuffix := by
      rw [heq]
      simp
    exact absurd (h.opens_pixels _ hmem) (by decide)

/-- Of the characters that something skipped can start with, only the letter can be written for a
length. -/
theorem eq_of_opens {c : Char} (hc : isPart c = true ∨ c.isAlpha = true) (hopens : opens c = true) :
    c = 'u' := by
  simp only [opens, Bool.or_eq_true, beq_iff_eq] at hopens
  rcases hopens with (rfl | rfl) | rfl
  · rcases hc with hc | hc
    · exact absurd hc (by decide)
    · exact absurd hc (by decide)
  · rcases hc with hc | hc
    · exact absurd hc (by decide)
    · exact absurd hc (by decide)
  · rfl

/-- In a converted text exactly the kept segments of the text are skipped. -/
theorem aligned_entries (hunit : ∀ c ∈ unit, c.isAlpha = true)
    (ht : Unjoined rootValue unitPrecision minPixelValue unit t) {ps qs : List Segment}
    (h : IsRow t (ps ++ qs)) :
    Aligned (entries (respelled rootValue unitPrecision minPixelValue unit) (joined ps) qs) := by
  induction qs generalizing ps with
  | nil => exact .nil
  | cons s qs ih =>
    have hrow : IsRow t ((ps ++ [s]) ++ qs) := by simpa using h
    have htail := ih hrow
    rw [joined_append, joined_cons, joined_nil, List.append_nil] at htail
    rw [entries]
    cases s with
    | kept u => exact .kept h.skipped htail
    | char c =>
      refine .other (fun u hu => by cases hu) (fun v v' hv hne => ?_) htail
      rcases List.cons_eq_append_iff.mp hv with ⟨rfl, rfl⟩ | ⟨w, rfl, hw⟩
      · exact plain_char hunit hrow (first?_eq_none_iff.mp h.right.first?_char).1
      · exact absurd (List.append_eq_nil_iff.mp hw.symm).2 hne
    | pixels n =>
      refine .other (fun u hu => by cases hu) (fun v v' hv hne => ?_) htail
      obtain ⟨c, y, rfl⟩ := List.exists_cons_of_ne_nil hne
      by_cases hopens : opens c = true
      · have hmem : c ∈ respelled rootValue unitPrecision minPixelValue unit (joined ps) n
            (joined qs) := by
          rw [show respelled _ _ _ _ _ _ _ = _ from hv]
          simp
        have hc := eq_of_opens (mem_respelled hunit h.isNumeral _ _ _ hmem) hopens
        rw [hc] at hv ⊢
        exact plain_unit hunit ht h hv
      · exact plain_of_opens (Bool.eq_false_iff.mpr hopens) _

/-! ## The lengths of a converted text -/

theorem exists_concat_of_touches {v : Text} (h : touches v.getLast? = true) :
    ∃ w c, v = w ++ [c] ∧ c.isAlpha = true := by
  rcases List.eq_nil_or_concat' v with rfl | ⟨w, c, rfl⟩
  · cases h
  · exact ⟨w, c, rfl, by simpa [touches] using h⟩

/-- A letter in front of a length is still followed by a letter, unless another letter touches the
length from behind. -/
theorem touches_spelled (hne : unit ≠ []) (hunit : ∀ c ∈ unit, c.isAlpha = true)
    (ht : Unjoined rootValue unitPrecision minPixelValue unit t) {n : Text} {s : Segment}
    {ps qs : List Segment} (h : IsRow t (ps ++ s :: pixels n :: qs))
    (hlast : touches s.text.getLast? = true) (hnext : ¬ touches (joined qs).head?) :
    touches (spelled (respelled rootValue unitPrecision minPixelValue unit) (joined ps) s
      (joined (pixels n :: qs))).getLast? = true := by
  cases s with
  | char c => exact hlast
  | kept u => exact hlast
  | pixels m =>
    show touches (respelled _ _ _ _ _ _ _).getLast? = true
    unfold respelled
    split
    · rename_i hconvertible
      rcases inUnits_cases m with hzero | ⟨x, hx⟩
      · exfalso
        obtain ⟨htext, hlength⟩ := h.exists_split_iff.mp ⟨ps, _, rfl, rfl, rfl⟩
        have hrow : IsRow t ((ps ++ [pixels m]) ++ pixels n :: qs) := by simpa using h
        exact hnext (ht.zero _ _ _ htext hlength hconvertible hzero n _ hrow.isNumeral rfl)
      · rw [hx, List.getLast?_append_of_ne_nil _ hne, List.getLast?_eq_some_getLast hne]
        exact hunit _ (List.getLast_mem hne)
    · rw [show m ++ pxSuffix = (pixels m).text from rfl, getLast?_pixels]
      rfl

/-- What stands in front of a length that no letter touches is what stood there before. -/
theorem getLast?_front {write : Text → Text → Text → Text} {v b : Text} {ps qs : List Segment}
    (h : IsRow t (ps ++ qs)) (hfront : Front write [] b ps v)
    (hlast : ¬ touches (joined ps).getLast?) : v.getLast? = (joined ps).getLast? := by
  cases hfront with
  | nil => rfl
  | @concat ps s v =>
    have hrow : IsRow t (ps ++ s :: qs) := by simpa using h
    rw [hrow.getLast?_joined] at hlast ⊢
    have hs : spelled write ([] ++ joined ps) s b = s.text := by
      cases s with
      | char c => rfl
      | kept u => rfl
      | pixels k =>
        refine absurd ?_ hlast
        rw [getLast?_pixels]
        rfl
    rw [hs, List.getLast?_append_of_ne_nil _ hrow.text_ne_nil]

/-- A length that was kept is kept again. -/
theorem not_convertible_of_kept (hne : unit ≠ []) (hunit : ∀ c ∈ unit, c.isAlpha = true)
    (ht : Unjoined rootValue unitPrecision minPixelValue unit t) {m v a n b : Text}
    {ps qs : List Segment} (h : IsRow t (ps ++ pixels m :: qs))
    (hm : ¬ Convertible minPixelValue (joined ps) m (joined qs))
    (hfront : Front (respelled rootValue unitPrecision minPixelValue unit) []
      (joined (pixels m :: qs)) ps v)
    (hlength : LengthAt a n b) (heq : a ++ n = v ++ m)
    (hb : b = written (entries (respelled rootValue unitPrecision minPixelValue unit)
      (joined ps ++ (pixels m).text) qs)) :
    ¬ Convertible minPixelValue a n b := by
  rintro ⟨hascii, ha, hbehind, hbelow⟩
  have hrow : IsRow t ((ps ++ [pixels m]) ++ qs) := by simpa using h
  have hnext : ¬ touches (joined qs).head? := by
    intro hnext
    rw [hb] at hbehind
    exact hbehind (touches_written hrow hnext)
  have hlast : ¬ touches (joined ps).getLast? := by
    intro hlast
    cases hfront with
    | nil => cases hlast
    | @concat ps s v =>
      have hrow : IsRow t (ps ++ s :: pixels m :: qs) := by simpa using h
      rw [hrow.getLast?_joined] at hlast
      obtain ⟨w, c, hw, hletter⟩ :=
        exists_concat_of_touches (touches_spelled hne hunit ht hrow hlast hnext)
      rw [List.nil_append, hw, ← List.append_assoc v] at heq
      -- the letter begins no longer number
      have hend : ∀ d ∈ (v ++ w ++ [c]).getLast?, ¬ IsNumeral (d :: m) := by
        intro d hd hnumeral
        obtain rfl : c = d := by simpa using hd
        rw [isAlpha_of_isPart (hnumeral.part c List.mem_cons_self)] at hletter
        cases hletter
      obtain ⟨rfl, -⟩ := hlength.eq_of_append_eq heq h.isNumeral hend
      exact ha (by simpa [touches] using hletter)
  have hend : ∀ c ∈ v.getLast?, ¬ IsNumeral (c :: m) := by
    intro c hc hnumeral
    rw [getLast?_front h hfront hlast] at hc
    obtain ⟨w, hw⟩ := List.getLast?_eq_some_iff.mp hc
    refine h.not_prefix hw (by simp) hnumeral ?_
    rw [joined_cons]
    exact List.prefix_append _ _
  obtain ⟨-, rfl⟩ := hlength.eq_of_append_eq heq h.isNumeral hend
  exact hm ⟨hascii, hlast, hnext, hbelow⟩

/-- A `p` that belongs to no length does not become a part of one. -/
theorem not_px_of_char {v y : Text} {ps qs : List Segment} (h : IsRow t (ps ++ .char 'p' :: qs))
    (hfront : Front (respelled rootValue unitPrecision minPixelValue unit) []
      (joined (.char 'p' :: qs)) ps v)
    {d : Char} (hlast : v.getLast? = some d) (hd : isDigit d = true)
    (hx : written (entries (respelled rootValue unitPrecision minPixelValue unit)
      (joined ps ++ ['p']) qs) = 'x' :: y) : False := by
  have hrow : IsRow t ((ps ++ [.char 'p']) ++ qs) := by simpa using h
  obtain ⟨qs, rfl, -⟩ := eq_char_of_written hrow (by decide) hx
  cases hfront with
  | nil => cases hlast
  | @concat ps s v =>
    have hrow : IsRow t (ps ++ s :: .char 'p' :: .char 'x' :: qs) := by simpa using h
    have hpart : isPart d = true := by simp [isPart, hd]
    -- a length in front of the letter `p` is not converted
    have hs : spelled (respelled rootValue unitPrecision minPixelValue unit) ([] ++ joined ps) s
        (joined (.char 'p' :: .char 'x' :: qs)) = s.text := by
      cases s with
      | char c => rfl
      | kept u => rfl
      | pixels k => exact if_neg fun hconvertible => hconvertible.2.2.1 rfl
    rw [hs, List.getLast?_append_of_ne_nil _ hrow.text_ne_nil] at hlast
    obtain rfl := hrow.eq_char_of_getLast? hlast hpart
    refine h.not_prefix (a := joined ps) (m := [d]) (n := []) ?_ (by simp) (isNumeral_digit hd) ?_
    · simp [text]
    · exact ⟨joined qs, rfl⟩

/-- The unit of a converted length does not become a part of a length. -/
theorem not_convertible_of_unit (hunit : ∀ c ∈ unit, c.isAlpha = true) (hpx : unit ≠ pxSuffix)
    {m v y z a n b : Text} {ps qs : List Segment} (h : IsRow t (ps ++ pixels m :: qs))
    (hm : Convertible minPixelValue (joined ps) m (joined qs))
    (hy : inUnits rootValue unitPrecision unit m = y ++ 'p' :: z) (hn : IsNumeral n)
    (heq : a ++ n = v ++ y)
    (hb : pxSuffix ++ b = 'p' :: z ++
      written (entries (respelled rootValue unitPrecision minPixelValue unit)
        (joined ps ++ (pixels m).text) qs)) :
    ¬ Convertible minPixelValue a n b := by
  rintro ⟨-, -, hbehind, -⟩
  obtain ⟨-, x, w, rfl, hw⟩ := exists_unit (by decide) (by decide) hy
  -- the number ends with a digit, so the unit begins with the `p`
  obtain ⟨d, hlast, hd⟩ := hn.exists_getLast?
  have hw' : w = [] := by
    rcases List.eq_nil_or_concat' w with rfl | ⟨w, c, rfl⟩
    · rfl
    · have hend : (a ++ n).getLast? = some c := by
        rw [heq]
        simp
      rw [List.getLast?_append_of_ne_nil _ hn.ne_nil, hlast] at hend
      cases hend
      have hletter := hunit d (by rw [hw]; simp)
      rw [isAlpha_of_isPart (by simp [isPart, hd])] at hletter
      cases hletter
  subst hw'
  have hpx' : ∀ c ∈ pxSuffix, c.isAlpha = true := List.all_eq_true.mp rfl
  obtain ⟨hunit', -⟩ := eq_of_letters hpx' (fun c hc => hunit c (by rw [hw]; exact hc)) hbehind
    (not_touches_written h hm.2.2.1) hb
  exact hpx (by rw [hw, hunit']; rfl)

/-- No length of a converted text is converted. -/
theorem not_convertible_written (hne : unit ≠ []) (hunit : ∀ c ∈ unit, c.isAlpha = true)
    (hpx : unit ≠ pxSuffix) (ht : Unjoined rootValue unitPrecision minPixelValue unit t)
    {a n b : Text}
    (hw : (builtin rootValue unitPrecision minPixelValue unit).replaceAll t =
      a ++ n ++ pxSuffix ++ b)
    (hlength : LengthAt a n b) : ¬ Convertible minPixelValue a n b := by
  have hrow := isRow_ofText t
  have haligned : Aligned
      (entries (respelled rootValue unitPrecision minPixelValue unit) [] (ofText t)) :=
    @aligned_entries _ _ _ _ t hunit ht [] _ hrow
  rw [replaceAll_eq_written] at hw
  have hreaches := hlength.outside
  rw [← hw] at hreaches
  obtain ⟨fs, s, v, v', gs, hes, hr, hv', hkept⟩ :=
    (haligned.reaches_iff (by simp [pxSuffix])).mp hreaches
  obtain ⟨z, rfl, hb⟩ : ∃ z, v' = 'p' :: z ∧ 'x' :: b = z ++ written gs := by
    rcases List.cons_eq_append_iff.mp hr with ⟨rfl, -⟩ | ⟨z, rfl, hz⟩
    · exact absurd rfl hv'
    · exact ⟨z, rfl, hz⟩
  have heq : a ++ n = written fs ++ v := by
    have hwhole : a ++ n ++ (pxSuffix ++ b) = written fs ++ v ++ (pxSuffix ++ b) := by
      rw [← List.append_assoc, ← hw, hes, hr]
      simp
    exact List.append_cancel_right hwhole
  obtain ⟨ps, qs, hss, hfront, ho, rfl⟩ := entries_cases hes
  rw [hss] at hrow
  rw [List.nil_append] at ho hr hb
  cases s with
  | char c =>
    exfalso
    rcases List.append_eq_cons_iff.mp ho with ⟨rfl, hc⟩ | ⟨v, -, hnil⟩
    · obtain ⟨rfl, rfl⟩ := List.cons.inj hc
      obtain ⟨d, hlast, hd⟩ := hlength.numeral.exists_getLast?
      have hend : (written fs).getLast? = some d := by
        rw [List.append_nil] at heq
        rw [← heq, List.getLast?_append_of_ne_nil _ hlength.numeral.ne_nil, hlast]
      exact not_px_of_char hrow hfront hend hd hb.symm
    · simp at hnil
  | kept u =>
    obtain rfl := hkept ⟨u, rfl⟩
    obtain ⟨d, w, rfl, hd⟩ := hrow.skipped.exists_cons
    obtain ⟨rfl, -⟩ := List.cons.inj (show 'p' :: z = d :: w from ho)
    exact absurd hd (by decide)
  | pixels m =>
    change v ++ 'p' :: z = respelled _ _ _ _ _ _ _ at ho
    by_cases hm : Convertible minPixelValue (joined ps) m (joined qs)
    · rw [respelled, if_pos hm] at ho
      exact not_convertible_of_unit hunit hpx hrow hm ho.symm hlength.numeral heq hr
    · rw [respelled, if_neg hm] at ho
      obtain ⟨rfl, rfl⟩ := eq_of_append_pxSuffix (not_mem_numeral hrow.isNumeral) ho.symm
      exact not_convertible_of_kept hne hunit ht hrow hm hfront hlength heq (List.cons.inj hb).2

/-- A second conversion changes nothing, where nothing joins up with a converted length. -/
theorem replaceAll_replaceAll (hne : unit ≠ []) (hunit : ∀ c ∈ unit, c.isAlpha = true)
    (hpx : unit ≠ pxSuffix) (ht : Unjoined rootValue unitPrecision minPixelValue unit t) :
    (builtin rootValue unitPrecision minPixelValue unit).replaceAll
        ((builtin rootValue unitPrecision minPixelValue unit).replaceAll t) =
      (builtin rootValue unitPrecision minPixelValue unit).replaceAll t := by
  generalize hw : (builtin rootValue unitPrecision minPixelValue unit).replaceAll t = w
  rw [replaceAll_eq_written, written_entries_eq, joined_ofText]
  intro ps n qs hss
  obtain ⟨hsplit, hlength⟩ := (isRow_ofText w).exists_split_iff.mp ⟨ps, qs, hss, rfl, rfl⟩
  rw [List.nil_append]
  exact if_neg (not_convertible_written hne hunit hpx ht (hw.trans hsplit) hlength)

/-- Lengths with a space in between are converted once and for all. -/
theorem replaceAll_replaceAll_spaced :
    ∃ unit t : Text, unit = "rem".toList ∧ t = "16px 0px".toList ∧ unit ≠ [] ∧
      (∀ c ∈ unit, c.isAlpha = true) ∧ unit ≠ pxSuffix ∧ Unjoined 16 5 0 unit t ∧
      (builtin 16 5 0 unit).replaceAll ((builtin 16 5 0 unit).replaceAll t) =
        (builtin 16 5 0 unit).replaceAll t := by
  refine ⟨_, _, rfl, rfl, ?hne, ?hunit, ?hpx, ?ht, replaceAll_replaceAll ?hne ?hunit ?hpx ?ht⟩
  case hne => decide
  case hunit => exact List.all_eq_true.mp rfl
  case hpx => decide
  case ht =>
    refine ⟨fun a n b htext hlength _ _ m c hm hb => ?_, fun hgroup => absurd hgroup (by decide)⟩
    obtain ⟨ps, qs, hss, -, rfl⟩ := (isRow_ofText _).exists_split_iff.mpr ⟨htext, hlength⟩
    have hrow : ofText "16px 0px".toList =
        [.pixels "16".toList, .char ' ', .pixels "0".toList] := by
      decide
    obtain ⟨d, m, rfl⟩ := List.exists_cons_of_ne_nil hm.ne_nil
    have hqs : qs = [.char ' ', .pixels "0".toList] ∨ qs = [] := by
      rw [hrow] at hss
      match ps, hss with
      | [], hss => exact .inl (List.cons.inj hss).2.symm
      | [_], hss => exact absurd (List.cons.inj (List.cons.inj hss).2).1 nofun
      | [_, _], hss => exact .inr (List.cons.inj (List.cons.inj (List.cons.inj hss).2).2).2.symm
      | _ :: _ :: _ :: ps, hss => simp at hss
    rcases hqs with rfl | rfl
    · obtain ⟨rfl, -⟩ : ' ' = d ∧ _ := List.cons.inj hb
      exact absurd (hm.part ' ' List.mem_cons_self) (by decide)
    · cases hb

end Converter

end PixelScale.Pixel
