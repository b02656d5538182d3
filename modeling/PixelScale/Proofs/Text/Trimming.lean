import Mathlib
import PixelScale.Text.Blank

/-!
# Trimming and splitting

What remains of a text after trimming, and how a text falls into three parts around it. A text
that starts and ends in no white space is `Trimmed`; blanks around such a text are exactly what
`trimBlank` takes away.

* `trimBlank_frame`: blanks around a trimmed text are removed and nothing else.
* `exists_frame`: every text is its trimmed part with blanks around it.
* `splitFirst_eq_some_iff`, `splitLast_eq_some_iff`: where a text is split.
-/

namespace PixelScale.Text

/-- A text of white space only. -/
def Blank (t : Text) : Prop := ∀ c ∈ t, isBlank c = true

instance (t : Text) : Decidable (Blank t) :=
  decidable_of_iff (t.all isBlank = true) List.all_eq_true

/-- No white space at the start. -/
def SharpLeft (t : Text) : Prop := ∀ c ∈ t.head?, isBlank c = false

/-- No white space at the end. -/
def SharpRight (t : Text) : Prop := ∀ c ∈ t.getLast?, isBlank c = false

instance (t : Text) : Decidable (SharpLeft t) :=
  decidable_of_iff (t.head?.any isBlank = false) (by cases h : t.head? <;> simp [SharpLeft, h])

instance (t : Text) : Decidable (SharpRight t) :=
  decidable_of_iff (t.getLast?.any isBlank = false)
    (by cases h : t.getLast? <;> simp [SharpRight, h])

/-- No white space at either end. -/
structure Trimmed (t : Text) : Prop where
  left : SharpLeft t
  right : SharpRight t

@[simp] theorem blank_nil : Blank [] := by simp [Blank]

@[simp] theorem blank_cons {c : Char} {t : Text} : Blank (c :: t) ↔ isBlank c = true ∧ Blank t := by
  simp [Blank]

@[simp] theorem blank_append {s t : Text} : Blank (s ++ t) ↔ Blank s ∧ Blank t := by
  simp only [Blank, List.mem_append, or_imp, forall_and]

instance (t : Text) : Decidable (Trimmed t) :=
  decidable_of_iff (SharpLeft t ∧ SharpRight t) ⟨fun h => ⟨h.1, h.2⟩, fun h => ⟨h.left, h.right⟩⟩

theorem trimmed_nil : Trimmed [] := ⟨by simp [SharpLeft], by simp [SharpRight]⟩

theorem sharpLeft_cons {c : Char} {t : Text} : SharpLeft (c :: t) ↔ isBlank c = false := by
  simp [SharpLeft]

theorem SharpLeft.append {s t : Text} (hs : SharpLeft s) (ht : s = [] → SharpLeft t) :
    SharpLeft (s ++ t) := by
  cases s with
  | nil => exact ht rfl
  | cons c s => exact sharpLeft_cons.mpr (sharpLeft_cons.mp hs)

theorem SharpRight.append {s t : Text} (ht : SharpRight t) (hs : t = [] → SharpRight s) :
    SharpRight (s ++ t) := by
  rcases eq_or_ne t [] with rfl | hne
  · simpa using hs rfl
  · intro c hc
    rw [List.getLast?_append_of_ne_nil s hne] at hc
    exact ht c hc

theorem Blank.eq_nil_of_sharpLeft {t : Text} (hb : Blank t) (h : SharpLeft t) : t = [] := by
  cases t with
  | nil => rfl
  | cons c t => simp_all [sharpLeft_cons]

/-! ## At the start -/

theorem trimBlankLeft_blank_append {b : Text} (hb : Blank b) (t : Text) :
    trimBlankLeft (b ++ t) = trimBlankLeft t := by
  induction b with
  | nil => rfl
  | cons c b ih =>
    obtain ⟨hc, hb⟩ := blank_cons.mp hb
    simpa [trimLeft, hc] using ih hb

theorem trimBlankLeft_eq_self {t : Text} (h : SharpLeft t) : trimBlankLeft t = t := by
  cases t with
  | nil => rfl
  | cons c t => simp [trimLeft, sharpLeft_cons.mp h]

theorem sharpLeft_trimBlankLeft (t : Text) : SharpLeft (trimBlankLeft t) := by
  induction t with
  | nil => simp [SharpLeft, trimLeft]
  | cons c t ih =>
    cases hc : isBlank c with
    | true => simpa [trimLeft, hc] using ih
    | false => simp [trimLeft, hc, sharpLeft_cons]

theorem exists_blank_append_trimBlankLeft (t : Text) :
    ∃ b, Blank b ∧ t = b ++ trimBlankLeft t :=
  ⟨t.takeWhile isBlank, fun _ hc => (List.mem_takeWhile_imp hc),
    (List.takeWhile_append_dropWhile).symm⟩

/-! ## At the end -/

theorem trimBlankRight_cons (c : Char) (t : Text) :
    trimBlankRight (c :: t) =
      if trimBlankRight t = [] ∧ isBlank c = true then [] else c :: trimBlankRight t := by
  simp only [trimBlankRight, trimRight]
  split
  · rename_i h
    cases hc : isBlank c <;> simp [h]
  · rename_i h
    simp [h]

theorem trimBlankRight_eq_nil_iff {t : Text} : trimBlankRight t = [] ↔ Blank t := by
  induction t with
  | nil => simp [trimRight]
  | cons c t ih =>
    simp only [trimBlankRight_cons, ih, blank_cons]
    split
    · rename_i h
      simp [h]
    · rename_i h
      simpa [and_comm] using h

theorem trimBlankRight_append_blank (t : Text) {b : Text} (hb : Blank b) :
    trimBlankRight (t ++ b) = trimBlankRight t := by
  induction t with
  | nil => simpa [trimRight] using trimBlankRight_eq_nil_iff.mpr hb
  | cons c t ih => rw [List.cons_append, trimBlankRight_cons, trimBlankRight_cons, ih]

theorem trimBlankRight_eq_self {t : Text} (h : SharpRight t) : trimBlankRight t = t := by
  induction t with
  | nil => rfl
  | cons c t ih =>
    rw [trimBlankRight_cons]
    rcases eq_or_ne t [] with rfl | hne
    · have hc : isBlank c = false := h c rfl
      simp [trimRight, hc]
    · have ht : SharpRight t := fun d hd => h d (by rw [List.getLast?_cons_of_ne_nil hne]; exact hd)
      rw [ih ht, if_neg (by simp [hne])]

theorem sharpRight_trimBlankRight (t : Text) : SharpRight (trimBlankRight t) := by
  induction t with
  | nil => simp [SharpRight, trimRight]
  | cons c t ih =>
    rw [trimBlankRight_cons]
    split
    · simp [SharpRight]
    · rename_i h
      refine SharpRight.append (s := [c]) ih fun hn => ?_
      have hc : isBlank c = false := by simpa [hn] using h
      simpa [SharpRight] using hc

theorem exists_trimBlankRight_append_blank (t : Text) :
    ∃ b, Blank b ∧ t = trimBlankRight t ++ b := by
  induction t with
  | nil => exact ⟨[], by simp, rfl⟩
  | cons c t ih =>
    obtain ⟨b, hb, ht⟩ := ih
    rw [trimBlankRight_cons]
    split
    · rename_i h
      exact ⟨c :: t, blank_cons.mpr ⟨h.2, trimBlankRight_eq_nil_iff.mp h.1⟩, rfl⟩
    · exact ⟨b, hb, congrArg (c :: ·) ht⟩

/-! ## At both ends -/

theorem trimBlank_eq (t : Text) : trimBlank t = trimBlankRight (trimBlankLeft t) := rfl

theorem trimmed_trimBlank (t : Text) : Trimmed (trimBlank t) := by
  refine ⟨?_, sharpRight_trimBlankRight _⟩
  obtain ⟨b, hb, ht⟩ := exists_trimBlankRight_append_blank (trimBlankLeft t)
  have hl := sharpLeft_trimBlankLeft t
  intro c hc
  refine hl c ?_
  rw [ht]
  rw [trimBlank_eq] at hc
  rw [List.head?_append, hc]
  rfl

theorem trimBlank_eq_self {t : Text} (h : Trimmed t) : trimBlank t = t := by
  rw [trimBlank_eq, trimBlankLeft_eq_self h.left, trimBlankRight_eq_self h.right]

/-- Blanks around a trimmed text are removed and nothing else. -/
theorem trimBlank_frame {a m b : Text} (ha : Blank a) (hm : Trimmed m) (hb : Blank b) :
    trimBlank (a ++ m ++ b) = m := by
  rw [trimBlank_eq, List.append_assoc, trimBlankLeft_blank_append ha]
  rcases eq_or_ne m [] with rfl | hne
  · have hl := sharpLeft_trimBlankLeft b
    obtain ⟨c, -, hbl⟩ := exists_blank_append_trimBlankLeft b
    have : Blank (trimBlankLeft b) := by rw [hbl] at hb; exact (blank_append.mp hb).2
    simp [this.eq_nil_of_sharpLeft hl, trimRight]
  · rw [trimBlankLeft_eq_self (hm.left.append fun h => absurd h hne),
      trimBlankRight_append_blank _ hb, trimBlankRight_eq_self hm.right]

/-- Every text is its trimmed part with blanks around it. Where nothing but blanks is there, all of
them stand in front. -/
theorem exists_frame (t : Text) :
    ∃ a b, Blank a ∧ Blank b ∧ t = a ++ trimBlank t ++ b ∧ trimBlankLeft t = trimBlank t ++ b ∧
      (trimBlank t = [] → b = []) := by
  obtain ⟨a, ha, hat⟩ := exists_blank_append_trimBlankLeft t
  obtain ⟨b, hb, hbt⟩ := exists_trimBlankRight_append_blank (trimBlankLeft t)
  refine ⟨a, b, ha, hb, ?_, hbt, ?_⟩
  · rw [List.append_assoc]
    exact hat.trans (congrArg (a ++ ·) hbt)
  · intro h
    have hl := sharpLeft_trimBlankLeft t
    rw [hbt] at hl
    change trimBlankRight (trimBlankLeft t) = [] at h
    rw [h, List.nil_append] at hl
    exact hb.eq_nil_of_sharpLeft hl

/-! ## Splitting -/

theorem splitFirst_eq_some_iff {x : Char} {t a b : Text} :
    splitFirst x t = some (a, b) ↔ t = a ++ x :: b ∧ x ∉ a := by
  induction t generalizing a with
  | nil => simp [splitFirst]
  | cons c t ih =>
    simp only [splitFirst]
    split
    · rename_i hc
      subst hc
      constructor
      · intro h
        cases h
        simp
      · rintro ⟨h, hx⟩
        cases a with
        | nil => simp_all
        | cons d a => simp_all
    · rename_i hc
      simp only [Option.map_eq_some_iff, Prod.mk.injEq, Prod.exists]
      constructor
      · rintro ⟨a', b', h, rfl, rfl⟩
        obtain ⟨rfl, hx⟩ := ih.mp h
        exact ⟨rfl, by simpa [Ne.symm hc] using hx⟩
      · rintro ⟨h, hx⟩
        cases a with
        | nil => simp_all
        | cons d a =>
          obtain ⟨rfl, rfl⟩ : c = d ∧ t = a ++ x :: b := by simpa using h
          exact ⟨a, b, ih.mpr ⟨rfl, fun h => hx (by simp [h])⟩, rfl, rfl⟩

theorem splitLast_eq_none_iff {x : Char} {t : Text} : splitLast x t = none ↔ x ∉ t := by
  induction t with
  | nil => simp [splitLast]
  | cons c t ih =>
    simp only [splitLast]
    cases h : splitLast x t with
    | some p =>
      have hx : x ∈ t := by
        by_contra hx
        rw [ih.mpr hx] at h
        cases h
      simp [hx]
    | none =>
      have hx := ih.mp h
      by_cases hc : x = c <;> simp [hc, hx, eq_comm (a := c)]

theorem splitLast_eq_some_iff {x : Char} {t a b : Text} :
    splitLast x t = some (a, b) ↔ t = a ++ x :: b ∧ x ∉ b := by
  induction t generalizing a b with
  | nil => simp [splitLast]
  | cons c t ih =>
    simp only [splitLast]
    cases h : splitLast x t with
    | some p =>
      obtain ⟨a', b'⟩ := p
      obtain ⟨ht, hx⟩ := ih.mp h
      constructor
      · intro h'
        cases h'
        exact ⟨by simp [ht], hx⟩
      · rintro ⟨h', hx'⟩
        cases a with
        | nil =>
          obtain ⟨rfl, rfl⟩ : c = x ∧ t = b := by simpa using h'
          exact absurd (by simp [ht]) hx'
        | cons d a =>
          obtain ⟨rfl, ht'⟩ : c = d ∧ t = a ++ x :: b := by simpa using h'
          have := ih.mpr ⟨ht', hx'⟩
          rw [h] at this
          cases this
          rfl
    | none =>
      have hx := splitLast_eq_none_iff.mp h
      constructor
      · intro h'
        by_cases hc : c = x
        · rw [if_pos hc] at h'
          cases h'
          exact ⟨by simp [hc], hx⟩
        · rw [if_neg hc] at h'
          cases h'
      · rintro ⟨h', -⟩
        cases a with
        | nil =>
          obtain ⟨rfl, rfl⟩ : c = x ∧ t = b := by simpa using h'
          simp
        | cons d a =>
          obtain ⟨rfl, rfl⟩ : c = d ∧ t = a ++ x :: b := by simpa using h'
          simp at hx

end PixelScale.Text
