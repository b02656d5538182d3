import Mathlib
import PixelScale.Number.Layout
import PixelScale.Number.Numeral

/-!
# The characters of numbers

Numerals are looked for with the digits of all scripts, but only one with ASCII digits has a value.
A double in converted text is written with ASCII digits, a point and a minus sign, or with the word
for what is no number.

* `Numeral.isDigit_of_toFloat?`: the digits of a numeral with a value.
* `Layout.mem_write`: the characters of a double in converted text.
-/

namespace PixelScale

open Text

/-! ## Numerals with a value -/

namespace Numeral

/-- A digit of any script, a sign or a point. -/
def isPart (c : Char) : Bool := isDigit c || c == '.' || c == '+' || c == '-'

/-- The digits of other scripts lie far from the ASCII characters. -/
theorem isDigit_or_far {c : Char} (h : isDigit c = true) : c.isDigit = true ∨ 0x660 ≤ c.toNat := by
  have hranges : ∀ r ∈ digits, r = (0x30, 0x39) ∨ 0x660 ≤ r.1 := by decide
  rcases (Bool.or_eq_true _ _).mp h with h | h
  · exact .inl h
  · obtain ⟨r, hr, hc⟩ := List.any_eq_true.mp h
    simp only [Bool.and_eq_true, decide_eq_true_eq] at hc
    rcases hranges r hr with rfl | hfar
    · left
      simp only [Char.isDigit, Bool.and_eq_true, decide_eq_true_eq, ge_iff_le,
        UInt32.le_iff_toNat_le]
      exact hc
    · exact .inr (hfar.trans hc.1)

/-- The characters of numerals are no letters. -/
theorem isAlpha_of_isPart {c : Char} (h : isPart c = true) : c.isAlpha = false := by
  refine Bool.eq_false_iff.mpr fun hletter => ?_
  have hrange : 65 ≤ c.toNat ∧ c.toNat ≤ 122 := by
    simp only [Char.isAlpha, Char.isUpper, Char.isLower, Bool.or_eq_true, Bool.and_eq_true,
      decide_eq_true_eq, ge_iff_le, UInt32.le_iff_toNat_le] at hletter
    rcases hletter with ⟨hlow, hhigh⟩ | ⟨hlow, hhigh⟩
    · exact ⟨hlow, le_trans hhigh (by decide)⟩
    · exact ⟨le_trans (by decide) hlow, hhigh⟩
  simp only [isPart, Bool.or_eq_true, beq_iff_eq] at h
  rcases h with ((h | rfl) | rfl) | rfl
  · rcases isDigit_or_far h with h | h
    · simp only [Char.isDigit, Bool.and_eq_true, decide_eq_true_eq, ge_iff_le,
        UInt32.le_iff_toNat_le] at h
      have : c.toNat ≤ 57 := h.2
      omega
    · omega
  · exact absurd hrange.1 (by decide)
  · exact absurd hrange.1 (by decide)
  · exact absurd hrange.1 (by decide)

theorem toLower_of_isPart {c : Char} (h : isPart c = true) : c.toLower = c := by
  refine Char.toLower_eq_of_not_isUpper fun hupper => ?_
  have hletter := isAlpha_of_isPart h
  simp [Char.isAlpha, hupper] at hletter

theorem lowerAscii_eq_self {t : Text} (ht : ∀ c ∈ t, isPart c = true) : lowerAscii t = t := by
  rw [lowerAscii, List.map_congr_left fun c hc => toLower_of_isPart (ht c hc), List.map_id']

/-- Without letters a text is none of the words for what is no number. -/
theorem toFloat?_of_spanSign {t r : Text} {negative : Bool} (ht : spanSign t = (negative, r))
    (hr : ∀ c ∈ r, isPart c = true) : toFloat? t = unsigned? negative r := by
  -- the words have a letter in common
  have hword : ∀ w : Text, 'n' ∈ w → r ≠ w := by
    rintro w hw rfl
    exact absurd (hr _ hw) (by decide)
  have hinf := hword "inf".toList (by decide)
  have hinfinity := hword "infinity".toList (by decide)
  have hnan := hword "nan".toList (by decide)
  simp only [toFloat?, ht, lowerAscii_eq_self hr, hinf, hinfinity, hnan, decide_false,
    Bool.or_self, Bool.false_eq_true, if_false]

theorem exists_spanSign (t : Text) :
    ∃ sign, t = sign ++ (spanSign t).2 ∧ ∀ c ∈ sign, c = '+' ∨ c = '-' := by
  unfold spanSign
  split
  · exact ⟨['-'], rfl, by simp⟩
  · exact ⟨['+'], rfl, by simp⟩
  · exact ⟨[], rfl, by simp⟩

variable {t : Text} {x : Float}

/-- Letters are no parts of numerals, so no exponent follows. -/
theorem eq_nil_of_exponent? (ht : ∀ c ∈ t, isPart c = true) {e : Int}
    (h : exponent? t = some e) : t = [] := by
  cases t with
  | nil => rfl
  | cons c t =>
    have hc := ht c List.mem_cons_self
    have : c ≠ 'e' ∧ c ≠ 'E' := by
      constructor
      · rintro rfl
        exact absurd hc (by decide)
      · rintro rfl
        exact absurd hc (by decide)
    simp [exponent?, this] at h

theorem isDigit_of_unsigned? {negative : Bool} (ht : ∀ c ∈ t, isPart c = true)
    (h : unsigned? negative t = some x) : ∀ c ∈ t, c.isDigit = true ∨ c = '.' := by
  have hspan : t.takeWhile Char.isDigit ++ t.dropWhile Char.isDigit = t :=
    List.takeWhile_append_dropWhile
  have hwhole : ∀ c ∈ t.takeWhile Char.isDigit, c.isDigit = true ∨ c = '.' :=
    fun c hc => .inl (List.mem_takeWhile_imp hc)
  have hrest : ∀ c ∈ t.dropWhile Char.isDigit, isPart c = true :=
    fun c hc => ht c ((List.dropWhile_sublist _).subset hc)
  simp only [unsigned?, spanDigits, List.span_eq_takeWhile_dropWhile] at h
  generalize t.takeWhile Char.isDigit = whole at h hspan hwhole
  generalize t.dropWhile Char.isDigit = rest at h hspan hrest
  subst hspan
  have hpart : ∀ c ∈ rest, c.isDigit = true ∨ c = '.' := by
    split at h
    · rename_i r
      have hfraction : r.takeWhile Char.isDigit ++ r.dropWhile Char.isDigit = r :=
        List.takeWhile_append_dropWhile
      split at h
      · cases h
      · obtain ⟨e, he, -⟩ := Option.map_eq_some_iff.mp h
        have hnil := eq_nil_of_exponent? (fun c hc => hrest c
          (List.mem_cons_of_mem _ ((List.dropWhile_sublist _).subset hc))) he
        rw [hnil, List.append_nil] at hfraction
        intro c hc
        rcases List.mem_cons.mp hc with rfl | hc
        · exact .inr rfl
        · rw [← hfraction] at hc
          exact .inl (List.mem_takeWhile_imp hc)
    · split at h
      · cases h
      · obtain ⟨e, he, -⟩ := Option.map_eq_some_iff.mp h
        rw [eq_nil_of_exponent? hrest he]
        simp
  intro c hc
  exact (List.mem_append.mp hc).elim (hwhole c) (hpart c)

/-- The digits of a numeral with a value are ASCII digits. -/
theorem isDigit_of_toFloat? (ht : ∀ c ∈ t, isPart c = true) (h : toFloat? t = some x) :
    ∀ c ∈ t, c.isDigit = true ∨ c = '.' ∨ c = '+' ∨ c = '-' := by
  obtain ⟨sign, hsign, hmem⟩ := exists_spanSign t
  generalize hspan : spanSign t = span at hsign
  obtain ⟨negative, r⟩ := span
  have hr : ∀ c ∈ r, isPart c = true :=
    fun c hc => ht c (hsign ▸ List.mem_append_right sign hc)
  rw [toFloat?_of_spanSign hspan hr] at h
  rw [hsign]
  intro c hc
  rcases List.mem_append.mp hc with hc | hc
  · exact .inr (.inr (hmem c hc))
  · exact (isDigit_of_unsigned? hr h c hc).imp id .inl

end Numeral

/-! ## Written doubles -/

namespace Layout

/-- At least one ASCII digit, and apart from digits a point or a minus sign. -/
structure Positional (t : Text) : Prop where
  digit : ∃ c ∈ t, c.isDigit = true
  part : ∀ c ∈ t, c.isDigit = true ∨ c = '.' ∨ c = '-'

theorem positional_place {digits : Text} (hne : digits ≠ [])
    (hdigits : ∀ c ∈ digits, c.isDigit = true) (point : Int) :
    Positional (place false digits point) := by
  obtain ⟨d, ds, rfl⟩ := List.exists_cons_of_ne_nil hne
  have hzero : ∀ (n : Nat) (c : Char), c ∈ List.replicate n '0' → c.isDigit = true := by
    rintro n c hc
    rw [List.eq_of_mem_replicate hc]
    rfl
  have hd := hdigits d List.mem_cons_self
  unfold place
  split
  · refine ⟨⟨d, by simp, hd⟩, fun c hc => ?_⟩
    rcases List.mem_append.mp hc with hc | hc
    · rcases List.mem_cons.mp hc with rfl | hc
      · exact .inl rfl
      · rcases List.mem_cons.mp hc with rfl | hc
        · exact .inr (.inl rfl)
        · exact .inl (hzero _ c hc)
    · exact .inl (hdigits c hc)
  split
  · refine ⟨⟨d, by simp, hd⟩, fun c hc => ?_⟩
    rw [if_neg Bool.false_ne_true, List.append_nil] at hc
    rcases List.mem_append.mp hc with hc | hc
    · exact .inl (hdigits c hc)
    · exact .inl (hzero _ c hc)
  · rename_i hpoint _
    obtain ⟨n, hn⟩ : ∃ n, point.toNat = n + 1 := ⟨point.toNat - 1, by omega⟩
    refine ⟨⟨d, by simp [hn], hd⟩, fun c hc => ?_⟩
    rcases List.mem_append.mp hc with hc | hc
    · exact .inl (hdigits c (List.mem_of_mem_take hc))
    · rcases List.mem_cons.mp hc with rfl | hc
      · exact .inr (.inl rfl)
      · exact .inl (hdigits c (List.mem_of_mem_drop hc))

theorem Positional.signed {t : Text} (ht : Positional t) (negative : Bool) :
    Positional (Layout.signed negative t) := by
  obtain ⟨⟨d, hmem, hd⟩, hpart⟩ := ht
  cases negative with
  | false => exact ⟨⟨d, hmem, hd⟩, hpart⟩
  | true =>
    refine ⟨⟨d, List.mem_cons_of_mem _ hmem, hd⟩, fun c hc => ?_⟩
    rcases List.mem_cons.mp hc with rfl | hc
    · exact .inr (.inr rfl)
    · exact hpart c hc

/-- The characters of a double in converted text, unless it is no number. -/
theorem mem_write (x : Float) :
    Positional (inText.write x) ∨
      inText.write x ∈ ["NaN".toList, "inf".toList, "-inf".toList] := by
  unfold write
  split
  · exact .inr (by decide)
  · rename_i negative _
    cases negative with
    | false => exact .inr (by decide)
    | true => exact .inr (by decide)
  · left
    refine Positional.signed ?_ _
    split
    · refine positional_place (by simp) (fun c hc => ?_) 1
      rw [List.mem_singleton.mp hc]
      rfl
    · exact positional_place Nat.toDigits_ne_nil
        (fun c hc => Nat.isDigit_of_mem_toDigits (by decide) (by decide) hc) _

end Layout

end PixelScale
