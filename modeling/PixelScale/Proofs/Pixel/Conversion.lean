import PixelScale.Proofs.Pixel.Recognition
import PixelScale.Proofs.Stylesheet.Alike

/-!
# Converted values are alike

A pixel length with a number that has a value is a word that the reader of statements does not
notice, and so is what the built-in conversion writes for it. Only the unit could be noticed; one
of letters and percent signs is not. A value is therefore like its converted form.

* `Converter.Tame`: the conversions whose results go unnoticed.
* `Converter.alike_replaceAll`, `Converter.alike_value`: a text is like its converted form.
-/

namespace PixelScale.Pixel

open Text Stylesheet

/-! ## Numbers of pixel lengths -/

namespace Segment

/-- A number of a pixel length: it is not empty, and consists of digits, a point and a sign. -/
def IsNumber (n : Text) : Prop := n ≠ [] ∧ ∀ c ∈ n, Numeral.isPart c = true

theorem isPart_of_isDigit {c : Char} (h : isDigit c = true) : Numeral.isPart c = true := by
  simp [Numeral.isPart, h]

theorem isNumber_of_first? {t n : Text} (h : first? t = some (pixels n)) : IsNumber n := by
  unfold first? at h
  split at h
  · cases h
  · obtain ⟨m, hm, heq⟩ := Option.map_eq_some_iff.mp h
    cases heq
    have hnumeral := isNumeral_of_number? hm
    exact ⟨hnumeral.ne_nil, hnumeral.part⟩

/-- Every pixel length of a text has a number. -/
theorem isNumber_of_mem_after {k : Nat} {t n : Text} (h : pixels n ∈ after k t) : IsNumber n := by
  induction t generalizing k with
  | nil => cases k <;> cases h
  | cons c t ih =>
    cases k with
    | succ k => exact ih h
    | zero =>
      simp only [after] at h
      split at h
      · rename_i s hs
        rcases List.mem_cons.mp h with rfl | h
        · exact isNumber_of_first? hs
        · exact ih h
      · rcases List.mem_cons.mp h with heq | h
        · cases heq
        · exact ih h

/-- A pixel length whose number has a value is a word. -/
theorem inert_pixels {n : Text} {x : Float} (hn : IsNumber n) (h : Numeral.toFloat? n = some x) :
    Inert (pixels n).text ∧ ∀ c ∈ (pixels n).text.head?, startsNumber c = true := by
  have hdigit := Numeral.isDigit_of_toFloat? hn.2 h
  refine ⟨Inert.of_chars (by simp [text, pxSuffix]) (fun c hc => ?_) fun h => ?_, fun c hc => ?_⟩
  · rcases List.mem_append.mp hc with hc | hc
    · rcases hdigit c hc with hc | rfl | rfl | rfl
      · exact .inl (by simp [Passage.isNameChar, Char.isAlphanum, hc])
      · exact .inr (.inr (.inl rfl))
      · exact .inr (.inl rfl)
      · exact .inl rfl
    · left
      rcases List.mem_pair.mp hc with rfl | rfl <;> rfl
  · have hx : 'x' ∈ lowerAscii (pixels n).text :=
      List.mem_map.mpr ⟨'x', by simp [text, pxSuffix], rfl⟩
    exact absurd (h.subset hx) (by decide)
  · obtain ⟨d, ds, rfl⟩ := List.exists_cons_of_ne_nil hn.1
    obtain rfl : d = c := by simpa [text] using hc
    rcases hdigit d List.mem_cons_self with hd | rfl | rfl | rfl
    · simp [startsNumber, hd]
    · rfl
    · rfl
    · rfl

end Segment

/-! ## Conversions -/

namespace Converter

/-- The built-in conversion with a unit of ASCII letters and percent signs. -/
def Tame : Converter → Prop
  | .builtin _ _ _ unit => ∀ c ∈ unit, c.isAlpha = true ∨ c = '%'
  | .custom _ => False

/-- A written number with a unit behind it is a word. -/
theorem inert_write (x : Float) {unit : Text} (hunit : ∀ c ∈ unit, c.isAlpha = true ∨ c = '%') :
    Inert (Layout.inText.write x ++ unit) := by
  have append : ∀ w : Text, w ≠ [] → (∀ c ∈ w, Passage.isNameChar c = true ∨ c = '.') →
      ¬ lowerAscii w <:+: "important".toList → Inert (w ++ unit) := by
    intro w hne hw halien
    refine Inert.of_chars (List.append_ne_nil_of_left_ne_nil hne _) (fun c hc => ?_) fun h => ?_
    · rcases List.mem_append.mp hc with hc | hc
      · exact (hw c hc).imp id fun hc => .inr (.inl hc)
      · rcases hunit c hc with hc | rfl
        · exact .inl (by simp [Passage.isNameChar, Char.isAlphanum, hc])
        · exact .inr (.inr (.inr rfl))
    · rw [lowerAscii, List.map_append] at h
      exact halien ((List.prefix_append _ _).isInfix.trans h)
  rcases Layout.mem_write x with ⟨⟨d, hmem, hd⟩, hpart⟩ | hword
  · refine append _ (List.ne_nil_of_mem hmem) (fun c hc => ?_) fun h => ?_
    · rcases hpart c hc with hc | rfl | rfl
      · exact .inl (by simp [Passage.isNameChar, Char.isAlphanum, hc])
      · exact .inr rfl
      · exact .inl rfl
    · have hlower : d.toLower = d :=
        Numeral.toLower_of_isPart (Segment.isPart_of_isDigit (by simp [isDigit, hd]))
      have hletter : "important".toList.all (fun c => !c.isDigit) = true := by decide
      have := List.all_eq_true.mp hletter d (h.subset (List.mem_map.mpr ⟨d, hmem, hlower⟩))
      simp [hd] at this
  · -- the words for what is no number have letters of their own, or two of one letter
    have hwords : ∀ w ∈ ["NaN".toList, "inf".toList, "-inf".toList],
        w ≠ [] ∧ w.all Passage.isNameChar = true ∧ ¬ lowerAscii w <:+: "important".toList := by
      decide
    obtain ⟨hne, hname, halien⟩ := hwords _ hword
    exact append _ hne (fun c hc => .inl (List.all_eq_true.mp hname c hc)) halien

/-- What the built-in conversion writes is a word. -/
theorem inert_builtin? {rootValue minPixelValue x : Float} {unitPrecision : Nat} {unit v : Text}
    (hunit : ∀ c ∈ unit, c.isAlpha = true ∨ c = '%')
    (h : builtin? rootValue unitPrecision minPixelValue unit x = some v) : Inert v := by
  simp only [builtin?] at h
  split at h
  · cases h
  split at h
  · cases h
    refine Inert.of_chars (by simp) (fun c hc => ?_) (by decide)
    rw [List.mem_singleton.mp hc]
    exact .inl rfl
  · cases h
    exact inert_write _ hunit

variable {k : Converter}

theorem alike_literal (hk : k.Tame) {n : Text} (hn : Segment.IsNumber n) :
    Alike (Segment.pixels n).text (k.literal n) := by
  unfold literal
  cases hx : Numeral.toFloat? n with
  | none => exact .refl _
  | some x =>
    rw [Option.bind_some]
    cases hv : k.pixels? x with
    | none => exact .refl _
    | some v =>
      cases k with
      | custom write => exact hk.elim
      | builtin rootValue unitPrecision minPixelValue unit =>
        obtain ⟨hinert, hstart⟩ := Segment.inert_pixels hn hx
        have := Alike.word hinert (inert_builtin? hk hv) hstart .nil
        rwa [List.append_nil, List.append_nil] at this

theorem alike_segments (hk : k.Tame) (last : Option Char) {ss : List Segment}
    (hss : ∀ n, .pixels n ∈ ss → Segment.IsNumber n) :
    Alike (Segment.joined ss) (k.segments last ss) := by
  induction ss generalizing last with
  | nil => exact .nil
  | cons s ss ih =>
    refine Alike.append ?_ (ih _ fun n hn => hss n (List.mem_cons_of_mem _ hn))
    cases s with
    | char c => exact .refl _
    | kept t => exact .refl _
    | pixels n =>
      dsimp only
      split
      · exact .refl _
      · exact alike_literal hk (hss n List.mem_cons_self)

/-- A text is like its converted form. -/
theorem alike_replaceAll (hk : k.Tame) (t : Text) : Alike t (k.replaceAll t) := by
  have := @alike_segments k hk none (Segment.ofText t) fun n hn =>
    Segment.isNumber_of_mem_after hn
  rwa [Segment.joined_ofText] at this

theorem alike_value (hk : k.Tame) (t : Text) : Alike t (k.value t) := by
  unfold value
  split
  · exact alike_replaceAll hk t
  · exact .refl t

end Converter

end PixelScale.Pixel
