import PixelScale.Options.Basic
import PixelScale.Proofs.Number.Overflow
import PixelScale.Proofs.Pixel.Recognition

/-!
# Converted numbers that are out of range

A length is divided by the root value, scaled up to be rounded, and scaled back. Options with values
in their ranges make all of this arithmetic on numbers: the root value is above zero, and so the
result keeps the sign of the length and is never NaN. But with a very long number, or a very small
root value, the scaled number can be beyond all doubles, even where the number of units is a double.
Such a length becomes `inf` with its sign; every other one is written with digits, or is zero.

* `IsDecimal`: digits, with or without a point between them.
* `Converter.replaceAll_range`: what is written for the lengths of a text.
-/

namespace PixelScale

open Double

/-! ## Written numbers -/

namespace Layout

/-- ASCII digits, with or without a point between them. -/
inductive IsDecimal : Text → Prop
  | whole {ds : Text} : ds ≠ [] → (∀ c ∈ ds, c.isDigit = true) → IsDecimal ds
  | point {ds es : Text} : ds ≠ [] → (∀ c ∈ ds, c.isDigit = true) →
      es ≠ [] → (∀ c ∈ es, c.isDigit = true) → IsDecimal (ds ++ '.' :: es)

theorem isDecimal_place {digits : Text} (hne : digits ≠ [])
    (hdigits : ∀ c ∈ digits, c.isDigit = true) (point : Int) :
    IsDecimal (place false digits point) := by
  have hzeros : ∀ (n : Nat), ∀ c ∈ List.replicate n '0', c.isDigit = true := by
    intro n c hc
    rw [List.eq_of_mem_replicate hc]
    rfl
  have hlength := List.length_pos_iff.mpr hne
  unfold place
  split
  · rw [List.cons_append, List.cons_append]
    refine @IsDecimal.point ['0'] _ (by simp) (hzeros 1)
      (List.append_ne_nil_of_right_ne_nil _ hne) ?_
    exact fun c hc => (List.mem_append.mp hc).elim (hzeros _ c) (hdigits c)
  split
  · rw [if_neg Bool.false_ne_true, List.append_nil]
    refine .whole (List.append_ne_nil_of_left_ne_nil hne _) fun c hc => ?_
    exact (List.mem_append.mp hc).elim (hdigits c) (hzeros _ c)
  · rename_i hpos hlt
    refine .point ?_ (fun c hc => hdigits c (List.mem_of_mem_take hc)) ?_
      fun c hc => hdigits c (List.mem_of_mem_drop hc)
    · rw [ne_eq, List.take_eq_nil_iff, not_or]
      exact ⟨by omega, hne⟩
    · rw [ne_eq, List.drop_eq_nil_iff]
      omega

theorem exists_write_of_finite {x : Float} (h : x.isFinite = true) :
    ∃ negative w, IsDecimal w ∧ inText.write x = signed negative w := by
  obtain ⟨negative, m, e, hx⟩ := isFinite_iff.mp h
  rw [write, hx]
  refine ⟨negative, _, ?_, rfl⟩
  split
  · refine isDecimal_place (by simp) (fun c hc => ?_) 1
    rw [List.mem_singleton.mp hc]
    rfl
  · exact isDecimal_place Nat.toDigits_ne_nil
      (fun c hc => Nat.isDigit_of_mem_toDigits (by decide) (by decide) hc) _

theorem write_of_infinite {x : Float} {negative : Bool} (h : parts x = .infinite negative) :
    inText.write x = signed negative "inf".toList := by
  rw [write, h]
  cases negative <;> rfl

end Layout

/-! ## Values of numerals -/

namespace Numeral

theorem signed_nearest (coefficient : Nat) (exponent : Int) :
    Signed (nearest coefficient exponent) false := by
  have hzero : Signed 0 false := .inr ⟨_, _, parts_zero⟩
  have hinfinite : Signed (1.0 / 0.0) false := .inl (by decide)
  simp only [nearest]
  split_ifs
  · exact hzero
  · exact hinfinite
  · exact signed_ofScientific _ _ _

/-- A numeral has the sign that it is written with, also if it is zero or beyond all doubles. -/
theorem signed_value (n : Text) : Signed (value n) (n.head? == some '-') := by
  have hnearest := signed_nearest (natValue (n.filter Char.isDigit))
    (-((n.dropWhile (· != '.')).filter Char.isDigit).length)
  unfold value ofDecimal
  cases n.head? == some '-' with
  | false => exact hnearest
  | true => exact hnearest.neg

end Numeral

/-! ## Options with values in their ranges -/

theorem Options.positive_rootValue {o : Options} (h : o.problems = []) : Positive o.rootValue := by
  simp only [problems, List.append_eq_nil_iff] at h
  obtain ⟨⟨⟨hroot, -⟩, -⟩, -⟩ := h
  split at hroot
  · rename_i hrange
    obtain ⟨hfinite, hpos⟩ := (Bool.and_eq_true _ _).mp hrange
    exact positive_of_lt hfinite (of_decide_eq_true hpos)
  · cases hroot

/-! ## Converted lengths -/

namespace Pixel.Converter

open Segment Numeral Layout

/-- What is written for a number of pixels: a decimal with the unit or a zero, if it is a double when
it is scaled, and otherwise an infinity. -/
theorem inUnits_range {rootValue : Float} (hroot : Positive rootValue) (unitPrecision : Nat)
    (unit n : Text) :
    ((Numeral.value n / rootValue * unitOf unitPrecision).isFinite = true →
        inUnits rootValue unitPrecision unit n = ['0'] ∨ ∃ negative w, IsDecimal w ∧
          inUnits rootValue unitPrecision unit n = signed negative w ++ unit) ∧
      ((Numeral.value n / rootValue * unitOf unitPrecision).isFinite = false →
        inUnits rootValue unitPrecision unit n =
          signed (n.head? == some '-') "inf".toList ++ unit) := by
  constructor
  · intro hfinite
    have hfixed := isFinite_toFixed hfinite
    simp only [inUnits]
    split
    · exact .inl rfl
    · obtain ⟨negative, w, hw, hwrite⟩ := exists_write_of_finite hfixed
      exact .inr ⟨negative, w, hw, by rw [hwrite]⟩
  · intro hinfinite
    have hfixed := infinite_toFixed ((signed_value n).div hroot) hinfinite
    simp only [inUnits]
    rw [infinite_beq_zero hfixed, if_neg Bool.false_ne_true, write_of_infinite hfixed]

/-- For options with values in their ranges, the built-in conversion never writes NaN. What it writes
for a length is zero or a decimal with its unit, unless the number of units is beyond all doubles
when it is scaled to be rounded. -/
theorem replaceAll_range {s : Settings} (hhook : (s.hook.bind fun h => h s.options) = none)
    (hproblems : s.options.problems = []) (t : Text) :
    let write := respelled s.options.rootValue s.options.unitPrecision s.options.minPixelValue
      s.options.unit
    let scaled n := Numeral.value n / s.options.rootValue * unitOf s.options.unitPrecision
    s.converter.replaceAll t = written (entries write [] (ofText t)) ∧
      ∀ ps n qs, ofText t = ps ++ pixels n :: qs →
        Convertible s.options.minPixelValue (joined ps) n (joined qs) →
        ((scaled n).isFinite = true →
          write (joined ps) n (joined qs) = ['0'] ∨ ∃ negative w, IsDecimal w ∧
            write (joined ps) n (joined qs) = signed negative w ++ s.options.unit) ∧
        ((scaled n).isFinite = false →
          write (joined ps) n (joined qs) =
            signed (n.head? == some '-') "inf".toList ++ s.options.unit) := by
  intro write scaled
  refine ⟨?_, fun ps n qs _ hconvertible => ?_⟩
  · rw [Settings.converter, hhook]
    exact replaceAll_eq_written _ _ _ _ t
  · have hwrite : write (joined ps) n (joined qs) =
        inUnits s.options.rootValue s.options.unitPrecision s.options.unit n := if_pos hconvertible
    rw [hwrite]
    exact inUnits_range (Options.positive_rootValue hproblems) _ _ _

/-- Options with a root value by which one pixel is a double, but none any longer when it is scaled
for five decimals. -/
def tiny : Options := { rootValue := 1e-303 }

theorem replaceAll_range_tiny :
    tiny.problems = [] ∧ ofText "1px".toList = [] ++ pixels "1".toList :: [] ∧
      Convertible tiny.minPixelValue (joined []) "1".toList (joined []) ∧
      respelled tiny.rootValue tiny.unitPrecision tiny.minPixelValue tiny.unit (joined []) "1".toList
        (joined []) = "infrem".toList := by
  have hproblems : tiny.problems = [] := by decide +kernel
  have hrow : ofText "1px".toList = [] ++ pixels "1".toList :: [] := by decide
  have hconvertible : Convertible tiny.minPixelValue (joined []) "1".toList (joined []) := by
    decide +kernel
  have hinfinite :
      (Numeral.value "1".toList / tiny.rootValue * unitOf tiny.unitPrecision).isFinite = false := by
    decide +kernel
  obtain ⟨-, hrange⟩ := @replaceAll_range ⟨tiny, none⟩ rfl hproblems "1px".toList
  exact ⟨hproblems, hrow, hconvertible, (hrange _ _ _ hrow hconvertible).2 hinfinite⟩

-- ten times this root value, and the number is written out
example : (Settings.converter ⟨{ rootValue := 1e-302 }, none⟩).replaceAll "1px".toList =
    '1' :: List.replicate 302 '0' ++ "rem".toList := by
  decide +kernel

end Pixel.Converter

end PixelScale
