import Mathlib
import PixelScale.Number.Rounding

/-!
# Rounding exact numbers

The rounding rule cuts a number off before it rounds. In general this does harm: if the half lay
between two of the steps that numbers are cut off to, a number just above it would be cut off to the
step below it, and be rounded down. But the steps are tenths of what is rounded to, and the half is
five of them. Cutting off goes down for both signs, so what is at a half or above stays there, and
what is below stays below. In exact arithmetic the rule therefore is the plain one: the nearest
decimal, and from halfway between two of them the upper one.

* `Rational.toFixed`: the rounding rule for rational numbers.
* `Rational.round_cut`: rounding does not see that a number was cut off to an even number of steps.
* `Rational.roundsHalfUp_toFixed`: what the rule does to rational numbers.
-/

namespace PixelScale.Rational

/-- Rational numbers have all that the rounding rule needs. -/
@[reducible]
def scale : Scale ℚ where
  floor x := ⌊x⌋
  half := 1 / 2
  powerOfTen n := 10 ^ n

/-- A rational number with the given number of decimals, by the rule that is used for doubles. -/
def toFixed (x : ℚ) (precision : ℕ) : ℚ := @Scale.toFixed ℚ scale x precision

/-- `f` rounds to numbers with the given number of steps in one. -/
structure RoundsHalfUp (steps : ℚ) (f : ℚ → ℚ) : Prop where
  /-- a half is added, and what is beyond a whole number of steps is dropped -/
  eq_floor (x : ℚ) : f x = ⌊x * steps + 1 / 2⌋ / steps
  /-- no number moves by more than half a step -/
  abs_sub_le (x : ℚ) : |f x - x| ≤ 1 / 2 / steps
  /-- from halfway between two steps a number goes up, whatever its sign -/
  halfway (n : ℤ) : f ((n + 1 / 2) / steps) = (n + 1) / steps
  /-- greater numbers do not become smaller ones -/
  monotone : Monotone f
  /-- what is rounded stays as it is -/
  idempotent (x : ℚ) : f (f x) = f x
  /-- zero is what less than half a step above it and at most half a step below it become -/
  eq_zero_iff (x : ℚ) : f x = 0 ↔ -(1 / 2) ≤ x * steps ∧ x * steps < 1 / 2

/-! ## The nearest step -/

/-- The step that is nearest to a number, and the upper one of two that are. -/
def nearest (steps x : ℚ) : ℚ := round (x * steps) / steps

section

variable {steps : ℚ}

theorem abs_nearest_sub_le (hsteps : 0 < steps) (x : ℚ) :
    |nearest steps x - x| ≤ 1 / 2 / steps := by
  have hsub : nearest steps x - x = (round (x * steps) - x * steps) / steps := by
    rw [nearest, sub_div, mul_div_cancel_right₀ _ hsteps.ne']
  rw [hsub, abs_div, abs_of_pos hsteps, abs_sub_comm]
  exact div_le_div_of_nonneg_right (abs_sub_round _) hsteps.le

theorem nearest_halfway (hsteps : steps ≠ 0) (n : ℤ) :
    nearest steps ((n + 1 / 2) / steps) = (n + 1) / steps := by
  have hround : round ((n : ℚ) + 1 / 2) = n + 1 := by
    rw [round_intCast_add, one_div, round_two_inv]
  rw [nearest, div_mul_cancel₀ _ hsteps, hround, Int.cast_add, Int.cast_one]

theorem monotone_nearest (hsteps : 0 < steps) : Monotone (nearest steps) := by
  intro x y hxy
  simp only [nearest, round_eq]
  gcongr

theorem nearest_nearest (hsteps : steps ≠ 0) (x : ℚ) :
    nearest steps (nearest steps x) = nearest steps x := by
  simp only [nearest, div_mul_cancel₀ _ hsteps, round_intCast]

theorem nearest_eq_zero_iff (hsteps : steps ≠ 0) (x : ℚ) :
    nearest steps x = 0 ↔ -(1 / 2) ≤ x * steps ∧ x * steps < 1 / 2 := by
  rw [nearest, div_eq_zero_iff, or_iff_left hsteps, Int.cast_eq_zero, round_eq_zero_iff,
    Set.mem_Ico]

theorem roundsHalfUp_nearest (hsteps : 0 < steps) : RoundsHalfUp steps (nearest steps) where
  eq_floor x := by rw [nearest, round_eq]
  abs_sub_le := abs_nearest_sub_le hsteps
  halfway := nearest_halfway hsteps.ne'
  monotone := monotone_nearest hsteps
  idempotent := nearest_nearest hsteps.ne'
  eq_zero_iff := nearest_eq_zero_iff hsteps.ne'

end

/-! ## Cutting off before rounding -/

/-- If the half is a whole number of steps, then rounding does not see that a number was cut off to
them: the half can be counted in steps before the number is cut off. -/
theorem round_cut {steps : ℕ} (heven : Even steps) (hne : steps ≠ 0) (y : ℚ) :
    round ((⌊y * steps⌋ : ℚ) / steps) = round y := by
  obtain ⟨half, hsteps⟩ := heven
  have hcast : (steps : ℚ) ≠ 0 := Nat.cast_ne_zero.mpr hne
  have hhalf : 1 / 2 * (steps : ℚ) = half := by
    rw [hsteps]
    push_cast
    ring
  calc round ((⌊y * steps⌋ : ℚ) / steps)
      = ⌊(⌊y * steps⌋ : ℚ) / steps + 1 / 2⌋ := round_eq _
    _ = ⌊((⌊y * steps⌋ + half : ℤ) : ℚ) / steps⌋ := by
      rw [Int.cast_add, Int.cast_natCast, ← hhalf, add_div, mul_div_cancel_right₀ _ hcast]
    _ = (⌊y * steps⌋ + half) / steps := by
      rw [Int.floor_div_natCast, Int.floor_intCast]
    _ = ⌊(y + 1 / 2) * steps⌋ / steps := by
      rw [add_mul, hhalf, Int.floor_add_natCast]
    _ = ⌊y + 1 / 2⌋ := Int.mul_natCast_floor_div_cancel hne _
    _ = round y := (round_eq y).symm

/-- For rational numbers the rule takes the nearest decimal. -/
theorem toFixed_eq (x : ℚ) (precision : ℕ) :
    toFixed x precision = nearest (10 ^ min precision maxPrecision) x := by
  have hrule (p : ℕ) : (⌊(⌊x * 10 ^ (p + 1)⌋ : ℚ) / 10 ^ 1 + 1 / 2⌋ : ℚ) * 10 ^ 1 / 10 ^ (p + 1) =
      nearest (10 ^ p) x := by
    have hcut : round ((⌊x * 10 ^ p * 10⌋ : ℚ) / 10) = round (x * 10 ^ p) :=
      round_cut (by decide : Even 10) (by decide) _
    rw [← round_eq, pow_one, pow_succ, ← mul_assoc, hcut, nearest]
    exact mul_div_mul_right _ _ (by norm_num)
  exact hrule _

/-- A rational number is rounded to the nearest decimal, as if it had not been cut off before. -/
theorem roundsHalfUp_toFixed (precision : ℕ) :
    RoundsHalfUp (10 ^ min precision 20) fun x => toFixed x precision := by
  have heq : (fun x => toFixed x precision) = nearest (10 ^ min precision 20) :=
    funext fun x => toFixed_eq x precision
  rw [heq]
  exact roundsHalfUp_nearest (by positivity)

-- halfway between two decimals below zero
example : toFixed (-1 / 8) 2 = -12 / 100 := by decide +kernel

end PixelScale.Rational
