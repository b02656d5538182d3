import PixelScale.Proofs.Number.Binary

/-!
# Rounding to doubles

The result of an operation is rounded to 53 bits: a mantissa is shifted to the right, the first bit
that falls out and whether anything falls out behind it decide on the last bit that stays, and a
mantissa that gets too long by this is shifted once more. What is shifted must have bits enough, or
an exponent as small as any, since nothing is shifted to the left; products, quotients and numbers
that were widened have them.

Of the value only a lower bound is followed through the shifts, the mantissa with its first bit
behind the point. It suffices to say where a rounded number does not get: not above a bound that is
a double itself, unless the number was half a step above this bound at least.

* `roundWithAccuracy_cases`: the three ways in which rounding ends.
* `mul_full`, `divCore_full`, `round_full`: what is rounded has bits enough.
* `signed_roundWithAccuracy`: rounding keeps the sign.
* `atMost_roundWithAccuracy`: rounding does not leave a bound.
-/

namespace PixelScale.Double

open Float.Model Float.Model.UnpackedFloat

/-! ## Shifting -/

/-- The least number that a mantissa with two more bits stands for. The first bit is a half; the
second one tells whether there is anything below it. -/
def least (em : ExtendedMantissa) : ℚ := em.mantissa + if em.roundBit then 1 / 2 else 0

theorem mantissa_le_least (em : ExtendedMantissa) : (em.mantissa : ℚ) ≤ least em := by
  unfold least
  split_ifs <;> linarith

theorem least_exact (m : ℕ) : least (.ofMantissaAndAccuracy m .exact) = m := by
  simp [least, ExtendedMantissa.ofMantissaAndAccuracy]

theorem least_shiftRightOne (em : ExtendedMantissa) :
    least em.shiftRightOne = em.mantissa / 2 := by
  have hbit : least em.shiftRightOne =
      (em.mantissa / 2 : ℕ) + ((em.mantissa % 2 : ℕ) : ℚ) / 2 := by
    change ((em.mantissa / 2 : ℕ) : ℚ) + (if (em.mantissa % 2 != 0) = true then 1 / 2 else 0) = _
    rcases Nat.mod_two_eq_zero_or_one em.mantissa with h | h
    · simp [h]
    · simp [h]
  have hparts : (em.mantissa : ℚ) = 2 * (em.mantissa / 2 : ℕ) + (em.mantissa % 2 : ℕ) := by
    exact_mod_cast (Nat.div_add_mod em.mantissa 2).symm
  rw [hbit, hparts]
  ring

theorem least_shiftRight_le (em : ExtendedMantissa) (k : ℕ) :
    least (em >>> k) ≤ least em / 2 ^ k := by
  induction k with
  | zero =>
    rw [pow_zero, div_one]
    exact le_refl (least em)
  | succ k ih =>
    calc least (em >>> (k + 1)) = ((em >>> k).mantissa : ℚ) / 2 := least_shiftRightOne (em >>> k)
      _ ≤ least (em >>> k) / 2 := by linarith [mantissa_le_least (em >>> k)]
      _ ≤ least em / 2 ^ k / 2 := by linarith
      _ = least em / 2 ^ (k + 1) := by rw [div_div, pow_succ]

theorem mantissa_shiftRight (em : ExtendedMantissa) (k : ℕ) :
    (em >>> k).mantissa = em.mantissa / 2 ^ k := by
  induction k with
  | zero => exact (Nat.div_one _).symm
  | succ k ih =>
    change (em >>> k).mantissa / 2 = _
    rw [ih, Nat.div_div_eq_div_mul, pow_succ]

theorem mantissa_ofMantissaAndAccuracy (m : ℕ) (a : Accuracy) :
    (ExtendedMantissa.ofMantissaAndAccuracy m a).mantissa = m := by
  cases a with
  | exact => rfl
  | inexact o => cases o <;> rfl

theorem targetExponent_eq (m : ℕ) (e : ℤ) :
    Format.binary64.targetExponent (totalExponent m e) = max (m.log2 + e - 52) (-1074) := by
  change max ((m.log2 : ℤ) + 1 + e - 53) (-1074) = _
  congr 1
  omega

/-- The number of bits by which a mantissa is too long. -/
def excess (m : ℕ) (e : ℤ) : ℕ := (max ((m.log2 : ℤ) + e - 52) (-1074) - e).toNat

theorem shiftToTargetExponent_eq (m : ℕ) (e : ℤ) (a : Accuracy) :
    shiftToTargetExponent Format.binary64 m e a =
      (ExtendedMantissa.ofMantissaAndAccuracy m a >>> excess m e, e + excess m e) := by
  rw [shiftToTargetExponent, targetExponent_eq]
  rfl

theorem shiftToTargetExponent_of_lt {m : ℕ} {e : ℤ} (hm : m < 2 ^ 53) (he : -1074 ≤ e) :
    shiftToTargetExponent Format.binary64 m e .exact = (⟨m, false, false⟩, e) := by
  have hlog : m.log2 ≤ 52 := by
    by_cases hzero : m = 0
    · simp [hzero]
    · have := (Nat.log2_lt hzero).mpr hm
      omega
  have hnone : excess m e = 0 := by
    rw [excess]
    omega
  rw [shiftToTargetExponent_eq, hnone, Nat.cast_zero, add_zero]
  rfl

theorem shiftToTargetExponent_carry {e : ℤ} (he : -1074 ≤ e) :
    shiftToTargetExponent Format.binary64 (2 ^ 53) e .exact = (⟨2 ^ 52, false, false⟩, e + 1) := by
  have hone : excess (2 ^ 53) e = 1 := by
    rw [excess, Nat.log2_two_pow]
    omega
  rw [shiftToTargetExponent_eq, hone]
  rfl

/-- A mantissa with its exponent after the first shift. -/
structure Shifted (m : ℕ) (e : ℤ) (a : Accuracy) (em : ExtendedMantissa) (e' : ℤ) : Prop where
  eq : shiftToTargetExponent Format.binary64 m e a = (em, e')
  canonical : Canonical em.mantissa e'
  least : least em * 2 ^ e' ≤ Double.least (.ofMantissaAndAccuracy m a) * 2 ^ e

theorem exists_shifted (m : ℕ) (e : ℤ) (a : Accuracy) (hfull : 52 ≤ m.log2 ∨ e ≤ -1074) :
    ∃ em e', Shifted m e a em e' := by
  have hmantissa := mantissa_shiftRight (.ofMantissaAndAccuracy m a) (excess m e)
  rw [mantissa_ofMantissaAndAccuracy] at hmantissa
  refine ⟨_, _, shiftToTargetExponent_eq m e a, ⟨?_, ?_, ?_⟩, ?_⟩
  · rw [hmantissa, Nat.div_lt_iff_lt_mul (by positivity), ← pow_add]
    refine Nat.lt_log2_self.trans_le (Nat.pow_le_pow_right (by decide) ?_)
    rw [excess]
    omega
  · rw [excess]
    omega
  · by_cases hmin : e + (excess m e : ℤ) = -1074
    · exact .inr hmin
    · left
      have hlog : m.log2 = 52 + excess m e := by
        rw [excess] at hmin ⊢
        omega
      have hne : m ≠ 0 := by
        rintro rfl
        rw [Nat.log2_zero] at hlog
        omega
      rw [hmantissa, Nat.le_div_iff_mul_le (by positivity), ← pow_add, ← hlog]
      exact Nat.log2_self_le hne
  · rw [zpow_add₀ (by norm_num), zpow_natCast, mul_left_comm, mul_comm _ ((2 : ℚ) ^ e)]
    refine mul_le_mul_of_nonneg_left ?_ (by positivity)
    exact (le_div_iff₀ (by positivity)).mp (least_shiftRight_le _ _)

/-! ## Rounding -/

theorem roundedMantissa_bounds (em : ExtendedMantissa) :
    em.mantissa ≤ em.roundedMantissa ∧ em.roundedMantissa ≤ em.mantissa + 1 := by
  obtain ⟨m, r, s⟩ := em
  cases r <;> cases s <;>
    simp only [ExtendedMantissa.roundedMantissa, ExtendedMantissa.accuracy,
      Accuracy.roundToNearestEven] <;> omega

/-- What is below `c`, or nearer to `c` than to its successor, is not rounded above `c`. -/
theorem roundedMantissa_le {em : ExtendedMantissa} {c : ℕ} (h : least em < c + 1 / 2) :
    em.roundedMantissa ≤ c := by
  have hc : em.mantissa < c + 1 := by
    have : (em.mantissa : ℚ) < (c + 1 : ℕ) := by
      push_cast
      linarith [mantissa_le_least em]
    exact_mod_cast this
  by_cases hm : em.mantissa < c
  · exact (roundedMantissa_bounds em).2.trans hm
  · obtain ⟨m, r, s⟩ := em
    obtain rfl : m = c := by
      dsimp only at hc hm
      omega
    cases r with
    | true =>
      exfalso
      simp [least] at h
    | false =>
      cases s <;> exact le_refl m

/-- The rounded mantissa is zero, fits, or has to be shifted once more. -/
theorem roundWithAccuracy_cases {s : Sign} {m : ℕ} {e : ℤ} {a : Accuracy} {em : ExtendedMantissa}
    {e' : ℤ} (h : Shifted m e a em e') :
    roundWithAccuracy Format.binary64 s m e a = .zero s ∨
      (∃ hr : 0 < em.roundedMantissa, Canonical em.roundedMantissa e' ∧
        roundWithAccuracy Format.binary64 s m e a = .finite s em.roundedMantissa e' hr) ∨
      em.roundedMantissa = 2 ^ 53 ∧ Canonical (2 ^ 52) (e' + 1) ∧
        roundWithAccuracy Format.binary64 s m e a = .finite s (2 ^ 52) (e' + 1) (by decide) := by
  obtain ⟨hge, hle⟩ := roundedMantissa_bounds em
  obtain ⟨hlt, hlow, hfull⟩ := h.canonical
  rw [roundWithAccuracy, h.eq]
  dsimp only
  by_cases hzero : em.roundedMantissa = 0
  · rw [hzero, shiftToTargetExponent_of_lt (by decide) hlow]
    exact .inl rfl
  · right
    by_cases hsmall : em.roundedMantissa < 2 ^ 53
    · rw [shiftToTargetExponent_of_lt hsmall hlow]
      exact .inl ⟨Nat.pos_of_ne_zero hzero,
        ⟨hsmall, hlow, hfull.imp_left fun hfull => hfull.trans hge⟩, dif_neg hzero⟩
    · have hcarry : em.roundedMantissa = 2 ^ 53 := by omega
      rw [hcarry, shiftToTargetExponent_carry hlow]
      exact .inr ⟨rfl, ⟨by decide, by omega, .inl (le_refl _)⟩, rfl⟩

/-! ## Bits enough -/

theorem log2_mul_ge {m n : ℕ} (hm : 2 ^ 52 ≤ m) (hn : 0 < n) : 52 ≤ (m * n).log2 := by
  rw [Nat.le_log2 (by positivity)]
  exact hm.trans (Nat.le_mul_of_pos_right m hn)

theorem log2_mul_two_pow {m : ℕ} (hm : 0 < m) (j : ℕ) : (m * 2 ^ j).log2 = m.log2 + j := by
  rw [Nat.log2_eq_iff (by positivity), pow_add, add_right_comm, pow_add]
  exact ⟨Nat.mul_le_mul_right _ (Nat.log2_self_le hm.ne'),
    Nat.mul_lt_mul_of_pos_right Nat.lt_log2_self (by positivity)⟩

theorem mul_full {m n : ℕ} {e f : ℤ} (hm : 0 < m) (hn : 0 < n) (hc : Canonical m e)
    (hd : Canonical n f) : 52 ≤ (m * n).log2 ∨ e + f ≤ -1074 := by
  rcases hc.full with hfull | hmin
  · exact .inl (log2_mul_ge hfull hn)
  · rcases hd.full with hfull | hmin'
    · rw [mul_comm]
      exact .inl (log2_mul_ge hfull hm)
    · exact .inr (by omega)

/-- The exponent of a quotient. -/
def quotientExponent (m n : ℕ) (e f : ℤ) : ℤ :=
  min (e - f) (max (m.log2 + e - n.log2 - f - 53) (-1074))

theorem divCore_eq (m n : ℕ) (e f : ℤ) :
    divCore Format.binary64 m e n f =
      (m * 2 ^ (e - f - quotientExponent m n e f).toNat / n, quotientExponent m n e f,
        accuracyOfFraction (m * 2 ^ (e - f - quotientExponent m n e f).toNat % n) n) := by
  have htarget : min (e - f) (Format.binary64.targetExponent
      (totalExponent m e - totalExponent n f)) = quotientExponent m n e f := by
    rw [quotientExponent]
    change min (e - f) (max ((m.log2 : ℤ) + 1 + e - (n.log2 + 1 + f) - 53) (-1074)) = _
    congr 2
    omega
  rw [divCore, htarget, Nat.shiftLeft_eq]

theorem divCore_full {m n : ℕ} (hm : 0 < m) (hn : 0 < n) (e f : ℤ) :
    52 ≤ (divCore Format.binary64 m e n f).1.log2 ∨
      (divCore Format.binary64 m e n f).2.1 ≤ -1074 := by
  rw [divCore_eq]
  dsimp only
  by_cases hmin : quotientExponent m n e f ≤ -1074
  · exact .inr hmin
  · left
    have hshift : n.log2 + 53 ≤ m.log2 + (e - f - quotientExponent m n e f).toNat := by
      rw [quotientExponent] at hmin ⊢
      omega
    generalize (e - f - quotientExponent m n e f).toNat = j at hshift
    have hquotient : 2 ^ 52 ≤ m * 2 ^ j / n := by
      rw [Nat.le_div_iff_mul_le hn]
      calc 2 ^ 52 * n ≤ 2 ^ 52 * 2 ^ (n.log2 + 1) := Nat.mul_le_mul_left _ Nat.lt_log2_self.le
        _ = 2 ^ (n.log2 + 53) := by
            rw [← pow_add]
            congr 1
            omega
        _ ≤ 2 ^ (m.log2 + j) := Nat.pow_le_pow_right (by decide) hshift
        _ = 2 ^ m.log2 * 2 ^ j := pow_add _ _ _
        _ ≤ m * 2 ^ j := Nat.mul_le_mul_right _ (Nat.log2_self_le hm.ne')
    rw [Nat.le_log2 (by omega)]
    exact hquotient

/-- The number of bits that a mantissa lacks. -/
def lack (m : ℕ) (e : ℤ) : ℕ := (e - max ((m.log2 : ℤ) + e - 52) (-1074)).toNat

theorem round_eq (s : Sign) (m : ℕ) (e : ℤ) :
    UnpackedFloat.round Format.binary64 s m e =
      roundWithAccuracy Format.binary64 s (m * 2 ^ lack m e) (e - lack m e) .exact := by
  rw [UnpackedFloat.round, targetExponent_eq, decreaseExponent, Nat.shiftLeft_eq, lack]

theorem round_full {m : ℕ} (hm : 0 < m) (e : ℤ) :
    52 ≤ (m * 2 ^ lack m e).log2 ∨ e - lack m e ≤ -1074 := by
  rw [log2_mul_two_pow hm, lack]
  omega

/-! ## Signs -/

/-- A number, finite or not, with the given sign. -/
def Signed (x : Float) (negative : Bool) : Prop :=
  parts x = .infinite negative ∨ ∃ m e, parts x = .finite negative m e

theorem signed_packed_infinity (s : Sign) : Signed (packed (.infinity s)) (isMinus s) :=
  .inl (parts_packed_infinity s)

theorem signed_packed_zero (s : Sign) : Signed (packed (.zero s)) (isMinus s) :=
  .inr ⟨_, _, parts_packed_zero s⟩

theorem signed_packed_finite {s : Sign} {m : ℕ} {e : ℤ} {hm : 0 < m} (hc : Canonical m e) :
    Signed (packed (.finite s m e hm)) (isMinus s) := by
  by_cases he : e ≤ 971
  · exact .inr ⟨_, _, parts_packed_finite hc he⟩
  · exact .inl (parts_packed_overflow (not_le.mp he))

/-- Rounding keeps the sign, though it can lead to zero or beyond all doubles. -/
theorem signed_roundWithAccuracy {s : Sign} {m : ℕ} {e : ℤ} {a : Accuracy}
    (hfull : 52 ≤ m.log2 ∨ e ≤ -1074) :
    Signed (packed (roundWithAccuracy Format.binary64 s m e a)) (isMinus s) := by
  obtain ⟨em, e', hs⟩ := exists_shifted m e a hfull
  rcases roundWithAccuracy_cases hs with hround | ⟨_, hc, hround⟩ | ⟨-, hc, hround⟩
  · rw [hround]
    exact signed_packed_zero s
  · rw [hround]
    exact signed_packed_finite hc
  · rw [hround]
    exact signed_packed_finite hc

/-! ## Bounds -/

/-- A finite double whose absolute value is at most `b`. -/
def AtMost (x : Float) (b : ℚ) : Prop :=
  ∃ negative m e, parts x = .finite negative m e ∧ (m : ℚ) * 2 ^ e ≤ b

theorem AtMost.mono {x : Float} {b b' : ℚ} (h : AtMost x b) (hb : b ≤ b') : AtMost x b' := by
  obtain ⟨negative, m, e, hx, hle⟩ := h
  exact ⟨negative, m, e, hx, hle.trans hb⟩

theorem atMost_packed_zero (s : Sign) {b : ℚ} (hb : 0 ≤ b) : AtMost (packed (.zero s)) b := by
  refine ⟨_, 0, -1074, parts_packed_zero s, ?_⟩
  rw [Nat.cast_zero, zero_mul]
  exact hb

/-- A bound `c * 2 ^ k` that is a double itself. -/
structure Grid (c : ℕ) (k : ℤ) : Prop where
  le : 2 ^ 52 ≤ c
  lt : c < 2 ^ 53
  low : -1074 ≤ k
  high : k ≤ 971

theorem two_zpow_succ (k : ℤ) : (2 : ℚ) ^ (k + 1) = 2 * 2 ^ k := by
  rw [zpow_add_one₀ (by norm_num), mul_comm]

theorem roundedMantissa_mul_le {em : ExtendedMantissa} {e : ℤ} (hc : Canonical em.mantissa e)
    {c : ℕ} {k : ℤ} (hg : Grid c k) (h : least em * 2 ^ e < (c + 1 / 2) * 2 ^ k) :
    e ≤ k ∧ (em.roundedMantissa : ℚ) * 2 ^ e ≤ c * 2 ^ k := by
  have hpos : (0 : ℚ) < 2 ^ k := by positivity
  have hlow : (2 : ℚ) ^ 52 ≤ c := by exact_mod_cast hg.le
  have hhigh : (c : ℚ) + 1 ≤ 2 ^ 53 := by exact_mod_cast hg.lt
  -- a greater exponent would mean a number beyond the bound
  have hexponent : e ≤ k := by
    by_contra hlt
    have hle := hg.low
    have hfull : (2 : ℚ) ^ 52 ≤ em.mantissa := by exact_mod_cast hc.full.resolve_right (by omega)
    have hpow : 2 * (2 : ℚ) ^ k ≤ 2 ^ e := by
      rw [← two_zpow_succ]
      exact zpow_le_zpow_right₀ one_le_two (by omega)
    have hbeyond : (2 : ℚ) ^ 52 * (2 * 2 ^ k) ≤ least em * 2 ^ e :=
      mul_le_mul (hfull.trans (mantissa_le_least em)) hpow (by positivity)
        ((by positivity : (0 : ℚ) ≤ em.mantissa).trans (mantissa_le_least em))
    nlinarith
  refine ⟨hexponent, ?_⟩
  rcases hexponent.eq_or_lt with rfl | hlt
  · have hle : em.roundedMantissa ≤ c := roundedMantissa_le (lt_of_mul_lt_mul_right h hpos.le)
    exact mul_le_mul_of_nonneg_right (by exact_mod_cast hle) hpos.le
  · have hle : (em.roundedMantissa : ℚ) ≤ 2 ^ 53 := by
      have := (roundedMantissa_bounds em).2.trans hc.lt
      exact_mod_cast this
    have hpow : 2 * (2 : ℚ) ^ e ≤ 2 ^ k := by
      rw [← two_zpow_succ]
      exact zpow_le_zpow_right₀ one_le_two hlt
    calc (em.roundedMantissa : ℚ) * 2 ^ e ≤ 2 ^ 53 * 2 ^ e :=
          mul_le_mul_of_nonneg_right hle (by positivity)
      _ = 2 ^ 52 * (2 * 2 ^ e) := by ring
      _ ≤ 2 ^ 52 * 2 ^ k := mul_le_mul_of_nonneg_left hpow (by positivity)
      _ ≤ c * 2 ^ k := mul_le_mul_of_nonneg_right hlow hpos.le

/-- A number below a bound that is a double, or nearer to it than to its successor, is rounded to
a finite double that is not above the bound. -/
theorem atMost_roundWithAccuracy {s : Sign} {m : ℕ} {e : ℤ} {a : Accuracy}
    (hfull : 52 ≤ m.log2 ∨ e ≤ -1074) {c : ℕ} {k : ℤ} (hg : Grid c k)
    (h : least (.ofMantissaAndAccuracy m a) * 2 ^ e < (c + 1 / 2) * 2 ^ k) :
    AtMost (packed (roundWithAccuracy Format.binary64 s m e a)) (c * 2 ^ k) := by
  obtain ⟨em, e', hs⟩ := exists_shifted m e a hfull
  obtain ⟨hexponent, hrounded⟩ := roundedMantissa_mul_le hs.canonical hg (hs.least.trans_lt h)
  have hhigh := hg.high
  rcases roundWithAccuracy_cases hs with hround | ⟨_, hc, hround⟩ | ⟨hcarry, hc, hround⟩
  · rw [hround]
    exact atMost_packed_zero s (by positivity)
  · rw [hround]
    exact ⟨_, _, _, parts_packed_finite hc (by omega), hrounded⟩
  · rw [hround]
    -- a mantissa of `c` would not have been too long
    have hne : e' ≠ k := by
      rintro rfl
      rw [hcarry] at hrounded
      have hle : 2 ^ 53 ≤ c := by exact_mod_cast le_of_mul_le_mul_right hrounded (by positivity)
      exact absurd hg.lt (not_lt.mpr hle)
    have hsame : ((2 ^ 52 : ℕ) : ℚ) * 2 ^ (e' + 1) = em.roundedMantissa * 2 ^ e' := by
      rw [hcarry, two_zpow_succ]
      push_cast
      ring
    exact ⟨_, _, _, parts_packed_finite hc (by omega), hsame.trans_le hrounded⟩

end PixelScale.Double
