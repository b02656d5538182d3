import PixelScale.Number.Numeral
import PixelScale.Proofs.Number.Rounded

/-!
# Signs and bounds in arithmetic

Every operation on doubles computes with unpacked forms and rounds once, so what is known of rounding
is known of each operation. Two things are followed: the sign, which a product or a quotient with a
positive number keeps even when it leaves the range of doubles or vanishes, and bounds for absolute
values, below which nothing leaves that range. An infinity stays one whatever comes behind it.

* `AtMost.mul`, `AtMost.div`, `AtMost.add`, `AtMost.floor`: bounds of results.
* `Signed.mul`, `Signed.div`, `signed_ofScientific`: signs of results.
* `infinite_mul`, `infinite_div`, `infinite_add`, `infinite_floor`: results of infinities.
-/

namespace PixelScale.Double

open Float.Model Float.Model.UnpackedFloat

/-! ## Unpacked forms -/

/-- A double of at least `b`, which is positive. -/
def AtLeast (x : Float) (b : ℚ) : Prop :=
  ∃ m e, parts x = .finite false m e ∧ 0 < b ∧ b ≤ (m : ℚ) * 2 ^ e

/-- A finite double above zero. -/
def Positive (x : Float) : Prop := ∃ m e, parts x = .finite false m e ∧ 0 < m

section

variable {x y : Float} {negative : Bool} {a b : ℚ} {c : ℕ} {k : ℤ}

theorem AtMost.unpack (h : AtMost x b) :
    (∃ s, x.toModel.unpack = .zero s) ∨ ∃ s m e hm, x.toModel.unpack = .finite s m e hm ∧
      Canonical m e ∧ e ≤ 971 ∧ (m : ℚ) * 2 ^ e ≤ b := by
  obtain ⟨negative, m, e, hx, hle⟩ := h
  obtain ⟨hc, he⟩ := canonical_of_parts hx
  obtain ⟨s, -, ⟨-, hs⟩ | ⟨hm, hs⟩⟩ := unpack_of_finite hx
  · exact .inl ⟨s, hs⟩
  · exact .inr ⟨s, m, e, hm, hs, hc, he, hle⟩

theorem Signed.unpack (h : Signed x negative) :
    ∃ s, isMinus s = negative ∧ (x.toModel.unpack = .infinity s ∨ x.toModel.unpack = .zero s ∨
      ∃ m e hm, x.toModel.unpack = .finite s m e hm ∧ Canonical m e) := by
  rcases h with hx | ⟨m, e, hx⟩
  · obtain ⟨s, hminus, hs⟩ := unpack_of_infinite hx
    exact ⟨s, hminus, .inl hs⟩
  · obtain ⟨s, hminus, ⟨-, hs⟩ | ⟨hm, hs⟩⟩ := unpack_of_finite hx
    · exact ⟨s, hminus, .inr (.inl hs)⟩
    · exact ⟨s, hminus, .inr (.inr ⟨m, e, hm, hs, (canonical_of_parts hx).1⟩)⟩

theorem AtLeast.positive (h : AtLeast x b) : Positive x := by
  obtain ⟨m, e, hx, hpos, hle⟩ := h
  refine ⟨m, e, hx, Nat.pos_of_ne_zero ?_⟩
  rintro rfl
  rw [Nat.cast_zero, zero_mul] at hle
  exact absurd hpos (not_lt.mpr hle)

theorem isMinus_eq_false {s : Sign} (h : isMinus s = false) : s = .positive := by
  cases s with
  | negative => cases h
  | positive => rfl

theorem unpack_of_positive {m : ℕ} {e : ℤ} (h : parts x = .finite false m e) (hm : 0 < m) :
    x.toModel.unpack = .finite .positive m e hm := by
  obtain ⟨s, hminus, ⟨rfl, -⟩ | ⟨_, hs⟩⟩ := unpack_of_finite h
  · exact absurd hm (lt_irrefl 0)
  · rw [hs, isMinus_eq_false hminus]

theorem Positive.unpack (h : Positive x) :
    ∃ m e hm, x.toModel.unpack = .finite .positive m e hm ∧ Canonical m e := by
  obtain ⟨m, e, hx, hm⟩ := h
  exact ⟨m, e, hm, unpack_of_positive hx hm, (canonical_of_parts hx).1⟩

/-! ## Operations -/

theorem mul_eq (x y : Float) :
    x * y = packed (UnpackedFloat.mul Format.binary64 x.toModel.unpack y.toModel.unpack) :=
  rfl

theorem div_eq (x y : Float) :
    x / y = packed (UnpackedFloat.div Format.binary64 x.toModel.unpack y.toModel.unpack) :=
  rfl

theorem add_eq (x y : Float) :
    x + y = packed (UnpackedFloat.add Format.binary64 x.toModel.unpack y.toModel.unpack) :=
  rfl

theorem neg_eq (x : Float) : -x = packed x.toModel.unpack.neg := rfl

/-! ## Bounds -/

theorem AtMost.mul (hx : AtMost x a) (hy : AtMost y b) (hg : Grid c k)
    (h : a * b < (c + 1 / 2) * 2 ^ k) : AtMost (x * y) (c * 2 ^ k) := by
  rw [mul_eq]
  rcases hx.unpack with ⟨s, hs⟩ | ⟨s, m, e, hm, hs, hc, -, hle⟩
  · rw [hs]
    rcases hy.unpack with ⟨t, ht⟩ | ⟨t, n, f, hn, ht, -⟩
    · rw [ht]
      exact atMost_packed_zero _ (by positivity)
    · rw [ht]
      exact atMost_packed_zero _ (by positivity)
  · rw [hs]
    rcases hy.unpack with ⟨t, ht⟩ | ⟨t, n, f, hn, ht, hd, -, hle'⟩
    · rw [ht]
      exact atMost_packed_zero _ (by positivity)
    · rw [ht]
      refine @atMost_roundWithAccuracy (s * t) (m * n) (e + f) .exact (mul_full hm hn hc hd) c k
        hg ?_
      have hpos : (0 : ℚ) ≤ m * 2 ^ e := by positivity
      calc least (.ofMantissaAndAccuracy (m * n) .exact) * 2 ^ (e + f)
          = (m * 2 ^ e) * (n * 2 ^ f) := by
            rw [least_exact, zpow_add₀ (by norm_num), Nat.cast_mul]
            ring
        _ ≤ a * b := mul_le_mul hle hle' (by positivity) (hpos.trans hle)
        _ < (c + 1 / 2) * 2 ^ k := h

theorem least_accuracyOfFraction_le (q r : ℕ) {n : ℕ} (hn : 0 < n) :
    least (.ofMantissaAndAccuracy q (accuracyOfFraction r n)) ≤ q + (r : ℚ) / n := by
  have hpos : (0 : ℚ) < n := by exact_mod_cast hn
  have hnonneg : (0 : ℚ) ≤ r / n := by positivity
  have hhalf : n ≤ 2 * r → (1 / 2 : ℚ) ≤ r / n := by
    intro hle
    have : (n : ℚ) ≤ 2 * r := by exact_mod_cast hle
    rw [le_div_iff₀ hpos]
    linarith
  rw [accuracyOfFraction]
  by_cases hr : r = 0
  · rw [if_pos hr, least_exact]
    linarith
  · rw [if_neg hr]
    cases hcompare : compare (2 * r) n with
    | lt =>
      simp only [least, ExtendedMantissa.ofMantissaAndAccuracy, Bool.false_eq_true, if_false]
      linarith
    | eq =>
      have := hhalf (Nat.compare_eq_eq.mp hcompare).ge
      simp only [least, ExtendedMantissa.ofMantissaAndAccuracy, if_true]
      linarith
    | gt =>
      have := hhalf (Nat.compare_eq_gt.mp hcompare).le
      simp only [least, ExtendedMantissa.ofMantissaAndAccuracy, if_true]
      linarith

theorem least_divCore_le {m n : ℕ} (hn : 0 < n) (e f : ℤ) :
    least (.ofMantissaAndAccuracy (divCore Format.binary64 m e n f).1
      (divCore Format.binary64 m e n f).2.2) * 2 ^ (divCore Format.binary64 m e n f).2.1 ≤
        m * 2 ^ e / (n * 2 ^ f) := by
  have hexponent : quotientExponent m n e f ≤ e - f := min_le_left _ _
  rw [divCore_eq]
  dsimp only
  generalize quotientExponent m n e f = t at hexponent
  have hpos : (n : ℚ) ≠ 0 := by exact_mod_cast hn.ne'
  have hshift : (2 : ℚ) ^ (e - f - t).toNat * 2 ^ t = 2 ^ e / 2 ^ f := by
    rw [← zpow_natCast, Int.toNat_of_nonneg (by omega), ← zpow_add₀ (by norm_num), sub_add_cancel,
      zpow_sub₀ (by norm_num)]
  have hparts : ((m * 2 ^ (e - f - t).toNat / n : ℕ) : ℚ) +
      (m * 2 ^ (e - f - t).toNat % n : ℕ) / n = m * 2 ^ (e - f - t).toNat / n := by
    rw [eq_div_iff hpos, add_mul, div_mul_cancel₀ _ hpos, mul_comm]
    exact_mod_cast Nat.div_add_mod (m * 2 ^ (e - f - t).toNat) n
  calc _ ≤ (((m * 2 ^ (e - f - t).toNat / n : ℕ) : ℚ) +
        (m * 2 ^ (e - f - t).toNat % n : ℕ) / n) * 2 ^ t :=
        mul_le_mul_of_nonneg_right (least_accuracyOfFraction_le _ _ hn) (by positivity)
    _ = m * (2 ^ (e - f - t).toNat * 2 ^ t) / n := by
        rw [hparts]
        ring
    _ = m * 2 ^ e / (n * 2 ^ f) := by
        rw [hshift]
        field_simp

theorem AtMost.div (hx : AtMost x a) (hy : AtLeast y b) (hg : Grid c k)
    (h : a / b < (c + 1 / 2) * 2 ^ k) : AtMost (x / y) (c * 2 ^ k) := by
  obtain ⟨n, f, hn, hd⟩ := hy.positive
  obtain ⟨n', f', hy, hpos, hle'⟩ := hy
  obtain ⟨-, rfl, rfl⟩ := Parts.finite.inj (hn.symm.trans hy)
  rw [div_eq, unpack_of_positive hn hd]
  rcases hx.unpack with ⟨s, hs⟩ | ⟨s, m, e, hm, hs, -, -, hle⟩
  · rw [hs]
    exact atMost_packed_zero _ (by positivity)
  · rw [hs]
    refine @atMost_roundWithAccuracy (s / Sign.positive) _ _ _ (divCore_full hm hd e f) c k hg ?_
    have hnum : (0 : ℚ) ≤ m * 2 ^ e := by positivity
    calc _ ≤ (m : ℚ) * 2 ^ e / (n * 2 ^ f) := least_divCore_le hd e f
      _ ≤ a / b := div_le_div₀ (hnum.trans hle) hle hpos hle'
      _ < (c + 1 / 2) * 2 ^ k := h

theorem atMost_round {s : Sign} {m : ℕ} {e : ℤ} (hm : 0 < m) (hg : Grid c k)
    (h : (m : ℚ) * 2 ^ e < (c + 1 / 2) * 2 ^ k) :
    AtMost (packed (UnpackedFloat.round Format.binary64 s m e)) (c * 2 ^ k) := by
  rw [round_eq]
  refine atMost_roundWithAccuracy (round_full hm e) hg ?_
  have hvalue : (2 : ℚ) ^ lack m e * 2 ^ (e - lack m e) = 2 ^ e := by
    rw [← zpow_natCast, ← zpow_add₀ (by norm_num), add_sub_cancel]
  rw [least_exact, Nat.cast_mul, Nat.cast_pow, Nat.cast_ofNat, mul_assoc, hvalue]
  exact h

theorem atMost_normalize {z e : ℤ} {s : Sign} (hg : Grid c k)
    (h : |(z : ℚ)| * 2 ^ e < (c + 1 / 2) * 2 ^ k) :
    AtMost (packed (normalize Format.binary64 z e s)) (c * 2 ^ k) := by
  rw [UnpackedFloat.normalize]
  cases hz : compare z 0 with
  | lt =>
    have hneg := Int.compare_eq_lt.mp hz
    refine atMost_round (by omega) hg (lt_of_eq_of_lt ?_ h)
    have habs : (((-z).toNat : ℤ) : ℚ) = |(z : ℚ)| := by
      rw [Int.toNat_of_nonneg (by omega), ← Int.cast_abs, abs_of_neg hneg]
    rw [← habs, Int.cast_natCast]
  | eq => exact atMost_packed_zero _ (by positivity)
  | gt =>
    have hpos := Int.compare_eq_gt.mp hz
    refine atMost_round (by omega) hg (lt_of_eq_of_lt ?_ h)
    have habs : ((z.toNat : ℤ) : ℚ) = |(z : ℚ)| := by
      rw [Int.toNat_of_nonneg (by omega), ← Int.cast_abs, abs_of_pos hpos]
    rw [← habs, Int.cast_natCast]

theorem shiftLeft_mul_zpow (m : ℕ) {e e' : ℤ} (h : e' ≤ e) :
    ((m <<< (e - e').toNat : ℕ) : ℚ) * 2 ^ e' = m * 2 ^ e := by
  rw [Nat.shiftLeft_eq, Nat.cast_mul, Nat.cast_pow, Nat.cast_ofNat, mul_assoc, ← zpow_natCast,
    Int.toNat_of_nonneg (by omega), ← zpow_add₀ (by norm_num), sub_add_cancel]

theorem abs_apply (s : Sign) (n : ℤ) : |s.apply n| = |n| := by
  cases s with
  | negative => exact abs_neg n
  | positive => rfl

theorem AtMost.add (hx : AtMost x a) (hy : AtMost y b) (hg : Grid c k) (ha : a ≤ c * 2 ^ k)
    (hb : b ≤ c * 2 ^ k) (h : a + b < (c + 1 / 2) * 2 ^ k) : AtMost (x + y) (c * 2 ^ k) := by
  rw [add_eq]
  rcases hx.unpack with ⟨s, hs⟩ | ⟨s, m, e, hm, hs, hc, he, hle⟩
  · rw [hs]
    rcases hy.unpack with ⟨t, ht⟩ | ⟨t, n, f, hn, ht, hd, hf, hle'⟩
    · rw [ht, UnpackedFloat.add]
      split_ifs <;> exact atMost_packed_zero _ (by positivity)
    · rw [ht]
      exact ⟨_, _, _, parts_packed_finite hd hf, hle'.trans hb⟩
  · rw [hs]
    rcases hy.unpack with ⟨t, ht⟩ | ⟨t, n, f, hn, ht, hd, hf, hle'⟩
    · rw [ht]
      exact ⟨_, _, _, parts_packed_finite hc he, hle.trans ha⟩
    · rw [ht]
      -- both terms are whole multiples of the smaller step, and are added as whole numbers
      have hm' := shiftLeft_mul_zpow m (min_le_left e f)
      have hn' := shiftLeft_mul_zpow n (min_le_right e f)
      refine atMost_normalize hg (lt_of_le_of_lt ?_ h)
      generalize m <<< (e - min e f).toNat = m' at hm'
      generalize n <<< (f - min e f).toNat = n' at hn'
      have habs : |((s.apply m' + t.apply n' : ℤ) : ℚ)| ≤ m' + n' := by
        have : |s.apply m' + t.apply n'| ≤ (m' : ℤ) + n' := by
          refine (abs_add_le _ _).trans_eq ?_
          rw [abs_apply, abs_apply, Nat.abs_cast, Nat.abs_cast]
        exact_mod_cast this
      calc |((s.apply m' + t.apply n' : ℤ) : ℚ)| * 2 ^ min e f ≤ (m' + n') * 2 ^ min e f :=
            mul_le_mul_of_nonneg_right habs (by positivity)
        _ = m * 2 ^ e + n * 2 ^ f := by rw [add_mul, hm', hn']
        _ ≤ a + b := add_le_add hle hle'

theorem AtMost.neg (hx : AtMost x b) : AtMost (-x) b := by
  rw [neg_eq]
  rcases hx.unpack with ⟨s, hs⟩ | ⟨s, m, e, hm, hs, hc, he, hle⟩
  · rw [hs]
    refine atMost_packed_zero _ ?_
    obtain ⟨-, m, e, -, hle⟩ := hx
    exact (by positivity : (0 : ℚ) ≤ m * 2 ^ e).trans hle
  · rw [hs]
    exact ⟨_, _, _, parts_packed_finite hc he, hle⟩

theorem toFloat_eq (n : UInt64) :
    n.toFloat = packed (normalize Format.binary64 (n.toNat : ℤ) 0 .positive) :=
  rfl

theorem atMost_toFloat (n : UInt64) : AtMost n.toFloat (2 ^ 64) := by
  have hn : (n.toNat : ℚ) < 2 ^ 64 := by exact_mod_cast n.toNat_lt
  have hgrid : Grid (2 ^ 52) 12 := ⟨by decide, by decide, by decide, by decide⟩
  have hround : AtMost n.toFloat ((2 ^ 52 : ℕ) * 2 ^ (12 : ℤ)) := by
    rw [toFloat_eq]
    refine atMost_normalize hgrid ?_
    rw [Int.cast_natCast, Nat.abs_cast, zpow_zero, mul_one]
    refine hn.trans ?_
    norm_num
  exact hround.mono (by norm_num)

theorem atMost_ofWhole (negative : Bool) (n : ℕ) : AtMost (ofWhole negative n) (2 ^ 64) := by
  cases negative with
  | false => exact atMost_toFloat _
  | true => exact (atMost_toFloat _).neg

/-- Rounding down does not leave a bound beyond which all doubles are whole. -/
theorem AtMost.floor (h : AtMost x b) (hb : 2 ^ 64 ≤ b) : AtMost (floor x) b := by
  have hx := h
  obtain ⟨negative, m, e, hparts, -⟩ := h
  rw [Double.floor, hparts]
  dsimp only
  split_ifs
  · exact hx
  · exact (atMost_ofWhole _ _).mono hb
  · exact (atMost_ofWhole _ _).mono hb

/-! ## Signs -/

theorem mul_positive (s : Sign) : s * .positive = s := by
  cases s <;> rfl

theorem div_positive (s : Sign) : s / .positive = s := by
  cases s <;> rfl

theorem isMinus_neg (s : Sign) : isMinus (-s) = !isMinus s := by
  cases s <;> rfl

theorem Signed.mul (hx : Signed x negative) (hy : Positive y) : Signed (x * y) negative := by
  obtain ⟨n, f, hn, ht, hd⟩ := hy.unpack
  obtain ⟨s, rfl, hs⟩ := hx.unpack
  rw [mul_eq, ht, ← mul_positive s]
  rcases hs with hs | hs | ⟨m, e, hm, hs, hc⟩
  · rw [hs]
    exact signed_packed_infinity _
  · rw [hs]
    exact signed_packed_zero _
  · rw [hs]
    exact signed_roundWithAccuracy (mul_full hm hn hc hd)

theorem Signed.div (hx : Signed x negative) (hy : Positive y) : Signed (x / y) negative := by
  obtain ⟨n, f, hn, ht, -⟩ := hy.unpack
  obtain ⟨s, rfl, hs⟩ := hx.unpack
  rw [div_eq, ht, ← div_positive s]
  rcases hs with hs | hs | ⟨m, e, hm, hs, -⟩
  · rw [hs]
    exact signed_packed_infinity _
  · rw [hs]
    exact signed_packed_zero _
  · rw [hs]
    exact signed_roundWithAccuracy (divCore_full hm hn e f)

theorem Signed.neg (hx : Signed x negative) : Signed (-x) (!negative) := by
  obtain ⟨s, rfl, hs⟩ := hx.unpack
  rw [neg_eq, ← isMinus_neg]
  rcases hs with hs | hs | ⟨m, e, hm, hs, hc⟩
  · rw [hs]
    exact signed_packed_infinity _
  · rw [hs]
    exact signed_packed_zero _
  · rw [hs]
    exact signed_packed_finite hc

theorem signed_toFloat (n : UInt64) : Signed n.toFloat false := by
  rw [toFloat_eq, UnpackedFloat.normalize]
  cases hn : compare (n.toNat : ℤ) 0 with
  | lt =>
    have := Int.compare_eq_lt.mp hn
    omega
  | eq => exact signed_packed_zero .positive
  | gt =>
    have hpos := Int.compare_eq_gt.mp hn
    have hm : 0 < (n.toNat : ℤ).toNat := by omega
    dsimp only
    rw [round_eq]
    exact signed_roundWithAccuracy (round_full hm 0)

end

/-! ## Infinities -/

section

variable {x y : Float} {negative : Bool}

theorem infinite_mul (hx : parts x = .infinite negative) (hy : Positive y) :
    parts (x * y) = .infinite negative := by
  obtain ⟨n, f, hn, ht, -⟩ := hy.unpack
  obtain ⟨s, rfl, hs⟩ := unpack_of_infinite hx
  rw [mul_eq, ht, ← mul_positive s, hs]
  exact parts_packed_infinity _

theorem infinite_div (hx : parts x = .infinite negative) (hy : Positive y) :
    parts (x / y) = .infinite negative := by
  obtain ⟨n, f, hn, ht, -⟩ := hy.unpack
  obtain ⟨s, rfl, hs⟩ := unpack_of_infinite hx
  rw [div_eq, ht, ← div_positive s, hs]
  exact parts_packed_infinity _

theorem infinite_add (hx : parts x = .infinite negative) (hy : Positive y) :
    parts (x + y) = .infinite negative := by
  obtain ⟨n, f, hn, ht, -⟩ := hy.unpack
  obtain ⟨s, rfl, hs⟩ := unpack_of_infinite hx
  rw [add_eq, ht, hs]
  exact parts_packed_infinity s

theorem infinite_floor (hx : parts x = .infinite negative) :
    parts (floor x) = .infinite negative := by
  rw [floor, hx]
  exact hx

end

/-! ## Comparisons -/

theorem isFinite_iff {x : Float} :
    x.isFinite = true ↔ ∃ negative m e, parts x = .finite negative m e := by
  have hfinite : x.isFinite = x.toModel.unpack.isFinite := rfl
  rw [hfinite, parts_eq]
  cases x.toModel.unpack with
  | zero s => exact ⟨fun _ => ⟨_, _, _, rfl⟩, fun _ => rfl⟩
  | finite s m e hm => exact ⟨fun _ => ⟨_, _, _, rfl⟩, fun _ => rfl⟩
  | _ =>
    refine ⟨fun h => ?_, fun ⟨_, _, _, h⟩ => ?_⟩
    · cases h
    · cases h

theorem parts_zero : parts 0 = .finite false 0 (-1074) := by decide

theorem unpack_zero : (0 : Float).toModel.unpack = .zero .positive := by
  obtain ⟨s, hminus, ⟨-, hs⟩ | ⟨hm, -⟩⟩ := unpack_of_finite parts_zero
  · rw [hs, isMinus_eq_false hminus]
  · exact absurd hm (lt_irrefl 0)

section

variable {x : Float} {negative : Bool}

theorem lt_iff_compare (x y : Float) :
    x < y ↔ x.toModel.unpack.compare y.toModel.unpack = some .lt := by
  have hlt : (x < y) = (Float.lt x y = true) := rfl
  rw [hlt, Float.lt, decide_eq_true_iff]
  exact beq_iff_eq

theorem beq_eq_compare (x y : Float) :
    (x == y) = (x.toModel.unpack.compare y.toModel.unpack == some .eq) :=
  rfl

theorem positive_of_lt (h : x.isFinite = true) (hpos : 0 < x) : Positive x := by
  obtain ⟨negative, m, e, hx⟩ := isFinite_iff.mp h
  have hcompare := (lt_iff_compare 0 x).mp hpos
  rw [unpack_zero] at hcompare
  obtain ⟨s, rfl, ⟨-, hs⟩ | ⟨hm, hs⟩⟩ := unpack_of_finite hx
  · rw [hs] at hcompare
    cases hcompare
  · rw [hs] at hcompare
    cases s with
    | negative => cases hcompare
    | positive => exact ⟨m, e, hx, hm⟩

theorem infinite_beq_zero (hx : parts x = .infinite negative) : (x == 0) = false := by
  obtain ⟨s, rfl, hs⟩ := unpack_of_infinite hx
  rw [beq_eq_compare, unpack_zero, hs]
  cases s <;> rfl

end

/-! ## Literals -/

/-- Whether a double is finite and not below one. -/
def reachesOne : Parts → Bool
  | .finite false m e => decide (Nat.pow 2 (-e).toNat ≤ m)
  | _ => false

theorem atLeast_one {x : Float} (h : reachesOne (parts x) = true) : AtLeast x 1 := by
  unfold reachesOne at h
  split at h
  · rename_i m e hx
    refine ⟨m, e, hx, one_pos, ?_⟩
    have hm : (2 : ℚ) ^ (-e).toNat ≤ m := by exact_mod_cast of_decide_eq_true h
    have hexponent : (-e : ℤ) ≤ (-e).toNat := Int.self_le_toNat _
    calc (1 : ℚ) = 2 ^ (-e) * 2 ^ e := by rw [← zpow_add₀ (by norm_num), neg_add_cancel, zpow_zero]
      _ ≤ 2 ^ ((-e).toNat : ℤ) * 2 ^ e :=
          mul_le_mul_of_nonneg_right (zpow_le_zpow_right₀ one_le_two hexponent) (by positivity)
      _ ≤ m * 2 ^ e := by
          rw [zpow_natCast]
          exact mul_le_mul_of_nonneg_right hm (by positivity)
  · cases h

/-- A literal without a sign is no negative number, and it is a number. -/
theorem signed_ofScientific (m : ℕ) (s : Bool) (e : ℕ) :
    Signed (Float.ofScientific m s e) false := by
  have hpowers : ∀ (e : ℕ) (h : e < Float.exactlyRepresentablePowersOfTen.size),
      reachesOne (parts (Float.exactlyRepresentablePowersOfTen[e])) = true := by decide
  rw [Float.ofScientific]
  -- a short literal is computed with a power of ten from a table, any other one by exact numbers
  split
  · rename_i h
    have hten := (atLeast_one (hpowers e (Nat.lt_succ_of_le h.2))).positive
    dsimp only
    split
    · exact (signed_toFloat _).div hten
    · exact (signed_toFloat _).mul hten
  · dsimp only
    generalize (if s = true then Int.negOfNat e else Int.ofNat e) = d
    change Signed (packed (UnpackedFloat.ofScientific Format.binary64 m d)) (isMinus .positive)
    rw [UnpackedFloat.ofScientific]
    split_ifs with hm
    · exact signed_packed_zero .positive
    · exact signed_packed_infinity .positive
    · exact signed_packed_zero .positive
    · have hlong : 2 ^ 52 ≤ m <<< Format.binary64.mantissaBits := by
        rw [Nat.shiftLeft_eq]
        exact (Nat.pow_le_pow_right (by decide) (by decide)).trans
          (Nat.le_mul_of_pos_left _ (Nat.pos_of_ne_zero hm))
      rw [UnpackedFloat.mul]
      exact @signed_roundWithAccuracy .positive _ _ _ (.inl (log2_mul_ge hlong (by positivity)))
    · rw [UnpackedFloat.div]
      exact @signed_roundWithAccuracy .positive _ _ _
        (divCore_full (Nat.pos_of_ne_zero hm) (by positivity) _ _)

end PixelScale.Double
