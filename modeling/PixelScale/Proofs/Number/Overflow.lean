import PixelScale.Number.Rounding
import PixelScale.Proofs.Number.Arithmetic

/-!
# Rounding and the range of doubles

A number is scaled before it is cut off, and this can take it out of the range of doubles. Nothing
brings an infinity back, so such a number is lost. But scaling is the only step that does this: a
tenth of the greatest double may be rounded up on its way, and is still in range when it is
multiplied by ten again.

* `isFinite_toFixed`, `infinite_toFixed`: a number is finite after rounding exactly if it is finite
  after scaling.
-/

namespace PixelScale.Double

/-! ## The doubles that rounding computes with -/

theorem parts_ten : parts (powerOfTen 1) = .finite false 5629499534213120 (-49) := by decide

theorem parts_half : parts 0.5 = .finite false 4503599627370496 (-53) := by decide

theorem ten_eq : ((5629499534213120 : ℕ) : ℚ) * 2 ^ (-49 : ℤ) = 10 := by norm_num

theorem atMost_ten : AtMost (powerOfTen 1) 10 := ⟨_, _, _, parts_ten, ten_eq.le⟩

theorem atLeast_ten : AtLeast (powerOfTen 1) 10 := ⟨_, _, parts_ten, by norm_num, ten_eq.ge⟩

theorem atMost_half : AtMost 0.5 (1 / 2) := ⟨_, _, _, parts_half, by norm_num⟩

theorem positive_half : Positive 0.5 := ⟨_, _, parts_half, by decide⟩

/-- What a number is multiplied by before it is cut off. -/
def unitOf (precision : ℕ) : Float := powerOfTen (min precision maxPrecision + 1)

theorem atLeast_unitOf (precision : ℕ) : AtLeast (unitOf precision) 1 := by
  have hall : ∀ j < 22, reachesOne (parts (powerOfTen j)) = true := by decide
  exact atLeast_one (hall _ (Nat.lt_succ_of_le (Nat.succ_le_succ (min_le_right _ _))))

/-! ## The range of doubles -/

theorem Signed.infinite {x : Float} {negative : Bool} (hx : Signed x negative)
    (h : x.isFinite = false) : parts x = .infinite negative :=
  hx.resolve_right fun ⟨m, e, hparts⟩ =>
    Bool.eq_false_iff.mp h (isFinite_iff.mpr ⟨_, m, e, hparts⟩)

/-- No double is above the greatest one. -/
theorem atMost_max {x : Float} (h : x.isFinite = true) :
    AtMost x ((2 ^ 53 - 1 : ℕ) * 2 ^ (971 : ℤ)) := by
  obtain ⟨negative, m, e, hx⟩ := isFinite_iff.mp h
  obtain ⟨hc, he⟩ := canonical_of_parts hx
  have hm : m ≤ 2 ^ 53 - 1 := by
    have := hc.lt
    omega
  have hstep : (2 : ℚ) ^ e ≤ 2 ^ (971 : ℤ) := zpow_le_zpow_right₀ one_le_two he
  exact ⟨negative, m, e, hx,
    mul_le_mul (by exact_mod_cast hm) hstep (by positivity) (by positivity)⟩

theorem AtMost.isFinite {x : Float} {b : ℚ} (h : AtMost x b) : x.isFinite = true := by
  obtain ⟨negative, m, e, hx, -⟩ := h
  exact isFinite_iff.mpr ⟨negative, m, e, hx⟩

theorem grid_max : Grid (2 ^ 53 - 1) 971 := ⟨by decide, by decide, by decide, by decide⟩

/-- A tenth of the greatest double, rounded up. -/
def tenth : ℕ := 7205759403792793

theorem grid_tenth : Grid tenth 968 := ⟨by decide, by decide, by decide, by decide⟩

/-- The steps of the greatest double and those of its tenth are powers of two, one eight times the
other, and much greater than one. No more is needed of them, and their digits are kept out of
arithmetic. -/
theorem exists_steps : ∃ u : ℚ, 2 ^ 64 ≤ u ∧ 2 ^ (968 : ℤ) = u ∧ 2 ^ (971 : ℤ) = 8 * u := by
  refine ⟨2 ^ (968 : ℤ), ?_, rfl, ?_⟩
  · rw [← zpow_natCast]
    exact zpow_le_zpow_right₀ one_le_two (by decide)
  · have hsum : (2 : ℚ) ^ (971 : ℤ) = 2 ^ (968 : ℤ) * 2 ^ (3 : ℤ) := zpow_add₀ two_ne_zero 968 3
    rw [hsum, mul_comm]
    congr 1

/-! ## Rounding -/

theorem AtMost.roundHalfUp {x : Float} (h : AtMost x (tenth * 2 ^ (968 : ℤ))) :
    AtMost (Scale.roundHalfUp x) (tenth * 2 ^ (968 : ℤ)) := by
  obtain ⟨u, hu, h968, -⟩ := exists_steps
  have hsum : AtMost (x + 0.5) (tenth * 2 ^ (968 : ℤ)) := by
    refine h.add atMost_half grid_tenth (le_refl _) ?_ ?_
    · rw [h968, tenth]
      push_cast
      linarith only [hu]
    · rw [h968, tenth]
      push_cast
      linarith only [hu]
  refine hsum.floor ?_
  rw [h968, tenth]
  push_cast
  linarith only [hu]

/-- If scaling does not take a number out of the range of doubles, then nothing does that comes
behind it. -/
theorem AtMost.toFixed {x : Float} {precision : ℕ} (h : (x * unitOf precision).isFinite = true) :
    AtMost (toFixed x precision) ((2 ^ 53 - 1 : ℕ) * 2 ^ (971 : ℤ)) := by
  obtain ⟨u, hu, h968, h971⟩ := exists_steps
  have hcut : AtMost (Double.floor (x * unitOf precision)) ((2 ^ 53 - 1 : ℕ) * 2 ^ (971 : ℤ)) := by
    refine (atMost_max h).floor ?_
    rw [h971]
    push_cast
    linarith only [hu]
  -- the quotient may be rounded up, and ten times this bound is above the greatest double, but by
  -- less than half a step
  have htenth : AtMost (Double.floor (x * unitOf precision) / powerOfTen 1)
      (tenth * 2 ^ (968 : ℤ)) := by
    refine hcut.div atLeast_ten grid_tenth ?_
    rw [h971, h968, tenth]
    push_cast
    linarith only [hu]
  have hten : AtMost (Scale.roundHalfUp (Double.floor (x * unitOf precision) / powerOfTen 1) *
      powerOfTen 1) ((2 ^ 53 - 1 : ℕ) * 2 ^ (971 : ℤ)) := by
    refine htenth.roundHalfUp.mul atMost_ten grid_max ?_
    rw [h971, h968, tenth]
    push_cast
    linarith only [hu]
  refine hten.div (atLeast_unitOf precision) grid_max ?_
  rw [h971]
  push_cast
  linarith only [hu]

/-- A number that is finite after scaling is finite after rounding. -/
theorem isFinite_toFixed {x : Float} {precision : ℕ} (h : (x * unitOf precision).isFinite = true) :
    (toFixed x precision).isFinite = true :=
  (AtMost.toFixed h).isFinite

/-- Any other number has become an infinity with its sign, and stays one. -/
theorem infinite_toFixed {x : Float} {precision : ℕ} {negative : Bool} (hx : Signed x negative)
    (h : (x * unitOf precision).isFinite = false) :
    parts (toFixed x precision) = .infinite negative := by
  have hunit := (atLeast_unitOf precision).positive
  have hscaled := (hx.mul hunit).infinite h
  have htenth := infinite_div (infinite_floor hscaled) atLeast_ten.positive
  have hrounded := infinite_floor (infinite_add htenth positive_half)
  exact infinite_div (infinite_mul hrounded atLeast_ten.positive) hunit

end PixelScale.Double
