import Mathlib
import PixelScale.Number.Double

/-!
# Doubles and their bits

The arithmetic of doubles is that of an unpacked form, with a sign, a mantissa and an exponent, from
which the bits of the result are packed. The parts of a double are read off its bits. The two views
agree: the parts are those of the unpacked form, and a number that is packed has the parts that it
was packed from, as long as its mantissa fits. A number with a greater exponent than doubles have
becomes an infinity.

* `parts_eq`: the parts of a double are those of its unpacked form.
* `Canonical`: mantissas and exponents that finite doubles have.
* `parts_packed_finite`, `parts_packed_overflow`: what a number is packed into.
-/

namespace PixelScale.Double

open Float.Model Float.Model.UnpackedFloat

/-- Whether a sign is a minus sign. -/
def isMinus : Sign → Bool
  | .negative => true
  | .positive => false

def Parts.ofUnpacked : UnpackedFloat → Parts
  | .notANumber => .nan
  | .infinity s => .infinite (isMinus s)
  | .zero s => .finite (isMinus s) 0 (-1074)
  | .finite s m e _ => .finite (isMinus s) m e

/-! ## Unpacking -/

section

variable (b : BitVec Format.binary64.numBits)

theorem toNat_unpackExponent :
    (unpackExponent b).toNat = b.toNat / Nat.pow 2 52 % Nat.pow 2 11 := by
  simp [unpackExponent, BitVec.extractLsb_toNat, Nat.shiftRight_eq_div_pow]

theorem toNat_unpackMantissa : (unpackMantissa b).toNat = b.toNat % Nat.pow 2 52 := by
  simp [unpackMantissa, BitVec.extractLsb_toNat]

theorem isMinus_unpackSign :
    isMinus (Sign.ofBitVec (unpackSign b)) = decide (Nat.pow 2 63 ≤ b.toNat) := by
  have hlt : b.toNat < Nat.pow 2 64 := b.isLt
  have hsign : (unpackSign b).toNat = b.toNat / Nat.pow 2 63 % 2 := by
    simp [unpackSign, BitVec.extractLsb_toNat, Nat.shiftRight_eq_div_pow]
  dsimp only [Nat.pow_eq] at *
  by_cases h : unpackSign b = 0#1
  · rw [h] at hsign
    have hzero : 0 = b.toNat / 2 ^ 63 % 2 := hsign
    rw [h, decide_eq_false (by omega)]
    rfl
  · have hne : (unpackSign b).toNat ≠ 0 := fun hzero => h (BitVec.eq_of_toNat_eq hzero)
    rw [Sign.ofBitVec, if_neg h, decide_eq_true (by omega)]
    rfl

theorem ofUnpacked_unpack : Parts.ofUnpacked (UnpackedFloat.unpack Format.binary64 b) =
    if b.toNat / Nat.pow 2 52 % Nat.pow 2 11 = Nat.pow 2 11 - 1 then
      if b.toNat % Nat.pow 2 52 = 0 then .infinite (decide (Nat.pow 2 63 ≤ b.toNat)) else .nan
    else if b.toNat / Nat.pow 2 52 % Nat.pow 2 11 = 0 then
      .finite (decide (Nat.pow 2 63 ≤ b.toNat)) (b.toNat % Nat.pow 2 52) (-1074)
    else
      .finite (decide (Nat.pow 2 63 ≤ b.toNat)) (Nat.pow 2 52 + b.toNat % Nat.pow 2 52)
        ((b.toNat / Nat.pow 2 52 % Nat.pow 2 11 : Nat) - 1075) := by
  have hones : unpackExponent b = -1#_ ↔
      b.toNat / Nat.pow 2 52 % Nat.pow 2 11 = Nat.pow 2 11 - 1 := by
    rw [← toNat_unpackExponent, ← BitVec.toNat_inj]
    rfl
  have hzeros : unpackExponent b = 0#_ ↔ b.toNat / Nat.pow 2 52 % Nat.pow 2 11 = 0 := by
    rw [← toNat_unpackExponent, ← BitVec.toNat_inj]
    rfl
  have hnone : unpackMantissa b = 0#_ ↔ b.toNat % Nat.pow 2 52 = 0 := by
    rw [← toNat_unpackMantissa, ← BitVec.toNat_inj]
    rfl
  simp only [← hones, ← hzeros, ← hnone, ← isMinus_unpackSign]
  unfold UnpackedFloat.unpack
  dsimp only
  by_cases hexponent : unpackExponent b = -1#_
  · rw [if_pos hexponent, if_pos hexponent]
    by_cases hmantissa : unpackMantissa b = 0#_
    · rw [if_pos hmantissa, if_pos hmantissa]
      rfl
    · rw [if_neg hmantissa, if_neg hmantissa]
      rfl
  · rw [if_neg hexponent, if_neg hexponent]
    by_cases hzero : unpackExponent b = 0#_
    · rw [if_pos hzero, if_pos hzero, ← toNat_unpackMantissa]
      by_cases hmantissa : unpackMantissa b = 0#_
      · rw [dif_pos hmantissa, hmantissa]
        rfl
      · rw [dif_neg hmantissa, hzero]
        rfl
    · rw [if_neg hzero, if_neg hzero, ← toNat_unpackMantissa, ← toNat_unpackExponent]
      have happend : (1#1 ++ unpackMantissa b).toNat =
          Nat.pow 2 52 + (unpackMantissa b).toNat := by
        rw [BitVec.toNat_append, ← Nat.shiftLeft_add_eq_or_of_lt (unpackMantissa b).isLt]
        rfl
      rw [Parts.ofUnpacked, happend]
      rfl

end

/-- The parts of a double are those of its unpacked form. -/
theorem parts_eq (x : Float) : parts x = .ofUnpacked x.toModel.unpack :=
  (ofUnpacked_unpack _).symm

/-- A mantissa with an exponent as finite doubles have them: no smaller exponent would do. -/
structure Canonical (m : Nat) (e : Int) : Prop where
  lt : m < 2 ^ 53
  le : -1074 ≤ e
  full : 2 ^ 52 ≤ m ∨ e = -1074

theorem canonical_of_parts {x : Float} {negative : Bool} {m : Nat} {e : Int}
    (h : parts x = .finite negative m e) : Canonical m e ∧ e ≤ 971 := by
  rw [parts] at h
  dsimp only [Nat.pow_eq] at h
  have hfraction : x.toBits.toNat % 2 ^ 52 < 2 ^ 52 := Nat.mod_lt _ (by decide)
  have hexponent : x.toBits.toNat / 2 ^ 52 % 2 ^ 11 < 2 ^ 11 := Nat.mod_lt _ (by decide)
  generalize x.toBits.toNat % 2 ^ 52 = fraction at h hfraction
  generalize x.toBits.toNat / 2 ^ 52 % 2 ^ 11 = exponent at h hexponent
  split at h
  · split at h <;> cases h
  · split at h
    · cases h
      exact ⟨⟨by omega, by omega, .inr rfl⟩, by omega⟩
    · cases h
      exact ⟨⟨by omega, by omega, .inl (by omega)⟩, by omega⟩

theorem unpack_of_infinite {x : Float} {negative : Bool} (h : parts x = .infinite negative) :
    ∃ s, isMinus s = negative ∧ x.toModel.unpack = .infinity s := by
  rw [parts_eq] at h
  cases hu : x.toModel.unpack with
  | infinity s =>
    rw [hu] at h
    exact ⟨s, Parts.infinite.inj h, rfl⟩
  | _ =>
    rw [hu] at h
    cases h

theorem unpack_of_finite {x : Float} {negative : Bool} {m : Nat} {e : Int}
    (h : parts x = .finite negative m e) :
    ∃ s, isMinus s = negative ∧ (m = 0 ∧ x.toModel.unpack = .zero s ∨
      ∃ hm, x.toModel.unpack = .finite s m e hm) := by
  rw [parts_eq] at h
  cases hu : x.toModel.unpack with
  | zero s =>
    rw [hu] at h
    obtain ⟨hs, hm, -⟩ := Parts.finite.inj h
    exact ⟨s, hs, .inl ⟨hm.symm, rfl⟩⟩
  | finite s m' e' hm =>
    rw [hu] at h
    cases h
    exact ⟨s, rfl, .inr ⟨hm, rfl⟩⟩
  | _ =>
    rw [hu] at h
    cases h

/-! ## Packing -/

/-- The double that a number is packed into. -/
def packed (u : UnpackedFloat) : Float := .ofModel (.pack u)

/-- The parts of a double by the fields of its bits. -/
theorem parts_of_fields {x : Float} {s : Sign} {exponent fraction : Nat}
    (h : x.toBits.toNat = (s.toBitVec.toNat * 2 ^ 11 + exponent) * 2 ^ 52 + fraction)
    (hexponent : exponent < 2 ^ 11) (hfraction : fraction < 2 ^ 52) :
    parts x =
      if exponent = 2 ^ 11 - 1 then if fraction = 0 then .infinite (isMinus s) else .nan
      else if exponent = 0 then .finite (isMinus s) fraction (-1074)
      else .finite (isMinus s) (2 ^ 52 + fraction) (exponent - 1075) := by
  have hhigh : x.toBits.toNat / 2 ^ 52 % 2 ^ 11 = exponent := by omega
  have hlow : x.toBits.toNat % 2 ^ 52 = fraction := by omega
  have hsign : decide (2 ^ 63 ≤ x.toBits.toNat) = isMinus s := by
    cases s with
    | negative =>
      have : x.toBits.toNat = (1 * 2 ^ 11 + exponent) * 2 ^ 52 + fraction := h
      exact decide_eq_true (by omega)
    | positive =>
      have : x.toBits.toNat = (0 * 2 ^ 11 + exponent) * 2 ^ 52 + fraction := h
      exact decide_eq_false (by omega)
  rw [parts]
  simp only [Nat.pow_eq, hhigh, hlow, hsign]

theorem toNat_packComponents (s : Sign) (e : BitVec 11) (m : BitVec 52) :
    (packComponents Format.binary64 s e m).toNat =
      (s.toBitVec.toNat * 2 ^ 11 + e.toNat) * 2 ^ 52 + m.toNat := by
  have he := e.isLt
  have hm := m.isLt
  rw [packComponents, BitVec.toNat_append, BitVec.toNat_append, ← Nat.shiftLeft_add_eq_or_of_lt hm,
    ← Nat.shiftLeft_add_eq_or_of_lt he, Nat.shiftLeft_eq, Nat.shiftLeft_eq]

theorem toBits_packed {u : UnpackedFloat} {s : Sign} {e : BitVec 11} {m : BitVec 52}
    (h : UnpackedFloat.pack Format.binary64 u = packComponents Format.binary64 s e m) :
    (packed u).toBits.toNat = (s.toBitVec.toNat * 2 ^ 11 + e.toNat) * 2 ^ 52 + m.toNat := by
  rw [← toNat_packComponents, ← h]
  rfl

theorem parts_of_packedInfinity {u : UnpackedFloat} {s : Sign}
    (h : UnpackedFloat.pack Format.binary64 u = packedInfinity Format.binary64 s) :
    parts (packed u) = .infinite (isMinus s) := by
  have hones : (-1#11).toNat = 2047 := by decide
  have hfields := toBits_packed h
  rw [hones] at hfields
  rw [parts_of_fields hfields (by decide) (by decide), if_pos (by decide), if_pos (by decide)]

section

variable {s : Sign} {m : Nat} {e : Int} {hm : 0 < m}

theorem parts_packed_infinity (s : Sign) : parts (packed (.infinity s)) = .infinite (isMinus s) :=
  parts_of_packedInfinity rfl

theorem parts_packed_zero (s : Sign) :
    parts (packed (.zero s)) = .finite (isMinus s) 0 (-1074) := by
  have hfields := @toBits_packed (.zero s) s 0#11 0#52 rfl
  rw [parts_of_fields hfields (by decide) (by decide), if_neg (by decide), if_pos (by decide)]
  rfl

/-- No double has such an exponent. -/
theorem parts_packed_overflow (he : 971 < e) :
    parts (packed (.finite s m e hm)) = .infinite (isMinus s) := by
  refine parts_of_packedInfinity ?_
  rw [UnpackedFloat.pack]
  refine if_pos ?_
  change 2 ^ 11 ≤ (e + 1023 + 52).toNat + 1
  omega

theorem parts_packed_finite (hc : Canonical m e) (he : e ≤ 971) :
    parts (packed (.finite s m e hm)) = .finite (isMinus s) m e := by
  obtain ⟨hlt, hle, hfull⟩ := hc
  have hexponent : ¬ 2 ^ 11 ≤ (e + 1023 + 52).toNat + 1 := by omega
  by_cases hnormal : 2 ^ 52 ≤ m
  · have hlog : m.log2 + 1 = 53 := by
      rw [(Nat.log2_eq_iff hm.ne').mpr ⟨hnormal, hlt⟩]
    have hpack : UnpackedFloat.pack Format.binary64 (.finite s m e hm) =
        packComponents Format.binary64 s (BitVec.ofNat _ (e + 1023 + 52).toNat)
          (BitVec.ofNat _ m) := by
      rw [UnpackedFloat.pack]
      exact (if_neg hexponent).trans (if_pos hlog)
    rw [parts_of_fields (toBits_packed hpack) (BitVec.isLt _) (BitVec.isLt _), BitVec.toNat_ofNat,
      BitVec.toNat_ofNat, if_neg (by omega), if_neg (by omega)]
    congr 1
    · omega
    · omega
  · have hlog : ¬ m.log2 + 1 = 53 := by
      have := (Nat.log2_lt hm.ne').mpr (not_le.mp hnormal)
      omega
    have hpack : UnpackedFloat.pack Format.binary64 (.finite s m e hm) =
        packComponents Format.binary64 s 0#11 (BitVec.ofNat _ m) := by
      rw [UnpackedFloat.pack]
      exact (if_neg hexponent).trans (if_neg hlog)
    rw [parts_of_fields (toBits_packed hpack) (BitVec.isLt _) (BitVec.isLt _), if_neg (by decide),
      if_pos (by rfl), hfull.resolve_left hnormal, BitVec.toNat_ofNat,
      Nat.mod_eq_of_lt (not_le.mp hnormal)]

end

end PixelScale.Double
