/-
  MarathiScript.Proofs.Values.Zeros — which doubles are zero.

  A division asks whether its divisor is zero. Of the doubles two are, which differ in their
  sign (`beq_zero`); in their bits that is to have none but the sign (`ofBits_beq_zero`). The
  double nearest to an integer is zero only for zero itself (`ofInt_beq_zero`): the least
  doubles are far below one, so rounding never gets there from a whole number.
-/

import MarathiScript.Decimal.Nearest

namespace MarathiScript.Decimal

open Float.Model
open Float.Model.UnpackedFloat (unpackMantissa unpackExponent)

/-! ## Patterns of bits -/

/-- The pattern stands for zero, with one sign or the other. -/
def ZeroBits (b : BitVec 64) : Prop := ∃ s, UnpackedFloat.unpack .binary64 b = .zero s

/-- What a pattern is unpacked to, by its exponent and its mantissa. -/
inductive Unpacks (b : BitVec 64) : UnpackedFloat → Prop where
  | notANumber (he : @unpackExponent .binary64 b = -1#_) : Unpacks b .notANumber
  | infinity {s} (he : @unpackExponent .binary64 b = -1#_) : Unpacks b (.infinity s)
  | zero {s} (he : @unpackExponent .binary64 b = 0#_) (hm : @unpackMantissa .binary64 b = 0#_) :
      Unpacks b (.zero s)
  | finite {s m e hm}
      (hne : ¬ (@unpackExponent .binary64 b = 0#_ ∧ @unpackMantissa .binary64 b = 0#_))
      (hlt : m < 2 * exponentUnit) (hle : -1074 ≤ e) : Unpacks b (.finite s m e hm)

section

variable {b : BitVec 64} {s : UnpackedFloat.Sign} {m : Nat} {e : Int} {hm : 0 < m}

theorem unpacks (b : BitVec 64) : Unpacks b (UnpackedFloat.unpack .binary64 b) := by
  have hbias : Format.binary64.exponentBias = 1023 := by decide
  have hmantissa : (@unpackMantissa .binary64 b).toNat < exponentUnit := BitVec.isLt _
  have hwhole : (1#1 ++ @unpackMantissa .binary64 b).toNat < 2 * exponentUnit := BitVec.isLt _
  unfold UnpackedFloat.unpack
  dsimp only
  by_cases hones : @unpackExponent .binary64 b = -1#_
  · rw [if_pos hones]
    by_cases hm : @unpackMantissa .binary64 b = 0#_
    · rw [if_pos hm]
      exact .infinity hones
    · rw [if_neg hm]
      exact .notANumber hones
  · rw [if_neg hones]
    by_cases he : @unpackExponent .binary64 b = 0#_
    · rw [if_pos he]
      by_cases hm : @unpackMantissa .binary64 b = 0#_
      · rw [dif_pos hm]
        exact .zero he hm
      · rw [dif_neg hm]
        exact .finite (fun h => hm h.2) (by omega) (by omega)
    · rw [if_neg he]
      have hpos : 0 < (@unpackExponent .binary64 b).toNat :=
        Nat.pos_of_ne_zero fun h => he (BitVec.eq_of_toNat_eq h)
      exact .finite (fun h => he h.1) hwhole (by omega)

theorem zeroBits_iff :
    ZeroBits b ↔ @unpackExponent .binary64 b = 0#_ ∧ @unpackMantissa .binary64 b = 0#_ := by
  have hu := unpacks b
  unfold ZeroBits
  generalize UnpackedFloat.unpack .binary64 b = u at hu
  cases hu with
  | notANumber he | infinity he =>
    exact ⟨nofun, fun h => absurd (he.symm.trans h.1) (by decide)⟩
  | zero he hm => exact ⟨fun _ => ⟨he, hm⟩, fun _ => ⟨_, rfl⟩⟩
  | finite hne => exact ⟨nofun, fun h => absurd h hne⟩

/-- Zero has no bits but its sign. -/
theorem zeroBits_iff_toNat : ZeroBits b ↔ b.toNat % signBit = 0 := by
  have hmantissa : (@unpackMantissa .binary64 b).toNat = b.toNat % exponentUnit := by
    simp [unpackMantissa, exponentUnit]
  have hexponent : (@unpackExponent .binary64 b).toNat = b.toNat / exponentUnit % 2048 := by
    simp [unpackExponent, exponentUnit, Nat.shiftRight_eq_div_pow]
  rw [zeroBits_iff, ← BitVec.toNat_inj, ← BitVec.toNat_inj, hmantissa, hexponent]
  simp only [BitVec.toNat_ofNat, signBit, exponentUnit]
  omega

theorem unpack_finite (h : UnpackedFloat.unpack .binary64 b = .finite s m e hm) :
    m < 2 * exponentUnit ∧ -1074 ≤ e := by
  have hu := unpacks b
  rw [h] at hu
  cases hu with
  | finite _ hlt hle => exact ⟨hlt, hle⟩

theorem pack_finite (hlt : m < 2 * exponentUnit) (he : -1074 ≤ e) :
    ¬ ZeroBits (UnpackedFloat.pack .binary64 (.finite s m e hm)) := by
  have hbias : Format.binary64.exponentBias = 1023 := by decide
  have hwidth : Format.binary64.mantissaBits = 53 := rfl
  rw [zeroBits_iff]
  unfold UnpackedFloat.pack
  dsimp only
  split
  · rw [UnpackedFloat.packedInfinity, UnpackedFloat.unpackExponent_packComponents]
    exact fun h => absurd h.1 (by decide)
  · rename_i hfits
    split
    · rw [UnpackedFloat.unpackExponent_packComponents]
      intro h
      have hzero := congrArg BitVec.toNat h.1
      rw [BitVec.toNat_ofNat, Nat.mod_eq_of_lt (by omega), BitVec.toNat_ofNat, Nat.zero_mod] at hzero
      omega
    · rename_i hlog
      simp only [exponentUnit] at hlt
      have hle : m.log2 < 53 := (Nat.log2_lt (by omega)).2 hlt
      have hsmall : m < 2 ^ 52 := (Nat.log2_lt (by omega)).1 (by omega)
      rw [UnpackedFloat.unpackMantissa_packComponents]
      intro h
      have hzero := congrArg BitVec.toNat h.2
      rw [BitVec.toNat_ofNat, Nat.mod_eq_of_lt hsmall] at hzero
      exact absurd hzero (Nat.ne_of_gt hm)

/-- Packing makes a zero of a zero, and of nothing else that was unpacked. -/
theorem zeroBits_pack {u : UnpackedFloat} (h : UnpackedFloat.unpack .binary64 b = u) :
    ZeroBits (UnpackedFloat.pack .binary64 u) ↔ ∃ s, u = .zero s := by
  cases u with
  | zero s =>
    refine ⟨fun _ => ⟨s, rfl⟩, fun _ => ⟨s, ?_⟩⟩
    cases s <;> rfl
  | notANumber =>
    rw [zeroBits_iff]
    exact ⟨fun h => absurd h.1 (by decide), nofun⟩
  | infinity s =>
    rw [zeroBits_iff]
    refine ⟨fun h => absurd h.1 ?_, nofun⟩
    cases s <;> decide
  | finite s m e hm =>
    obtain ⟨hlt, he⟩ := unpack_finite h
    exact ⟨fun h => absurd h (pack_finite hlt he), nofun⟩

end

/-! ## Doubles -/

theorem beq_zero_iff {x : Float} : (x == 0) = true ↔ ZeroBits x.toBits.toBitVec := by
  have h : (x == 0) = x.toModel.unpack.beq (.zero .positive) := rfl
  have hbits : ZeroBits x.toBits.toBitVec ↔ ∃ s, x.toModel.unpack = .zero s := Iff.rfl
  rw [h, hbits]
  cases x.toModel.unpack with
  | zero s => exact ⟨fun _ => ⟨s, rfl⟩, fun _ => rfl⟩
  | notANumber => exact ⟨fun h => absurd h Bool.false_ne_true, nofun⟩
  | infinity s | finite s =>
    refine ⟨fun h => absurd h ?_, nofun⟩
    cases s <;> exact Bool.false_ne_true

/-- Two doubles are equal to zero. -/
theorem beq_zero {x : Float} : (x == 0) = true ↔ x = 0.0 ∨ x = -0.0 := by
  rw [beq_zero_iff]
  constructor
  · intro h
    obtain ⟨⟨bits, hvalid⟩⟩ := x
    have hsign : bits.toNat % signBit = 0 := zeroBits_iff_toNat.1 h
    have hbits : bits = 0 ∨ bits = 0x8000000000000000 := by
      have hlt := bits.toNat_lt
      simp only [signBit] at hsign
      simp only [← UInt64.toNat_inj, UInt64.toNat_ofNat]
      omega
    rcases hbits with rfl | rfl
    · exact .inl rfl
    · exact .inr rfl
  · rintro (rfl | rfl)
    · exact ⟨.positive, rfl⟩
    · exact ⟨.negative, rfl⟩

theorem ofBits_beq_zero (bits : UInt64) :
    (Float.ofBits bits == 0) = true ↔ bits.toNat % signBit = 0 := by
  rw [beq_zero_iff]
  exact (zeroBits_pack rfl).trans zeroBits_iff_toNat

theorem signed_beq_zero {negative : Bool} {bits : Nat} (h : bits < signBit) :
    (signed negative bits == 0) = true ↔ bits = 0 := by
  rw [signed, ofBits_beq_zero, UInt64.toNat_ofNat']
  simp only [signBit] at *
  split <;> omega

theorem nearestBits_lt (n d : Nat) : nearestBits n d < signBit := by
  unfold nearestBits
  split
  · decide
  · simp only
    split
    · rename_i h
      exact Nat.lt_trans h (by decide)
    · decide

/-- A whole number is far from the least doubles. -/
theorem nearestBits_whole (n : Nat) : nearestBits n 1 = 0 ↔ n = 0 := by
  by_cases hn : n = 0
  · simp [hn, nearestBits]
  · have he : -53 ≤ exponent n 1 := by
      have hlog : Nat.log2 1 = 0 := by decide
      simp only [exponent, hlog]
      split <;> split <;> omega
    have hunit : exponentUnit ≤ (exponent n 1 + 1074).toNat * exponentUnit :=
      Nat.le_mul_of_pos_left _ (by omega)
    simp only [nearestBits, hn, if_false, iff_false]
    split
    · simp only [exponentUnit] at hunit ⊢
      omega
    · decide

/-- The nearest double is zero only for zero. -/
theorem ofInt_beq_zero (z : Int) : (ofInt z == 0) = true ↔ z = 0 := by
  rw [ofInt, nearest, signed_beq_zero (nearestBits_lt _ _), nearestBits_whole, Int.natAbs_eq_zero]

end MarathiScript.Decimal
