import EnetTcp.Lib.Floats
import Mathlib

/-!
# Where NaN does not come from

An operation of `Float` unpacks its arguments, and rounds and packs its result.

* `isNaN_unpack_pack`: packing keeps NaN, and makes none.
* `isNaN_roundWithAccuracy`: rounding makes none.
* `isNaN_narrow`, `isNaN_toFloat`: the same for conversions.
* `isNaN_mul`, `isNaN_sub`, `isNaN_div`: a number and a proper number give a number.
-/

namespace Floats

open Float.Model UnpackedFloat

/-! ## 1. Packing and rounding -/

section

variable {spec : Format} {sign : Sign}

theorem isNaN_unpack (b : BitVec spec.numBits) : (unpack spec b).isNaN =
    decide (unpackExponent b = -1#_ ∧ unpackMantissa b ≠ 0#_) := by
  unfold UnpackedFloat.unpack
  by_cases hexponent : unpackExponent b = -1#_
  · by_cases hmantissa : unpackMantissa b = 0#_ <;>
      simp [hexponent, hmantissa, UnpackedFloat.isNaN]
  · simp only [hexponent, if_false, false_and, decide_false]
    split
    · split <;> rfl
    · rfl

theorem isNaN_infinity : (unpack spec (packedInfinity spec sign)).isNaN = false := by
  rw [isNaN_unpack, packedInfinity, unpackMantissa_packComponents]
  simp

theorem isNaN_components {exponent : BitVec spec.exponentBits}
    {mantissa : BitVec spec.mantissaBitsWithoutImplicit} (h : exponent ≠ -1#_) :
    (unpack spec (packComponents spec sign exponent mantissa)).isNaN = false := by
  rw [isNaN_unpack, unpackExponent_packComponents]
  simp [h]

theorem exponent_ne {n : Nat} (h : n + 1 < 2 ^ spec.exponentBits) :
    BitVec.ofNat spec.exponentBits n ≠ -1#_ := by
  intro heq
  have hnat := congrArg BitVec.toNat heq
  rw [BitVec.neg_one_eq_allOnes, BitVec.toNat_ofNat, BitVec.toNat_allOnes,
    Nat.mod_eq_of_lt (by omega)] at hnat
  omega

/-- Packing keeps NaN, and makes none. -/
theorem isNaN_unpack_pack (spec : Format) (x : UnpackedFloat) :
    (unpack spec (UnpackedFloat.pack spec x)).isNaN = x.isNaN := by
  have hzero : (0 : BitVec spec.exponentBits) ≠ -1#_ := by
    have hlt := Nat.one_lt_two_pow (Nat.pos_iff_ne_zero.mp spec.he)
    exact exponent_ne (n := 0) hlt
  cases x with
  | infinity sign => exact isNaN_infinity
  | notANumber => rw [UnpackedFloat.pack, unpack_packedNaN]
  | zero sign => exact isNaN_components hzero
  | finite sign mantissa exponent h =>
    unfold UnpackedFloat.pack
    dsimp only
    split
    · exact isNaN_infinity
    · split
      · exact isNaN_components (exponent_ne (by omega))
      · exact isNaN_components hzero

theorem isNaN_roundWithAccuracy {mantissa : Nat} {exponent : Int} {accuracy : Accuracy} :
    (roundWithAccuracy spec sign mantissa exponent accuracy).isNaN = false := by
  unfold roundWithAccuracy
  dsimp only
  split <;> rfl

theorem isNaN_normalize {mantissa exponent : Int} :
    (UnpackedFloat.normalize spec mantissa exponent sign).isNaN = false := by
  unfold UnpackedFloat.normalize
  split
  · exact isNaN_roundWithAccuracy
  · rfl
  · exact isNaN_roundWithAccuracy

theorem isNaN_refit {x : UnpackedFloat} : (refit spec x).isNaN = x.isNaN := by
  cases x with
  | finite => exact isNaN_roundWithAccuracy
  | infinity | zero | notANumber => rfl

end

/-! ## 2. Conversions and operations -/

theorem isNaN_narrow (v : Float) : (Float32.ofBits (narrow v)).isNaN = v.isNaN :=
  (isNaN_unpack_pack _ _).trans <| (isNaN_unpack_pack .binary32 _).trans isNaN_refit

theorem isNaN_toFloat (n : UInt16) : n.toFloat.isNaN = false :=
  (isNaN_unpack_pack .binary64 _).trans isNaN_normalize

/-- The number is neither zero nor infinite. -/
def IsProper (v : Float) : Prop := ∃ s m e h, v.toModel.unpack = .finite s m e h

section

variable {a b : Float} (ha : a.isNaN = false) (hb : IsProper b)
include ha hb

/-- An operation that makes no NaN out of a number and a proper one. -/
theorem isNaN_op {f : UnpackedFloat → UnpackedFloat → UnpackedFloat}
    (hf : ∀ x s m e h, x.isNaN = false → (f x (.finite s m e h)).isNaN = false) :
    (Float.ofModel (.pack (f a.toModel.unpack b.toModel.unpack))).isNaN = false := by
  obtain ⟨s, m, e, h, hb⟩ := hb
  refine (isNaN_unpack_pack .binary64 _).trans ?_
  rw [hb]
  exact hf _ s m e h ha

theorem isNaN_mul : (a * b).isNaN = false := by
  refine isNaN_op ha hb (f := UnpackedFloat.mul .binary64) fun x s m e h hx => ?_
  cases x with
  | notANumber => cases hx
  | infinity | zero => rfl
  | finite => exact isNaN_roundWithAccuracy

theorem isNaN_sub : (a - b).isNaN = false := by
  refine isNaN_op ha hb (f := UnpackedFloat.sub .binary64) fun x s m e h hx => ?_
  cases x with
  | notANumber => cases hx
  | infinity | zero => rfl
  | finite => exact isNaN_normalize

theorem isNaN_div : (a / b).isNaN = false := by
  refine isNaN_op ha hb (f := UnpackedFloat.div .binary64) fun x s m e h hx => ?_
  cases x with
  | notANumber => cases hx
  | infinity | zero => rfl
  | finite => exact isNaN_roundWithAccuracy

end

end Floats
