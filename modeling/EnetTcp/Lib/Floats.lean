import Mathlib.Algebra.Group.Nat.Defs

/-!
# Conversions of floating-point numbers

`Float` is `double`, with the operations of IEEE 754. A `float` is given by its bits. The
conversions between the two, and `lround`, are not among the operations of `Float` that have a
model.

* `widen`, `narrow`: a `float` as a `double`, and the `float` nearest to a `double`.
* `lround`: the nearest integer.
-/

namespace Floats

open Float.Model UnpackedFloat

/-- The nearest number of another format. -/
def refit (spec : Format) : UnpackedFloat → UnpackedFloat
  | .finite sign mantissa exponent _ => UnpackedFloat.round spec sign mantissa exponent
  | x => x

def widen (bits : UInt32) : Float :=
  .ofModel (.pack (refit .binary64 (unpack .binary32 bits.toBitVec)))

def narrow (v : Float) : UInt32 :=
  .ofBitVec (UnpackedFloat.pack .binary32 (refit .binary32 v.toModel.unpack))

/-- The nearest integer; of two of them the one away from zero. NaN and the infinities have
none. -/
def lround (v : Float) : Option Int :=
  match v.toModel.unpack with
  | .zero _ => some 0
  | .finite sign mantissa exponent _ =>
    let places := (-exponent).toNat
    let nearest : Nat := (mantissa * 2 ^ exponent.toNat * 2 + 2 ^ places) / 2 ^ (places + 1)
    some (sign.apply nearest)
  | .infinity _ | .notANumber => none

example : lround 2.5 = some 3 ∧ lround (-2.5) = some (-3) ∧ lround 2.25 = some 2 := by decide

end Floats
