import Mathlib.Data.Nat.ModEq
import Mathlib.Tactic.Ring

/-!
# Byte strings: little-endian numbers and byte sums

Two things every byte protocol rests on.

* `toLe w n` writes the `w` low bytes of `n`, least significant first. `ofLe`
  reads a byte string back. Results: `ofLe_toLe`, `toLe_ofLe`, `ofLe_lt`.
* `byteSum` adds bytes modulo 256. A string followed by the negated sum sums to
  zero (`byteSum_seal`), and a change to one byte changes the sum (`byteSum_set_ne`).
-/

namespace Bytes

/-! ## 1. Little-endian numbers -/

/-- The `w` low bytes of `n`, least significant first. -/
def toLe : Nat → Nat → List UInt8
  | 0, _ => []
  | w + 1, n => UInt8.ofNat n :: toLe w (n / 256)

/-- The number that a byte string spells, least significant byte first. -/
def ofLe : List UInt8 → Nat
  | [] => 0
  | b :: bs => b.toNat + 256 * ofLe bs

@[simp] theorem ofLe_nil : ofLe [] = 0 := rfl

@[simp] theorem ofLe_cons (b : UInt8) (bs : List UInt8) :
    ofLe (b :: bs) = b.toNat + 256 * ofLe bs := rfl

@[simp] theorem length_toLe (w n : Nat) : (toLe w n).length = w := by
  induction w generalizing n with
  | zero => rfl
  | succ w ih => simp only [toLe, List.length_cons, ih]

theorem ofLe_toLe (w n : Nat) : ofLe (toLe w n) = n % 256 ^ w := by
  induction w generalizing n with
  | zero => simp only [toLe, ofLe_nil, pow_zero, Nat.mod_one]
  | succ w ih =>
    have hb : (UInt8.ofNat n).toNat = n % 256 := UInt8.toNat_ofNat'
    rw [toLe, ofLe_cons, ih, hb, pow_succ', Nat.mod_mul]

theorem ofLe_toLe_of_lt {w n : Nat} (h : n < 256 ^ w) : ofLe (toLe w n) = n := by
  rw [ofLe_toLe, Nat.mod_eq_of_lt h]

theorem ofLe_lt (bs : List UInt8) : ofLe bs < 256 ^ bs.length := by
  induction bs with
  | nil => simp only [ofLe_nil, List.length_nil, pow_zero, Nat.lt_one_iff]
  | cons b bs ih =>
    have hb : b.toNat < 256 := b.toNat_lt
    rw [ofLe_cons, List.length_cons, pow_succ]
    omega

theorem toLe_ofLe (bs : List UInt8) : toLe bs.length (ofLe bs) = bs := by
  induction bs with
  | nil => rfl
  | cons b bs ih =>
    have hb : b.toNat < 256 := b.toNat_lt
    have hhead : UInt8.ofNat (b.toNat + 256 * ofLe bs) = b := by
      apply UInt8.toNat_inj.mp
      rw [UInt8.toNat_ofNat']
      omega
    have htail : (b.toNat + 256 * ofLe bs) / 256 = ofLe bs := by omega
    rw [List.length_cons, toLe, ofLe_cons, hhead, htail, ih]

theorem toLe_inj {w m n : Nat} (hm : m < 256 ^ w) (hn : n < 256 ^ w)
    (h : toLe w m = toLe w n) : m = n := by
  have hread := congrArg ofLe h
  rwa [ofLe_toLe_of_lt hm, ofLe_toLe_of_lt hn] at hread

/-- Putting bits above a number adds them. -/
theorem or_shiftLeft {k x : Nat} (hx : x < 2 ^ k) (y : Nat) : x ||| y <<< k = x + 2 ^ k * y := by
  rw [Nat.or_comm, Nat.shiftLeft_eq, Nat.mul_comm, ← Nat.two_pow_add_eq_or_of_lt hx, Nat.add_comm]

/-! ## 2. Byte sums -/

/-- The sum of all bytes, modulo 256. -/
def byteSum (bs : List UInt8) : UInt8 := bs.foldl (· + ·) 0

@[simp] theorem byteSum_nil : byteSum [] = 0 := rfl

theorem foldl_add_eq (bs : List UInt8) (a : UInt8) : bs.foldl (· + ·) a = a + byteSum bs := by
  induction bs generalizing a with
  | nil => simp [byteSum]
  | cons b bs ih =>
    have hb : byteSum (b :: bs) = b + byteSum bs := by
      simp only [byteSum, List.foldl_cons, UInt8.zero_add]
      exact ih b
    rw [List.foldl_cons, ih, hb, UInt8.add_assoc]

@[simp] theorem byteSum_cons (b : UInt8) (bs : List UInt8) :
    byteSum (b :: bs) = b + byteSum bs := by
  have h := foldl_add_eq bs b
  simpa only [byteSum, List.foldl_cons, UInt8.zero_add] using h

@[simp] theorem byteSum_append (xs ys : List UInt8) :
    byteSum (xs ++ ys) = byteSum xs + byteSum ys := by
  induction xs with
  | nil => simp
  | cons x xs ih => rw [List.cons_append, byteSum_cons, byteSum_cons, ih, UInt8.add_assoc]

/-- Appending the negated sum makes the whole string sum to zero. -/
theorem byteSum_seal (bs : List UInt8) : byteSum (bs ++ [-byteSum bs]) = 0 := by
  rw [byteSum_append, byteSum_cons, byteSum_nil, UInt8.add_zero, UInt8.add_neg_eq_sub,
    UInt8.sub_self]

/-- A byte put in for another one. -/
theorem byteSum_set {bs : List UInt8} {i : Nat} (hi : i < bs.length) (b : UInt8) :
    byteSum (bs.set i b) + bs[i] = byteSum bs + b := by
  induction bs generalizing i with
  | nil => cases hi
  | cons c bs ih =>
    cases i with
    | zero =>
      rw [List.set_cons_zero, byteSum_cons, byteSum_cons, List.getElem_cons_zero]
      rw [UInt8.add_comm b, UInt8.add_assoc, UInt8.add_comm b, ← UInt8.add_assoc,
        UInt8.add_comm (byteSum bs)]
    | succ i =>
      rw [List.set_cons_succ, byteSum_cons, byteSum_cons, List.getElem_cons_succ]
      rw [UInt8.add_assoc, ih (Nat.lt_of_succ_lt_succ hi), UInt8.add_assoc]

theorem byteSum_set_ne {bs : List UInt8} {i : Nat} (hi : i < bs.length) {b : UInt8}
    (hb : b ≠ bs[i]) : byteSum (bs.set i b) ≠ byteSum bs := by
  intro hsum
  have hset := byteSum_set hi b
  rw [hsum] at hset
  exact hb (UInt8.add_right_inj _ |>.mp hset).symm

end Bytes
