import Mathlib.Algebra.Order.BigOperators.Group.List
import Mathlib.Algebra.Order.Round
import Mathlib.Data.Rat.Floor
import Mathlib.Tactic.FieldSimp

/-!
# Means of natural numbers, rounded half up

`roundedMean` is the mean as integer arithmetic computes it.

* `roundedMean_eq_round`: it is the mean rounded to the nearest number, half up.
* `exists_le_roundedMean`, `exists_roundedMean_le`: it lies between two of the numbers.
-/

namespace Mean

def roundedMean (xs : List Nat) : Nat := (xs.sum + xs.length / 2) / xs.length

theorem roundedMean_singleton (x : Nat) : roundedMean [x] = x := by
  simp [roundedMean]

theorem roundedMean_eq_round {xs : List Nat} (hne : xs ≠ []) :
    (roundedMean xs : ℤ) = round ((xs.sum : ℚ) / xs.length) := by
  have hlen : xs.length ≠ 0 := fun h => hne (List.length_eq_zero_iff.mp h)
  have hhalf : (xs.sum : ℚ) / xs.length + 1 / 2 =
      ((2 * xs.sum + xs.length : ℕ) : ℚ) / ((2 * xs.length : ℕ) : ℚ) := by
    have hlen' : (xs.length : ℚ) ≠ 0 := Nat.cast_ne_zero.mpr hlen
    push_cast
    field_simp
  have hdiv : (2 * xs.sum + xs.length) / (2 * xs.length) = roundedMean xs := by
    rw [← Nat.div_div_eq_div_mul, roundedMean]
    congr 1
    omega
  rw [round_eq, hhalf, Rat.floor_natCast_div_natCast, ← hdiv, Int.natCast_ediv]

theorem exists_le_roundedMean {xs : List Nat} (hne : xs ≠ []) : ∃ x ∈ xs, x ≤ roundedMean xs := by
  by_contra hall
  push Not at hall
  have hpos := List.length_pos_iff.mpr hne
  have hsum : xs.length * (roundedMean xs + 1) ≤ xs.sum := by
    have h := List.card_nsmul_le_sum xs (roundedMean xs + 1) fun x hx => hall x hx
    rwa [nsmul_eq_mul, Nat.cast_id] at h
  have hlt : xs.sum + xs.length / 2 < xs.length * (roundedMean xs + 1) :=
    Nat.lt_mul_div_succ _ hpos
  omega

theorem exists_roundedMean_le {xs : List Nat} (hne : xs ≠ []) : ∃ x ∈ xs, roundedMean xs ≤ x := by
  by_contra hall
  push Not at hall
  have hpos := List.length_pos_iff.mpr hne
  have hmean : 1 ≤ roundedMean xs := by
    obtain ⟨x, hx⟩ := List.exists_mem_of_ne_nil xs hne
    exact Nat.lt_of_le_of_lt (Nat.zero_le x) (hall x hx)
  have hsum : xs.sum ≤ xs.length * (roundedMean xs - 1) := by
    have h := List.sum_le_card_nsmul xs (roundedMean xs - 1) fun x hx =>
      Nat.le_sub_one_of_lt (hall x hx)
    rwa [nsmul_eq_mul, Nat.cast_id] at h
  have hle : xs.length * roundedMean xs ≤ xs.sum + xs.length / 2 := Nat.mul_div_le _ _
  have hmul : xs.length * roundedMean xs = xs.length * (roundedMean xs - 1) + xs.length := by
    rw [← Nat.mul_succ, Nat.succ_eq_add_one, Nat.sub_add_cancel hmean]
  omega

end Mean
