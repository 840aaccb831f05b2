import Mathlib.Algebra.GroupWithZero.Nat
import Mathlib.Data.Fin.Basic
import Mathlib.Logic.Function.Basic
import Mathlib.Data.List.Basic

/-!
# A ring of slots

A writer puts one value after another into the slots of a ring, and a reader follows
behind. `Holds ring written k` says that the values from number `k` on still stand in
their slots. It is kept by a write as long as the writer is less than one round ahead,
and by a read.
-/

namespace Ring

variable {n : Nat} [NeZero n] {β : Type}

/-- The slot of the value with this number. -/
def slot (n : Nat) [NeZero n] (j : Nat) : Fin n := Fin.ofNat n j

/-- Every value from number `k` on is in its slot. -/
structure Holds (ring : Fin n → β) (written : List β) (k : Nat) : Prop where
  le : k ≤ written.length
  kept : ∀ j (h : j < written.length), k ≤ j → ring (slot n j) = written[j]

/-- Less than one round apart, two numbers have different slots. -/
theorem slot_ne {j k : Nat} (hlt : j < k) (hround : k < j + n) : slot n j ≠ slot n k := by
  intro h
  have hmod : j % n = k % n := congrArg Fin.val h
  have hdiff : (k - j) % n = 0 := Nat.sub_mod_eq_zero_of_mod_eq hmod.symm
  rw [Nat.mod_eq_of_lt (by omega)] at hdiff
  omega

theorem slot_succ (j : Nat) : slot n j + 1 = slot n (j + 1) := by
  apply Fin.ext
  simp [slot, Fin.val_add, Nat.add_mod]

variable {ring : Fin n → β} {written : List β} {k : Nat}

theorem holds_nil : Holds ring [] 0 := ⟨Nat.le_refl _, fun _ h => absurd h (Nat.not_lt_zero _)⟩

/-- A write into the next slot, less than one round ahead of the reader. -/
theorem Holds.write (h : Holds ring written k) (hroom : written.length < k + n) (b : β) :
    Holds (Function.update ring (slot n written.length) b) (written ++ [b]) k := by
  refine ⟨?_, fun j hj hk => ?_⟩
  · rw [List.length_append]
    exact Nat.le_add_right_of_le h.le
  · rw [List.length_append, List.length_singleton] at hj
    rcases Nat.lt_succ_iff_lt_or_eq.mp hj with hlt | rfl
    · rw [Function.update_of_ne (slot_ne hlt (by omega)), h.kept j hlt hk,
        List.getElem_append_left hlt]
    · rw [Function.update_self, List.getElem_concat_length rfl]

/-- The reader goes on by one. -/
theorem Holds.read (h : Holds ring written k) (hk : k < written.length) :
    Holds ring written (k + 1) :=
  ⟨hk, fun j hj hle => h.kept j hj (Nat.le_of_succ_le hle)⟩

/-- What the reader finds is the next value. -/
theorem Holds.take_succ (h : Holds ring written k) (hk : k < written.length) :
    written.take (k + 1) = written.take k ++ [ring (slot n k)] := by
  rw [h.kept k hk (Nat.le_refl k), List.take_append_getElem]

end Ring
