import Mathlib.Logic.Function.Basic

/-!
# A memory of cells with bits

A cell is a bit vector of the width that its place has.

* `getLsbD_changeBit`, `bit_change`: a change of one bit leaves the others alone.
* `change_change`, `change_comm`: two changes of one bit, and of two bits.
-/

namespace BitMemory

/-! ## 1. One cell -/

/-- Bit `j` becomes what `f` makes of it. -/
def changeBit {n : Nat} (x : BitVec n) (j : Nat) (f : Bool → Bool) : BitVec n :=
  if f (x.getLsbD j) then x ||| BitVec.twoPow n j else x &&& ~~~BitVec.twoPow n j

theorem getLsbD_changeBit {n j : Nat} (x : BitVec n) (hj : j < n) (f : Bool → Bool) (k : Nat) :
    (changeBit x j f).getLsbD k = if k = j then f (x.getLsbD j) else x.getLsbD k := by
  unfold changeBit
  by_cases hk : k = j
  · subst hk
    rw [if_pos rfl]
    cases hf : f (x.getLsbD k) <;> simp [hj]
  · rw [if_neg hk]
    cases hf : f (x.getLsbD j)
    · simp only [Bool.false_eq_true, if_false, BitVec.getLsbD_and, BitVec.getLsbD_not,
        BitVec.getLsbD_twoPow]
      by_cases hkn : k < n
      · simp [hkn, Ne.symm hk]
      · simp [hkn, BitVec.getLsbD_of_ge x k (Nat.not_lt.mp hkn)]
    · simp [Ne.symm hk]

/-! ## 2. Many cells -/

/-- One cell for each place. -/
abbrev Memory {ι : Type} (w : ι → Nat) : Type := ∀ i, BitVec (w i)

variable {ι : Type} {w : ι → Nat}

def bit (m : Memory w) (i : ι) (j : Nat) : Bool := (m i).getLsbD j

theorem ext_bit {m m' : Memory w} (h : ∀ i j, bit m i j = bit m' i j) : m = m' :=
  funext fun i => BitVec.eq_of_getLsbD_eq fun j _ => h i j

variable [DecidableEq ι]

/-- Bit `j` of the cell at `i` becomes what `f` makes of it. -/
def change (m : Memory w) (i : ι) (j : Nat) (f : Bool → Bool) : Memory w :=
  Function.update m i (changeBit (m i) j f)

theorem bit_change (m : Memory w) {i : ι} {j : Nat} (hj : j < w i) (f : Bool → Bool) (i' : ι)
    (j' : Nat) :
    bit (change m i j f) i' j' = if i' = i ∧ j' = j then f (bit m i j) else bit m i' j' := by
  unfold bit change
  by_cases hi : i' = i
  · subst hi
    rw [Function.update_self, getLsbD_changeBit _ hj]
    simp
  · rw [Function.update_of_ne hi, if_neg fun h => hi h.1]

/-- Two changes of one bit. -/
theorem change_change (m : Memory w) {i : ι} {j : Nat} (hj : j < w i) (f g : Bool → Bool) :
    change (change m i j f) i j g = change m i j (g ∘ f) := by
  refine ext_bit fun i' j' => ?_
  simp only [bit_change _ hj, and_self, if_true]
  split <;> rfl

/-- Two changes of different bits. -/
theorem change_comm (m : Memory w) {i i' : ι} {j j' : Nat} (hj : j < w i) (hj' : j' < w i')
    (h : (i, j) ≠ (i', j')) (f g : Bool → Bool) :
    change (change m i j f) i' j' g = change (change m i' j' g) i j f := by
  have hne : ¬(i = i' ∧ j = j') := fun heq => h (Prod.ext heq.1 heq.2)
  have hne' : ¬(i' = i ∧ j' = j) := fun heq => hne ⟨heq.1.symm, heq.2.symm⟩
  refine ext_bit fun k l => ?_
  simp only [bit_change _ hj, bit_change _ hj', if_neg hne, if_neg hne']
  by_cases hkl : k = i ∧ l = j
  · rw [if_pos hkl, if_neg fun h' => hne ⟨hkl.1.symm.trans h'.1, hkl.2.symm.trans h'.2⟩, if_pos hkl]
  · rw [if_neg hkl, if_neg hkl]

/-- A change that is none. -/
theorem change_id (m : Memory w) {i : ι} {j : Nat} (hj : j < w i) : change m i j id = m := by
  refine ext_bit fun i' j' => ?_
  rw [bit_change _ hj]
  split
  case isTrue h => rw [h.1, h.2, id]
  case isFalse => rfl

end BitMemory
