/-!
# Paths with dot segments

A path is a list of steps from a directory: down to a name, or up. Walking it changes
the list of names that leads from the root to where one is; going up from the root
leads nowhere.

* `walk_getElem?`: which name a walk ends under at a given level: that of the last step
  down from this level, or the old one when the level is never left.
-/

namespace Paths

variable {α : Type}

inductive Step (α : Type)
  | up
  | name (c : α)
  deriving DecidableEq

/-- One step from the directory with these names. -/
def step (dir : List α) : Step α → List α
  | .up => dir.dropLast
  | .name c => dir ++ [c]

/-- Walk all steps. -/
def walk (dir : List α) (steps : List (Step α)) : List α := steps.foldl step dir

/-- The level that the steps lead to from level `n`. -/
def level (n : Nat) : List (Step α) → Nat
  | [] => n
  | .up :: steps => level (n - 1) steps
  | .name _ :: steps => level (n + 1) steps

/-- From level `n`, the steps do not lead up to level `k` at any time. -/
def StaysBelow (k n : Nat) (steps : List (Step α)) : Prop :=
  ∀ first, first <+: steps → k < level n first

/-- From level `n`, the last step down from level `k` leads to `c`. -/
def LastEnters (k : Nat) (c : α) (n : Nat) (steps : List (Step α)) : Prop :=
  ∃ before after, steps = before ++ .name c :: after ∧ level n before = k ∧
    StaysBelow k (k + 1) after

/-! ## 1. Levels -/

@[simp] theorem walk_nil (dir : List α) : walk dir [] = dir := rfl

@[simp] theorem walk_cons (dir : List α) (s : Step α) (steps : List (Step α)) :
    walk dir (s :: steps) = walk (step dir s) steps := rfl

/-- The level behind one step. -/
def stepLevel (n : Nat) : Step α → Nat
  | .up => n - 1
  | .name _ => n + 1

theorem level_cons (n : Nat) (s : Step α) (steps : List (Step α)) :
    level n (s :: steps) = level (stepLevel n s) steps := by
  cases s <;> rfl

theorem length_step (dir : List α) (s : Step α) : (step dir s).length = stepLevel dir.length s := by
  cases s with
  | up => exact List.length_dropLast
  | name c => exact List.length_append

/-! ## 2. Names -/

theorem staysBelow_nil {k n : Nat} : StaysBelow k n ([] : List (Step α)) ↔ k < n := by
  constructor
  · exact fun h => h [] List.prefix_rfl
  · rintro h first hfirst
    rw [List.prefix_nil.mp hfirst]
    exact h

theorem staysBelow_cons {k n : Nat} {s : Step α} {steps : List (Step α)} :
    StaysBelow k n (s :: steps) ↔ k < n ∧ StaysBelow k (stepLevel n s) steps := by
  constructor
  · intro h
    refine ⟨h [] (List.nil_prefix), fun first hfirst => ?_⟩
    rw [← level_cons]
    exact h (s :: first) (List.cons_prefix_cons.mpr ⟨rfl, hfirst⟩)
  · rintro ⟨hn, h⟩ first hfirst
    cases first with
    | nil => exact hn
    | cons s' first =>
      obtain ⟨rfl, hrest⟩ := List.cons_prefix_cons.mp hfirst
      rw [level_cons]
      exact h first hrest

theorem StaysBelow.start {k n : Nat} {steps : List (Step α)} (h : StaysBelow k n steps) : k < n :=
  h [] List.nil_prefix

theorem not_lastEnters_nil {k n : Nat} {c : α} : ¬LastEnters k c n [] := by
  rintro ⟨before, after, heq, -⟩
  exact List.append_ne_nil_of_right_ne_nil before (List.cons_ne_nil _ _) heq.symm

theorem lastEnters_cons {k n : Nat} {c : α} {s : Step α} {steps : List (Step α)} :
    LastEnters k c n (s :: steps) ↔
      (s = .name c ∧ n = k ∧ StaysBelow k (k + 1) steps) ∨
        LastEnters k c (stepLevel n s) steps := by
  constructor
  · rintro ⟨before, after, heq, hlevel, hstays⟩
    cases before with
    | nil =>
      cases heq
      exact .inl ⟨rfl, hlevel, hstays⟩
    | cons s' before =>
      cases heq
      rw [level_cons] at hlevel
      exact .inr ⟨before, after, rfl, hlevel, hstays⟩
  · rintro (⟨rfl, hlevel, hstays⟩ | ⟨before, after, rfl, hlevel, hstays⟩)
    · exact ⟨[], steps, rfl, hlevel, hstays⟩
    · refine ⟨s :: before, after, rfl, ?_, hstays⟩
      rw [level_cons]
      exact hlevel

/-- The name at level `k` where a walk ends. -/
theorem walk_getElem? {k : Nat} {c : α} {dir : List α} {steps : List (Step α)} :
    (walk dir steps)[k]? = some c ↔
      (dir[k]? = some c ∧ StaysBelow k dir.length steps) ∨ LastEnters k c dir.length steps := by
  induction steps generalizing dir with
  | nil =>
    rw [walk_nil, staysBelow_nil, or_iff_left not_lastEnters_nil]
    refine ⟨fun h => ⟨h, ?_⟩, And.left⟩
    exact (List.getElem?_eq_some_iff.mp h).1
  | cons s steps ih =>
    rw [walk_cons, ih, length_step, staysBelow_cons, lastEnters_cons]
    cases s with
    | up =>
      have hdrop : dir.dropLast[k]? = some c ∧ StaysBelow k (dir.length - 1) steps ↔
          dir[k]? = some c ∧ StaysBelow k (dir.length - 1) steps := by
        refine and_congr_left fun hstays => ?_
        rw [List.getElem?_dropLast, if_pos hstays.start]
      have hlast : dir[k]? = some c → k < dir.length := fun h =>
        (List.getElem?_eq_some_iff.mp h).1
      simp only [step, stepLevel, hdrop, reduceCtorEq, false_and, false_or]
      exact or_congr_left ⟨fun h => ⟨h.1, hlast h.1, h.2⟩, fun h => ⟨h.1, h.2.2⟩⟩
    | name d =>
      rw [← or_assoc]
      refine or_congr_left ?_
      simp only [step, stepLevel, Step.name.injEq]
      rcases Nat.lt_trichotomy k dir.length with hlt | rfl | hgt
      · rw [List.getElem?_append_left hlt]
        have hne : dir.length ≠ k := Nat.ne_of_gt hlt
        simp only [hlt, hne, true_and, false_and, and_false, or_false]
      · rw [List.getElem?_concat_length, Option.some.injEq]
        simp only [Nat.lt_irrefl, false_and, and_false, false_or, true_and]
      · have hlong : (dir ++ [d]).length ≤ k := by
          rw [List.length_append]
          exact hgt
        have hne : dir.length ≠ k := Nat.ne_of_lt hgt
        rw [List.getElem?_eq_none hlong]
        simp only [Nat.lt_asymm hgt, hne, reduceCtorEq, false_and, and_false, or_false]

end Paths
