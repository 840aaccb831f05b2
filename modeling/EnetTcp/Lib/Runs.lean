/-!
# Runs of a step system

A `StepSystem σ α` has states `σ` and takes a step for an action `α`, where one is
possible. What is left open (a schedule, an answer from outside) is part of the
actions, so `next` is a function and a run of given actions can be computed.

* `Reaches C s₀ s`: a run leads from `s₀` to `s`, and all its steps meet `C`.
* `Reaches.invariant`: what holds at the start and is kept by every step that meets
  `C` holds of every state that is reached.
* `exists_reachable_of_run`, `exists_reaches_of_runWith`: a computed run reaches a state.
-/

/-- States and the steps between them, one for each action that is possible. -/
structure StepSystem (σ α : Type) where
  next : α → σ → Option σ

namespace StepSystem

variable {σ α : Type} (S : StepSystem σ α)

/-- Some run leads from `s₀` to the state, and every step of it meets the condition
`C` on the state in front of it and its action. -/
inductive Reaches (C : σ → α → Prop) (s₀ : σ) : σ → Prop
  | start : Reaches C s₀ s₀
  | step {s s' : σ} {a : α} :
      Reaches C s₀ s → C s a → S.next a s = some s' → Reaches C s₀ s'

/-- Some run leads from `s₀` to the state. -/
abbrev Reachable (s₀ : σ) : σ → Prop := S.Reaches (fun _ _ => True) s₀

/-- Take the steps of a list of actions one after the other. -/
def run : List α → σ → Option σ
  | [], s => some s
  | a :: as, s => (S.next a s).bind (run as)

/-- The same, as long as every step meets the condition. -/
def runWith (C : σ → α → Prop) [∀ s a, Decidable (C s a)] : List α → σ → Option σ
  | [], s => some s
  | a :: as, s => if C s a then (S.next a s).bind (runWith C as) else none

variable {S} {C D : σ → α → Prop} {s₀ s s' : σ}

/-- The invariant rule. -/
theorem Reaches.invariant {I : σ → Prop} (h : S.Reaches C s₀ s) (hstart : I s₀)
    (hstep : ∀ s a s', I s → C s a → S.next a s = some s' → I s') : I s := by
  induction h with
  | start => exact hstart
  | step _ hcond hnext ih => exact hstep _ _ _ ih hcond hnext

/-- A run whose steps meet another condition, too. -/
theorem Reaches.weaken (h : S.Reaches C s₀ s) (hCD : ∀ s a, C s a → D s a) :
    S.Reaches D s₀ s := by
  induction h with
  | start => exact .start
  | step _ hcond hnext ih => exact .step ih (hCD _ _ hcond) hnext

theorem Reaches.reachable (h : S.Reaches C s₀ s) : S.Reachable s₀ s :=
  h.weaken fun _ _ _ => trivial

/-- Every step starts from a state that is reached. -/
theorem Reaches.strengthen {I : σ → Prop} (h : S.Reaches C s₀ s)
    (hI : ∀ s, S.Reaches C s₀ s → I s) : S.Reaches (fun s a => I s ∧ C s a) s₀ s := by
  induction h with
  | start => exact .start
  | step hreach hcond hnext ih => exact .step ih ⟨hI _ hreach, hcond⟩ hnext

theorem Reaches.trans (h : S.Reaches C s₀ s) (h' : S.Reaches C s s') : S.Reaches C s₀ s' := by
  induction h' with
  | start => exact h
  | step _ hcond hnext ih => exact .step ih hcond hnext

/-- A run that another system can follow: each step is answered by a run of it, which keeps the
relation between the states. -/
theorem Reaches.followed {τ β : Type} {T : StepSystem τ β} {R : σ → τ → Prop}
    (h : S.Reaches C s s') {t : τ} (hstart : R s t)
    (hstep : ∀ s a s' t, R s t → C s a → S.next a s = some s' →
      ∃ t', T.Reaches (fun _ _ => True) t t' ∧ R s' t') :
    ∃ t', T.Reaches (fun _ _ => True) t t' ∧ R s' t' := by
  induction h with
  | start => exact ⟨t, .start, hstart⟩
  | step _ hcond hnext ih =>
    obtain ⟨t₁, hreach, hR⟩ := ih
    obtain ⟨t', hreach', hR'⟩ := hstep _ _ _ _ hR hcond hnext
    exact ⟨t', hreach.trans hreach', hR'⟩

theorem reaches_of_runWith [∀ s a, Decidable (C s a)] {as : List α}
    (h : S.runWith C as s₀ = some s) : S.Reaches C s₀ s := by
  induction as generalizing s₀ with
  | nil =>
    cases h
    exact .start
  | cons a as ih =>
    unfold runWith at h
    split at h
    case isTrue hcond =>
      obtain ⟨s₁, hnext, hrest⟩ := Option.bind_eq_some_iff.mp h
      exact (Reaches.step .start hcond hnext).trans (ih hrest)
    case isFalse => cases h

/-- A run that can be computed with its condition, up to a state that can be tested. -/
theorem exists_reaches_of_runWith [∀ s a, Decidable (C s a)] {as : List α} {p : σ → Bool}
    (h : (S.runWith C as s₀).map p = some true) : ∃ s, S.Reaches C s₀ s ∧ p s = true := by
  obtain ⟨s, hrun, hp⟩ := Option.map_eq_some_iff.mp h
  exact ⟨s, reaches_of_runWith hrun, hp⟩

/-- Two runs, one after the other. -/
theorem exists_reaches_of_runs [∀ s a, Decidable (C s a)] [∀ s a, Decidable (D s a)]
    {as bs : List α} {p : σ → σ → Bool}
    (h : ((S.runWith C as s₀).bind fun s => (S.runWith D bs s).map (p s)) = some true) :
    ∃ s s', S.Reaches C s₀ s ∧ S.Reaches D s s' ∧ p s s' = true := by
  obtain ⟨s, hrun, h⟩ := Option.bind_eq_some_iff.mp h
  obtain ⟨s', hreach, hp⟩ := exists_reaches_of_runWith h
  exact ⟨s, s', reaches_of_runWith hrun, hreach, hp⟩

theorem reachable_of_run {as : List α} (h : S.run as s₀ = some s) : S.Reachable s₀ s := by
  induction as generalizing s₀ with
  | nil =>
    cases h
    exact .start
  | cons a as ih =>
    rw [run, Option.bind_eq_some_iff] at h
    obtain ⟨s₁, hnext, hrest⟩ := h
    exact (Reaches.step .start trivial hnext).trans (ih hrest)

/-- A run that can be computed, up to a state with a property that can be tested. -/
theorem exists_reachable_of_run {as : List α} {p : σ → Bool}
    (h : (S.run as s₀).map p = some true) : ∃ s, S.Reachable s₀ s ∧ p s = true := by
  obtain ⟨s, hrun, hp⟩ := Option.map_eq_some_iff.mp h
  exact ⟨s, reachable_of_run hrun, hp⟩

end StepSystem
