import EnetTcp.Lib.Prog

/-!
# Programs seen through a part of their state

A run often records more than its further course depends on. `view` picks the part that matters.

* `Shows view p t a t'`: from each state that looks like `t`, `p` returns `a` and leaves a state
  that looks like `t'`.
* `Hangs view p t`: from no such state does `p` end.
* `GoesOn view p t q t'`: from `t`, `p` comes to a point where `q` is left to do, with `t'`.
-/

namespace Prog

variable {ε σ τ α β : Type}

def Shows (view : σ → τ) (p : Prog ε σ α) (t : τ) (a : α) (t' : τ) : Prop :=
  ∀ s, view s = t → ∃ s', p.exec s = some (.ok a, s') ∧ view s' = t'

def Hangs (view : σ → τ) (p : Prog ε σ α) (t : τ) : Prop :=
  ∀ s, view s = t → p.exec s = none

def GoesOn (view : σ → τ) (p : Prog ε σ α) (t : τ) (q : Prog ε σ α) (t' : τ) : Prop :=
  ∀ s, view s = t → ∃ s', p.exec s = q.exec s' ∧ view s' = t'

section

variable {view : σ → τ} {t t' t'' : τ}

theorem shows_pure (a : α) : Shows view (pure a : Prog ε σ α) t a t := fun s hs => ⟨s, rfl, hs⟩

theorem hangs_undefined : Hangs view (undefined : Prog ε σ α) t := fun _ _ => rfl

theorem goesOn_refl (p : Prog ε σ α) : GoesOn view p t p t := fun s hs => ⟨s, rfl, hs⟩

theorem GoesOn.trans {p q w : Prog ε σ α} (hp : GoesOn view p t q t')
    (hq : GoesOn view q t' w t'') : GoesOn view p t w t'' := by
  intro s hs
  obtain ⟨s', hrun, hs'⟩ := hp s hs
  obtain ⟨s'', hrun', hs''⟩ := hq s' hs'
  exact ⟨s'', hrun.trans hrun', hs''⟩

theorem GoesOn.shows {p q : Prog ε σ α} {a : α} (hp : GoesOn view p t q t')
    (hq : Shows view q t' a t'') : Shows view p t a t'' := by
  intro s hs
  obtain ⟨s', hrun, hs'⟩ := hp s hs
  obtain ⟨s'', hrun', hs''⟩ := hq s' hs'
  exact ⟨s'', hrun.trans hrun', hs''⟩

theorem GoesOn.hangs {p q : Prog ε σ α} (hp : GoesOn view p t q t') (hq : Hangs view q t') :
    Hangs view p t := by
  intro s hs
  obtain ⟨s', hrun, hs'⟩ := hp s hs
  rw [hrun, hq s' hs']

/-- What comes behind a program that ends. -/
theorem Shows.bind {p : Prog ε σ α} {f : α → Prog ε σ β} {a : α} (hp : Shows view p t a t') :
    GoesOn view (p >>= f) t (f a) t' := by
  intro s hs
  obtain ⟨s', hrun, hs'⟩ := hp s hs
  exact ⟨s', by rw [exec_bind_ok hrun], hs'⟩

theorem GoesOn.bind {p q : Prog ε σ α} (f : α → Prog ε σ β) (hp : GoesOn view p t q t') :
    GoesOn view (p >>= f) t (q >>= f) t' := by
  intro s hs
  obtain ⟨s', hrun, hs'⟩ := hp s hs
  exact ⟨s', by rw [exec_bind, hrun, exec_bind], hs'⟩

theorem goesOn_bind {p : Prog ε σ α} {f : α → Prog ε σ β} {q : Prog ε σ β} {a : α}
    (hp : Shows view p t a t') (hf : GoesOn view (f a) t' q t'') :
    GoesOn view (p >>= f) t q t'' :=
  hp.bind.trans hf

theorem shows_bind {p : Prog ε σ α} {f : α → Prog ε σ β} {a : α} {b : β}
    (hp : Shows view p t a t') (hf : Shows view (f a) t' b t'') :
    Shows view (p >>= f) t b t'' :=
  hp.bind.shows hf

theorem hangs_bind {p : Prog ε σ α} (f : α → Prog ε σ β) (hp : Hangs view p t) :
    Hangs view (p >>= f) t := fun s hs => by
  rw [exec_bind, hp s hs]
  rfl

/-- A run that ends is the one that is shown. -/
theorem Shows.exec_eq {p : Prog ε σ α} {a : α} (hp : Shows view p t a t') {s s' : σ}
    {r : Except ε α} (hs : view s = t) (h : p.exec s = some (r, s')) :
    r = .ok a ∧ view s' = t' := by
  obtain ⟨s'', hrun, hs''⟩ := hp s hs
  rw [h] at hrun
  cases hrun
  exact ⟨rfl, hs''⟩

end

end Prog
