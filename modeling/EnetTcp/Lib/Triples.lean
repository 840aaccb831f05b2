import EnetTcp.Lib.Prog

/-!
# Triples

`Triple P p Q E`: from a state with `P`, every defined run of `p` returns an `a` in a
state with `Q a` or throws an `e` in a state with `E e`. The rules follow the syntax.

A program that can be cut off at any call throws there, so `E` is what holds at every
point at which it can be cut off.
-/

namespace Prog

variable {ε σ α β : Type}

def Triple (P : σ → Prop) (p : Prog ε σ α) (Q : α → σ → Prop) (E : ε → σ → Prop) : Prop :=
  ∀ s, P s → ∀ r s', p.exec s = some (r, s') →
    match r with
    | .ok a => Q a s'
    | .error e => E e s'

variable {P P' : σ → Prop} {Q Q' : α → σ → Prop} {E E' : ε → σ → Prop}

theorem Triple.ok {p : Prog ε σ α} {s s' : σ} {a : α} (h : Triple P p Q E) (hs : P s)
    (hrun : p.exec s = some (.ok a, s')) : Q a s' :=
  h s hs _ s' hrun

theorem Triple.error {p : Prog ε σ α} {s s' : σ} {e : ε} (h : Triple P p Q E) (hs : P s)
    (hrun : p.exec s = some (.error e, s')) : E e s' :=
  h s hs _ s' hrun

theorem triple_pure {a : α} (h : ∀ s, P s → Q a s) : Triple P (pure a : Prog ε σ α) Q E := by
  intro s hs r s' hrun
  cases hrun
  exact h s hs

theorem triple_throw {e : ε} (h : ∀ s, P s → E e s) : Triple P (throw e : Prog ε σ α) Q E := by
  intro s hs r s' hrun
  cases hrun
  exact h s hs

theorem triple_bind {p : Prog ε σ α} {f : α → Prog ε σ β} {R : α → σ → Prop}
    {Q : β → σ → Prop} (hp : Triple P p R E) (hf : ∀ a, Triple (R a) (f a) Q E) :
    Triple P (p >>= f) Q E := by
  intro s hs r s' hrun
  rw [exec_bind, Option.bind_eq_some_iff] at hrun
  obtain ⟨⟨r₁, s₁⟩, hp₁, hrest⟩ := hrun
  cases r₁ with
  | ok a => exact hf a s₁ (hp.ok hs hp₁) r s' hrest
  | error e =>
    cases hrest
    exact hp.error hs hp₁

/-- What is known may be used, and what is not needed forgotten. -/
theorem Triple.weaken {p : Prog ε σ α} (h : Triple P p Q E) (hP : ∀ s, P' s → P s)
    (hQ : ∀ a s, Q a s → Q' a s) (hE : ∀ e s, E e s → E' e s) : Triple P' p Q' E' := by
  intro s hs r s' hrun
  cases r with
  | ok a => exact hQ a s' (h.ok (hP s hs) hrun)
  | error e => exact hE e s' (h.error (hP s hs) hrun)

theorem Triple.pre {p : Prog ε σ α} (h : Triple P p Q E) (hP : ∀ s, P' s → P s) :
    Triple P' p Q E :=
  h.weaken hP (fun _ _ hs => hs) fun _ _ hs => hs

/-- A fact that does not depend on the state may be used in the proof. -/
theorem triple_of {p : Prog ε σ α} {F : Prop} (hF : ∀ s, P s → F) (h : F → Triple P p Q E) :
    Triple P p Q E :=
  fun s hs => h (hF s hs) s hs

theorem triple_ite {c : Prop} [Decidable c] {p q : Prog ε σ α} (hp : c → Triple P p Q E)
    (hq : ¬c → Triple P q Q E) : Triple P (if c then p else q) Q E := by
  split
  · exact hp ‹_›
  · exact hq ‹_›

end Prog
