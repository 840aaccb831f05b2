/-!
# A queue between producers and a consumer

Producers make messages of inputs and put them on a queue. A consumer takes them
off in order. Both look at a shared state and change it, and their steps
interleave in any way.

* `CalmRun`: an interleaving in which nothing that is pending matters for what is
  made of an input.
* `direct`: each message is consumed as soon as it is made.
* `run_direct`: a calm interleaving ends like direct processing, once the queue is
  drained.
* `runs_agree`: so two calm interleavings of the same inputs end in the same state.
-/

/-- Messages of type `μ` that are made of inputs of type `ι`, over a shared state. -/
structure Pipeline (σ ι μ : Type) where
  produce : ι → σ → Option (μ × σ)
  consume : μ → σ → Option σ
  /-- The consumer takes nothing off the queue any more. -/
  stopped : σ → Bool

namespace Pipeline

variable {σ ι μ : Type}

inductive Event (ι : Type)
  | produce (i : ι)
  | consume

/-- The inputs of a run, in the order in which they are made into messages. -/
def inputs : List (Event ι) → List ι
  | [] => []
  | .produce i :: es => i :: inputs es
  | .consume :: es => inputs es

variable (P : Pipeline σ ι μ)

/-- One step of a producer or of the consumer on the state and the queue. -/
inductive Step : σ × List μ → Event ι → σ × List μ → Prop
  | produce {i : ι} {m : μ} {s s' : σ} {q : List μ} :
      P.produce i s = some (m, s') → Step (s, q) (.produce i) (s', q ++ [m])
  | consume {m : μ} {s s' : σ} {q : List μ} :
      P.stopped s = false → P.consume m s = some s' → Step (s, m :: q) .consume (s', q)

/-- Consume what is pending. -/
def drain : List μ → σ → Option σ
  | [], s => some s
  | m :: q, s => if P.stopped s then some s else (P.consume m s).bind (drain q)

/-- Make a message of each input and consume it at once. -/
def direct : List ι → σ → Option σ
  | [], s => some s
  | i :: is, s => (P.produce i s).bind fun p => (P.drain [p.1] p.2).bind (direct is)

/-- The same message is made of the input before and after what is pending is consumed. -/
def Calm (i : ι) (s : σ) (q : List μ) : Prop :=
  ∀ m s' t', P.produce i s = some (m, s') → P.drain q s' = some t' →
    ∃ t, P.drain q s = some t ∧ P.produce i t = some (m, t')

/-- A run whose inputs are made into messages calmly. -/
inductive CalmRun : σ × List μ → List (Event ι) → σ × List μ → Prop
  | nil {c : σ × List μ} : CalmRun c [] c
  | cons {c c₁ c₂ : σ × List μ} {e : Event ι} {es : List (Event ι)} :
      P.Step c e c₁ → (∀ i, e = .produce i → P.Calm i c.1 c.2) → CalmRun c₁ es c₂ →
      CalmRun c (e :: es) c₂

variable {P}

theorem drain_of_stopped {s : σ} (h : P.stopped s = true) (q : List μ) : P.drain q s = some s := by
  cases q with
  | nil => rfl
  | cons m q => rw [drain, if_pos h]

theorem drain_append (q q' : List μ) (s : σ) :
    P.drain (q ++ q') s = (P.drain q s).bind (P.drain q') := by
  induction q generalizing s with
  | nil => rfl
  | cons m q ih =>
    rw [List.cons_append, drain, drain]
    by_cases h : P.stopped s = true
    · rw [if_pos h, if_pos h, Option.bind_some, drain_of_stopped h]
    · rw [if_neg h, if_neg h, Option.bind_assoc]
      congr 1
      funext s'
      exact ih s'

/-- A calm run ends, once the queue is drained, like direct processing. -/
theorem run_direct {c c' : σ × List μ} {es : List (Event ι)} (h : P.CalmRun c es c') {t' : σ}
    (hdrain : P.drain c'.2 c'.1 = some t') :
    ∃ t, P.drain c.2 c.1 = some t ∧ P.direct (inputs es) t = some t' := by
  induction h with
  | nil => exact ⟨t', hdrain, rfl⟩
  | cons hstep hcalm _ ih =>
    obtain ⟨t₁, hdrain₁, hdirect⟩ := ih hdrain
    cases hstep with
    | consume hgoing hconsume =>
      refine ⟨t₁, ?_, hdirect⟩
      rw [drain, hgoing, if_neg Bool.false_ne_true, hconsume, Option.bind_some]
      exact hdrain₁
    | @produce i m s s' q hproduce =>
      rw [drain_append, Option.bind_eq_some_iff] at hdrain₁
      obtain ⟨u, hu, hlast⟩ := hdrain₁
      obtain ⟨t, ht, hagain⟩ := hcalm i rfl m s' u hproduce hu
      refine ⟨t, ht, ?_⟩
      rw [inputs, direct, hagain, Option.bind_some, hlast, Option.bind_some, hdirect]

/-- Nothing is left to consume, or nothing more will be. -/
def Finished (P : Pipeline σ ι μ) (c : σ × List μ) : Prop := c.2 = [] ∨ P.stopped c.1 = true

theorem drain_of_finished {c : σ × List μ} (h : P.Finished c) : P.drain c.2 c.1 = some c.1 := by
  obtain ⟨s, q⟩ := c
  rcases h with rfl | h
  · rfl
  · exact drain_of_stopped h q

/-- How the steps interleave does not matter for where a calm run ends. -/
theorem runs_agree {c c₁ c₂ : σ × List μ} {es₁ es₂ : List (Event ι)} (h₁ : P.CalmRun c es₁ c₁)
    (h₂ : P.CalmRun c es₂ c₂) (hinputs : inputs es₁ = inputs es₂) (hend₁ : P.Finished c₁)
    (hend₂ : P.Finished c₂) : c₁.1 = c₂.1 := by
  obtain ⟨t₁, ht₁, hdirect₁⟩ := run_direct h₁ (drain_of_finished hend₁)
  obtain ⟨t₂, ht₂, hdirect₂⟩ := run_direct h₂ (drain_of_finished hend₂)
  obtain rfl : t₁ = t₂ := Option.some.inj (ht₁.symm.trans ht₂)
  rw [hinputs] at hdirect₁
  exact Option.some.inj (hdirect₁.symm.trans hdirect₂)

end Pipeline
