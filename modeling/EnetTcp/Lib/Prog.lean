import Mathlib.Order.Defs.Unbundled

/-!
# Programs with state, exceptions and undefined behaviour

`Prog ε σ α` is a program over a state `σ` that returns an `α` or throws an
`ε`. `exec` runs it. A run gives `none` where the language leaves the outcome
undefined (a read outside an array, say) or where the program never returns;
nothing at all is promised of such a run. The state reached before a throw is
kept, as in an imperative language.

* The `exec_*` equations run a program by rewriting.
* `zoom` runs a program on one component of a larger state.
* `attempt` turns a throw into a value, as a catch-all handler does.
* `after` is the state that a run without a throw ends in.
* `Moves R p`: every defined run of `p` moves the state along `R`. The rules
  `moves_pure`, `moves_bind` and so on establish it along the syntax.
* `Stateless p`: `p` neither reads nor changes the state. The rules
  `stateless_pure`, `stateless_bind` and so on establish it.
* `Throws P p`: what `p` throws satisfies `P`. The rules are `throws_pure`,
  `throws_bind` and so on.
* `Ends P p`: besides, every run of `p` is defined. The rules are `ends_pure`,
  `ends_bind` and so on.
* `Returns I Q p`: from the states with `I`, `p` returns a value with `Q` and leaves
  a state with `I`. The rules are `returns_pure`, `returns_bind` and so on.
* `Closed K`: a property of programs that the control structures keep. What is proved
  along the syntax for every closed `K` holds of `Moves R` and of `Throws P` alike.
-/

/-- A program over the state `σ` that returns an `α` or throws an `ε`. -/
abbrev Prog (ε σ α : Type) : Type := ExceptT ε (StateT σ Option) α

namespace Prog

variable {ε σ τ α β : Type}

/-- Run a program from a state: the value or the exception, and the state reached. -/
def exec (p : Prog ε σ α) (s : σ) : Option (Except ε α × σ) := p.run.run s

/-- The program whose behaviour is undefined. -/
def undefined : Prog ε σ α := ExceptT.mk fun _ => none

/-- A value that some inputs leave undefined. -/
def ofOption (o : Option α) : Prog ε σ α := ExceptT.mk fun s => o.map fun a => (.ok a, s)

/-- Run `p`, and give its value or its exception as a value. -/
def attempt (p : Prog ε σ α) : Prog ε σ (Except ε α) :=
  ExceptT.mk fun s => (p.exec s).map fun r => (.ok r.1, r.2)

/-- Run a program on the component of the state that `get` reads and `set` writes. -/
def zoom (get : σ → τ) (set : τ → σ → σ) (p : Prog ε τ α) : Prog ε σ α :=
  ExceptT.mk fun s => (p.exec (get s)).map fun r => (r.1, set r.2 s)

/-! ## 1. Running a program -/

/-- What is left to do once `p` has ended with `r`. -/
def resume (f : α → Prog ε σ β) : Except ε α × σ → Option (Except ε β × σ)
  | (.ok a, s) => (f a).exec s
  | (.error e, s) => some (.error e, s)

@[simp] theorem resume_ok (f : α → Prog ε σ β) (a : α) (s : σ) :
    resume f (.ok a, s) = (f a).exec s := rfl

@[simp] theorem resume_error (f : α → Prog ε σ β) (e : ε) (s : σ) :
    resume f (.error e, s) = some (.error e, s) := rfl

@[simp] theorem exec_pure (a : α) (s : σ) : (pure a : Prog ε σ α).exec s = some (.ok a, s) := rfl

@[simp] theorem exec_bind (p : Prog ε σ α) (f : α → Prog ε σ β) (s : σ) :
    (p >>= f).exec s = (p.exec s).bind (resume f) := by
  show ((p.run.run s).bind _ : Option (Except ε β × σ)) = (p.run.run s).bind (resume f)
  congr 1
  funext r
  obtain ⟨r, s'⟩ := r
  cases r <;> rfl

@[simp] theorem exec_throw (e : ε) (s : σ) :
    (throw e : Prog ε σ α).exec s = some (.error e, s) := rfl

@[simp] theorem exec_get (s : σ) : (get : Prog ε σ σ).exec s = some (.ok s, s) := rfl

@[simp] theorem exec_set (t s : σ) : (set t : Prog ε σ PUnit).exec s = some (.ok ⟨⟩, t) := rfl

@[simp] theorem exec_modify (g : σ → σ) (s : σ) :
    (modify g : Prog ε σ PUnit).exec s = some (.ok ⟨⟩, g s) := rfl

@[simp] theorem exec_undefined (s : σ) : (undefined : Prog ε σ α).exec s = none := rfl

@[simp] theorem exec_ofOption_some (a : α) (s : σ) :
    (ofOption (some a) : Prog ε σ α).exec s = some (.ok a, s) := rfl

@[simp] theorem exec_attempt (p : Prog ε σ α) (s : σ) :
    (attempt p).exec s = (p.exec s).map fun r => (.ok r.1, r.2) := rfl

@[simp] theorem exec_zoom (get : σ → τ) (set : τ → σ → σ) (p : Prog ε τ α) (s : σ) :
    (zoom get set p).exec s = (p.exec (get s)).map fun r => (r.1, set r.2 s) := rfl

/-- The first part of a program gives `a`. -/
theorem exec_bind_ok {p : Prog ε σ α} {f : α → Prog ε σ β} {s s' : σ} {a : α}
    (h : p.exec s = some (.ok a, s')) : (p >>= f).exec s = (f a).exec s' := by
  rw [exec_bind, h, Option.bind_some, resume_ok]

theorem exec_get_bind (f : σ → Prog ε σ β) (s : σ) : (get >>= f).exec s = (f s).exec s :=
  exec_bind_ok (exec_get s)

theorem exec_set_bind (t : σ) (f : PUnit → Prog ε σ β) (s : σ) :
    (set t >>= f).exec s = (f ⟨⟩).exec t := exec_bind_ok (exec_set t s)

/-- The state that a run without an exception ends in. -/
def after (p : Prog ε σ α) (s : σ) : Option σ :=
  (p.exec s).bind fun r => r.1.toOption.map fun _ => r.2

theorem after_eq_some {p : Prog ε σ α} {s s' : σ} :
    p.after s = some s' ↔ ∃ a, p.exec s = some (.ok a, s') := by
  rw [after, Option.bind_eq_some_iff]
  constructor
  · rintro ⟨⟨r, t⟩, hrun, hr⟩
    cases r with
    | error e => cases hr
    | ok a =>
      cases hr
      exact ⟨a, hrun⟩
  · rintro ⟨a, hrun⟩
    exact ⟨_, hrun, rfl⟩

/-- A run without an exception, taken apart at a bind. -/
theorem bind_exec_ok {p : Prog ε σ α} {f : α → Prog ε σ β} {s s' : σ} {b : β}
    (h : (p >>= f).exec s = some (.ok b, s')) :
    ∃ a s₁, p.exec s = some (.ok a, s₁) ∧ (f a).exec s₁ = some (.ok b, s') := by
  rw [exec_bind, Option.bind_eq_some_iff] at h
  obtain ⟨⟨r, s₁⟩, hp, hf⟩ := h
  cases r with
  | error e => cases hf
  | ok a => exact ⟨a, s₁, hp, hf⟩

theorem ofOption_bind_some {o : Option α} {f : α → Prog ε σ β} {s : σ} {r : Except ε β × σ}
    (h : (ofOption o >>= f).exec s = some r) : ∃ a, o = some a ∧ (f a).exec s = some r := by
  cases o with
  | none => cases h
  | some a => exact ⟨a, rfl, h⟩

/-- Two programs that run alike from every state are the same program. -/
theorem ext_exec {p q : Prog ε σ α} (h : ∀ s, p.exec s = q.exec s) : p = q := funext h

/-! ## 2. Where a run can lead -/

/-- Every defined run of `p` moves the state along `R`. -/
def Moves (R : σ → σ → Prop) (p : Prog ε σ α) : Prop :=
  ∀ s r s', p.exec s = some (r, s') → R s s'

section Rules

variable {R : σ → σ → Prop}

theorem moves_pure [Std.Refl R] (a : α) : Moves R (pure a : Prog ε σ α) := by
  intro s r s' h
  simp only [exec_pure, Option.some.injEq, Prod.mk.injEq] at h
  obtain ⟨-, rfl⟩ := h
  exact refl s

/-- What comes next may rely on how the value has come about. -/
theorem moves_bind_ok [IsTrans σ R] {p : Prog ε σ α} {f : α → Prog ε σ β} (hp : Moves R p)
    (hf : ∀ a s s', p.exec s = some (.ok a, s') → Moves R (f a)) : Moves R (p >>= f) := by
  intro s r s' h
  rw [exec_bind, Option.bind_eq_some_iff] at h
  obtain ⟨⟨q, t⟩, hq, ht⟩ := h
  have hfirst : R s t := hp s q t hq
  cases q with
  | ok a => exact IsTrans.trans _ _ _ hfirst (hf a s t hq t r s' ht)
  | error e =>
    simp only [resume_error, Option.some.injEq, Prod.mk.injEq] at ht
    obtain ⟨-, rfl⟩ := ht
    exact hfirst

theorem moves_bind [IsTrans σ R] {p : Prog ε σ α} {f : α → Prog ε σ β} (hp : Moves R p)
    (hf : ∀ a, Moves R (f a)) : Moves R (p >>= f) :=
  moves_bind_ok hp fun a _ _ _ => hf a

theorem moves_throw [Std.Refl R] (e : ε) : Moves R (throw e : Prog ε σ α) := by
  intro s r s' h
  simp only [exec_throw, Option.some.injEq, Prod.mk.injEq] at h
  obtain ⟨-, rfl⟩ := h
  exact refl s

/-- Nothing comes after an exception. -/
theorem moves_throw_bind [Std.Refl R] (e : ε) (f : α → Prog ε σ β) :
    Moves R (throw e >>= f : Prog ε σ β) := by
  intro s r s' h
  simp only [exec_bind, exec_throw, Option.bind_some, resume_error, Option.some.injEq,
    Prod.mk.injEq] at h
  obtain ⟨-, rfl⟩ := h
  exact refl s

theorem moves_get [Std.Refl R] : Moves R (get : Prog ε σ σ) := by
  intro s r s' h
  simp only [exec_get, Option.some.injEq, Prod.mk.injEq] at h
  obtain ⟨-, rfl⟩ := h
  exact refl s

theorem moves_modify {g : σ → σ} (hg : ∀ s, R s (g s)) :
    Moves R (modify g : Prog ε σ PUnit) := by
  intro s r s' h
  simp only [exec_modify, Option.some.injEq, Prod.mk.injEq] at h
  obtain ⟨-, rfl⟩ := h
  exact hg s

/-- A change that depends on the state and may be undefined. -/
theorem moves_update {o : σ → Option α} {g : σ → α → σ} (h : ∀ s a, o s = some a → R s (g s a)) :
    Moves R (do let s ← get; let a ← ofOption (o s); set (g s a) : Prog ε σ PUnit) := by
  intro s r s' hr
  rw [exec_bind, exec_get, Option.bind_some, resume_ok] at hr
  obtain ⟨a, ha, hset⟩ := ofOption_bind_some hr
  simp only [exec_set, Option.some.injEq, Prod.mk.injEq] at hset
  obtain ⟨-, rfl⟩ := hset
  exact h s a ha

/-- A change that depends on the state, and what comes after it. -/
theorem moves_get_set [IsTrans σ R] {g : σ → σ} {k : σ → Prog ε σ α} (hg : ∀ s, R s (g s))
    (hk : ∀ s, Moves R (k s)) : Moves R (do let s ← get; set (g s); k s) := by
  intro s r s' hr
  rw [exec_bind, exec_get, Option.bind_some, resume_ok, exec_bind, exec_set, Option.bind_some,
    resume_ok] at hr
  exact IsTrans.trans _ _ _ (hg s) (hk s _ _ _ hr)

theorem moves_undefined : Moves R (undefined : Prog ε σ α) := by
  intro s r s' h
  cases h

theorem moves_ofOption [Std.Refl R] (o : Option α) : Moves R (ofOption o : Prog ε σ α) := by
  cases o with
  | none => exact moves_undefined
  | some a => exact moves_pure a

theorem moves_attempt {p : Prog ε σ α} (hp : Moves R p) : Moves R p.attempt := by
  intro s r s' h
  rw [exec_attempt, Option.map_eq_some_iff] at h
  obtain ⟨⟨q, t⟩, hq, ht⟩ := h
  simp only [Prod.mk.injEq] at ht
  obtain ⟨-, rfl⟩ := ht
  exact hp s q t hq

theorem moves_ite {c : Prop} [Decidable c] {p q : Prog ε σ α} (hp : c → Moves R p)
    (hq : ¬c → Moves R q) : Moves R (if c then p else q) := by
  split
  · exact hp ‹_›
  · exact hq ‹_›

theorem moves_zoom {S : τ → τ → Prop} {rd : σ → τ} {wr : τ → σ → σ} {p : Prog ε τ α}
    (hp : Moves S p) (h : ∀ s t, S (rd s) t → R s (wr t s)) : Moves R (p.zoom rd wr) := by
  intro s r s' hr
  rw [exec_zoom, Option.map_eq_some_iff] at hr
  obtain ⟨⟨q, t⟩, hq, ht⟩ := hr
  simp only [Prod.mk.injEq] at ht
  obtain ⟨-, rfl⟩ := ht
  exact h s t (hp _ q t hq)

/-- A loop over a list moves along `R` when its body does. -/
theorem moves_forM [Std.Refl R] [IsTrans σ R] {body : α → Prog ε σ PUnit} (xs : List α)
    (h : ∀ x ∈ xs, Moves R (body x)) : Moves R (xs.forM body) := by
  induction xs with
  | nil => exact moves_pure _
  | cons x xs ih =>
    have hrest : Moves R (xs.forM body) := ih fun y hy => h y (List.mem_cons_of_mem x hy)
    exact moves_bind (h x List.mem_cons_self) fun _ => hrest

end Rules

/-! ## 3. Programs that do not touch the state -/

/-- Every run of `p` ends in the same way and leaves the state as it is. -/
def Stateless (p : Prog ε σ α) : Prop := ∃ o : Option (Except ε α), ∀ s, p.exec s = o.map (·, s)

section Stateless

theorem stateless_pure (a : α) : Stateless (pure a : Prog ε σ α) := ⟨some (.ok a), fun _ => rfl⟩

theorem stateless_throw (e : ε) : Stateless (throw e : Prog ε σ α) :=
  ⟨some (.error e), fun _ => rfl⟩

theorem stateless_undefined : Stateless (undefined : Prog ε σ α) := ⟨none, fun _ => rfl⟩

theorem stateless_ofOption (o : Option α) : Stateless (ofOption o : Prog ε σ α) := by
  cases o with
  | none => exact stateless_undefined
  | some a => exact stateless_pure a

theorem stateless_bind {p : Prog ε σ α} {f : α → Prog ε σ β} (hp : Stateless p)
    (hf : ∀ a, Stateless (f a)) : Stateless (p >>= f) := by
  obtain ⟨o, ho⟩ := hp
  match o with
  | none => exact ⟨none, fun s => by rw [exec_bind, ho]; rfl⟩
  | some (.error e) => exact ⟨some (.error e), fun s => by rw [exec_bind, ho]; rfl⟩
  | some (.ok a) =>
    obtain ⟨o', ho'⟩ := hf a
    exact ⟨o', fun s => by rw [exec_bind, ho, ← ho']; rfl⟩

theorem stateless_ite {c : Prop} [Decidable c] {p q : Prog ε σ α} (hp : Stateless p)
    (hq : Stateless q) : Stateless (if c then p else q) := by
  split
  · exact hp
  · exact hq

theorem Stateless.exec_eq {p : Prog ε σ α} (hp : Stateless p) {s s' : σ} {r : Except ε α}
    (h : p.exec s = some (r, s')) : s' = s ∧ ∀ t, p.exec t = some (r, t) := by
  obtain ⟨o, ho⟩ := hp
  rw [ho, Option.map_eq_some_iff] at h
  obtain ⟨q, rfl, hq⟩ := h
  simp only [Prod.mk.injEq] at hq
  obtain ⟨rfl, rfl⟩ := hq
  exact ⟨rfl, fun t => ho t⟩

end Stateless

/-! ## 4. What a program throws -/

/-- Every exception that a run of `p` ends with satisfies `P`. -/
def Throws (P : ε → Prop) (p : Prog ε σ α) : Prop :=
  ∀ s e s', p.exec s = some (.error e, s') → P e

section Throws

variable {P : ε → Prop}

theorem throws_pure (a : α) : Throws P (pure a : Prog ε σ α) := fun _ _ _ h => by cases h

theorem throws_get : Throws P (get : Prog ε σ σ) := fun _ _ _ h => by cases h

theorem throws_set (t : σ) : Throws P (set t : Prog ε σ PUnit) := fun _ _ _ h => by cases h

theorem throws_modify (g : σ → σ) : Throws P (modify g : Prog ε σ PUnit) :=
  fun _ _ _ h => by cases h

theorem throws_undefined : Throws P (undefined : Prog ε σ α) := fun _ _ _ h => by cases h

theorem throws_throw {e : ε} (he : P e) : Throws P (throw e : Prog ε σ α) := by
  intro s e' s' h
  cases h
  exact he

theorem throws_ofOption (o : Option α) : Throws P (ofOption o : Prog ε σ α) := by
  cases o with
  | none => exact fun _ _ _ h => by cases h
  | some a => exact throws_pure a

theorem throws_bind {p : Prog ε σ α} {f : α → Prog ε σ β} (hp : Throws P p)
    (hf : ∀ a, Throws P (f a)) : Throws P (p >>= f) := by
  intro s e s' h
  rw [exec_bind, Option.bind_eq_some_iff] at h
  obtain ⟨⟨q, t⟩, hq, ht⟩ := h
  cases q with
  | ok a => exact hf a t e s' ht
  | error e' =>
    simp only [resume_error, Option.some.injEq, Prod.mk.injEq, Except.error.injEq] at ht
    obtain ⟨rfl, -⟩ := ht
    exact hp s e' t hq

/-- A handler for everything throws nothing. -/
theorem throws_attempt (p : Prog ε σ α) : Throws P p.attempt := by
  intro s e s' h
  rw [exec_attempt, Option.map_eq_some_iff] at h
  obtain ⟨q, -, hq⟩ := h
  cases hq

theorem throws_zoom {get : σ → τ} {set : τ → σ → σ} {p : Prog ε τ α} (hp : Throws P p) :
    Throws P (p.zoom get set) := by
  intro s e s' h
  rw [exec_zoom, Option.map_eq_some_iff] at h
  obtain ⟨⟨q, t⟩, hq, ht⟩ := h
  cases ht
  exact hp (get s) e t hq

theorem throws_ite {c : Prop} [Decidable c] {p q : Prog ε σ α} (hp : Throws P p)
    (hq : Throws P q) : Throws P (if c then p else q) := by
  split
  · exact hp
  · exact hq

end Throws

/-! ## 5. Programs that end -/

/-- Every run of `p` is defined, and every exception that one ends with satisfies `P`. -/
def Ends (P : ε → Prop) (p : Prog ε σ α) : Prop :=
  ∀ s, ∃ r s', p.exec s = some (r, s') ∧ ∀ e, r = .error e → P e

section Ends

variable {P : ε → Prop}

theorem ends_pure (a : α) : Ends P (pure a : Prog ε σ α) := fun s => ⟨.ok a, s, rfl, nofun⟩

theorem ends_ofOption {o : Option α} (h : o.isSome = true) : Ends P (ofOption o : Prog ε σ α) := by
  obtain ⟨a, rfl⟩ := Option.isSome_iff_exists.mp h
  exact ends_pure a

theorem ends_bind {p : Prog ε σ α} {f : α → Prog ε σ β} (hp : Ends P p)
    (hf : ∀ a, Ends P (f a)) : Ends P (p >>= f) := by
  intro s
  obtain ⟨r, t, hr, hthrow⟩ := hp s
  rw [exec_bind, hr, Option.bind_some]
  cases r with
  | ok a => exact hf a t
  | error e => exact ⟨.error e, t, rfl, fun e' h => hthrow e' (by cases h; rfl)⟩

theorem ends_ite {c : Prop} [Decidable c] {p q : Prog ε σ α} (hp : c → Ends P p)
    (hq : ¬c → Ends P q) : Ends P (if c then p else q) := by
  split
  · exact hp ‹_›
  · exact hq ‹_›

end Ends

/-! ## 6. Programs that return -/

/-- From every state with `I`, `p` returns a value with `Q` and leaves a state with `I`. -/
def Returns (I : σ → Prop) (Q : α → Prop) (p : Prog ε σ α) : Prop :=
  ∀ s, I s → ∃ a s', p.exec s = some (.ok a, s') ∧ I s' ∧ Q a

section Returns

variable {I : σ → Prop} {Q : α → Prop} {Q' : β → Prop}

theorem returns_pure {a : α} (ha : Q a) : Returns I Q (pure a : Prog ε σ α) :=
  fun s hs => ⟨a, s, rfl, hs, ha⟩

theorem returns_get : Returns I I (get : Prog ε σ σ) := fun s hs => ⟨s, s, rfl, hs, hs⟩

theorem returns_ofOption {a : α} (ha : Q a) : Returns I Q (ofOption (some a) : Prog ε σ α) :=
  returns_pure ha

theorem returns_bind {p : Prog ε σ α} {f : α → Prog ε σ β} (hp : Returns I Q p)
    (hf : ∀ a, Q a → Returns I Q' (f a)) : Returns I Q' (p >>= f) := by
  intro s hs
  obtain ⟨a, t, hrun, ht, ha⟩ := hp s hs
  rw [exec_bind, hrun]
  exact hf a ha t ht

theorem returns_mapM {xs : List α} {f : α → Prog ε σ β} (h : ∀ x ∈ xs, Returns I Q' (f x)) :
    Returns I (fun ys => ∀ y ∈ ys, Q' y) (xs.mapM f) := by
  induction xs with
  | nil => exact returns_pure fun y hy => absurd hy List.not_mem_nil
  | cons x xs ih =>
    obtain ⟨hx, hxs⟩ := List.forall_mem_cons.mp h
    rw [List.mapM_cons]
    refine returns_bind hx fun y hy => returns_bind (ih hxs) fun ys hys => returns_pure ?_
    exact List.forall_mem_cons.mpr ⟨hy, hys⟩

end Returns

/-! ## 7. Closed properties -/

/-- A property of programs that the control structures keep. -/
structure Closed (K : (α : Type) → Prog ε σ α → Prop) : Prop where
  value : ∀ {α : Type} (a : α), K α (pure a)
  undefined : ∀ {α : Type}, K α undefined
  andThen : ∀ {α β : Type} {p : Prog ε σ α} {f : α → Prog ε σ β},
    K α p → (∀ a, K β (f a)) → K β (p >>= f)

theorem closed_moves {R : σ → σ → Prop} [Std.Refl R] [IsTrans σ R] :
    Closed (ε := ε) fun _ p => Moves R p :=
  ⟨moves_pure, moves_undefined, moves_bind⟩

theorem closed_throws {P : ε → Prop} : Closed (σ := σ) fun _ p => Throws P p :=
  ⟨throws_pure, throws_undefined, throws_bind⟩

namespace Closed

variable {K : (α : Type) → Prog ε σ α → Prop}

theorem ofOption (hK : Closed K) (o : Option α) : K α (ofOption o) := by
  cases o with
  | none => exact hK.undefined
  | some a => exact hK.value a

/-- What comes behind a value that may be missing may rely on it. -/
theorem ofOption_bind (hK : Closed K) {o : Option α} {f : α → Prog ε σ β}
    (h : ∀ a, o = some a → K β (f a)) : K β (Prog.ofOption o >>= f) := by
  cases o with
  | none =>
    have hnone : (Prog.ofOption none : Prog ε σ α) >>= f = Prog.undefined := rfl
    rw [hnone]
    exact hK.undefined
  | some a => exact h a rfl

theorem ite {c : Prop} [Decidable c] {p q : Prog ε σ α} (hp : K α p) (hq : K α q) :
    K α (if c then p else q) := by
  split
  · exact hp
  · exact hq

theorem mapM (hK : Closed K) {xs : List α} {f : α → Prog ε σ β} (h : ∀ x ∈ xs, K β (f x)) :
    K (List β) (xs.mapM f) := by
  induction xs with
  | nil => exact hK.value []
  | cons x xs ih =>
    obtain ⟨hx, hxs⟩ := List.forall_mem_cons.mp h
    rw [List.mapM_cons]
    exact hK.andThen hx fun _ => hK.andThen (ih hxs) fun _ => hK.value _

theorem foldlM (hK : Closed K) {xs : List α} {f : β → α → Prog ε σ β}
    (h : ∀ b, ∀ x ∈ xs, K β (f b x)) (b : β) : K β (xs.foldlM f b) := by
  induction xs generalizing b with
  | nil => exact hK.value b
  | cons x xs ih =>
    rw [List.foldlM_cons]
    refine hK.andThen (h b x List.mem_cons_self) fun b' => ?_
    exact ih (fun b x hx => h b x (List.mem_cons_of_mem _ hx)) b'

end Closed

end Prog
