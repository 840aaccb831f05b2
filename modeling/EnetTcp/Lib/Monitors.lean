import Mathlib.Algebra.BigOperators.Ring.Finset
import EnetTcp.Lib.Runs

/-!
# Threads that share a mutex and a condition variable

A `Monitor ι κ σ π` gives, for each thread `ι` and each place `π` in its program,
the statement that stands there. Threads work on a shared state `σ`; what a
statement leaves open is a choice in `κ`. Threads take turns in any order.

* `Stmt.wait` gives the mutex up and goes to sleep in one step. A thread that has
  been woken, by `notify_one` or for no reason at all, has to get the mutex back.
* `notify_one` wakes any one of the sleeping threads, or nobody when none sleeps.
* `Step` has one constructor for each kind of step, `next_step` is the inversion.
* `Disciplined`: the program locks and unlocks in pairs. `exclusive`: then the
  thread that owns the mutex is the only one at a place where it is held.
* `Places`: the places of each thread's program. `places_step`: it stays there.
* `Guarded`: what a thread may rely on while it holds the mutex. `facts_step`: it stays
  true, whatever the other threads do.
* `Embeds`: each statement of one monitor is a statement of another one or cannot be seen
  there. `embeds_reaches`: so is each run.
* `tally`: how many threads are at certain places, and how a step changes it.
* `Enabled`: a thread can take a step. A sum of what the threads have left to do
  (`workLeft_step`) goes down with each of these steps.
-/

namespace Monitor

/-- A statement, as far as the mutex, the condition variable and the shared state see it. -/
inductive Stmt (κ σ π : Type)
  | lock (next : π)
  | unlock (next : π)
  | wait (next : π)
  | notify_one (next : π)
  | run (f : κ → σ → Option (σ × π))

/-- A thread is at a statement, or in a `wait` that will lead to a statement. -/
inductive Status (π : Type)
  | running (pc : π)
  | waiting (pc : π)
  deriving DecidableEq

/-- `waitSet` are the threads that nobody has woken yet. -/
structure State (ι σ π : Type) where
  shared : σ
  owner : Option ι := none
  waitSet : List ι := []
  status : ι → Status π

inductive Action (ι κ : Type)
  | step (i : ι) (choice : κ)
  /-- The `notify_one` of thread `i` wakes `j`. -/
  | notify (i : ι) (j : Option ι)
  | spurious (j : ι)
  /-- Something that is not one of the threads changes the shared state. -/
  | outside (choice : κ)
  deriving DecidableEq

end Monitor

open Monitor

structure Monitor (ι κ σ π : Type) where
  code : ι → π → Stmt κ σ π
  outside : κ → σ → Option σ

namespace Monitor

variable {ι κ σ π : Type} [DecidableEq ι]

/-! ## 1. Steps -/

namespace State

def setStatus (i : ι) (st : Status π) (s : State ι σ π) : State ι σ π :=
  { s with status := Function.update s.status i st }

variable (s : State ι σ π) (i : ι) (st : Status π)

@[simp] theorem setStatus_shared : (s.setStatus i st).shared = s.shared := rfl
@[simp] theorem setStatus_owner : (s.setStatus i st).owner = s.owner := rfl
@[simp] theorem setStatus_waitSet : (s.setStatus i st).waitSet = s.waitSet := rfl
@[simp] theorem setStatus_status : (s.setStatus i st).status = Function.update s.status i st := rfl

end State

variable (M : Monitor ι κ σ π)

/-- A thread takes a step that wakes nobody. -/
def stepThread (i : ι) (choice : κ) (s : State ι σ π) : Option (State ι σ π) :=
  match s.status i with
  | .waiting pc =>
    if i ∉ s.waitSet ∧ s.owner = none then
      some ({ s with owner := some i }.setStatus i (.running pc))
    else none
  | .running pc =>
    match M.code i pc with
    | .lock n =>
      if s.owner = none then some ({ s with owner := some i }.setStatus i (.running n)) else none
    | .unlock n =>
      if s.owner = some i then some ({ s with owner := none }.setStatus i (.running n)) else none
    | .wait n =>
      if s.owner = some i then
        some ({ s with owner := none, waitSet := s.waitSet ++ [i] }.setStatus i (.waiting n))
      else none
    | .notify_one _ => none
    | .run f => (f choice s.shared).map fun r => { s with shared := r.1 }.setStatus i (.running r.2)

/-- `notify_one` -/
def stepNotify (i : ι) (j : Option ι) (s : State ι σ π) : Option (State ι σ π) :=
  match s.status i with
  | .waiting _ => none
  | .running pc =>
    match M.code i pc, j with
    | .notify_one n, some j =>
      if j ∈ s.waitSet then
        some ({ s with waitSet := s.waitSet.erase j }.setStatus i (.running n))
      else none
    | .notify_one n, none =>
      if s.waitSet = [] then some (s.setStatus i (.running n)) else none
    | _, _ => none

def system : StepSystem (State ι σ π) (Action ι κ) where
  next a s :=
    match a with
    | .step i choice => M.stepThread i choice s
    | .notify i j => M.stepNotify i j s
    | .spurious j => if j ∈ s.waitSet then some { s with waitSet := s.waitSet.erase j } else none
    | .outside choice => (M.outside choice s.shared).map fun x => { s with shared := x }

/-- One constructor for each kind of step.

* `lock`, `unlock`: the mutex must be free, or owned by the thread.
* `wait`: the thread gives the mutex up and sleeps.
* `reacquire`: it is awake and gets the mutex back.
* `run`: the shared state changes, whoever owns the mutex.
* `notify`, `notifyNobody`: one of the threads that sleep is woken, if there is any.
* `spurious`: a thread wakes for no reason.
* `outside`: the shared state changes without any thread. -/
inductive Step (s : State ι σ π) : Action ι κ → State ι σ π → Prop
  | lock {i : ι} {choice : κ} {pc n : π} :
      s.status i = .running pc → M.code i pc = .lock n → s.owner = none →
      Step s (.step i choice) ({ s with owner := some i }.setStatus i (.running n))
  | unlock {i : ι} {choice : κ} {pc n : π} :
      s.status i = .running pc → M.code i pc = .unlock n → s.owner = some i →
      Step s (.step i choice) ({ s with owner := none }.setStatus i (.running n))
  | wait {i : ι} {choice : κ} {pc n : π} :
      s.status i = .running pc → M.code i pc = .wait n → s.owner = some i →
      Step s (.step i choice)
        ({ s with owner := none, waitSet := s.waitSet ++ [i] }.setStatus i (.waiting n))
  | reacquire {i : ι} {choice : κ} {pc : π} :
      s.status i = .waiting pc → i ∉ s.waitSet → s.owner = none →
      Step s (.step i choice) ({ s with owner := some i }.setStatus i (.running pc))
  | run {i : ι} {choice : κ} {pc n : π} {f : κ → σ → Option (σ × π)} {x : σ} :
      s.status i = .running pc → M.code i pc = .run f → f choice s.shared = some (x, n) →
      Step s (.step i choice) ({ s with shared := x }.setStatus i (.running n))
  | notify {i j : ι} {pc n : π} :
      s.status i = .running pc → M.code i pc = .notify_one n → j ∈ s.waitSet →
      Step s (.notify i (some j))
        ({ s with waitSet := s.waitSet.erase j }.setStatus i (.running n))
  | notifyNobody {i : ι} {pc n : π} :
      s.status i = .running pc → M.code i pc = .notify_one n → s.waitSet = [] →
      Step s (.notify i none) (s.setStatus i (.running n))
  | spurious {j : ι} :
      j ∈ s.waitSet → Step s (.spurious j) { s with waitSet := s.waitSet.erase j }
  | outside {choice : κ} {x : σ} :
      M.outside choice s.shared = some x → Step s (.outside choice) { s with shared := x }

variable {M}

theorem stepThread_step {i : ι} {choice : κ} {s s' : State ι σ π}
    (h : M.stepThread i choice s = some s') : M.Step s (.step i choice) s' := by
  unfold stepThread at h
  split at h
  case h_1 pc hstatus =>
    obtain ⟨⟨hwoken, howner⟩, h⟩ := Option.ite_none_right_eq_some.mp h
    cases h
    exact .reacquire hstatus hwoken howner
  case h_2 pc hstatus =>
    split at h
    case h_1 n hcode =>
      obtain ⟨howner, h⟩ := Option.ite_none_right_eq_some.mp h
      cases h
      exact .lock hstatus hcode howner
    case h_2 n hcode =>
      obtain ⟨howner, h⟩ := Option.ite_none_right_eq_some.mp h
      cases h
      exact .unlock hstatus hcode howner
    case h_3 n hcode =>
      obtain ⟨howner, h⟩ := Option.ite_none_right_eq_some.mp h
      cases h
      exact .wait hstatus hcode howner
    case h_4 => cases h
    case h_5 f hcode =>
      obtain ⟨⟨x, n⟩, hf, h⟩ := Option.map_eq_some_iff.mp h
      cases h
      exact .run hstatus hcode hf

theorem stepNotify_step {i : ι} {j : Option ι} {s s' : State ι σ π}
    (h : M.stepNotify i j s = some s') : M.Step s (.notify i j) s' := by
  unfold stepNotify at h
  split at h
  case h_1 => cases h
  case h_2 pc hstatus =>
    split at h
    case h_1 n j hcode =>
      obtain ⟨hj, h⟩ := Option.ite_none_right_eq_some.mp h
      cases h
      exact .notify hstatus hcode hj
    case h_2 n hcode =>
      obtain ⟨hempty, h⟩ := Option.ite_none_right_eq_some.mp h
      cases h
      exact .notifyNobody hstatus hcode hempty
    case h_3 => cases h

/-- What a step can do. -/
theorem next_step {a : Action ι κ} {s s' : State ι σ π} (h : M.system.next a s = some s') :
    M.Step s a s' := by
  cases a with
  | step i choice => exact stepThread_step h
  | notify i j => exact stepNotify_step h
  | spurious j =>
    obtain ⟨hj, h⟩ := Option.ite_none_right_eq_some.mp h
    cases h
    exact .spurious hj
  | outside choice =>
    obtain ⟨x, hx, h⟩ := Option.map_eq_some_iff.mp h
    cases h
    exact .outside hx

theorem step_next {a : Action ι κ} {s s' : State ι σ π} (h : M.Step s a s') :
    M.system.next a s = some s' := by
  cases h with
  | lock hpc hcode howner =>
    simp only [system, stepThread, hpc, hcode, howner, ↓reduceIte]
  | unlock hpc hcode howner =>
    simp only [system, stepThread, hpc, hcode, howner, ↓reduceIte]
  | wait hpc hcode howner =>
    simp only [system, stepThread, hpc, hcode, howner, ↓reduceIte]
  | reacquire hpc hwoken howner =>
    simp only [system, stepThread, hpc]
    exact if_pos ⟨hwoken, howner⟩
  | run hpc hcode hf =>
    simp only [system, stepThread, hpc, hcode, hf, Option.map_some]
  | notify hpc hcode hj =>
    simp only [system, stepNotify, hpc, hcode, hj, ↓reduceIte]
  | notifyNobody hpc hcode hempty =>
    simp only [system, stepNotify, hpc, hcode, hempty, ↓reduceIte]
  | spurious hj => exact if_pos hj
  | outside hx => simp only [system, hx, Option.map_some]

/-! ## 2. Mutual exclusion -/

/-- The program gives the mutex up exactly where it holds it. -/
structure Disciplined (M : Monitor ι κ σ π) (holds : ι → π → Prop) : Prop where
  lock : ∀ {i pc n}, M.code i pc = .lock n → holds i n
  unlock : ∀ {i pc n}, M.code i pc = .unlock n → ¬holds i n
  wait : ∀ {i pc n}, M.code i pc = .wait n → holds i n
  notify_one : ∀ {i pc n}, M.code i pc = .notify_one n → (holds i n ↔ holds i pc)
  run : ∀ {i pc f choice x x' n}, M.code i pc = .run f → f choice x = some (x', n) →
    (holds i n ↔ holds i pc)

/-- The owner is the thread that holds the mutex, and sleeping threads are in a `wait`. -/
structure Exclusive (holds : ι → π → Prop) (s : State ι σ π) : Prop where
  owner : ∀ i, s.owner = some i ↔ ∃ pc, s.status i = .running pc ∧ holds i pc
  asleep : ∀ i ∈ s.waitSet, ∃ pc, s.status i = .waiting pc
  nodup : s.waitSet.Nodup
  resume : ∀ i pc, s.status i = .waiting pc → holds i pc

/-- Nobody is in a `wait` or holds the mutex. -/
structure Idle (holds : ι → π → Prop) (s : State ι σ π) : Prop where
  owner : s.owner = none
  waitSet : s.waitSet = []
  status : ∀ i, ∃ pc, s.status i = .running pc ∧ ¬holds i pc

variable {holds : ι → π → Prop} {s s' : State ι σ π}

omit [DecidableEq ι] in
theorem Idle.exclusive (h : Idle holds s) : Exclusive holds s where
  owner i := by
    obtain ⟨pc, hpc, hfree⟩ := h.status i
    constructor
    · intro howner
      rw [h.owner] at howner
      cases howner
    · rintro ⟨pc', hpc', hheld⟩
      rw [hpc] at hpc'
      cases hpc'
      exact absurd hheld hfree
  asleep i hi := by
    rw [h.waitSet] at hi
    cases hi
  nodup := by
    rw [h.waitSet]
    exact List.nodup_nil
  resume i pc hpc := by
    obtain ⟨pc', hpc', -⟩ := h.status i
    rw [hpc'] at hpc
    cases hpc

omit [DecidableEq ι] in
/-- A thread that runs does not sleep. -/
theorem Exclusive.awake (h : Exclusive holds s) {i : ι} {pc : π} (hpc : s.status i = .running pc) :
    i ∉ s.waitSet := by
  intro hi
  obtain ⟨pc', hpc'⟩ := h.asleep i hi
  rw [hpc] at hpc'
  cases hpc'

omit [DecidableEq ι] in
/-- The thread that owns the mutex is the only one at a place where it is held. -/
theorem Exclusive.unique (h : Exclusive holds s) {i j : ι} {p q : π}
    (hi : s.status i = .running p) (hp : holds i p) (hj : s.status j = .running q)
    (hq : holds j q) : i = j := by
  have howner := (h.owner i).mpr ⟨p, hi, hp⟩
  rw [(h.owner j).mpr ⟨q, hj, hq⟩] at howner
  exact (Option.some.inj howner).symm

/-- Thread `i` moves on, and the mutex is held or free after that as its new place says. -/
theorem owner_update {i : ι} {st : Status π} {o : Option ι}
    (hself : o = some i ↔ ∃ pc, st = .running pc ∧ holds i pc)
    (hothers : ∀ j, j ≠ i → (o = some j ↔ ∃ pc, s.status j = .running pc ∧ holds j pc)) (j : ι) :
    o = some j ↔ ∃ pc, Function.update s.status i st j = .running pc ∧ holds j pc := by
  by_cases hj : j = i
  · subst hj
    rw [Function.update_self]
    exact hself
  · rw [Function.update_of_ne hj]
    exact hothers j hj

/-- Sleeping threads stay where they are when thread `i`, which is awake, moves on. -/
theorem asleep_update {i : ι} {st : Status π} {sleepers : List ι}
    (hasleep : ∀ j ∈ sleepers, ∃ pc, s.status j = .waiting pc)
    (hawake : i ∉ sleepers) (j : ι) (hj : j ∈ sleepers) :
    ∃ pc, Function.update s.status i st j = .waiting pc := by
  have hne : j ≠ i := fun heq => hawake (heq ▸ hj)
  rw [Function.update_of_ne hne]
  exact hasleep j hj

theorem resume_update {i : ι} {st : Status π} (h : ∀ i pc, s.status i = .waiting pc → holds i pc)
    (hself : ∀ pc, st = .waiting pc → holds i pc) (j : ι) (pc : π)
    (hj : Function.update s.status i st j = .waiting pc) : holds j pc := by
  by_cases hji : j = i
  · subst hji
    rw [Function.update_self] at hj
    exact hself pc hj
  · rw [Function.update_of_ne hji] at hj
    exact h j pc hj

/-- A thread that runs moves on without a change of the mutex. -/
theorem Exclusive.move (h : Exclusive holds s) {i : ι} {pc n : π} {x : σ}
    (hpc : s.status i = .running pc) (hholds : holds i n ↔ holds i pc) {sleepers : List ι}
    (hsub : sleepers.Sublist s.waitSet) :
    Exclusive holds ({ s with shared := x, waitSet := sleepers }.setStatus i (.running n)) where
  owner := by
    refine owner_update ?_ fun j _ => h.owner j
    constructor
    · intro howner
      obtain ⟨pc', hpc', hheld⟩ := (h.owner i).mp howner
      rw [hpc] at hpc'
      cases hpc'
      exact ⟨n, rfl, hholds.mpr hheld⟩
    · rintro ⟨pc', hpc', hheld⟩
      cases hpc'
      exact (h.owner i).mpr ⟨pc, hpc, hholds.mp hheld⟩
  asleep := asleep_update (fun j hj => h.asleep j (hsub.subset hj))
    fun hi => h.awake hpc (hsub.subset hi)
  nodup := h.nodup.sublist hsub
  resume := resume_update h.resume fun _ heq => by cases heq

/-- Thread `i` takes the free mutex. -/
theorem Exclusive.take (h : Exclusive holds s) {i : ι} {n : π} (howner : s.owner = none)
    (hheld : holds i n) (hawake : i ∉ s.waitSet) :
    Exclusive holds ({ s with owner := some i }.setStatus i (.running n)) where
  owner := by
    refine owner_update ⟨fun _ => ⟨n, rfl, hheld⟩, fun _ => rfl⟩ fun j hj => ?_
    rw [← h.owner j, howner]
    constructor
    · intro heq
      exact absurd (Option.some.inj heq).symm hj
    · intro heq
      cases heq
  asleep := asleep_update h.asleep hawake
  nodup := h.nodup
  resume := resume_update h.resume fun _ heq => by cases heq

/-- The owner gives the mutex up. -/
theorem Exclusive.give (h : Exclusive holds s) {i : ι} {st : Status π} {sleepers : List ι}
    (howner : s.owner = some i) (hfree : ¬∃ pc, st = .running pc ∧ holds i pc)
    (hasleep : ∀ j ∈ sleepers, ∃ pc, Function.update s.status i st j = .waiting pc)
    (hnodup : sleepers.Nodup) (hresume : ∀ pc, st = .waiting pc → holds i pc) :
    Exclusive holds ({ s with owner := none, waitSet := sleepers }.setStatus i st) where
  owner := by
    refine owner_update (iff_of_false (fun heq => by cases heq) hfree) fun j hj => ?_
    rw [← h.owner j, howner]
    constructor
    · intro heq
      cases heq
    · intro heq
      exact absurd (Option.some.inj heq).symm hj
  asleep := hasleep
  nodup := hnodup
  resume := resume_update h.resume hresume

variable {M : Monitor ι κ σ π}

/-- The mutex excludes: every step keeps it so. -/
theorem exclusive_step (hM : Disciplined M holds) {a : Action ι κ} (h : Exclusive holds s)
    (hstep : M.Step s a s') : Exclusive holds s' := by
  cases hstep with
  | lock hpc hcode howner => exact h.take howner (hM.lock hcode) (h.awake hpc)
  | @unlock i choice pc n hpc hcode howner =>
    refine h.give howner ?_ (asleep_update h.asleep (h.awake hpc)) h.nodup
      fun _ heq => by cases heq
    rintro ⟨pc', hpc', hheld⟩
    cases hpc'
    exact hM.unlock hcode hheld
  | @wait i choice pc n hpc hcode howner =>
    have hawake := h.awake hpc
    refine h.give howner (fun ⟨pc', hpc', _⟩ => by cases hpc') ?_
      (List.nodup_append.mpr ⟨h.nodup, List.nodup_singleton i, ?_⟩)
      fun pc' heq => by cases heq; exact hM.wait hcode
    · intro j hj
      by_cases hji : j = i
      · subst hji
        exact ⟨n, Function.update_self ..⟩
      · rw [Function.update_of_ne hji]
        rcases List.mem_append.mp hj with hj | hj
        · exact h.asleep j hj
        · exact absurd (List.mem_singleton.mp hj) hji
    · rintro a ha b hb rfl
      exact hawake (List.mem_singleton.mp hb ▸ ha)
  | @reacquire i choice pc hpc hwoken howner =>
    exact h.take howner (h.resume i pc hpc) hwoken
  | run hpc hcode hf => exact h.move hpc (hM.run hcode hf) (List.Sublist.refl _)
  | notify hpc hcode hj => exact h.move hpc (hM.notify_one hcode) List.erase_sublist
  | notifyNobody hpc hcode hempty =>
    exact h.move hpc (hM.notify_one hcode) (List.Sublist.refl _)
  | spurious hj =>
    exact
      { owner := h.owner
        asleep := fun i hi => h.asleep i (List.mem_of_mem_erase hi)
        nodup := h.nodup.erase _
        resume := h.resume }
  | outside hx => exact ⟨h.owner, h.asleep, h.nodup, h.resume⟩

/-! ## 3. Where a thread can be -/

/-- Thread `i` stays at places with `P i`. -/
structure Places (M : Monitor ι κ σ π) (P : ι → Status π → Prop) : Prop where
  lock : ∀ {i pc n}, M.code i pc = .lock n → P i (.running pc) → P i (.running n)
  unlock : ∀ {i pc n}, M.code i pc = .unlock n → P i (.running pc) → P i (.running n)
  wait : ∀ {i pc n}, M.code i pc = .wait n → P i (.running pc) → P i (.waiting n)
  woken : ∀ {i pc}, P i (.waiting pc) → P i (.running pc)
  notify_one : ∀ {i pc n}, M.code i pc = .notify_one n → P i (.running pc) → P i (.running n)
  run : ∀ {i pc f choice x x' n}, M.code i pc = .run f → f choice x = some (x', n) →
    P i (.running pc) → P i (.running n)

theorem places_step {P : ι → Status π → Prop} (hM : Places M P) {a : Action ι κ}
    (h : ∀ i, P i (s.status i)) (hstep : M.Step s a s') (i : ι) : P i (s'.status i) := by
  have hmove {j : ι} {st : Status π} (hst : P j st) : P i (Function.update s.status j st i) := by
    by_cases hij : i = j
    · subst hij
      rw [Function.update_self]
      exact hst
    · rw [Function.update_of_ne hij]
      exact h i
  cases hstep with
  | @lock j choice pc n hpc hcode howner => exact hmove (hM.lock hcode (hpc ▸ h j))
  | @unlock j choice pc n hpc hcode howner => exact hmove (hM.unlock hcode (hpc ▸ h j))
  | @wait j choice pc n hpc hcode howner => exact hmove (hM.wait hcode (hpc ▸ h j))
  | @reacquire j choice pc hpc hwoken howner => exact hmove (hM.woken (hpc ▸ h j))
  | @run j choice pc n f x hpc hcode hf => exact hmove (hM.run hcode hf (hpc ▸ h j))
  | @notify j k pc n hpc hcode hj => exact hmove (hM.notify_one hcode (hpc ▸ h j))
  | @notifyNobody j pc n hpc hcode hempty => exact hmove (hM.notify_one hcode (hpc ▸ h j))
  | spurious | outside => exact h i

/-! ## 4. Facts about the shared state -/

/-- `F i pc x`: thread `i` may rely on this at `pc`. It is a fact about places where the
mutex is held, and statements that do without the mutex leave it alone. -/
structure Guarded (M : Monitor ι κ σ π) (holds : ι → π → Prop) (F : ι → π → σ → Prop) : Prop where
  free : ∀ {i pc x}, ¬holds i pc → F i pc x
  lock : ∀ {i pc n x}, M.code i pc = .lock n → F i n x
  wait : ∀ {i pc n x}, M.code i pc = .wait n → F i n x
  notify_one : ∀ {i pc n x}, M.code i pc = .notify_one n → F i pc x → F i n x
  own : ∀ {i pc f choice x x' n}, M.code i pc = .run f → f choice x = some (x', n) →
    F i pc x → F i n x'
  others : ∀ {i j pc q f choice x x' n}, M.code i pc = .run f → ¬holds i pc →
    f choice x = some (x', n) → F j q x → F j q x'

/-- Every thread can rely on its facts. -/
structure Facts (F : ι → π → σ → Prop) (s : State ι σ π) : Prop where
  running : ∀ i pc, s.status i = .running pc → F i pc s.shared
  waiting : ∀ i pc, s.status i = .waiting pc → ∀ x, F i pc x

section Facts

variable {F : ι → π → σ → Prop}

theorem Facts.update (h : Facts F s) {i : ι} {st : Status π} {x : σ} {o : Option ι}
    {sleepers : List ι} (hrun : ∀ pc, st = .running pc → F i pc x)
    (hwait : ∀ pc, st = .waiting pc → ∀ x, F i pc x)
    (hothers : ∀ j pc, j ≠ i → s.status j = .running pc → F j pc x) :
    Facts F ({ shared := x, owner := o, waitSet := sleepers, status := s.status : State ι σ π
      }.setStatus i st) where
  running j pc hj := by
    by_cases hji : j = i
    · subst hji
      rw [State.setStatus_status, Function.update_self] at hj
      exact hrun pc hj
    · rw [State.setStatus_status, Function.update_of_ne hji] at hj
      exact hothers j pc hji hj
  waiting j pc hj := by
    by_cases hji : j = i
    · subst hji
      rw [State.setStatus_status, Function.update_self] at hj
      exact hwait pc hj
    · rw [State.setStatus_status, Function.update_of_ne hji] at hj
      exact h.waiting j pc hj

/-- What a thread relies on while it holds the mutex stays true. -/
theorem facts_step (hM : Guarded M holds F) (hdisc : Disciplined M holds)
    (hexclusive : Exclusive holds s) {a : Action ι κ}
    (h : Facts F s) (hstep : M.Step s a s')
    (houtside : ∀ choice x i pc, a = .outside choice → M.outside choice s.shared = some x →
      F i pc s.shared → F i pc x) : Facts F s' := by
  have hothers {i : ι} (j : ι) (pc : π) (_ : j ≠ i) (hj : s.status j = .running pc) :
      F j pc s.shared := h.running j pc hj
  cases hstep with
  | lock hpc hcode howner =>
    exact h.update (fun _ heq => by cases heq; exact hM.lock hcode) (fun _ heq => by cases heq)
      hothers
  | @unlock i choice pc n hpc hcode howner =>
    exact h.update (fun _ heq => by cases heq; exact hM.free (hdisc.unlock hcode))
      (fun _ heq => by cases heq) hothers
  | wait hpc hcode howner =>
    exact h.update (fun _ heq => by cases heq) (fun _ heq _ => by cases heq; exact hM.wait hcode)
      hothers
  | @reacquire i choice pc hpc hwoken howner =>
    exact h.update (fun _ heq => by cases heq; exact h.waiting i _ hpc _)
      (fun _ heq => by cases heq) hothers
  | @run i choice pc n f x hpc hcode hf =>
    refine h.update (fun _ heq => by cases heq; exact hM.own hcode hf (h.running i pc hpc))
      (fun _ heq => by cases heq) fun j q hji hj => ?_
    by_cases hheld : holds i pc
    · refine hM.free fun hq => hji ?_
      exact hexclusive.unique hj hq hpc hheld
    · exact hM.others hcode hheld hf (h.running j q hj)
  | @notify i j pc n hpc hcode hj =>
    exact h.update (fun _ heq => by cases heq; exact hM.notify_one hcode (h.running i pc hpc))
      (fun _ heq => by cases heq) hothers
  | @notifyNobody i pc n hpc hcode hempty =>
    exact h.update (fun _ heq => by cases heq; exact hM.notify_one hcode (h.running i pc hpc))
      (fun _ heq => by cases heq) hothers
  | spurious hj => exact ⟨h.running, h.waiting⟩
  | @outside choice x hx =>
    exact ⟨fun i pc hpc => houtside choice x i pc rfl hx (h.running i pc hpc), h.waiting⟩

end Facts

/-! ## 5. Counting threads -/

section Tally

variable [Fintype ι] (P : Status π → Prop) [DecidablePred P]

/-- How many threads are at a place with `P`. -/
def tally (status : ι → Status π) : Nat := (Finset.univ.filter fun i => P (status i)).card

/-- How many of them are awake. -/
def awake (s : State ι σ π) : Nat :=
  (Finset.univ.filter fun i => P (s.status i) ∧ i ∉ s.waitSet).card

variable {P}

/-- One thread moves on. -/
theorem tally_update (status : ι → Status π) (i : ι) (st : Status π) :
    tally P (Function.update status i st) + (if P (status i) then 1 else 0) =
      tally P status + if P st then 1 else 0 := by
  have hothers : ∑ j ∈ Finset.univ.erase i, (if P (Function.update status i st j) then 1 else 0) =
      ∑ j ∈ Finset.univ.erase i, if P (status j) then 1 else 0 := by
    refine Finset.sum_congr rfl fun j hj => ?_
    rw [Function.update_of_ne (Finset.ne_of_mem_erase hj)]
  unfold tally
  rw [Finset.card_filter, Finset.card_filter,
    ← Finset.add_sum_erase _ (fun j => if P (status j) then 1 else 0) (Finset.mem_univ i),
    ← Finset.add_sum_erase _ (fun j => if P (Function.update status i st j) then 1 else 0)
      (Finset.mem_univ i), hothers, Function.update_self]
  omega

/-- The threads at such places are the ones asleep and the ones awake. -/
theorem tally_eq (hasleep : ∀ i ∈ s.waitSet, P (s.status i)) (hnodup : s.waitSet.Nodup) :
    tally P s.status = s.waitSet.length + awake P s := by
  have hlength : s.waitSet.length =
      ((Finset.univ.filter fun i => P (s.status i)).filter fun i => i ∈ s.waitSet).card := by
    rw [← List.toFinset_card_of_nodup hnodup]
    congr 1
    ext i
    simp only [List.mem_toFinset, Finset.mem_filter, Finset.mem_univ, true_and]
    exact ⟨fun hi => ⟨hasleep i hi, hi⟩, fun hi => hi.2⟩
  unfold tally awake
  rw [hlength, ← Finset.filter_filter, Finset.card_filter_add_card_filter_not]

end Tally

/-! ## 6. A monitor inside another one -/

section Embedding

variable {κ' τ ρ : Type} {N : Monitor ι κ' τ ρ} {view : σ → τ} {place : π → ρ}

def Status.map (place : π → ρ) : Status π → Status ρ
  | .running pc => .running (place pc)
  | .waiting pc => .waiting (place pc)

/-- What can be seen of a state. -/
def State.map (view : σ → τ) (place : π → ρ) (s : State ι σ π) : State ι τ ρ where
  shared := view s.shared
  owner := s.owner
  waitSet := s.waitSet
  status i := (s.status i).map place

/-- Each statement of `M` is one of `N`, a change from outside, or nothing at all, as far as
it can be seen. -/
structure Embeds (M : Monitor ι κ σ π) (N : Monitor ι κ' τ ρ) (view : σ → τ) (place : π → ρ) :
    Prop where
  lock : ∀ {i pc n}, M.code i pc = .lock n → N.code i (place pc) = .lock (place n)
  unlock : ∀ {i pc n}, M.code i pc = .unlock n → N.code i (place pc) = .unlock (place n)
  wait : ∀ {i pc n}, M.code i pc = .wait n → N.code i (place pc) = .wait (place n)
  notify_one : ∀ {i pc n}, M.code i pc = .notify_one n →
    N.code i (place pc) = .notify_one (place n)
  run : ∀ {i pc f choice x x' n}, M.code i pc = .run f → f choice x = some (x', n) →
    (∃ g choice', N.code i (place pc) = .run g ∧ g choice' (view x) = some (view x', place n)) ∨
    place n = place pc ∧
      (view x' = view x ∨ ∃ choice', N.outside choice' (view x) = some (view x'))
  outside : ∀ {choice x x'}, M.outside choice x = some x' →
    view x' = view x ∨ ∃ choice', N.outside choice' (view x) = some (view x')

theorem map_setStatus (view : σ → τ) (place : π → ρ) (s : State ι σ π) (i : ι) (st : Status π) :
    (s.setStatus i st).map view place = (s.map view place).setStatus i (st.map place) := by
  unfold State.map State.setStatus
  congr 1
  funext j
  dsimp only
  by_cases hj : j = i
  · subst hj
    rw [Function.update_self, Function.update_self]
  · rw [Function.update_of_ne hj, Function.update_of_ne hj]

/-- A move that cannot be seen. -/
theorem map_setStatus_same {i : ι} {pc n : π} (hpc : s.status i = .running pc)
    (hn : place n = place pc) (x : σ) :
    ({ s with shared := x }.setStatus i (.running n)).map view place =
      { s with shared := x }.map view place := by
  rw [map_setStatus]
  unfold State.map State.setStatus
  congr 1
  funext j
  by_cases hj : j = i
  · subst hj
    rw [Function.update_self, hpc, Status.map, Status.map, hn]
  · rw [Function.update_of_ne hj]

/-- A step of the outer monitor is a step of the inner one, or none. -/
theorem embeds_step [Inhabited κ'] (hMN : Embeds M N view place) {a : Action ι κ}
    (hstep : M.Step s a s') :
    s'.map view place = s.map view place ∨
      ∃ a', N.Step (s.map view place) a' (s'.map view place) := by
  have hplace {i : ι} {st : Status π} (hpc : s.status i = st) :
      (s.map view place).status i = st.map place := congrArg (Status.map place) hpc
  cases hstep with
  | @lock i choice pc n hpc hcode howner =>
    right
    rw [map_setStatus]
    exact ⟨.step i default, .lock (hplace hpc) (hMN.lock hcode) howner⟩
  | @unlock i choice pc n hpc hcode howner =>
    right
    rw [map_setStatus]
    exact ⟨.step i default, .unlock (hplace hpc) (hMN.unlock hcode) howner⟩
  | @wait i choice pc n hpc hcode howner =>
    right
    rw [map_setStatus]
    exact ⟨.step i default, .wait (hplace hpc) (hMN.wait hcode) howner⟩
  | @reacquire i choice pc hpc hwoken howner =>
    right
    rw [map_setStatus]
    exact ⟨.step i default, .reacquire (hplace hpc) hwoken howner⟩
  | @run i choice pc n f x hpc hcode hf =>
    rcases hMN.run hcode hf with ⟨g, choice', hg, hrun⟩ | ⟨hn, hsame | ⟨choice', hout⟩⟩
    · right
      rw [map_setStatus]
      exact ⟨.step i choice', .run (hplace hpc) hg hrun⟩
    · left
      rw [map_setStatus_same hpc hn]
      unfold State.map
      rw [hsame]
    · right
      rw [map_setStatus_same hpc hn]
      exact ⟨.outside choice', .outside hout⟩
  | @notify i j pc n hpc hcode hj =>
    right
    rw [map_setStatus]
    exact ⟨.notify i (some j), .notify (hplace hpc) (hMN.notify_one hcode) hj⟩
  | @notifyNobody i pc n hpc hcode hempty =>
    right
    rw [map_setStatus]
    exact ⟨.notify i none, .notifyNobody (hplace hpc) (hMN.notify_one hcode) hempty⟩
  | @spurious j hj => exact .inr ⟨.spurious j, .spurious hj⟩
  | @outside choice x hx =>
    rcases hMN.outside hx with hsame | ⟨choice', hout⟩
    · left
      unfold State.map
      rw [hsame]
    · exact .inr ⟨.outside choice', .outside hout⟩

/-- A run of the outer monitor is one of the inner one. -/
theorem embeds_reaches [Inhabited κ'] (hMN : Embeds M N view place)
    {C : State ι σ π → Action ι κ → Prop} {D : State ι τ ρ → Action ι κ' → Prop}
    (hCD : ∀ s a s' a', C s a → M.Step s a s' →
      N.Step (s.map view place) a' (s'.map view place) → D (s.map view place) a')
    {s₀ s : State ι σ π} (h : M.system.Reaches C s₀ s) :
    N.system.Reaches D (s₀.map view place) (s.map view place) := by
  induction h with
  | start => exact .start
  | step _ hcond hnext ih =>
    rcases embeds_step hMN (next_step hnext) with hsame | ⟨a', hstep⟩
    · rw [hsame]
      exact ih
    · exact ih.step (hCD _ _ _ a' hcond (next_step hnext) hstep) (step_next hstep)

end Embedding

/-! ## 7. Threads that can go on -/

/-- The thread that takes the step. -/
def Action.thread : Action ι κ → Option ι
  | .step i _ => some i
  | .notify i _ => some i
  | .spurious _ | .outside _ => none

/-- Thread `i` can take a step. -/
def Enabled (M : Monitor ι κ σ π) (s : State ι σ π) (i : ι) : Prop :=
  ∃ a s', a.thread = some i ∧ M.system.next a s = some s'

section Enabled

variable {i : ι} {pc n : π}

theorem enabled_of_step {a : Action ι κ} (hthread : a.thread = some i) (hstep : M.Step s a s') :
    M.Enabled s i :=
  ⟨a, s', hthread, step_next hstep⟩

theorem enabled_lock [Inhabited κ] (hpc : s.status i = .running pc) (hcode : M.code i pc = .lock n)
    (howner : s.owner = none) : M.Enabled s i :=
  enabled_of_step (a := .step i default) rfl (.lock hpc hcode howner)

theorem enabled_unlock [Inhabited κ] (hpc : s.status i = .running pc)
    (hcode : M.code i pc = .unlock n) (howner : s.owner = some i) : M.Enabled s i :=
  enabled_of_step (a := .step i default) rfl (.unlock hpc hcode howner)

theorem enabled_wait [Inhabited κ] (hpc : s.status i = .running pc)
    (hcode : M.code i pc = .wait n) (howner : s.owner = some i) : M.Enabled s i :=
  enabled_of_step (a := .step i default) rfl (.wait hpc hcode howner)

theorem enabled_woken [Inhabited κ] (hpc : s.status i = .waiting pc) (hwoken : i ∉ s.waitSet)
    (howner : s.owner = none) : M.Enabled s i :=
  enabled_of_step (a := .step i default) rfl (.reacquire hpc hwoken howner)

theorem enabled_notify (hpc : s.status i = .running pc) (hcode : M.code i pc = .notify_one n) :
    M.Enabled s i := by
  cases hwait : s.waitSet with
  | nil => exact enabled_of_step (a := .notify i none) rfl (.notifyNobody hpc hcode hwait)
  | cons j sleepers =>
    have hj : j ∈ s.waitSet := by
      rw [hwait]
      exact List.mem_cons_self
    exact enabled_of_step (a := .notify i (some j)) rfl (.notify hpc hcode hj)

theorem enabled_run {f : κ → σ → Option (σ × π)} (choice : κ) (hpc : s.status i = .running pc)
    (hcode : M.code i pc = .run f) (hf : (f choice s.shared).isSome = true) : M.Enabled s i := by
  obtain ⟨⟨x, n⟩, hx⟩ := Option.isSome_iff_exists.mp hf
  exact enabled_of_step (a := .step i choice) rfl (.run hpc hcode hx)

end Enabled

/-- A step moves the thread that takes it, and no other one. -/
theorem step_status {a : Action ι κ} (hstep : M.Step s a s') :
    a.thread = none ∧ s'.status = s.status ∨
      ∃ i st, a.thread = some i ∧ s'.status = Function.update s.status i st := by
  cases hstep with
  | spurious | outside => exact .inl ⟨rfl, rfl⟩
  | lock | unlock | wait | reacquire | run | notify | notifyNobody =>
    exact .inr ⟨_, _, rfl, rfl⟩

/-- What the threads of a list have left to do. -/
def workLeft (left : Status π → Nat) (threads : List ι) (s : State ι σ π) : Nat :=
  (threads.map fun i => left (s.status i)).sum

omit [DecidableEq ι] in
theorem workLeft_same {left : Status π → Nat} {threads : List ι}
    (h : ∀ i ∈ threads, s'.status i = s.status i) :
    workLeft left threads s' = workLeft left threads s := by
  unfold workLeft
  congr 1
  exact List.map_congr_left fun i hi => by rw [h i hi]

/-- A step of one of them makes it less, any other step leaves it. -/
theorem workLeft_step {left : Status π → Nat} {threads : List ι} {a : Action ι κ}
    (hstep : M.Step s a s') (hnodup : threads.Nodup)
    (hless : ∀ i ∈ threads, a.thread = some i → left (s'.status i) < left (s.status i)) :
    workLeft left threads s' + (if ∃ i ∈ threads, a.thread = some i then 1 else 0) ≤
      workLeft left threads s := by
  rcases step_status hstep with ⟨hnone, hsame⟩ | ⟨i, st, hi, hupdate⟩
  · rw [if_neg, Nat.add_zero, workLeft_same fun j _ => congrFun hsame j]
    rintro ⟨j, -, hj⟩
    rw [hnone] at hj
    cases hj
  · have hothers {j : ι} (hj : j ≠ i) : s'.status j = s.status j := by
      rw [hupdate, Function.update_of_ne hj]
    by_cases hmem : i ∈ threads
    · obtain ⟨before, behind, rfl⟩ := List.append_of_mem hmem
      rw [if_pos ⟨i, hmem, hi⟩]
      have hself := hless i hmem hi
      obtain ⟨-, hnodup', hdisjoint⟩ := List.nodup_append.mp hnodup
      have hbefore : workLeft left before s' = workLeft left before s :=
        workLeft_same fun j hj => hothers (hdisjoint j hj i List.mem_cons_self)
      have hbehind : workLeft left behind s' = workLeft left behind s :=
        workLeft_same fun j hj => hothers fun heq => (List.nodup_cons.mp hnodup').1 (heq ▸ hj)
      unfold workLeft at *
      simp only [List.map_append, List.map_cons, List.sum_append, List.sum_cons, hbefore, hbehind]
      omega
    · rw [if_neg, Nat.add_zero, workLeft_same]
      · intro j hj
        exact hothers fun heq => hmem (heq ▸ hj)
      · rintro ⟨j, hj, hthread⟩
        rw [hi] at hthread
        cases hthread
        exact hmem hj

end Monitor
