import Mathlib.Data.List.ReduceOption
import EnetTcp.Lib.Monitors

/-!
# The queue between the threads (safe_queue.h)

`SafeQueue` statement by statement: a `std::queue` with its mutex, its condition
variable and the flag `stop`, next to the global `done`. Any thread may call any of
its functions at any time, `wait` may return for no reason, and something outside
may set `done` and clear it again. An element is a pointer, `none` stands for
`nullptr`.

Results:
1. `safeQueue_fifo`: no element is lost, repeated or overtaken, from the call of
   `enqueue` to the return of `dequeue` or `tryDequeue`.
2. `no_lost_wakeup`: while neither `done` nor `stop` is set, there are as many
   threads under way to the queue as it has elements, if any thread sleeps at all.
3. `front_defined`: `front` meets an element in every run in which `done`, once
   set, stays set.
-/

namespace EnetTcp

open Monitor

/-! ## 1. The class -/

/-- The members `q` and `stop`, and the global `done`. Records: the elements of the calls
of `enqueue`, of `q.push`, of `q.pop`, and of what `dequeue` and `tryDequeue` have
returned, each with its thread. -/
structure SafeQueue (ι α : Type) where
  q : List (Option α) := []
  stop : Bool := false
  done : Bool := false
  called : List (ι × Option α) := []
  pushed : List (ι × Option α) := []
  taken : List (ι × Option α) := []
  returned : List (ι × Option α) := []

/-- The places in the functions of the class. A result is `none` for `void`. -/
inductive QueuePc (α : Type)
  /-- In none of the functions. -/
  | elsewhere
  | enqueue (t : Option α)
  | push (t : Option α)
  | notify
  | dequeue
  /-- `while(q.empty() && !done)` -/
  | loop
  | wait
  /-- `if (stop) return nullptr;` -/
  | testStop
  /-- `if (done) return nullptr;` -/
  | testDone
  | pop
  | tryDequeue
  /-- `if (q.empty()) return NULL;` -/
  | tryTest
  /-- The destructor of the lock. -/
  | unlock (result : Option (Option α))
  | return_ (result : Option (Option α))
  | Stop
  | StopNotify
  deriving DecidableEq

/-- What a thread does next with the queue, and what happens to `done`. -/
inductive QueueChoice (α : Type)
  | enqueue (t : Option α)
  | dequeue
  | tryDequeue
  | Stop
  | setDone (value : Bool)
  deriving DecidableEq

section

variable {ι α : Type}

namespace SafeQueue

def setDone (choice : QueueChoice α) (x : SafeQueue ι α) : Option (SafeQueue ι α) :=
  match choice with
  | .setDone value => some { x with done := value }
  | _ => none

/-- Thread `i` calls one of the functions. -/
def call (i : ι) (choice : QueueChoice α) (x : SafeQueue ι α) :
    Option (SafeQueue ι α × QueuePc α) :=
  match choice with
  | .enqueue t => some ({ x with called := x.called ++ [(i, t)] }, .enqueue t)
  | .dequeue => some (x, .dequeue)
  | .tryDequeue => some (x, .tryDequeue)
  | .Stop => some (x, .Stop)
  | .setDone _ => none

/-- `front` and `pop`, undefined on an empty queue. They are one step: the thread holds the mutex
from the test of `q` to the return, and nothing else looks at `q` without it. -/
def pop (i : ι) (x : SafeQueue ι α) : Option (SafeQueue ι α × QueuePc α) :=
  match x.q with
  | [] => none
  | val :: q => some ({ x with q, taken := x.taken ++ [(i, val)] }, .unlock (some val))

/-- The caller gets the result. -/
def return_ (i : ι) (result : Option (Option α)) (x : SafeQueue ι α) : SafeQueue ι α :=
  match result with
  | none => x
  | some v => { x with returned := x.returned ++ [(i, v)] }

def code (i : ι) : QueuePc α → Stmt (QueueChoice α) (SafeQueue ι α) (QueuePc α)
  | .elsewhere => .run (call i)
  | .enqueue t => .lock (.push t)
  | .push t => .run fun _ x =>
    some ({ x with q := x.q ++ [t], pushed := x.pushed ++ [(i, t)] }, .notify)
  | .notify => .notify_one (.unlock none)
  | .dequeue => .lock .loop
  | .loop => .run fun _ x => some (x, if x.q = [] ∧ x.done = false then .wait else .testDone)
  | .wait => .wait .testStop
  | .testStop => .run fun _ x => some (x, if x.stop then .unlock (some none) else .loop)
  | .testDone => .run fun _ x => some (x, if x.done then .unlock (some none) else .pop)
  | .pop => .run fun _ x => pop i x
  | .tryDequeue => .lock .tryTest
  | .tryTest => .run fun _ x => some (x, if x.q = [] then .unlock (some none) else .pop)
  | .unlock result => .unlock (.return_ result)
  | .return_ result => .run fun _ x => some (return_ i result x, .elsewhere)
  | .Stop => .run fun _ x => some ({ x with stop := true }, .StopNotify)
  | .StopNotify => .notify_one .elsewhere

end SafeQueue

/-- The queue and the threads that use it. -/
def safeQueue (ι α : Type) : Monitor ι (QueueChoice α) (SafeQueue ι α) (QueuePc α) where
  code := SafeQueue.code
  outside := SafeQueue.setDone

abbrev QueueState (ι α : Type) : Type := State ι (SafeQueue ι α) (QueuePc α)

/-- The constructor has run, and no thread has called anything yet. -/
def SafeQueue.initial (ι α : Type) : QueueState ι α where
  shared := {}
  status _ := .running .elsewhere

/-- The mutex is held here. -/
def QueuePc.Holds : QueuePc α → Prop
  | .push _ | .notify | .loop | .wait | .testStop | .testDone | .pop | .tryTest | .unlock _ => True
  | _ => False

/-! ## 2. Order -/

/-- The elements of thread `i` in a record. -/
def recordOf [DecidableEq ι] (i : ι) (record : List (ι × Option α)) : List (Option α) :=
  (record.filter fun r => r.1 = i).map Prod.snd

/-- A thread in `enqueue` has yet to push this. -/
def pendingPush : Status (QueuePc α) → List (Option α)
  | .running (.enqueue t) | .running (.push t) => [t]
  | _ => []

/-- A thread on its way out of a function will return this. -/
def pendingResult : Status (QueuePc α) → List (Option α)
  | .running (.unlock (some v)) | .running (.return_ (some v)) => [v]
  | _ => []

/-- Everything is passed on in order. `reduceOption` leaves out the null pointers, which
`dequeue` also returns when it has taken nothing. -/
structure PassesOn [DecidableEq ι] (s : QueueState ι α) : Prop where
  /-- What is pushed comes off the queue in this order. -/
  fifo : s.shared.pushed.map Prod.snd = s.shared.taken.map Prod.snd ++ s.shared.q
  /-- A thread's elements are pushed in the order of its calls. -/
  producers : ∀ i, recordOf i s.shared.called =
    recordOf i s.shared.pushed ++ pendingPush (s.status i)
  /-- A thread gets what it takes off the queue, in that order. -/
  consumers : ∀ i, (recordOf i s.shared.taken).reduceOption =
    (recordOf i s.shared.returned ++ pendingResult (s.status i)).reduceOption

/-- What a step means for the elements: one is handed to `enqueue`, pushed, popped or returned, or
nothing happens to any of them. -/
inductive QueueMove [DecidableEq ι] (s : QueueState ι α) : QueueState ι α → Prop
  | enqueue {i : ι} (t : Option α) : s.status i = .running .elsewhere →
      QueueMove s
        ({ s with shared.called := s.shared.called ++ [(i, t)] }.setStatus i
          (.running (.enqueue t)))
  | push {i : ι} {t : Option α} : s.status i = .running (.push t) →
      QueueMove s
        ({ s with shared.q := s.shared.q ++ [t], shared.pushed := s.shared.pushed ++ [(i, t)] }
          |>.setStatus i (.running .notify))
  | pop {i : ι} {val : Option α} {q : List (Option α)} :
      s.status i = .running .pop → s.shared.q = val :: q →
      QueueMove s
        ({ s with shared.q := q, shared.taken := s.shared.taken ++ [(i, val)] }
          |>.setStatus i (.running (.unlock (some val))))
  | return_ {i : ι} {v : Option α} : s.status i = .running (.return_ (some v)) →
      QueueMove s
        ({ s with shared.returned := s.shared.returned ++ [(i, v)] }
          |>.setStatus i (.running .elsewhere))
  | silent {s' : QueueState ι α} (stop done : Bool) :
      s'.shared = { s.shared with stop, done } →
      (∀ i, pendingPush (s'.status i) = pendingPush (s.status i)) →
      (∀ i, (pendingResult (s'.status i)).reduceOption =
        (pendingResult (s.status i)).reduceOption) →
      QueueMove s s'

namespace SafeQueueLemmas

variable [DecidableEq ι] {s s' : QueueState ι α}

theorem pendingPush_update {i : ι} {st : Status (QueuePc α)}
    (h : pendingPush st = pendingPush (s.status i)) (j : ι) :
    pendingPush (Function.update s.status i st j) = pendingPush (s.status j) := by
  by_cases hj : j = i
  · subst hj
    rw [Function.update_self, h]
  · rw [Function.update_of_ne hj]

theorem pendingResult_update {i : ι} {st : Status (QueuePc α)}
    (h : (pendingResult st).reduceOption = (pendingResult (s.status i)).reduceOption) (j : ι) :
    (pendingResult (Function.update s.status i st j)).reduceOption =
      (pendingResult (s.status j)).reduceOption := by
  by_cases hj : j = i
  · subst hj
    rw [Function.update_self, h]
  · rw [Function.update_of_ne hj]

/-- A thread moves on and nothing happens to an element. -/
theorem silent_move {i : ι} {st : Status (QueuePc α)} (stop done : Bool) {owner : Option ι}
    {waitSet : List ι} (hpush : pendingPush st = pendingPush (s.status i))
    (hresult : (pendingResult st).reduceOption = (pendingResult (s.status i)).reduceOption) :
    QueueMove s
      ({ shared := { s.shared with stop, done }, owner, waitSet, status := s.status : QueueState ι α
        }.setStatus i st) :=
  .silent stop done rfl (pendingPush_update hpush) (pendingResult_update hresult)

/-- A statement that only works on the shared state. -/
theorem run_move {i : ι} {choice : QueueChoice α} {pc n : QueuePc α}
    {f : QueueChoice α → SafeQueue ι α → Option (SafeQueue ι α × QueuePc α)} {x : SafeQueue ι α}
    (hpc : s.status i = .running pc) (hcode : (safeQueue ι α).code i pc = .run f)
    (hf : f choice s.shared = some (x, n)) :
    QueueMove s ({ s with shared := x }.setStatus i (.running n)) := by
  have hmove {pc' : QueuePc α} (hpush : pendingPush (.running pc') = pendingPush (.running pc))
      (hresult : (pendingResult (.running pc')).reduceOption =
        (pendingResult (.running pc)).reduceOption) :
      QueueMove s (s.setStatus i (.running pc')) :=
    silent_move s.shared.stop s.shared.done (hpc ▸ hpush) (hpc ▸ hresult)
  cases pc with
  | elsewhere =>
    cases hcode
    cases choice with
    | enqueue t =>
      cases hf
      exact .enqueue t hpc
    | dequeue | tryDequeue | Stop =>
      cases hf
      exact hmove rfl rfl
    | setDone => cases hf
  | push t =>
    cases hcode
    cases hf
    exact .push hpc
  | loop | testStop | testDone | tryTest =>
    cases hcode
    cases hf
    split <;> exact hmove rfl rfl
  | pop =>
    cases hcode
    have hf : SafeQueue.pop i s.shared = some (x, n) := hf
    unfold SafeQueue.pop at hf
    split at hf
    case h_1 => cases hf
    case h_2 val q hq =>
      cases hf
      exact .pop hpc hq
  | return_ result =>
    cases hcode
    cases hf
    cases result with
    | none => exact hmove rfl rfl
    | some v => exact .return_ hpc
  | Stop =>
    cases hcode
    cases hf
    exact silent_move true s.shared.done (hpc ▸ rfl) (hpc ▸ rfl)
  | enqueue | notify | dequeue | wait | tryDequeue | unlock | StopNotify => cases hcode

/-- Only `dequeue` waits. -/
def WaitsInDequeue (s : QueueState ι α) : Prop :=
  ∀ i pc, s.status i = .waiting pc → pc = .testStop

omit [DecidableEq ι] in
theorem waits_places : Places (safeQueue ι α) fun _ st => ∀ pc, st = .waiting pc → pc = .testStop
    where
  lock _ _ _ heq := by cases heq
  unlock _ _ _ heq := by cases heq
  wait {i pc n} hcode _ pc' heq := by
    cases heq
    cases pc <;> cases hcode
    rfl
  woken _ _ heq := by cases heq
  notify_one _ _ _ heq := by cases heq
  run _ _ _ _ heq := by cases heq

theorem waitsInDequeue_step {a : Action ι (QueueChoice α)} (h : WaitsInDequeue s)
    (hstep : (safeQueue ι α).Step s a s') : WaitsInDequeue s' :=
  places_step waits_places h hstep

theorem step_move {a : Action ι (QueueChoice α)} (hwaits : WaitsInDequeue s)
    (hstep : (safeQueue ι α).Step s a s') : QueueMove s s' := by
  cases hstep with
  | @lock i choice pc n hpc hcode howner =>
    cases pc <;> cases hcode <;>
      exact silent_move s.shared.stop s.shared.done (hpc ▸ rfl) (hpc ▸ rfl)
  | @unlock i choice pc n hpc hcode howner =>
    cases pc <;> cases hcode
    case unlock result =>
      cases result <;> exact silent_move s.shared.stop s.shared.done (hpc ▸ rfl) (hpc ▸ rfl)
  | @wait i choice pc n hpc hcode howner =>
    cases pc <;> cases hcode
    exact silent_move s.shared.stop s.shared.done (hpc ▸ rfl) (hpc ▸ rfl)
  | @reacquire i choice pc hpc hwoken howner =>
    cases hwaits i pc hpc
    exact silent_move s.shared.stop s.shared.done (hpc ▸ rfl) (hpc ▸ rfl)
  | run hpc hcode hf => exact run_move hpc hcode hf
  | @notify i j pc n hpc hcode hj =>
    cases pc <;> cases hcode <;>
      exact silent_move s.shared.stop s.shared.done (hpc ▸ rfl) (hpc ▸ rfl)
  | @notifyNobody i pc n hpc hcode hempty =>
    cases pc <;> cases hcode <;>
      exact silent_move s.shared.stop s.shared.done (hpc ▸ rfl) (hpc ▸ rfl)
  | spurious hj =>
    exact .silent s.shared.stop s.shared.done rfl (fun _ => rfl) fun _ => rfl
  | @outside choice x hx =>
    cases choice with
    | setDone value =>
      cases hx
      exact .silent s.shared.stop value rfl (fun _ => rfl) fun _ => rfl
    | enqueue | dequeue | tryDequeue | Stop => cases hx

theorem recordOf_append (i j : ι) (v : Option α) (record : List (ι × Option α)) :
    recordOf j (record ++ [(i, v)]) = recordOf j record ++ if i = j then [v] else [] := by
  unfold recordOf
  rw [List.filter_append, List.map_append]
  by_cases hij : i = j <;> simp [hij]

theorem passesOn_initial : PassesOn (SafeQueue.initial ι α) where
  fifo := rfl
  producers _ := rfl
  consumers _ := rfl

theorem fifo_move (h : PassesOn s) (hmove : QueueMove s s') :
    s'.shared.pushed.map Prod.snd = s'.shared.taken.map Prod.snd ++ s'.shared.q := by
  have hfifo := h.fifo
  cases hmove with
  | enqueue | return_ => exact hfifo
  | push hpc =>
    simp only [State.setStatus_shared, List.map_append, List.map_cons, List.map_nil, hfifo,
      List.append_assoc]
  | pop hpc hq =>
    simp only [State.setStatus_shared, List.map_append, List.map_cons, List.map_nil, hfifo, hq,
      List.append_assoc, List.singleton_append]
  | silent stop done hshared hpush hresult =>
    rw [hshared]
    exact hfifo

theorem producers_move (h : PassesOn s) (hmove : QueueMove s s') (j : ι) :
    recordOf j s'.shared.called =
      recordOf j s'.shared.pushed ++ pendingPush (s'.status j) := by
  have hj := h.producers j
  cases hmove with
  | @enqueue i t hpc | @push i t hpc | @pop i t q hpc hq | @return_ i t hpc =>
    by_cases hij : i = j
    · subst hij
      rw [hpc] at hj
      simpa [recordOf_append, pendingPush] using hj
    · simpa [recordOf_append, hij, Function.update_of_ne (Ne.symm hij)] using hj
  | silent stop done hshared hpush hresult =>
    rw [hshared, hpush]
    exact hj

theorem consumers_move (h : PassesOn s) (hmove : QueueMove s s') (j : ι) :
    (recordOf j s'.shared.taken).reduceOption =
      (recordOf j s'.shared.returned ++ pendingResult (s'.status j)).reduceOption := by
  have hj := h.consumers j
  cases hmove with
  | @enqueue i t hpc | @push i t hpc | @pop i t q hpc hq | @return_ i t hpc =>
    by_cases hij : i = j
    · subst hij
      rw [hpc] at hj
      simpa [recordOf_append, pendingResult, List.reduceOption_append] using hj
    · simpa [recordOf_append, hij, Function.update_of_ne (Ne.symm hij)] using hj
  | silent stop done hshared hpush hresult =>
    rw [hshared, List.reduceOption_append, hresult, ← List.reduceOption_append]
    exact hj

omit [DecidableEq ι] in
theorem disciplined : Disciplined (safeQueue ι α) fun _ pc => pc.Holds where
  lock {i pc n} hcode := by cases pc <;> cases hcode <;> trivial
  unlock {i pc n} hcode := by cases pc <;> cases hcode; exact id
  wait {i pc n} hcode := by cases pc <;> cases hcode; trivial
  notify_one {i pc n} hcode := by cases pc <;> cases hcode <;> exact Iff.rfl
  run {i pc f choice x x' n} hcode hf := by
    cases pc with
    | elsewhere =>
      cases hcode
      cases choice <;> cases hf <;> exact Iff.rfl
    | push | return_ | Stop =>
      cases hcode
      cases hf
      exact Iff.rfl
    | loop | testStop | testDone | tryTest =>
      cases hcode
      cases hf
      split <;> exact Iff.rfl
    | pop =>
      cases hcode
      have hf : SafeQueue.pop i x = some (x', n) := hf
      unfold SafeQueue.pop at hf
      split at hf <;> cases hf
      exact Iff.rfl
    | enqueue | notify | dequeue | wait | tryDequeue | unlock | StopNotify => cases hcode

omit [DecidableEq ι] in
theorem initial_exclusive : Exclusive (fun _ pc => pc.Holds) (SafeQueue.initial ι α) :=
  Idle.exclusive
    { owner := rfl
      waitSet := rfl
      status := fun _ => ⟨.elsewhere, rfl, id⟩ }

variable {C : QueueState ι α → Action ι (QueueChoice α) → Prop}

theorem reaches_exclusive (h : (safeQueue ι α).system.Reaches C (SafeQueue.initial ι α) s) :
    Exclusive (fun _ pc => pc.Holds) s :=
  h.invariant initial_exclusive fun _ _ _ hs _ hnext =>
    exclusive_step disciplined hs (next_step hnext)

theorem reaches_waits (h : (safeQueue ι α).system.Reaches C (SafeQueue.initial ι α) s) :
    WaitsInDequeue s :=
  h.invariant (fun _ _ heq => by cases heq) fun _ _ _ hs _ hnext =>
    waitsInDequeue_step hs (next_step hnext)

end SafeQueueLemmas

open SafeQueueLemmas

/-- No element is lost, repeated or overtaken. -/
theorem safeQueue_fifo [DecidableEq ι] {s : QueueState ι α}
    (h : (safeQueue ι α).system.Reachable (SafeQueue.initial ι α) s) : PassesOn s := by
  have hboth : WaitsInDequeue s ∧ PassesOn s := by
    refine h.invariant (I := fun s => WaitsInDequeue s ∧ PassesOn s)
      ⟨fun _ _ heq => (by cases heq), passesOn_initial⟩ ?_
    rintro s a s' ⟨hwaits, hpasses⟩ - hnext
    have hmove := step_move hwaits (next_step hnext)
    exact ⟨waitsInDequeue_step hwaits (next_step hnext),
      ⟨fifo_move hpasses hmove, producers_move hpasses hmove, consumers_move hpasses hmove⟩⟩
  exact hboth.2

/-- Thread 1 enqueues an element, and thread 0 dequeues it. -/
def passRun : List (Action (Fin 2) (QueueChoice Nat)) :=
  [.step 1 (.enqueue (some 7)), .step 1 .dequeue, .step 1 .dequeue, .notify 1 none,
   .step 1 .dequeue, .step 1 .dequeue] ++ List.replicate 7 (.step 0 .dequeue)

theorem safeQueue_fifo_example : ∃ s : QueueState (Fin 2) Nat,
    s.shared.pushed = [(1, some 7)] ∧ s.shared.returned = [(0, some 7)] ∧ PassesOn s := by
  have hrun : ((safeQueue (Fin 2) Nat).system.run passRun (SafeQueue.initial (Fin 2) Nat)).map
      (fun s => decide (s.shared.pushed = [(1, some 7)] ∧ s.shared.returned = [(0, some 7)])) =
      some true := by decide
  obtain ⟨s, hreach, hs⟩ := StepSystem.exists_reachable_of_run hrun
  obtain ⟨hpushed, hreturned⟩ := of_decide_eq_true hs
  exact ⟨s, hpushed, hreturned, safeQueue_fifo hreach⟩

/-! ## 3. Wakeups -/

/-- The thread is in `dequeue`, asleep or not, or takes an element for `tryDequeue`. -/
def InDequeue : Status (QueuePc α) → Prop
  | .running .dequeue | .running .loop | .running .wait | .running .testStop
  | .running .testDone | .running .pop | .waiting _ => True
  | _ => False

instance : DecidablePred (InDequeue (α := α)) := fun st => by
  unfold InDequeue
  split <;> infer_instance

/-- The thread has pushed an element and is about to wake somebody. -/
def Notifying : Status (QueuePc α) → Prop
  | .running .notify => True
  | _ => False

instance : DecidablePred (Notifying (α := α)) := fun st => by
  unfold Notifying
  split <;> infer_instance

/-- Neither flag is set in front of the step. -/
def FlagsClear (s : QueueState ι α) (_ : Action ι (QueueChoice α)) : Prop :=
  s.shared.done = false ∧ s.shared.stop = false

/-- The step does not clear `done`. -/
def DoneStays (s : QueueState ι α) (a : Action ι (QueueChoice α)) : Prop :=
  a = .outside (.setDone false) → s.shared.done = false

namespace SafeQueueLemmas

variable [DecidableEq ι] {s s' : QueueState ι α}

/-- What the tests in front of these places have found out. -/
def QueueFact : QueuePc α → SafeQueue ι α → Prop
  | .wait, x => x.q = []
  | .testDone, x => x.q ≠ [] ∨ x.done = true
  | .pop, x => x.q ≠ []
  | _, _ => True

omit [DecidableEq ι] in
theorem guarded : Guarded (safeQueue ι α) (fun _ pc => pc.Holds) fun _ => QueueFact where
  free {i pc x} hfree := by cases pc <;> first | trivial | exact absurd trivial hfree
  lock {i pc n x} hcode := by cases pc <;> cases hcode <;> trivial
  wait {i pc n x} hcode := by cases pc <;> cases hcode; trivial
  notify_one {i pc n x} hcode _ := by cases pc <;> cases hcode <;> trivial
  own {i pc f choice x x' n} hcode hf hfact := by
    cases pc with
    | elsewhere =>
      cases hcode
      cases choice <;> cases hf <;> trivial
    | push | return_ | Stop =>
      cases hcode
      cases hf
      trivial
    | loop =>
      cases hcode
      cases hf
      split
      case isTrue hempty => exact hempty.1
      case isFalse hleave =>
        by_cases hq : x.q = []
        · refine .inr ?_
          cases hdone : x.done with
          | true => rfl
          | false => exact absurd ⟨hq, hdone⟩ hleave
        · exact .inl hq
    | testStop =>
      cases hcode
      cases hf
      split <;> trivial
    | testDone =>
      cases hcode
      cases hf
      split
      · trivial
      · rcases hfact with hq | hdone
        · exact hq
        · exact absurd hdone ‹_›
    | tryTest =>
      cases hcode
      cases hf
      split
      · trivial
      · assumption
    | pop =>
      cases hcode
      have hf : SafeQueue.pop i x = some (x', n) := hf
      unfold SafeQueue.pop at hf
      split at hf <;> cases hf
      trivial
    | enqueue | notify | dequeue | wait | tryDequeue | unlock | StopNotify => cases hcode
  others {i j pc p f choice x x' n} hcode hfree hf hfact := by
    have hsame : x'.q = x.q ∧ x'.done = x.done := by
      cases pc with
      | elsewhere =>
        cases hcode
        cases choice <;> cases hf <;> exact ⟨rfl, rfl⟩
      | return_ result =>
        cases hcode
        cases hf
        cases result <;> exact ⟨rfl, rfl⟩
      | Stop =>
        cases hcode
        cases hf
        exact ⟨rfl, rfl⟩
      | push | loop | testStop | testDone | tryTest | pop => exact absurd trivial hfree
      | enqueue | notify | dequeue | wait | tryDequeue | unlock | StopNotify => cases hcode
    cases p <;> simp_all [QueueFact]

omit [DecidableEq ι] in
theorem outside_fact {choice : QueueChoice α} {x x' : SafeQueue ι α} {pc : QueuePc α}
    (hstays : choice = .setDone false → x.done = false)
    (hx : (safeQueue ι α).outside choice x = some x') (hfact : QueueFact pc x) :
    QueueFact pc x' := by
  cases choice with
  | setDone value =>
    cases hx
    cases pc with
    | testDone =>
      rcases hfact with hq | hdone
      · exact .inl hq
      · cases value with
        | true => exact .inr rfl
        | false => exact absurd (hstays rfl) (by rw [hdone]; exact Bool.noConfusion)
    | _ => exact hfact
  | enqueue | dequeue | tryDequeue | Stop => cases hx

omit [DecidableEq ι] in
theorem facts_initial : Facts (fun _ => QueueFact) (SafeQueue.initial ι α) where
  running i pc hpc := by
    cases hpc
    trivial
  waiting i pc hpc := by cases hpc

variable {C : QueueState ι α → Action ι (QueueChoice α) → Prop}

theorem reaches_facts (hC : ∀ s, C s (.outside (.setDone false)) → s.shared.done = false)
    (h : (safeQueue ι α).system.Reaches C (SafeQueue.initial ι α) s) :
    Facts (fun _ => QueueFact) s := by
  have hboth : Exclusive (fun _ pc => pc.Holds) s ∧ Facts (fun _ => QueueFact) s := by
    refine h.invariant (I := fun s => Exclusive (fun _ pc => pc.Holds) s ∧
      Facts (fun _ => QueueFact) s) ⟨initial_exclusive, facts_initial⟩ ?_
    rintro s a s' ⟨hexclusive, hfacts⟩ hcond hnext
    have hstep := next_step hnext
    refine ⟨exclusive_step disciplined hexclusive hstep,
      facts_step guarded disciplined hexclusive hfacts hstep ?_⟩
    rintro choice x i pc rfl hx hfact
    exact outside_fact (fun heq => hC s (heq ▸ hcond)) hx hfact
  exact hboth.2

/-! How the threads on their way to the queue change -/

variable [Fintype ι]

/-- While a thread sleeps, the queue has no more elements than threads under way to it. -/
def Covered (s : QueueState ι α) : Prop :=
  s.waitSet ≠ [] → s.shared.q.length + s.waitSet.length ≤
    tally InDequeue s.status + tally Notifying s.status

/-- A thread moves on, and the queue grows by no more than it brings along. -/
theorem covered_move (h : Covered s) {i : ι} {st : Status (QueuePc α)} {x : SafeQueue ι α}
    {o : Option ι} {sleepers : List ι} (hawake : sleepers ≠ [] → s.waitSet ≠ [])
    (hbalance : x.q.length + sleepers.length + (if InDequeue (s.status i) then 1 else 0) +
        (if Notifying (s.status i) then 1 else 0) ≤
      s.shared.q.length + s.waitSet.length + (if InDequeue st then 1 else 0) +
        (if Notifying st then 1 else 0)) :
    Covered ({ shared := x, owner := o, waitSet := sleepers, status := s.status : QueueState ι α
      }.setStatus i st) := by
  intro hsleepers
  have hcovered := h (hawake hsleepers)
  have hdequeue := tally_update (P := InDequeue) s.status i st
  have hnotify := tally_update (P := Notifying) s.status i st
  simp only [State.setStatus_shared, State.setStatus_waitSet, State.setStatus_status] at *
  omega

/-- A statement that only works on the shared state, while neither flag is set. -/
theorem covered_run (h : Covered s) {i : ι} {choice : QueueChoice α} {pc n : QueuePc α}
    {f : QueueChoice α → SafeQueue ι α → Option (SafeQueue ι α × QueuePc α)} {x : SafeQueue ι α}
    (hdone : s.shared.done = false) (hstop : s.shared.stop = false)
    (hpc : s.status i = .running pc) (hcode : (safeQueue ι α).code i pc = .run f)
    (hf : f choice s.shared = some (x, n)) :
    Covered ({ s with shared := x }.setStatus i (.running n)) := by
  cases pc with
  | elsewhere =>
    cases hcode
    cases choice <;> cases hf <;>
      exact covered_move h id (by simp [hpc, InDequeue, Notifying])
  | push t =>
    cases hcode
    cases hf
    refine covered_move h id ?_
    simp [hpc, InDequeue, Notifying]
    omega
  | loop =>
    cases hcode
    cases hf
    split <;> exact covered_move h id (by simp [hpc, InDequeue, Notifying])
  | testStop =>
    cases hcode
    cases hf
    rw [hstop]
    exact covered_move h id (by simp [hpc, InDequeue, Notifying])
  | testDone =>
    cases hcode
    cases hf
    rw [hdone]
    exact covered_move h id (by simp [hpc, InDequeue, Notifying])
  | tryTest =>
    cases hcode
    cases hf
    split <;> exact covered_move h id (by simp [hpc, InDequeue, Notifying])
  | pop =>
    cases hcode
    have hf : SafeQueue.pop i s.shared = some (x, n) := hf
    unfold SafeQueue.pop at hf
    split at hf
    case h_1 => cases hf
    case h_2 val q hq =>
      cases hf
      refine covered_move h id ?_
      simp only [hpc, hq, InDequeue, Notifying, List.length_cons, reduceIte]
      omega
  | return_ result =>
    cases hcode
    cases hf
    cases result <;>
      exact covered_move h id (by simp [hpc, InDequeue, Notifying, SafeQueue.return_])
  | Stop =>
    cases hcode
    cases hf
    exact covered_move h id (by simp [hpc, InDequeue, Notifying])
  | enqueue | notify | dequeue | wait | tryDequeue | unlock | StopNotify => cases hcode

theorem covered_step {a : Action ι (QueueChoice α)} (hcond : FlagsClear s a)
    (hwaits : WaitsInDequeue s) (hfacts : Facts (fun _ => QueueFact) s)
    (hexclusive' : Exclusive (fun _ pc => pc.Holds) s') (h : Covered s)
    (hstep : (safeQueue ι α).Step s a s') : Covered s' := by
  cases hstep with
  | @lock i choice pc n hpc hcode howner | @unlock i choice pc n hpc hcode howner =>
    cases pc <;> cases hcode <;>
      exact covered_move h id (by simp [hpc, InDequeue, Notifying])
  | @wait i choice pc n hpc hcode howner =>
    cases pc <;> cases hcode
    -- the queue is empty, and whoever sleeps is in `dequeue`
    intro _
    have hempty : s.shared.q = [] := hfacts.running i _ hpc
    have hsleepers := tally_eq (P := InDequeue)
      (s := { s with owner := none, waitSet := s.waitSet ++ [i] }.setStatus i (.waiting .testStop))
      (fun j hj => by
        obtain ⟨pc, hwaiting⟩ := hexclusive'.asleep j hj
        rw [hwaiting]
        trivial) hexclusive'.nodup
    simp only [State.setStatus_shared, hempty, List.length_nil]
    omega
  | @reacquire i choice pc hpc hwoken howner =>
    cases hwaits i pc hpc
    exact covered_move h id (by simp [hpc, InDequeue, Notifying])
  | run hpc hcode hf => exact covered_run h hcond.1 hcond.2 hpc hcode hf
  | @notify i j pc n hpc hcode hj =>
    have hlength := List.length_erase_of_mem hj
    have hpos := List.length_pos_of_mem hj
    cases pc <;> cases hcode
    · refine covered_move h (fun _ => List.ne_nil_of_mem hj) ?_
      simp [hpc, InDequeue, Notifying]
      omega
    · refine covered_move h (fun _ => List.ne_nil_of_mem hj) ?_
      simp [hpc, InDequeue, Notifying]
      omega
  | @notifyNobody i pc n hpc hcode hempty => exact fun hsleepers => absurd hempty hsleepers
  | @spurious j hj =>
    intro _
    have hcovered := h (List.ne_nil_of_mem hj)
    have hlength : (s.waitSet.erase j).length ≤ s.waitSet.length := List.erase_sublist.length_le
    simp only at *
    omega
  | @outside choice x hx =>
    cases choice with
    | setDone value =>
      cases hx
      exact h
    | enqueue | dequeue | tryDequeue | Stop => cases hx

end SafeQueueLemmas

/-- No wakeup is lost: while a thread sleeps in `dequeue`, each element of the queue has a
thread that is awake in there or is about to wake one up. -/
theorem no_lost_wakeup [DecidableEq ι] [Fintype ι] {s : QueueState ι α}
    (h : (safeQueue ι α).system.Reaches FlagsClear (SafeQueue.initial ι α) s)
    (hasleep : s.waitSet ≠ []) :
    s.shared.q.length ≤ awake InDequeue s + tally Notifying s.status := by
  have hcovered : Covered s := by
    clear hasleep
    induction h with
    | start => exact fun hsleepers => absurd rfl hsleepers
    | step hreach hcond hnext ih =>
      exact covered_step hcond (reaches_waits hreach)
        (reaches_facts (fun _ hcond => hcond.1) hreach)
        (reaches_exclusive (.step hreach hcond hnext)) ih (next_step hnext)
  have hexclusive := reaches_exclusive h
  have htally := tally_eq (P := InDequeue) (s := s) (fun j hj => by
    obtain ⟨pc, hwaiting⟩ := hexclusive.asleep j hj
    rw [hwaiting]
    trivial) hexclusive.nodup
  have hall := hcovered hasleep
  omega

/-- A consumer has gone to sleep, and a producer has pushed an element. -/
def wakeupRun : List (Action (Fin 2) (QueueChoice Nat)) :=
  [.step 0 .dequeue, .step 0 .dequeue, .step 0 .dequeue, .step 0 .dequeue,
   .step 1 (.enqueue (some 7)), .step 1 .dequeue, .step 1 .dequeue]

instance (s : QueueState ι α) (a : Action ι (QueueChoice α)) : Decidable (FlagsClear s a) :=
  inferInstanceAs (Decidable (_ ∧ _))

theorem no_lost_wakeup_example : ∃ s : QueueState (Fin 2) Nat, s.waitSet = [0] ∧
    s.shared.q = [some 7] ∧ 1 ≤ awake InDequeue s + tally Notifying s.status := by
  have hrun : ((safeQueue (Fin 2) Nat).system.runWith FlagsClear wakeupRun
      (SafeQueue.initial (Fin 2) Nat)).map
      (fun s => decide (s.waitSet = [0] ∧ s.shared.q = [some 7])) = some true := by decide
  obtain ⟨s, hreach, hs⟩ := StepSystem.exists_reaches_of_runWith hrun
  obtain ⟨hwait, hq⟩ := of_decide_eq_true hs
  refine ⟨s, hwait, hq, ?_⟩
  have hcovered := no_lost_wakeup hreach (by rw [hwait]; exact List.cons_ne_nil 0 [])
  rw [hq] at hcovered
  exact hcovered

/-- `front` meets an element, unless `done` has been cleared. -/
theorem front_defined [DecidableEq ι] {s : QueueState ι α}
    (h : (safeQueue ι α).system.Reaches DoneStays (SafeQueue.initial ι α) s) {i : ι}
    (hpop : s.status i = .running .pop) : (SafeQueue.pop i s.shared).isSome = true := by
  have hfact : s.shared.q ≠ [] :=
    (reaches_facts (fun _ hcond => hcond rfl) h).running i _ hpop
  unfold SafeQueue.pop
  split
  case h_1 hq => exact absurd hq hfact
  case h_2 => rfl

instance (s : QueueState ι α) (a : Action ι (QueueChoice α)) [DecidableEq ι] [DecidableEq α] :
    Decidable (DoneStays s a) := inferInstanceAs (Decidable (_ → _))

theorem front_defined_example : ∃ s : QueueState (Fin 2) Nat, s.status 0 = .running .pop ∧
    (SafeQueue.pop 0 s.shared).isSome = true := by
  have hrun : ((safeQueue (Fin 2) Nat).system.runWith DoneStays (passRun.take 10)
      (SafeQueue.initial (Fin 2) Nat)).map (fun s => decide (s.status 0 = .running .pop)) =
      some true := by decide
  obtain ⟨s, hreach, hs⟩ := StepSystem.exists_reaches_of_runWith hrun
  exact ⟨s, of_decide_eq_true hs, front_defined hreach (of_decide_eq_true hs)⟩

/-- A thread that has left the loop on account of `done` goes on to `front` when `done` is
cleared in front of its second test, on an empty queue. -/
theorem front_undefined : ∃ s : QueueState (Fin 1) Nat,
    (safeQueue (Fin 1) Nat).system.Reachable (SafeQueue.initial (Fin 1) Nat) s ∧
    s.status 0 = .running .pop ∧ SafeQueue.pop 0 s.shared = none := by
  have hrun : ((safeQueue (Fin 1) Nat).system.run
      [.step 0 .dequeue, .outside (.setDone true), .step 0 .dequeue, .step 0 .dequeue,
        .outside (.setDone false), .step 0 .dequeue] (SafeQueue.initial (Fin 1) Nat)).map
      (fun s => decide (s.status 0 = .running .pop ∧ s.shared.q = [])) = some true := by decide
  obtain ⟨s, hreach, hs⟩ := StepSystem.exists_reachable_of_run hrun
  obtain ⟨hpop, hq⟩ := of_decide_eq_true hs
  refine ⟨s, hreach, hpop, ?_⟩
  unfold SafeQueue.pop
  rw [hq]

end

end EnetTcp
