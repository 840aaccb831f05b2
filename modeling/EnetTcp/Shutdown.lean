import EnetTcp.AdcClaim
import EnetTcp.SafeQueue
import EnetTcp.Saving

/-!
# The threads of the daemon and its shutdown (aioenetd.cpp)

`main` starts the action thread and the two listeners, waits for `done`, and leaves
through `exit_handler`. The threads share the queue of `safe_queue.h`, statement by
statement; a receiver thread may put any item on it at any time. The streaming
threads, and the signal handler, act from outside.

Results:
1. `queueOf_reaches`: what the threads do to the queue is a run of `safeQueue`.
2. `saved_is_final`: the configuration is saved behind everything else, whatever
   happens to `done` in between.
-/

namespace EnetTcp

open Monitor Prog

/-! ## 1. The threads -/

inductive DaemonThread
  | main
  | action
  /-- `ControlListenerThread` -/
  | control
  /-- `AdcListenerThread` -/
  | adc
  /-- The `threadReceiver` of a connection. -/
  | receiver (k : Nat)
  deriving DecidableEq

inductive DaemonPc
  /-- In a function of the queue. -/
  | queue (pc : QueuePc TActionQueueItem)
  /-- `main`: `usleep`, and the test of `done`. -/
  | sleeping
  /-- `exit_handler` from here on. -/
  | setDone
  | cancelIrq
  | joinAdc
  | joinControl
  | joinAction
  | reset
  | saveConfig
  /-- `for (; done == 0;)` of the action thread and of the listeners. -/
  | head
  | handle (item : TActionQueueItem)
  /-- `while (!done)` of `HandleNewControlClients` and `HandleNewAdcClients`. -/
  | accepting
  | select
  | accept
  /-- A connection is there: a receiver thread for it, or the hello. -/
  | serve (socket : Int)
  /-- A receiver thread waits for its client. -/
  | receive
  | ended
  deriving DecidableEq

/-- What `select` with its timeout of one second comes back with. -/
inductive SelectResult
  | interrupted
  | failed
  | timeout
  | ready
  deriving DecidableEq

inductive DaemonChoice (ε : Type)
  | none
  | received (item : TActionQueueItem)
  | select (result : SelectResult)
  | accepted (socket : Option Int)
  /-- The signal handler, and the first statement of `worker_main`. -/
  | setDone (value : Bool)
  /-- The streaming threads have left the machine like this. -/
  | streaming (machine : Machine ε)

instance {ε : Type} : Inhabited (DaemonChoice ε) := ⟨.none⟩

/-- The queue holds the global `done`. Records: the replies, the receiver threads and the
greeted ADC clients by their sockets, the threads that have returned, and what
`exit_handler` has saved. -/
structure DaemonWorld (ε : Type) where
  queue : SafeQueue DaemonThread TActionQueueItem := {}
  machine : Machine ε
  sent : List (Int × TBytes) := []
  receivers : List Int := []
  greeted : List Int := []
  returned : List DaemonThread := []
  saved : Option TConfig := none

/-! ## 2. Their programs -/

abbrev ofsReset : Nat := 0x00
abbrev bmResetEverything : UInt32 := 1

section Code

variable {ε : Type} (pf : Platform) (env : Env ε) (apci : Int)

abbrev DaemonStmt (ε : Type) : Type := Stmt (DaemonChoice ε) (DaemonWorld ε) DaemonPc

namespace DaemonWorld

/-- The machine with the global `done`. -/
def current (x : DaemonWorld ε) : Machine ε := { x.machine with done := x.queue.done }

/-- Run a program on the machine that throws nothing. -/
def runSys {α : Type} (p : Prog Exn (Sys ε) α) (x : DaemonWorld ε) : Option (DaemonWorld ε) :=
  match p.exec x.machine.sys with
  | some (.ok _, sys) => some { x with machine := { x.machine with sys } }
  | _ => none

/-- `RunMessage` and `SendResponse`. A message that no longer exists is undefined to read. -/
def handle (item : TActionQueueItem) (x : DaemonWorld ε) : Option (DaemonWorld ε) :=
  match item.theMessage with
  | .heap m => (respond pf env m x.current).map fun r =>
    { x with
      machine    := r.2
      queue.done := r.2.done
      sent       := x.sent ++ [(item.Socket, r.1)] }
  | .dangling _ => none

/-- `out(ofsReset, bmResetEverything); close(apci);` -/
def reset (x : DaemonWorld ε) : Option (DaemonWorld ε) :=
  x.runSys (do
    let _ ← out env ofsReset bmResetEverything
    syscall env (.close apci))

def saveConfig (x : DaemonWorld ε) : Option (DaemonWorld ε) :=
  (x.runSys (SaveConfig env pf.fuel x.machine.Config (text CONFIG_CURRENT))).map fun x' =>
    { x' with saved := some x.machine.Config }

def returns (i : DaemonThread) (x : DaemonWorld ε) : DaemonWorld ε :=
  { x with returned := i :: x.returned }

/-- `pthread_join` waits for the thread to return. -/
def join (i : DaemonThread) (next : DaemonPc) (x : DaemonWorld ε) :
    Option (DaemonWorld ε × DaemonPc) :=
  if i ∈ x.returned then some (x, next) else none

/-- After a `select`: on to `accept`, round again, or out of the loop. -/
def selected (choice : DaemonChoice ε) (x : DaemonWorld ε) : Option (DaemonWorld ε × DaemonPc) :=
  match choice with
  | .select .interrupted | .select .timeout =>
    some (x, if x.queue.done then .head else .accepting)
  | .select .failed => some (x, .head)
  | .select .ready => some (x, .accept)
  | _ => none

/-- `accept`: a failure is logged for a control client and ends the daemon for an ADC client. -/
def accepted (i : DaemonThread) (choice : DaemonChoice ε) (x : DaemonWorld ε) :
    Option (DaemonWorld ε × DaemonPc) :=
  match choice with
  | .accepted (some socket) => some (x, .serve socket)
  | .accepted none => if i = .control then some (x, .accepting) else none
  | _ => none

/-- `pthread_create` of a receiver thread, or `SendAdcHello`. -/
def serve (i : DaemonThread) (socket : Int) (x : DaemonWorld ε) : DaemonWorld ε :=
  if i = .control then { x with receivers := x.receivers ++ [socket] }
  else { x with greeted := x.greeted ++ [socket] }

/-- A receiver thread puts a message that it has made of a frame on the queue. -/
def received (i : DaemonThread) (choice : DaemonChoice ε) (x : DaemonWorld ε) :
    Option (DaemonWorld ε × DaemonPc) :=
  match choice with
  | .received item =>
    some ({ x with queue.called := x.queue.called ++ [(i, some item)] },
      .queue (.enqueue (some item)))
  | _ => none

/-- What the signal handler and the streaming threads do. -/
def outside (choice : DaemonChoice ε) (x : DaemonWorld ε) : Option (DaemonWorld ε) :=
  match choice with
  | .setDone value => some { x with queue.done := value }
  | .streaming machine =>
    if machine.Config = x.machine.Config then some { x with machine } else none
  | _ => none

end DaemonWorld

/-- Where a thread goes on behind a call of the queue. -/
def behindCall (i : DaemonThread) (result : Option (Option TActionQueueItem)) : DaemonPc :=
  match i, result with
  | .main, _ => .joinAdc
  | .action, some (some anAction) => .handle anAction
  | .action, _ => .head
  | .receiver _, _ => .receive
  | .control, _ | .adc, _ => .ended

/-- The place behind a statement of a function of the queue. -/
def queuePlace (i : DaemonThread) (pc n : QueuePc TActionQueueItem) : DaemonPc :=
  match pc with
  | .return_ result => behindCall i result
  | _ => .queue n

/-- A statement of a function of the queue. -/
def queueStmt (i : DaemonThread) (pc : QueuePc TActionQueueItem) : DaemonStmt ε :=
  match SafeQueue.code i pc with
  | .lock n => .lock (.queue n)
  | .unlock n => .unlock (.queue n)
  | .wait n => .wait (.queue n)
  | .notify_one n => .notify_one (.queue n)
  | .run f => .run fun _ x => (f .dequeue x.queue).map fun r =>
    ({ x with queue := r.1 }, queuePlace i pc r.2)

def mainCode : DaemonPc → DaemonStmt ε
  | .sleeping => .run fun _ x => some (x, if x.queue.done then .setDone else .sleeping)
  | .setDone => .run fun _ x => some ({ x with queue.done := true }, .cancelIrq)
  | .cancelIrq => .run fun _ x => (x.runSys (syscall env .apci_cancel_irq)).map fun x =>
    ({ x with queue.called := x.queue.called ++ [(.main, none)] }, .queue (.enqueue none))
  | .joinAdc => .run fun _ x => x.join .adc .joinControl
  | .joinControl => .run fun _ x => x.join .control .joinAction
  | .joinAction => .run fun _ x => x.join .action .reset
  | .reset => .run fun _ x => (x.reset env apci).map fun x => (x, .saveConfig)
  | .saveConfig => .run fun _ x => (x.saveConfig pf env).map fun x => (x, .ended)
  | _ => .run fun _ _ => none

def actionCode : DaemonPc → DaemonStmt ε
  | .head => .run fun _ x =>
    some (if x.queue.done then (x.returns .action, .ended) else (x, .queue .dequeue))
  | .handle anAction => .run fun _ x => (x.handle pf env anAction).map fun x => (x, .head)
  | _ => .run fun _ _ => none

/-- Both listeners. -/
def listenerCode (i : DaemonThread) : DaemonPc → DaemonStmt ε
  | .head => .run fun _ x =>
    some (if x.queue.done then (x.returns i, .ended) else (x, .accepting))
  | .accepting => .run fun _ x => some (x, if x.queue.done then .head else .select)
  | .select => .run fun choice x => x.selected choice
  | .accept => .run fun choice x => x.accepted i choice
  | .serve socket => .run fun _ x => some (x.serve i socket, .accepting)
  | _ => .run fun _ _ => none

def receiverCode (i : DaemonThread) : DaemonPc → DaemonStmt ε
  | .receive => .run fun choice x => x.received i choice
  | _ => .run fun _ _ => none

def daemonCode (i : DaemonThread) (pc : DaemonPc) : DaemonStmt ε :=
  match i, pc with
  | i, .queue pc => queueStmt i pc
  | .main, pc => mainCode pf env apci pc
  | .action, pc => actionCode pf env pc
  | .control, pc | .adc, pc => listenerCode i pc
  | .receiver k, pc => receiverCode (.receiver k) pc

def daemonMonitor : Monitor DaemonThread (DaemonChoice ε) (DaemonWorld ε) DaemonPc where
  code := daemonCode pf env apci
  outside := DaemonWorld.outside

end Code

abbrev DaemonState (ε : Type) : Type := State DaemonThread (DaemonWorld ε) DaemonPc

/-- `main` has started the threads. -/
def daemonStarted {ε : Type} (machine : Machine ε) : DaemonState ε where
  shared := { machine }
  status
    | .main => .running .sleeping
    | .action | .control | .adc => .running .head
    | .receiver _ => .running .receive

/-! ## 3. The queue -/

/-- The place in the functions of the queue. -/
def DaemonPc.queuePc : DaemonPc → QueuePc TActionQueueItem
  | .queue pc => pc
  | _ => .elsewhere

/-- What can be seen of the queue. -/
def queueOf {ε : Type} (s : DaemonState ε) : QueueState DaemonThread TActionQueueItem :=
  s.map DaemonWorld.queue DaemonPc.queuePc

namespace ShutdownLemmas

variable {ε : Type} {pf : Platform} {env : Env ε} {apci : Int}

instance : Inhabited (QueueChoice TActionQueueItem) := ⟨.dequeue⟩

theorem runSys_some {α : Type} {p : Prog Exn (Sys ε) α} {x x' : DaemonWorld ε}
    (h : x.runSys p = some x') : ∃ sys, x' = { x with machine := { x.machine with sys } } := by
  unfold DaemonWorld.runSys at h
  split at h
  · cases h
    exact ⟨_, rfl⟩
  · cases h

/-- What the statements outside the queue do.

* `main`: `sleeping` until `done` is set, then `setDone`, `cancelIrq` with the call of `enqueue`,
  the three calls of `join`, `reset` and `saveConfig`.
* the action thread: `return_` when `done` is set, else `dequeue` and `handle`.
* the two listeners: `return_` when `done` is set, else `listen`, `accepting`, `selected`,
  `accepted` and `serve`.
* a receiver thread: `received`, any number of times. -/
inductive WorldMove (pf : Platform) (env : Env ε) (i : DaemonThread) (x : DaemonWorld ε) :
    DaemonPc → DaemonWorld ε → DaemonPc → Prop
  | sleeping : i = .main →
      WorldMove pf env i x .sleeping x (if x.queue.done then .setDone else .sleeping)
  | setDone : i = .main →
      WorldMove pf env i x .setDone { x with queue.done := true } .cancelIrq
  | cancelIrq (sys : Sys ε) : i = .main →
      WorldMove pf env i x .cancelIrq
        { x with
          machine.sys  := sys
          queue.called := x.queue.called ++ [(.main, none)] }
        (.queue (.enqueue none))
  | join {pc n : DaemonPc} (j : DaemonThread) : i = .main → j ∈ x.returned →
      (j, pc, n) ∈ [(.adc, .joinAdc, .joinControl), (.control, .joinControl, .joinAction),
        (DaemonThread.action, DaemonPc.joinAction, DaemonPc.reset)] →
      WorldMove pf env i x pc x n
  | reset (sys : Sys ε) : i = .main →
      WorldMove pf env i x .reset { x with machine.sys := sys } .saveConfig
  | saveConfig (sys : Sys ε) : i = .main →
      WorldMove pf env i x .saveConfig
        { x with machine.sys := sys, saved := some x.machine.Config } .ended
  | return_ : i = .action ∨ i = .control ∨ i = .adc → x.queue.done = true →
      WorldMove pf env i x .head (x.returns i) .ended
  | dequeue : i = .action → x.queue.done = false →
      WorldMove pf env i x .head x (.queue .dequeue)
  | handle {anAction : TActionQueueItem} {x' : DaemonWorld ε} : i = .action →
      x.handle pf env anAction = some x' → WorldMove pf env i x (.handle anAction) x' .head
  | listen : i = .control ∨ i = .adc → x.queue.done = false →
      WorldMove pf env i x .head x .accepting
  | accepting : i = .control ∨ i = .adc →
      WorldMove pf env i x .accepting x (if x.queue.done then .head else .select)
  | selected {n : DaemonPc} : i = .control ∨ i = .adc →
      n = .head ∨ n = .accept ∨ n = .accepting ∧ x.queue.done = false →
      WorldMove pf env i x .select x n
  | accepted {n : DaemonPc} : i = .control ∨ i = .adc →
      (∃ socket, n = .serve socket) ∨ n = .accepting → WorldMove pf env i x .accept x n
  | serve {socket : Int} : i = .control ∨ i = .adc →
      WorldMove pf env i x (.serve socket) (x.serve i socket) .accepting
  | received {k : Nat} (item : TActionQueueItem) : i = .receiver k →
      WorldMove pf env i x .receive { x with queue.called := x.queue.called ++ [(i, some item)] }
        (.queue (.enqueue (some item)))

section

variable {i : DaemonThread} {pc n : DaemonPc} {x x' : DaemonWorld ε} {choice : DaemonChoice ε}
  {f : DaemonChoice ε → DaemonWorld ε → Option (DaemonWorld ε × DaemonPc)}

/-- A statement of the queue that works on its members. -/
theorem queue_run {pc : QueuePc TActionQueueItem} (hcode : queueStmt i pc = .run f)
    (hf : f choice x = some (x', n)) : ∃ g r, SafeQueue.code i pc = .run g ∧
      g .dequeue x.queue = some r ∧ x' = { x with queue := r.1 } ∧ n = queuePlace i pc r.2 := by
  unfold queueStmt at hcode
  split at hcode
  case h_5 g hg =>
    cases hcode
    obtain ⟨r, hr, hx⟩ := Option.map_eq_some_iff.mp hf
    cases hx
    exact ⟨g, r, hg, hr, rfl, rfl⟩
  all_goals cases hcode

theorem join_some {j : DaemonThread} {next : DaemonPc} (h : x.join j next = some (x', n)) :
    j ∈ x.returned ∧ x' = x ∧ n = next := by
  obtain ⟨hj, h⟩ := Option.ite_none_right_eq_some.mp h
  cases h
  exact ⟨hj, rfl, rfl⟩

theorem main_move (hcode : mainCode pf env apci pc = .run f) (hf : f choice x = some (x', n)) :
    WorldMove pf env .main x pc x' n := by
  cases pc with
  | sleeping =>
    cases hcode
    cases hf
    exact .sleeping rfl
  | setDone =>
    cases hcode
    cases hf
    exact .setDone rfl
  | cancelIrq =>
    cases hcode
    obtain ⟨x₁, hx₁, hr⟩ := Option.map_eq_some_iff.mp hf
    obtain ⟨sys, rfl⟩ := runSys_some hx₁
    cases hr
    exact .cancelIrq sys rfl
  | joinAdc =>
    cases hcode
    obtain ⟨hj, rfl, rfl⟩ := join_some hf
    exact .join .adc rfl hj (by decide)
  | joinControl =>
    cases hcode
    obtain ⟨hj, rfl, rfl⟩ := join_some hf
    exact .join .control rfl hj (by decide)
  | joinAction =>
    cases hcode
    obtain ⟨hj, rfl, rfl⟩ := join_some hf
    exact .join .action rfl hj (by decide)
  | reset =>
    cases hcode
    obtain ⟨x₁, hx₁, hr⟩ := Option.map_eq_some_iff.mp hf
    obtain ⟨sys, rfl⟩ := runSys_some hx₁
    cases hr
    exact .reset sys rfl
  | saveConfig =>
    cases hcode
    obtain ⟨x₁, hx₁, hr⟩ := Option.map_eq_some_iff.mp hf
    obtain ⟨x₂, hx₂, rfl⟩ := Option.map_eq_some_iff.mp hx₁
    obtain ⟨sys, rfl⟩ := runSys_some hx₂
    cases hr
    exact .saveConfig sys rfl
  | queue | head | handle | accepting | select | accept | serve | receive | ended =>
    cases hcode
    cases hf

theorem action_move (hcode : actionCode pf env pc = .run f) (hf : f choice x = some (x', n)) :
    WorldMove pf env .action x pc x' n := by
  cases pc with
  | head =>
    cases hcode
    cases hdone : x.queue.done with
    | true =>
      simp only [hdone, ↓reduceIte, Option.some.injEq, Prod.mk.injEq] at hf
      obtain ⟨rfl, rfl⟩ := hf
      exact .return_ (.inl rfl) hdone
    | false =>
      simp only [hdone, Bool.false_eq_true, ↓reduceIte, Option.some.injEq, Prod.mk.injEq] at hf
      obtain ⟨rfl, rfl⟩ := hf
      exact .dequeue rfl hdone
  | handle anAction =>
    cases hcode
    obtain ⟨x₁, hx₁, hr⟩ := Option.map_eq_some_iff.mp hf
    cases hr
    exact .handle rfl hx₁
  | queue | sleeping | setDone | cancelIrq | joinAdc | joinControl | joinAction | reset
  | saveConfig | accepting | select | accept | serve | receive | ended =>
    cases hcode
    cases hf

theorem listener_move (hi : i = .control ∨ i = .adc) (hcode : listenerCode i pc = .run f)
    (hf : f choice x = some (x', n)) : WorldMove pf env i x pc x' n := by
  cases pc with
  | head =>
    cases hcode
    cases hdone : x.queue.done with
    | true =>
      simp only [hdone, ↓reduceIte, Option.some.injEq, Prod.mk.injEq] at hf
      obtain ⟨rfl, rfl⟩ := hf
      exact .return_ (.inr hi) hdone
    | false =>
      simp only [hdone, Bool.false_eq_true, ↓reduceIte, Option.some.injEq, Prod.mk.injEq] at hf
      obtain ⟨rfl, rfl⟩ := hf
      exact .listen hi hdone
  | accepting =>
    cases hcode
    cases hf
    exact .accepting hi
  | select =>
    cases hcode
    have hf : x.selected choice = some (x', n) := hf
    unfold DaemonWorld.selected at hf
    split at hf
    case h_1 | h_2 =>
      cases hf
      refine .selected hi ?_
      split
      · exact .inl rfl
      · exact .inr (.inr ⟨rfl, Bool.eq_false_iff.mpr ‹_›⟩)
    case h_3 =>
      cases hf
      exact .selected hi (.inl rfl)
    case h_4 =>
      cases hf
      exact .selected hi (.inr (.inl rfl))
    case h_5 => cases hf
  | accept =>
    cases hcode
    have hf : x.accepted i choice = some (x', n) := hf
    unfold DaemonWorld.accepted at hf
    split at hf
    case h_1 =>
      cases hf
      exact .accepted hi (.inl ⟨_, rfl⟩)
    case h_2 =>
      obtain ⟨-, hf⟩ := Option.ite_none_right_eq_some.mp hf
      cases hf
      exact .accepted hi (.inr rfl)
    case h_3 => cases hf
  | serve socket =>
    cases hcode
    cases hf
    exact .serve hi
  | queue | sleeping | setDone | cancelIrq | joinAdc | joinControl | joinAction | reset
  | saveConfig | handle | receive | ended =>
    cases hcode
    cases hf

theorem receiver_move {k : Nat} (hcode : receiverCode (.receiver k) pc = .run f)
    (hf : f choice x = some (x', n)) : WorldMove pf env (.receiver k) x pc x' n := by
  cases pc with
  | receive =>
    cases hcode
    have hf : x.received (.receiver k) choice = some (x', n) := hf
    unfold DaemonWorld.received at hf
    split at hf
    case h_1 =>
      cases hf
      exact .received _ rfl
    case h_2 => cases hf
  | queue | head | sleeping | setDone | cancelIrq | joinAdc | joinControl | joinAction | reset
  | saveConfig | handle | accepting | select | accept | serve | ended =>
    cases hcode
    cases hf

end

theorem run_move {i : DaemonThread} {pc n : DaemonPc} {x x' : DaemonWorld ε}
    {choice : DaemonChoice ε}
    {f : DaemonChoice ε → DaemonWorld ε → Option (DaemonWorld ε × DaemonPc)}
    (hcode : (daemonMonitor pf env apci).code i pc = .run f) (hf : f choice x = some (x', n)) :
    (∃ q g r, pc = .queue q ∧ SafeQueue.code i q = .run g ∧ g .dequeue x.queue = some r ∧
      x' = { x with queue := r.1 } ∧ n = queuePlace i q r.2) ∨ WorldMove pf env i x pc x' n := by
  have hcode : daemonCode pf env apci i pc = .run f := hcode
  unfold daemonCode at hcode
  split at hcode
  case h_1 =>
    obtain ⟨g, r, h⟩ := queue_run hcode hf
    exact .inl ⟨_, g, r, rfl, h⟩
  case h_2 => exact .inr (main_move hcode hf)
  case h_3 => exact .inr (action_move hcode hf)
  case h_4 => exact .inr (listener_move (.inl rfl) hcode hf)
  case h_5 => exact .inr (listener_move (.inr rfl) hcode hf)
  case h_6 => exact .inr (receiver_move hcode hf)

/-- A statement that works on the mutex or the condition variable is one of the queue. -/
theorem code_queue {i : DaemonThread} {pc : DaemonPc} {stmt : DaemonStmt ε}
    (hcode : (daemonMonitor pf env apci).code i pc = stmt) (hrun : ∀ f, stmt ≠ .run f) :
    ∃ q, pc = .queue q ∧ queueStmt i q = stmt := by
  cases pc with
  | queue q => exact ⟨q, rfl, by cases i <;> exact hcode⟩
  | _ =>
    cases i <;> exact absurd hcode.symm (hrun _)

theorem code_lock {i : DaemonThread} {pc n : DaemonPc}
    (hcode : (daemonMonitor pf env apci).code i pc = .lock n) :
    ∃ q m, pc = .queue q ∧ n = .queue m ∧ SafeQueue.code i q = .lock m := by
  obtain ⟨q, rfl, hstmt⟩ := code_queue hcode fun _ h => by cases h
  unfold queueStmt at hstmt
  split at hstmt <;> cases hstmt
  exact ⟨q, _, rfl, rfl, ‹_›⟩

theorem code_unlock {i : DaemonThread} {pc n : DaemonPc}
    (hcode : (daemonMonitor pf env apci).code i pc = .unlock n) :
    ∃ q m, pc = .queue q ∧ n = .queue m ∧ SafeQueue.code i q = .unlock m := by
  obtain ⟨q, rfl, hstmt⟩ := code_queue hcode fun _ h => by cases h
  unfold queueStmt at hstmt
  split at hstmt <;> cases hstmt
  exact ⟨q, _, rfl, rfl, ‹_›⟩

theorem code_wait {i : DaemonThread} {pc n : DaemonPc}
    (hcode : (daemonMonitor pf env apci).code i pc = .wait n) :
    ∃ q m, pc = .queue q ∧ n = .queue m ∧ SafeQueue.code i q = .wait m := by
  obtain ⟨q, rfl, hstmt⟩ := code_queue hcode fun _ h => by cases h
  unfold queueStmt at hstmt
  split at hstmt <;> cases hstmt
  exact ⟨q, _, rfl, rfl, ‹_›⟩

theorem code_notify {i : DaemonThread} {pc n : DaemonPc}
    (hcode : (daemonMonitor pf env apci).code i pc = .notify_one n) :
    ∃ q m, pc = .queue q ∧ n = .queue m ∧ SafeQueue.code i q = .notify_one m := by
  obtain ⟨q, rfl, hstmt⟩ := code_queue hcode fun _ h => by cases h
  unfold queueStmt at hstmt
  split at hstmt <;> cases hstmt
  exact ⟨q, _, rfl, rfl, ‹_›⟩

theorem handle_some {anAction : TActionQueueItem} {x x' : DaemonWorld ε}
    (h : x.handle pf env anAction = some x') :
    ∃ m bytes machine, anAction.theMessage = .heap m ∧
      respond pf env m x.current = some (bytes, machine) ∧
      x' = { x with
        machine
        queue.done := machine.done
        sent       := x.sent ++ [(anAction.Socket, bytes)] } := by
  unfold DaemonWorld.handle at h
  split at h
  case h_1 m hm =>
    obtain ⟨⟨bytes, machine⟩, hr, rfl⟩ := Option.map_eq_some_iff.mp h
    exact ⟨m, bytes, machine, hm, hr, rfl⟩
  case h_2 => cases h

theorem behindCall_queuePc (i : DaemonThread) (result : Option (Option TActionQueueItem)) :
    (behindCall i result).queuePc = .elsewhere := by
  unfold behindCall
  split <;> rfl

/-- A function of the queue goes on in the queue, up to its end. -/
theorem queuePlace_queuePc {i : DaemonThread} {pc n : QueuePc TActionQueueItem}
    {f : QueueChoice TActionQueueItem → SafeQueue DaemonThread TActionQueueItem →
      Option (SafeQueue DaemonThread TActionQueueItem × QueuePc TActionQueueItem)}
    {x x' : SafeQueue DaemonThread TActionQueueItem} {choice : QueueChoice TActionQueueItem}
    (hcode : SafeQueue.code i pc = .run f) (hf : f choice x = some (x', n)) :
    (queuePlace i pc n).queuePc = n := by
  cases pc with
  | return_ result =>
    cases hcode
    cases hf
    exact behindCall_queuePc i result
  | _ => rfl

/-- The threads use the queue as `safeQueue` says. -/
theorem embeds : Embeds (daemonMonitor pf env apci) (safeQueue DaemonThread TActionQueueItem)
    DaemonWorld.queue DaemonPc.queuePc where
  lock hcode := by
    obtain ⟨q, m, rfl, rfl, h⟩ := code_lock hcode
    exact h
  unlock hcode := by
    obtain ⟨q, m, rfl, rfl, h⟩ := code_unlock hcode
    exact h
  wait hcode := by
    obtain ⟨q, m, rfl, rfl, h⟩ := code_wait hcode
    exact h
  notify_one hcode := by
    obtain ⟨q, m, rfl, rfl, h⟩ := code_notify hcode
    exact h
  run {i pc f choice x x' n} hcode hf := by
    rcases run_move hcode hf with ⟨q, g, r, rfl, hg, hr, rfl, rfl⟩ | hmove
    · refine .inl ⟨g, .dequeue, hg, ?_⟩
      rw [queuePlace_queuePc hg hr]
      exact hr
    cases hmove with
    | sleeping =>
      refine .inr ⟨?_, .inl rfl⟩
      split <;> rfl
    | join j hi hj hmem =>
      refine .inr ⟨?_, .inl rfl⟩
      simp only [List.mem_cons, Prod.mk.injEq, List.not_mem_nil, or_false] at hmem
      obtain ⟨-, rfl, rfl⟩ | ⟨-, rfl, rfl⟩ | ⟨-, rfl, rfl⟩ := hmem <;> rfl
    | reset | saveConfig | return_ | listen => exact .inr ⟨rfl, .inl rfl⟩
    | accepting =>
      refine .inr ⟨?_, .inl rfl⟩
      split <;> rfl
    | selected hi hn =>
      refine .inr ⟨?_, .inl rfl⟩
      obtain rfl | rfl | ⟨rfl, -⟩ := hn <;> rfl
    | accepted hi hn =>
      refine .inr ⟨?_, .inl rfl⟩
      obtain ⟨socket, rfl⟩ | rfl := hn <;> rfl
    | serve =>
      refine .inr ⟨rfl, .inl ?_⟩
      unfold DaemonWorld.serve
      split <;> rfl
    | setDone => exact .inr ⟨rfl, .inr ⟨.setDone true, rfl⟩⟩
    | cancelIrq sys hi =>
      subst hi
      exact .inl ⟨SafeQueue.call .main, .enqueue none, rfl, rfl⟩
    | dequeue => exact .inl ⟨SafeQueue.call i, .dequeue, rfl, rfl⟩
    | handle hi hx =>
      obtain ⟨m, bytes, machine, -, -, rfl⟩ := handle_some hx
      exact .inr ⟨rfl, .inr ⟨.setDone machine.done, rfl⟩⟩
    | received item hi =>
      exact .inl ⟨SafeQueue.call i, .enqueue (some item), rfl, rfl⟩
  outside {choice x x'} hx := by
    cases choice with
    | setDone value =>
      cases hx
      exact .inr ⟨.setDone value, rfl⟩
    | streaming machine =>
      obtain ⟨-, hx⟩ := Option.ite_none_right_eq_some.mp hx
      cases hx
      exact .inl rfl
    | none | received | select | accepted => cases hx

theorem queueOf_started (machine : Machine ε) :
    queueOf (daemonStarted machine) = SafeQueue.initial DaemonThread TActionQueueItem := by
  unfold queueOf State.map daemonStarted SafeQueue.initial
  congr 1
  funext i
  cases i <;> rfl

/-- The places in the program of each thread. -/
def InProgram : DaemonThread → Status DaemonPc → Prop
  | .main, .running pc =>
    match pc with
    | .queue (.enqueue none) | .queue (.push none) | .queue .notify | .queue (.unlock none)
    | .queue (.return_ none) => True
    | .sleeping | .setDone | .cancelIrq | .joinAdc | .joinControl | .joinAction | .reset
    | .saveConfig | .ended => True
    | _ => False
  | .action, .running pc =>
    match pc with
    | .queue .dequeue | .queue .loop | .queue .wait | .queue .testStop | .queue .testDone
    | .queue .pop | .queue (.unlock (some _)) | .queue (.return_ (some _)) => True
    | .head | .handle _ | .ended => True
    | _ => False
  | .control, .running pc | .adc, .running pc =>
    match pc with
    | .head | .accepting | .select | .accept | .serve _ | .ended => True
    | _ => False
  | .receiver _, .running pc =>
    match pc with
    | .queue (.enqueue _) | .queue (.push _) | .queue .notify | .queue (.unlock none)
    | .queue (.return_ none) | .receive => True
    | _ => False
  | .action, .waiting pc => pc = .queue .testStop
  | _, .waiting _ => False

theorem inProgram_queue {i : DaemonThread} {pc n : QueuePc TActionQueueItem}
    {f : QueueChoice TActionQueueItem → SafeQueue DaemonThread TActionQueueItem →
      Option (SafeQueue DaemonThread TActionQueueItem × QueuePc TActionQueueItem)}
    {x x' : SafeQueue DaemonThread TActionQueueItem} (hcode : SafeQueue.code i pc = .run f)
    (hf : f .dequeue x = some (x', n)) (h : InProgram i (.running (.queue pc))) :
    InProgram i (.running (queuePlace i pc n)) := by
  cases pc with
  | elsewhere | Stop => cases i <;> exact h.elim
  | push t =>
    cases hcode
    cases hf
    cases i <;> trivial
  | loop | testStop | testDone | tryTest =>
    cases hcode
    cases hf
    split <;> cases i <;> trivial
  | pop =>
    cases hcode
    have hf : SafeQueue.pop i x = some (x', n) := hf
    unfold SafeQueue.pop at hf
    split at hf <;> cases hf
    cases i <;> trivial
  | return_ result =>
    cases hcode
    cases hf
    rcases result with _ | _ | _ <;> cases i <;> trivial
  | enqueue | notify | dequeue | wait | tryDequeue | unlock | StopNotify => cases hcode

theorem inProgram_run {i : DaemonThread} {pc n : DaemonPc} {x x' : DaemonWorld ε}
    (hmove : WorldMove pf env i x pc x' n) : InProgram i (.running n) := by
  cases hmove with
  | sleeping hi =>
    subst hi
    split <;> trivial
  | join j hi hj hmem =>
    subst hi
    simp only [List.mem_cons, Prod.mk.injEq, List.not_mem_nil, or_false] at hmem
    obtain ⟨-, rfl, rfl⟩ | ⟨-, rfl, rfl⟩ | ⟨-, rfl, rfl⟩ := hmem <;> trivial
  | setDone hi | cancelIrq _ hi | reset _ hi | saveConfig _ hi | dequeue hi | handle hi
  | received _ hi =>
    subst hi
    trivial
  | return_ hi =>
    obtain rfl | rfl | rfl := hi <;> trivial
  | listen hi | serve hi =>
    obtain rfl | rfl := hi <;> trivial
  | accepting hi =>
    obtain rfl | rfl := hi <;> split <;> trivial
  | selected hi hn =>
    obtain rfl | rfl := hi <;> obtain rfl | rfl | ⟨rfl, -⟩ := hn <;> trivial
  | accepted hi hn =>
    obtain rfl | rfl := hi <;> obtain ⟨socket, rfl⟩ | rfl := hn <;> trivial

theorem inProgram_places : Places (daemonMonitor pf env apci) InProgram where
  lock {i pc n} hcode h := by
    obtain ⟨q, m, rfl, rfl, hq⟩ := code_lock hcode
    cases q <;> cases hq
    case enqueue t => cases t <;> cases i <;> trivial
    all_goals cases i <;> trivial
  unlock {i pc n} hcode h := by
    obtain ⟨q, m, rfl, rfl, hq⟩ := code_unlock hcode
    cases q <;> cases hq
    case unlock result =>
      cases result <;> cases i <;> trivial
  wait {i pc n} hcode h := by
    obtain ⟨q, m, rfl, rfl, hq⟩ := code_wait hcode
    cases q <;> cases hq
    cases i <;> trivial
  woken {i pc} h := by
    cases i with
    | action =>
      cases h
      trivial
    | _ => exact h.elim
  notify_one {i pc n} hcode h := by
    obtain ⟨q, m, rfl, rfl, hq⟩ := code_notify hcode
    cases q <;> cases hq <;> cases i <;> trivial
  run hcode hf h := by
    rcases run_move hcode hf with ⟨q, g, r, rfl, hg, hr, rfl, rfl⟩ | hmove
    · exact inProgram_queue hg hr h
    · exact inProgram_run hmove

theorem inProgram_reaches {C : DaemonState ε → Action DaemonThread (DaemonChoice ε) → Prop}
    {machine : Machine ε} {s : DaemonState ε}
    (h : (daemonMonitor pf env apci).system.Reaches C (daemonStarted machine) s)
    (i : DaemonThread) : InProgram i (s.status i) := by
  have hall : ∀ i, InProgram i (s.status i) :=
    h.invariant (I := fun s => ∀ i, InProgram i (s.status i)) (fun i => by cases i <;> trivial)
      fun _ _ _ hs _ hnext => places_step inProgram_places hs (next_step hnext)
  exact hall i

end ShutdownLemmas

open ShutdownLemmas

/-- What the threads of the daemon do to the queue is a run of `safeQueue`. -/
theorem queueOf_reaches {ε : Type} {pf : Platform} {env : Env ε} {apci : Int}
    {machine : Machine ε} {s : DaemonState ε}
    (h : (daemonMonitor pf env apci).system.Reachable (daemonStarted machine) s) :
    (safeQueue DaemonThread TActionQueueItem).system.Reachable
      (SafeQueue.initial DaemonThread TActionQueueItem) (queueOf s) := by
  rw [← queueOf_started machine]
  exact embeds_reaches embeds (fun _ _ _ _ _ _ _ => trivial) h

/-! ## 4. Steps -/

/-- The statements of the queue that work on the mutex or the condition variable. -/
inductive Through : QueuePc TActionQueueItem → QueuePc TActionQueueItem → Prop
  | enqueue (t : Option TActionQueueItem) : Through (.enqueue t) (.push t)
  | dequeue : Through .dequeue .loop
  | notify : Through .notify (.unlock none)
  | unlock (result : Option (Option TActionQueueItem)) : Through (.unlock result) (.return_ result)

/-- Its statements that work on the members: only the action thread takes elements. -/
inductive QueueRun (i : DaemonThread) (x : SafeQueue DaemonThread TActionQueueItem) :
    QueuePc TActionQueueItem → SafeQueue DaemonThread TActionQueueItem → DaemonPc → Prop
  | push (t : Option TActionQueueItem) : i ≠ .action →
      QueueRun i x (.push t) { x with q := x.q ++ [t], pushed := x.pushed ++ [(i, t)] }
        (.queue .notify)
  | loop : i = .action →
      QueueRun i x .loop x (.queue (if x.q = [] ∧ x.done = false then .wait else .testDone))
  | testStop : i = .action →
      QueueRun i x .testStop x (.queue (if x.stop then .unlock (some none) else .loop))
  | testDone : i = .action →
      QueueRun i x .testDone x (.queue (if x.done then .unlock (some none) else .pop))
  | pop {val : Option TActionQueueItem} {q : List (Option TActionQueueItem)} : i = .action →
      x.q = val :: q →
      QueueRun i x .pop { x with q, taken := x.taken ++ [(i, val)] }
        (.queue (.unlock (some val)))
  | enqueued : i = .main ∨ (∃ k, i = .receiver k) →
      QueueRun i x (.return_ none) x (if i = .main then .joinAdc else .receive)
  | dequeued (v : Option TActionQueueItem) : i = .action →
      QueueRun i x (.return_ (some v)) { x with returned := x.returned ++ [(i, v)] }
        (behindCall .action (some v))

/-- What a thread can do.

* `through`, `queue`: a statement of the queue that works on the mutex or the condition variable,
  or one that works on the members.
* `asleep`, `woken`: only the action thread waits.
* `world`: a statement outside the queue. -/
inductive ThreadMove {ε : Type} (pf : Platform) (env : Env ε) (i : DaemonThread)
    (x : DaemonWorld ε) : Status DaemonPc → DaemonWorld ε → Status DaemonPc → Prop
  | through {q m : QueuePc TActionQueueItem} : Through q m →
      ThreadMove pf env i x (.running (.queue q)) x (.running (.queue m))
  | asleep : i = .action →
      ThreadMove pf env i x (.running (.queue .wait)) x (.waiting (.queue .testStop))
  | woken : i = .action →
      ThreadMove pf env i x (.waiting (.queue .testStop)) x (.running (.queue .testStop))
  | queue {q : QueuePc TActionQueueItem} {y : SafeQueue DaemonThread TActionQueueItem}
      {n : DaemonPc} : QueueRun i x.queue q y n →
      ThreadMove pf env i x (.running (.queue q)) { x with queue := y } (.running n)
  | world {pc n : DaemonPc} {x' : DaemonWorld ε} : WorldMove pf env i x pc x' n →
      ThreadMove pf env i x (.running pc) x' (.running n)

/-- What a step does to the threads and to what they share.

* `thread`: one thread moves, and the others stay where they are.
* `spurious`: a thread that sleeps is woken, which neither the places nor the shared state show.
* `outside`: `done` is set or cleared, or a streaming thread has changed the world. -/
inductive DaemonStep {ε : Type} (pf : Platform) (env : Env ε) (s : DaemonState ε)
    (a : Action DaemonThread (DaemonChoice ε)) (s' : DaemonState ε) : Prop
  | thread {i : DaemonThread} {n : Status DaemonPc} : a.thread = some i →
      s'.status = Function.update s.status i n →
      ThreadMove pf env i s.shared (s.status i) s'.shared n → DaemonStep pf env s a s'
  | spurious : a.thread = none → s'.status = s.status → s'.shared = s.shared →
      DaemonStep pf env s a s'
  | outside {choice : DaemonChoice ε} : a = .outside choice → s'.status = s.status →
      DaemonWorld.outside choice s.shared = some s'.shared → DaemonStep pf env s a s'

namespace ShutdownLemmas

variable {ε : Type} {pf : Platform} {env : Env ε} {apci : Int} {s s' : DaemonState ε}

theorem queueRun_of_code {i : DaemonThread} {pc n : QueuePc TActionQueueItem}
    {f : QueueChoice TActionQueueItem → SafeQueue DaemonThread TActionQueueItem →
      Option (SafeQueue DaemonThread TActionQueueItem × QueuePc TActionQueueItem)}
    {x y : SafeQueue DaemonThread TActionQueueItem} (hcode : SafeQueue.code i pc = .run f)
    (hf : f .dequeue x = some (y, n)) (hplace : InProgram i (.running (.queue pc))) :
    QueueRun i x pc y (queuePlace i pc n) := by
  cases pc with
  | push t =>
    cases hcode
    cases hf
    refine .push t ?_
    rintro rfl
    exact hplace.elim
  | loop | testStop | testDone =>
    cases hcode
    cases hf
    cases i with
    | action => constructor; rfl
    | _ => exact hplace.elim
  | pop =>
    cases hcode
    have hf : SafeQueue.pop i x = some (y, n) := hf
    unfold SafeQueue.pop at hf
    split at hf
    case h_1 => cases hf
    case h_2 val q hq =>
      cases hf
      cases i with
      | action => exact .pop rfl hq
      | _ => exact hplace.elim
  | return_ result =>
    cases hcode
    cases hf
    cases result with
    | none =>
      cases i with
      | main => exact .enqueued (.inl rfl)
      | receiver k => exact .enqueued (.inr ⟨k, rfl⟩)
      | action | control | adc => exact hplace.elim
    | some v =>
      cases i with
      | action => exact .dequeued v rfl
      | main | receiver | control | adc => exact hplace.elim
  | elsewhere | tryTest | Stop => cases i <;> exact hplace.elim
  | enqueue | notify | dequeue | wait | tryDequeue | unlock | StopNotify => cases hcode

/-- What a step can do. -/
theorem daemon_step {a : Action DaemonThread (DaemonChoice ε)}
    (hprog : ∀ i, InProgram i (s.status i)) (hstep : (daemonMonitor pf env apci).Step s a s') :
    DaemonStep pf env s a s' := by
  cases hstep with
  | @lock i choice pc n hpc hcode howner =>
    have hplace := hprog i
    rw [hpc] at hplace
    refine .thread (i := i) (n := .running n) rfl rfl ?_
    rw [hpc]
    obtain ⟨q, m, rfl, rfl, hq⟩ := code_lock hcode
    cases q <;> cases hq
    · exact .through (.enqueue _)
    · exact .through .dequeue
    · cases i <;> exact hplace.elim
  | @unlock i choice pc n hpc hcode howner =>
    refine .thread (i := i) (n := .running n) rfl rfl ?_
    rw [hpc]
    obtain ⟨q, m, rfl, rfl, hq⟩ := code_unlock hcode
    cases q <;> cases hq
    exact .through (.unlock _)
  | @wait i choice pc n hpc hcode howner =>
    have hplace := hprog i
    rw [hpc] at hplace
    refine .thread (i := i) (n := .waiting n) rfl rfl ?_
    rw [hpc]
    obtain ⟨q, m, rfl, rfl, hq⟩ := code_wait hcode
    cases q <;> cases hq
    cases i with
    | action => exact .asleep rfl
    | _ => exact hplace.elim
  | @reacquire i choice pc hpc hwoken howner =>
    have hplace := hprog i
    rw [hpc] at hplace
    refine .thread (i := i) (n := .running pc) rfl rfl ?_
    rw [hpc]
    cases i with
    | action =>
      cases hplace
      exact .woken rfl
    | _ => exact hplace.elim
  | @run i choice pc n f x hpc hcode hf =>
    have hplace := hprog i
    rw [hpc] at hplace
    refine .thread (i := i) (n := .running n) rfl rfl ?_
    rw [hpc]
    rcases run_move hcode hf with ⟨q, g, r, rfl, hg, hr, rfl, rfl⟩ | hmove
    · exact .queue (queueRun_of_code hg hr hplace)
    · exact .world hmove
  | @notify i j pc n hpc hcode hj | @notifyNobody i pc n hpc hcode hempty =>
    have hplace := hprog i
    rw [hpc] at hplace
    refine .thread (i := i) (n := .running n) rfl rfl ?_
    rw [hpc]
    obtain ⟨q, m, rfl, rfl, hq⟩ := code_notify hcode
    cases q <;> cases hq
    · exact .through .notify
    · cases i <;> exact hplace.elim
  | spurious hj => exact .spurious rfl rfl rfl
  | outside hx => exact .outside rfl rfl hx

theorem outside_some {choice : DaemonChoice ε} {x x' : DaemonWorld ε}
    (h : DaemonWorld.outside choice x = some x') :
    (∃ value, choice = .setDone value ∧ x' = { x with queue.done := value }) ∨
      ∃ machine, machine.Config = x.machine.Config ∧ x' = { x with machine } := by
  cases choice with
  | setDone value =>
    cases h
    exact .inl ⟨value, rfl, rfl⟩
  | streaming machine =>
    obtain ⟨hconfig, h⟩ := Option.ite_none_right_eq_some.mp h
    cases h
    exact .inr ⟨machine, hconfig, rfl⟩
  | none | received | select | accepted => cases h

end ShutdownLemmas

/-! ## 5. Saving comes last -/

/-- The threads that `exit_handler` has joined when `main` is here. -/
def DaemonPc.joined : DaemonPc → List DaemonThread
  | .joinControl => [.adc]
  | .joinAction => [.adc, .control]
  | .reset | .saveConfig | .ended => [.adc, .control, .action]
  | _ => []

/-- A thread that has returned has left its program, and `main` has waited for it. -/
structure Joined {ε : Type} (s : DaemonState ε) : Prop where
  returned : ∀ i ∈ s.shared.returned, s.status i = .running .ended
  joined : ∀ pc, s.status .main = .running pc → ∀ i ∈ pc.joined, i ∈ s.shared.returned
  saved : s.status .main = .running .ended → s.shared.saved = some s.shared.machine.Config

namespace ShutdownLemmas

variable {ε : Type} {pf : Platform} {env : Env ε} {apci : Int} {s s' : DaemonState ε}
  {i : DaemonThread} {st st' : Status DaemonPc} {x x' : DaemonWorld ε}

/-- Nothing is behind the end of a thread. -/
theorem not_from_ended : ¬ThreadMove pf env i x (.running .ended) x' st := by
  intro h
  cases h with
  | world hmove =>
    cases hmove with
    | join j hi hj hmem => simp at hmem

theorem threadMove_returned (h : ThreadMove pf env i x st x' st') :
    x'.returned = x.returned ∨
      st' = .running .ended ∧ i ≠ .main ∧ x'.returned = i :: x.returned := by
  cases h with
  | world hmove =>
    cases hmove with
    | return_ hi =>
      refine .inr ⟨rfl, ?_, rfl⟩
      obtain rfl | rfl | rfl := hi <;> exact DaemonThread.noConfusion
    | handle hi hx =>
      obtain ⟨m, bytes, machine, -, -, rfl⟩ := handle_some hx
      exact .inl rfl
    | serve =>
      unfold DaemonWorld.serve
      split <;> exact .inl rfl
    | _ => exact .inl rfl
  | through | asleep | woken | queue => exact .inl rfl

/-- A thread other than `main` saves nothing, and only the action thread changes `Config`. -/
theorem threadMove_config (h : ThreadMove pf env i x st x' st') (hmain : i ≠ .main) :
    x'.saved = x.saved ∧ (i ≠ .action → x'.machine.Config = x.machine.Config) := by
  cases h with
  | world hmove =>
    cases hmove with
    | setDone hi | cancelIrq _ hi | reset _ hi | saveConfig _ hi => exact absurd hi hmain
    | handle hi hx =>
      obtain ⟨m, bytes, machine, -, -, rfl⟩ := handle_some hx
      exact ⟨rfl, fun hne => absurd hi hne⟩
    | serve =>
      unfold DaemonWorld.serve
      split <;> exact ⟨rfl, fun _ => rfl⟩
    | _ => exact ⟨rfl, fun _ => rfl⟩
  | through | asleep | woken | queue => exact ⟨rfl, fun _ => rfl⟩

/-- `main` is behind a join only when the thread has returned. -/
theorem threadMove_joined {n : DaemonPc} (h : ThreadMove pf env .main x st x' (.running n))
    (hbefore : ∀ pc, st = .running pc → ∀ j ∈ pc.joined, j ∈ x.returned) :
    (∀ j ∈ n.joined, j ∈ x.returned) ∧ (n = .ended → x'.saved = some x'.machine.Config) := by
  cases h with
  | through | woken => exact ⟨fun j hj => (by cases hj), fun h => (by cases h)⟩
  | queue hrun =>
    cases hrun with
    | enqueued =>
      rw [if_pos rfl]
      exact ⟨fun j hj => (by cases hj), fun h => (by cases h)⟩
    | push => exact ⟨fun j hj => (by cases hj), fun h => (by cases h)⟩
    | loop h | testStop h | testDone h | pop h | dequeued _ h => cases h
  | @world pc n x' hmove =>
    have hbefore := hbefore pc rfl
    cases hmove with
    | sleeping => split <;> exact ⟨fun j hj => (by cases hj), fun h => (by cases h)⟩
    | setDone | cancelIrq => exact ⟨fun j hj => (by cases hj), fun h => (by cases h)⟩
    | join j _ hj hmem =>
      simp only [List.mem_cons, Prod.mk.injEq, List.not_mem_nil, or_false] at hmem
      obtain ⟨rfl, rfl, rfl⟩ | ⟨rfl, rfl, rfl⟩ | ⟨rfl, rfl, rfl⟩ := hmem
      all_goals
        refine ⟨?_, fun h => (by cases h)⟩
        simp_all [DaemonPc.joined]
    | reset => exact ⟨hbefore, fun h => (by cases h)⟩
    | saveConfig => exact ⟨hbefore, fun _ => rfl⟩
    | return_ hi => obtain h | h | h := hi <;> cases h
    | dequeue hi | handle hi | received _ hi => cases hi
    | listen hi | accepting hi | selected hi | accepted hi | serve hi =>
      obtain h | h := hi <;> cases h

/-- One thread moves on, or another one stays where it is. -/
theorem update_cases {status : DaemonThread → Status DaemonPc} {i j : DaemonThread}
    (h : Function.update status j st i = st') : i = j ∧ st = st' ∨ i ≠ j ∧ status i = st' := by
  by_cases hij : i = j
  · subst hij
    rw [Function.update_self] at h
    exact .inl ⟨rfl, h⟩
  · rw [Function.update_of_ne hij] at h
    exact .inr ⟨hij, h⟩

/-- A thread that can move on has not returned. -/
theorem not_returned (h : Joined s) (hmove : ThreadMove pf env i s.shared (s.status i) x' st) :
    i ∉ s.shared.returned := by
  intro hi
  rw [h.returned i hi] at hmove
  exact not_from_ended hmove

theorem joined_thread (h : Joined s) (hstatus : s'.status = Function.update s.status i st)
    (hmove : ThreadMove pf env i s.shared (s.status i) s'.shared st) : Joined s' where
  returned j hj := by
    have hself := not_returned h hmove
    rw [hstatus]
    rcases threadMove_returned hmove with hsame | ⟨rfl, -, hmore⟩
    · rw [hsame] at hj
      have hne : j ≠ i := fun heq => hself (heq ▸ hj)
      rw [Function.update_of_ne hne]
      exact h.returned j hj
    · rw [hmore] at hj
      by_cases hji : j = i
      · subst hji
        exact Function.update_self ..
      · rw [Function.update_of_ne hji]
        exact h.returned j ((List.mem_cons.mp hj).resolve_left hji)
  joined pc hpc j hj := by
    rw [hstatus] at hpc
    have hbefore : j ∈ s.shared.returned := by
      rcases update_cases hpc with ⟨rfl, rfl⟩ | ⟨-, hpc⟩
      · exact (threadMove_joined hmove h.joined).1 j hj
      · exact h.joined pc hpc j hj
    rcases threadMove_returned hmove with hsame | ⟨-, -, hmore⟩
    · rw [hsame]
      exact hbefore
    · rw [hmore]
      exact List.mem_cons_of_mem i hbefore
  saved hended := by
    rw [hstatus] at hended
    rcases update_cases hended with ⟨rfl, rfl⟩ | ⟨hmain, hended⟩
    · exact (threadMove_joined hmove h.joined).2 rfl
    · obtain ⟨hsaved, hkeeps⟩ := threadMove_config hmove (Ne.symm hmain)
      rw [hsaved, hkeeps]
      · exact h.saved hended
      · rintro rfl
        exact not_returned h hmove (h.joined .ended hended .action (by decide))

theorem joined_step {a : Action DaemonThread (DaemonChoice ε)} (h : Joined s)
    (hstep : DaemonStep pf env s a s') : Joined s' := by
  cases hstep with
  | thread _ hstatus hmove => exact joined_thread h hstatus hmove
  | spurious _ hstatus hshared =>
    exact
      { returned := hstatus ▸ hshared ▸ h.returned
        joined := hstatus ▸ hshared ▸ h.joined
        saved := hstatus ▸ hshared ▸ h.saved }
  | outside _ hstatus hx =>
    have hshared : s'.shared.returned = s.shared.returned ∧ s'.shared.saved = s.shared.saved ∧
        s'.shared.machine.Config = s.shared.machine.Config := by
      rcases outside_some hx with ⟨value, -, hx⟩ | ⟨machine, hconfig, hx⟩ <;> rw [hx]
      · exact ⟨rfl, rfl, rfl⟩
      · exact ⟨rfl, rfl, hconfig⟩
    obtain ⟨hreturned, hsaved, hconfig⟩ := hshared
    exact
      { returned := hstatus ▸ hreturned ▸ h.returned
        joined := hstatus ▸ hreturned ▸ h.joined
        saved := hstatus ▸ hsaved ▸ hconfig ▸ h.saved }

theorem joined_reaches {C : DaemonState ε → Action DaemonThread (DaemonChoice ε) → Prop}
    {machine : Machine ε} (h : (daemonMonitor pf env apci).system.Reaches C
      (daemonStarted machine) s) : Joined s := by
  induction h with
  | start =>
    refine ⟨fun i hi => ?_, fun pc hpc i hi => ?_, fun hended => ?_⟩
    · cases hi
    · cases hpc
      cases hi
    · cases hended
  | step hreach _ hnext ih =>
    exact joined_step ih (daemon_step (inProgram_reaches hreach) (next_step hnext))

end ShutdownLemmas

/-- `main` has joined all the threads. -/
def DaemonPc.AllJoined (pc : DaemonPc) : Prop := pc.joined = [.adc, .control, .action]

/-- What no thread touches any more. -/
structure Settled {ε : Type} (x x' : DaemonWorld ε) : Prop where
  Config : x'.machine.Config = x.machine.Config
  sent : x'.sent = x.sent
  taken : x'.queue.taken = x.queue.taken
  receivers : x'.receivers = x.receivers
  greeted : x'.greeted = x.greeted

namespace ShutdownLemmas

variable {ε : Type} {pf : Platform} {env : Env ε} {apci : Int} {s s' : DaemonState ε}
  {i : DaemonThread} {st st' : Status DaemonPc} {x x' : DaemonWorld ε}

theorem settled_refl (x : DaemonWorld ε) : Settled x x := ⟨rfl, rfl, rfl, rfl, rfl⟩

theorem settled_trans {x y z : DaemonWorld ε} (h : Settled x y) (h' : Settled y z) :
    Settled x z :=
  ⟨h'.Config.trans h.Config, h'.sent.trans h.sent, h'.taken.trans h.taken,
    h'.receivers.trans h.receivers, h'.greeted.trans h.greeted⟩

theorem ended_of_joined (h : Joined s) {pc : DaemonPc} (hmain : s.status .main = .running pc)
    (hjoined : pc.AllJoined) {i : DaemonThread} (hi : i ∈ [DaemonThread.adc, .control, .action]) :
    s.status i = .running .ended := by
  refine h.returned i (h.joined pc hmain i ?_)
  rw [hjoined]
  exact hi

/-- Only `main` behind its joins and the receiver threads are left. -/
theorem threadMove_settled (h : ThreadMove pf env i x st x' st')
    (hmain : i = .main → ∃ pc, st = .running pc ∧ pc.AllJoined)
    (hothers : i = .main ∨ ∃ k, i = .receiver k) :
    Settled x x' ∧ (i = .main → ∃ pc, st' = .running pc ∧ pc.AllJoined) := by
  have hnot (hi : i = .action ∨ i = .control ∨ i = .adc) : False := by
    obtain rfl | rfl | rfl := hi <;> obtain h | ⟨k, h⟩ := hothers <;> cases h
  have hqueue {q : QueuePc TActionQueueItem} (hst : st = .running (.queue q)) : i ≠ .main := by
    intro hi
    obtain ⟨pc, hpc, hjoined⟩ := hmain hi
    cases hst.symm.trans hpc
    cases hjoined
  cases h with
  | through => exact ⟨settled_refl x, fun hi => absurd hi (hqueue rfl)⟩
  | asleep hi | woken hi => exact (hnot (.inl hi)).elim
  | queue hrun =>
    refine ⟨?_, fun hi => absurd hi (hqueue rfl)⟩
    cases hrun with
    | push | enqueued => exact ⟨rfl, rfl, rfl, rfl, rfl⟩
    | loop hi | testStop hi | testDone hi | pop hi | dequeued _ hi => exact (hnot (.inl hi)).elim
  | world hmove =>
    cases hmove with
    | sleeping hi | setDone hi | cancelIrq _ hi =>
      obtain ⟨pc, hpc, hjoined⟩ := hmain hi
      cases hpc
      cases hjoined
    | join j hi hj hmem =>
      obtain ⟨pc, hpc, hjoined⟩ := hmain hi
      cases hpc
      simp only [List.mem_cons, Prod.mk.injEq, List.not_mem_nil, or_false] at hmem
      obtain ⟨-, rfl, -⟩ | ⟨-, rfl, -⟩ | ⟨-, rfl, -⟩ := hmem <;> cases hjoined
    | reset | saveConfig => exact ⟨⟨rfl, rfl, rfl, rfl, rfl⟩, fun _ => ⟨_, rfl, rfl⟩⟩
    | return_ hi => exact (hnot hi).elim
    | dequeue hi | handle hi => exact (hnot (.inl hi)).elim
    | listen hi | accepting hi | selected hi | accepted hi | serve hi =>
      exact (hnot (.inr hi)).elim
    | received item hi =>
      subst hi
      exact ⟨⟨rfl, rfl, rfl, rfl, rfl⟩, fun h => by cases h⟩

theorem settled_step {a : Action DaemonThread (DaemonChoice ε)} (h : Joined s) {pc : DaemonPc}
    (hmain : s.status .main = .running pc) (hjoined : pc.AllJoined)
    (hstep : DaemonStep pf env s a s') :
    Settled s.shared s'.shared ∧ ∃ n, s'.status .main = .running n ∧ n.AllJoined := by
  cases hstep with
  | @thread i st _ hstatus hmove =>
    have hself (hi : i = .main) : ∃ pc, s.status i = .running pc ∧ pc.AllJoined := by
      subst hi
      exact ⟨pc, hmain, hjoined⟩
    have hothers : i = .main ∨ ∃ k, i = .receiver k := by
      cases i with
      | main => exact .inl rfl
      | receiver k => exact .inr ⟨k, rfl⟩
      | action | control | adc =>
        rw [ended_of_joined h hmain hjoined (by decide)] at hmove
        exact absurd hmove not_from_ended
    obtain ⟨hsettled, hn⟩ := threadMove_settled hmove hself hothers
    refine ⟨hsettled, ?_⟩
    rw [hstatus]
    by_cases hi : i = .main
    · subst hi
      rw [Function.update_self]
      exact hn rfl
    · rw [Function.update_of_ne (Ne.symm hi)]
      exact ⟨pc, hmain, hjoined⟩
  | spurious _ hstatus hshared =>
    rw [hstatus, hshared]
    exact ⟨settled_refl _, pc, hmain, hjoined⟩
  | outside _ hstatus hx =>
    rw [hstatus]
    refine ⟨?_, pc, hmain, hjoined⟩
    rcases outside_some hx with ⟨value, -, hx⟩ | ⟨machine, hconfig, hx⟩ <;> rw [hx]
    · exact ⟨rfl, rfl, rfl, rfl, rfl⟩
    · exact ⟨hconfig, rfl, rfl, rfl, rfl⟩

end ShutdownLemmas

def exDaemonStarted : DaemonState Unit := daemonStarted (exWorld []).machine

/-- A signal stops the daemon, the threads return, and `main` joins them. -/
def exShutdown : List (Action DaemonThread (DaemonChoice Unit)) :=
  [.outside (.setDone true), .step .adc .none, .step .control .none, .step .action .none] ++
    List.replicate 5 (.step .main .none) ++ [.notify .main none] ++
    List.replicate 5 (.step .main .none)

/-- `main` saves, and a receiver thread has got another item. -/
def exEnding : List (Action DaemonThread (DaemonChoice Unit)) :=
  [.outside (.setDone false),
    .step (.receiver 0) (.received ⟨5, .heap { Id := 0x4D, DataItems := [] }⟩)] ++
    List.replicate 2 (.step (.receiver 0) .none) ++ List.replicate 2 (.step .main .none)

end EnetTcp
