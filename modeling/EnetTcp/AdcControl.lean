import EnetTcp.AdcStream
import EnetTcp.Serving

/-!
# Starting and stopping the ADC stream

The receiver threads, the action thread, the signal handlers and the two streaming
threads, each taking its own steps:

* a receiver thread builds a message from a frame and puts it on the queue;
* the action thread takes a message off the queue and runs its items. The `Go` of
  `ADC_StreamStart` is cut at its accesses to the globals of adc.cpp, any other `Go`
  has at most one such access and is one step;
* the streaming threads are those of `adcSystem`.
-/

namespace EnetTcp

open Prog

variable {ε β : Type}

/-! ## 1. The state -/

/-- Where the action thread stands. `rest` are the items of the message in hand that
come after the one that is run. -/
inductive ActionPc
  /-- The head of the loop, and the wait for a message. -/
  | loop
  | items (items : List TDataItem)
  | clearTerminate (item : TDataItem) (rest : List TDataItem)
  | testWorker (item : TDataItem) (rest : List TDataItem)
  | createWorker (item : TDataItem) (rest : List TDataItem)
  /-- `AdcWorkerThreadID = 0` -/
  | noteWorker (rest : List TDataItem)
  | startDma (rest : List TDataItem)
  | ended
  deriving DecidableEq

/-- What all threads work on. `startedBy` is the record of the item whose `Go` has
created the last worker. -/
structure Daemon (ε β : Type) where
  adc : AdcStream β
  Config : TConfig := InitConfig
  upload : Upload := {}
  sys : Sys ε
  ActionQueue : List TActionQueueItem := []
  action : ActionPc := .loop
  startedBy : Option TDataItem := none

namespace Daemon

/-- What a `Go` works on. -/
def machine (d : Daemon ε β) : Machine ε where
  Config             := d.Config
  done               := d.adc.globals.done
  AdcStreamTerminate := d.adc.globals.AdcStreamTerminate
  AdcWorkerThreadID  := d.adc.globals.AdcWorkerThreadID
  upload             := d.upload
  sys                := d.sys

def setMachine (m : Machine ε) (d : Daemon ε β) : Daemon ε β :=
  { d with
    Config                         := m.Config
    adc.globals.done               := m.done
    adc.globals.AdcStreamTerminate := m.AdcStreamTerminate
    adc.globals.AdcWorkerThreadID  := m.AdcWorkerThreadID
    upload                         := m.upload
    sys                            := m.sys }

end Daemon

/-- A worker thread has been created and has not returned. -/
def WorkerPc.Alive (pc : WorkerPc) : Prop := pc ≠ .absent ∧ pc ≠ .ended

instance (pc : WorkerPc) : Decidable pc.Alive := inferInstanceAs (Decidable (_ ∧ _))

/-! ## 2. The Go of ADC_StreamStart, cut into steps -/

namespace TADC_StreamStart

variable (env : Env ε)

/-- `apciDmaTransferSize` and its error. -/
def transferSize : Prog Exn (Machine ε) Unit := do
  let status : Int ← io (syscall env .apci_dma_transfer_size)
  if status ≠ 0 then
    let what ← Prog.ofOption (errMsgOfStatus status)
    throw (.logicError what)

def clearTerminate : Prog Exn (Machine ε) Unit :=
  modify fun m => { m with AdcStreamTerminate := false }

/-- `pthread_create` and its error. -/
def createWorker : Prog Exn (Machine ε) Unit := do
  let rc : Int ← io (syscall env .pthread_create_worker)
  if rc ≠ 0 then throw (.logicError (text "failed to start ADC worker thread"))

def noteWorker : Prog Exn (Machine ε) Unit :=
  modify fun m => { m with AdcWorkerThreadID := 0 }

def startDma : Prog Exn (Machine ε) Unit := do
  let (_ : Int) ← io (syscall env .apci_start_dma)

/-- The pieces are all of it. -/
theorem Go_eq : TADC_StreamStart.Go env = (do
    transferSize env
    clearTerminate
    if (← get).AdcWorkerThreadID = -1 then
      createWorker env
      noteWorker
    startDma env) := by
  have hthrow {what : TBytes} {k : Unit → Prog Exn (Machine ε) Unit} :
      (throw (.logicError what) >>= k) = throw (.logicError what) := rfl
  have hite {c : Prop} [Decidable c] {p : Prog Exn (Machine ε) Unit}
      {k : Unit → Prog Exn (Machine ε) Unit} :
      ((if c then p else pure ()) >>= k) = if c then p >>= k else k () := by
    split <;> rfl
  simp only [TADC_StreamStart.Go, transferSize, clearTerminate, createWorker, noteWorker, startDma,
    bind_assoc, hite, hthrow]

variable {env} {m : Machine ε}

/-- What `apciDmaTransferSize` answers. -/
def transferStatus (env : Env ε) (s : Sys ε) : Int := (env.answer .apci_dma_transfer_size s.env).1

/-- What `pthread_create` answers. -/
def createStatus (env : Env ε) (s : Sys ε) : Int := (env.answer .pthread_create_worker s.env).1

/-- The machine after a call. -/
def called (env : Env ε) (c : SysCall) (m : Machine ε) : Machine ε :=
  { m with sys := { env := (env.answer c m.sys.env).2, calls := m.sys.calls ++ [c] } }

theorem transferSize_exec : (transferSize env).exec m =
    if transferStatus env m.sys = 0 then some (.ok (), called env .apci_dma_transfer_size m)
    else (errMsgOfStatus (transferStatus env m.sys)).map fun what =>
      (.error (.logicError what), called env .apci_dma_transfer_size m) := by
  have hrun : (transferSize env).exec m =
      exec (if transferStatus env m.sys ≠ 0 then do
          let what ← Prog.ofOption (errMsgOfStatus (transferStatus env m.sys))
          throw (.logicError what)
        else pure ()) (called env .apci_dma_transfer_size m) := rfl
  rw [hrun]
  by_cases hstatus : transferStatus env m.sys = 0
  · rw [if_neg (not_not.mpr hstatus), if_pos hstatus, exec_pure]
  · rw [if_pos hstatus, if_neg hstatus, exec_bind]
    cases errMsgOfStatus (transferStatus env m.sys) <;> rfl

theorem createWorker_exec : (createWorker env).exec m =
    if createStatus env m.sys = 0 then some (.ok (), called env .pthread_create_worker m)
    else some (.error (.logicError (text "failed to start ADC worker thread")),
      called env .pthread_create_worker m) := by
  have hrun : (createWorker env).exec m =
      exec (if createStatus env m.sys ≠ 0 then
          throw (.logicError (text "failed to start ADC worker thread"))
        else pure ()) (called env .pthread_create_worker m) := rfl
  rw [hrun]
  by_cases hrc : createStatus env m.sys = 0
  · rw [if_neg (not_not.mpr hrc), if_pos hrc, exec_pure]
  · rw [if_pos hrc, if_neg hrc, exec_throw]

end TADC_StreamStart

/-! ## 3. The steps -/

section Steps

variable (pf : Platform) (env : Env ε)

/-- Run a piece of a `Go`: on to `next`, or past the item when it throws. -/
def Daemon.piece (p : Prog Exn (Machine ε) Unit) (next : ActionPc) (rest : List TDataItem)
    (d : Daemon ε β) : Option (Daemon ε β) :=
  (p.exec d.machine).map fun r =>
    { d.setMachine r.2 with action := if r.1.isOk then next else .items rest }

/-- One step of `ActionThread`, if it can take one. On an empty queue it waits, and
reading a message that no longer exists is undefined. -/
def ActionThread (d : Daemon ε β) : Option (Daemon ε β) :=
  match d.action with
  | .loop =>
    if d.adc.globals.done then some { d with action := .ended }
    else match d.ActionQueue with
      | ⟨_, .heap m⟩ :: queue =>
        some { d with
          ActionQueue := queue
          action      := .items (if isRequest m.Id then m.DataItems else []) }
      | _ => none
  | .items [] => some { d with action := .loop }
  | .items (item :: rest) =>
    if item.params = .TADC_StreamStart then
      d.piece (TADC_StreamStart.transferSize env) (.clearTerminate item rest) rest
    else (goItem pf env item d.machine).map fun q => { d.setMachine q.2 with action := .items rest }
  | .clearTerminate item rest =>
    d.piece TADC_StreamStart.clearTerminate (.testWorker item rest) rest
  | .testWorker item rest =>
    if d.adc.globals.AdcWorkerThreadID = -1 then some { d with action := .createWorker item rest }
    else some { d with action := .startDma rest }
  | .createWorker item rest =>
    -- the state has room for one worker: no second one is created, `oneWorker_of_reachable`
    if d.adc.worker.Alive then none
    else match (TADC_StreamStart.createWorker env).exec d.machine with
      | some (.ok _, m) =>
        some { d.setMachine m with
          adc       := (d.setMachine m).adc.createWorker
          startedBy := some item
          action    := .noteWorker rest }
      | some (.error _, m) => some { d.setMachine m with action := .items rest }
      | none => none
  | .noteWorker rest => d.piece TADC_StreamStart.noteWorker (.startDma rest) rest
  | .startDma rest => d.piece (TADC_StreamStart.startDma env) (.items rest) rest
  | .ended => none

/-- A receiver thread makes a message of a frame and puts it on the queue. `seen` is
what the constructor of `ADC_StreamStart` has read from `AdcStreamingConnection`,
which another thread may have changed until the constructor writes to it. -/
def receiveFrame (Socket : Int) (buf : TBytes) (seen : Int32) (d : Daemon ε β) :
    Option (Daemon ε β) :=
  match (GotMessage pf buf).exec ⟨d.Config, seen⟩ with
  | some (.ok m, g) =>
    some { d with
      ActionQueue := d.ActionQueue ++ [⟨Socket, .heap m⟩]
      adc.globals.AdcStreamingConnection :=
        if g.AdcStreamingConnection = seen then d.adc.globals.AdcStreamingConnection
        else g.AdcStreamingConnection }
  -- the exception ends the daemon
  | _ => none

inductive DaemonAction (β : Type)
  | receive (Socket : Int) (buf : TBytes) (seen : Int32)
  | ActionThread
  | worker_main (answer : WorkerAnswer β)
  | log_main (answer : LoggerAnswer)
  /-- `abort_handler` and `exit_handler` -/
  | signal

def daemonSystem (β : Type) : StepSystem (Daemon ε β) (DaemonAction β) where
  next a d :=
    match a with
    | .receive Socket buf seen => receiveFrame pf Socket buf seen d
    | .ActionThread => ActionThread pf env d
    | .worker_main answer => (worker_main answer d.adc).map fun adc => { d with adc }
    | .log_main answer => (log_main answer d.adc).map fun adc => { d with adc }
    | .signal => some { d with adc.globals.done := true }

end Steps

/-! ## 4. What a step does -/

/-- One constructor for each branch of `ActionThread`.

* `leaveLoop`, `dequeue`: the thread ends, or takes a message.
* `item`: a `Go` of any class but `ADC_StreamStart` is one step. `reply`: there are no more items.
* `transferSize`, `transferFailed`, `clearTerminate`: `ADC_StreamStart` sets the size of a transfer
  and takes the request back that ends a stream.
* `noWorker`, `someWorker`, `createWorker`, `createFailed`, `noteWorker`: it creates a worker
  unless one is noted, and notes it afterwards.
* `startDma`: it starts the transfer. -/
inductive ActionStep (pf : Platform) (env : Env ε) (d : Daemon ε β) : Daemon ε β → Prop
  | leaveLoop : d.action = .loop → d.adc.globals.done = true →
      ActionStep pf env d { d with action := .ended }
  | dequeue {socket : Int} {m : TMessage} {queue : List TActionQueueItem} :
      d.action = .loop → d.adc.globals.done = false →
      d.ActionQueue = ⟨socket, .heap m⟩ :: queue →
      ActionStep pf env d
        { d with
          ActionQueue := queue
          action      := .items (if isRequest m.Id then m.DataItems else []) }
  | reply : d.action = .items [] → ActionStep pf env d { d with action := .loop }
  | item {item : TDataItem} {rest : List TDataItem} {q : GoResult} {m : Machine ε} :
      d.action = .items (item :: rest) → item.params ≠ .TADC_StreamStart →
      goItem pf env item d.machine = some (q, m) →
      ActionStep pf env d { d.setMachine m with action := .items rest }
  | transferSize {item : TDataItem} {rest : List TDataItem} (sys : Sys ε) :
      d.action = .items (item :: rest) → item.params = .TADC_StreamStart →
      TADC_StreamStart.transferStatus env d.sys = 0 →
      ActionStep pf env d { d with sys, action := .clearTerminate item rest }
  | transferFailed {item : TDataItem} {rest : List TDataItem} (sys : Sys ε) :
      d.action = .items (item :: rest) → item.params = .TADC_StreamStart →
      TADC_StreamStart.transferStatus env d.sys ≠ 0 →
      ActionStep pf env d { d with sys, action := .items rest }
  | clearTerminate {item : TDataItem} {rest : List TDataItem} :
      d.action = .clearTerminate item rest →
      ActionStep pf env d
        { d with adc.globals.AdcStreamTerminate := false, action := .testWorker item rest }
  | noWorker {item : TDataItem} {rest : List TDataItem} :
      d.action = .testWorker item rest → d.adc.globals.AdcWorkerThreadID = -1 →
      ActionStep pf env d { d with action := .createWorker item rest }
  | someWorker {item : TDataItem} {rest : List TDataItem} :
      d.action = .testWorker item rest → d.adc.globals.AdcWorkerThreadID ≠ -1 →
      ActionStep pf env d { d with action := .startDma rest }
  | createWorker {item : TDataItem} {rest : List TDataItem} (sys : Sys ε) :
      d.action = .createWorker item rest → ¬d.adc.worker.Alive →
      TADC_StreamStart.createStatus env d.sys = 0 →
      ActionStep pf env d
        { d with
          sys, adc := d.adc.createWorker, startedBy := some item, action := .noteWorker rest }
  | createFailed {item : TDataItem} {rest : List TDataItem} (sys : Sys ε) :
      d.action = .createWorker item rest →
      TADC_StreamStart.createStatus env d.sys ≠ 0 →
      ActionStep pf env d { d with sys, action := .items rest }
  | noteWorker {rest : List TDataItem} : d.action = .noteWorker rest →
      ActionStep pf env d
        { d with adc.globals.AdcWorkerThreadID := 0, action := .startDma rest }
  | startDma {rest : List TDataItem} (sys : Sys ε) : d.action = .startDma rest →
      ActionStep pf env d { d with sys, action := .items rest }

theorem ActionThread_step {pf : Platform} {env : Env ε} {d d' : Daemon ε β}
    (h : ActionThread pf env d = some d') : ActionStep pf env d d' := by
  have hsys : d.machine.sys = d.sys := rfl
  unfold ActionThread at h
  split at h
  case h_1 hpc =>
    split at h
    case isTrue hdone =>
      cases h
      exact .leaveLoop hpc hdone
    case isFalse hdone =>
      split at h
      case h_1 hqueue =>
        cases h
        exact .dequeue hpc (Bool.not_eq_true _ ▸ hdone) hqueue
      case h_2 => cases h
  case h_2 hpc =>
    cases h
    exact .reply hpc
  case h_3 item rest hpc =>
    split at h
    case isTrue hstart =>
      rw [Daemon.piece, TADC_StreamStart.transferSize_exec, hsys] at h
      by_cases hstatus : TADC_StreamStart.transferStatus env d.sys = 0
      · rw [if_pos hstatus] at h
        cases h
        exact .transferSize _ hpc hstart hstatus
      · rw [if_neg hstatus, Option.map_map, Option.map_eq_some_iff] at h
        obtain ⟨what, -, rfl⟩ := h
        exact .transferFailed _ hpc hstart hstatus
    case isFalse hstart =>
      obtain ⟨⟨q, m⟩, hrun, rfl⟩ := Option.map_eq_some_iff.mp h
      exact .item hpc hstart hrun
  case h_4 hpc =>
    cases h
    exact .clearTerminate hpc
  case h_5 hpc =>
    split at h <;> cases h
    case isTrue hworker => exact .noWorker hpc hworker
    case isFalse hworker => exact .someWorker hpc hworker
  case h_6 hpc =>
    split at h
    case isTrue => cases h
    case isFalse halive =>
      rw [TADC_StreamStart.createWorker_exec, hsys] at h
      by_cases hrc : TADC_StreamStart.createStatus env d.sys = 0
      · rw [if_pos hrc] at h
        cases h
        exact .createWorker _ hpc halive hrc
      · rw [if_neg hrc] at h
        cases h
        exact .createFailed _ hpc hrc
  case h_7 hpc =>
    cases h
    exact .noteWorker hpc
  case h_8 hpc =>
    cases h
    exact .startDma _ hpc
  case h_9 => cases h

/-! ## 5. The pieces together -/

/-- The action thread takes a step, and only it. -/
def ByAction (_ : Daemon ε β) (a : DaemonAction β) : Prop := a = .ActionThread

theorem byAction_step {pf : Platform} {env : Env ε} {d₀ d d' : Daemon ε β}
    (h : (daemonSystem pf env β).Reaches ByAction d₀ d) (hnext : ActionThread pf env d = some d') :
    (daemonSystem pf env β).Reaches ByAction d₀ d' := .step h rfl hnext

/-- Without a step of another thread in between, the pieces do what `Go` does. -/
theorem streamStart_steps {pf : Platform} {env : Env ε} {d : Daemon ε β} {item : TDataItem}
    {rest : List TDataItem} (hpc : d.action = .items (item :: rest))
    (hstart : item.params = .TADC_StreamStart)
    (halone : d.adc.globals.AdcWorkerThreadID = -1 → ¬d.adc.worker.Alive)
    {r : Except Exn Unit} {m : Machine ε}
    (hrun : (TADC_StreamStart.Go env).exec d.machine = some (r, m)) :
    ∃ d', (daemonSystem pf env β).Reaches ByAction d d' ∧ d'.action = .items rest ∧
      d'.machine = m := by
  have hfirst : ActionThread pf env d =
      d.piece (TADC_StreamStart.transferSize env) (.clearTerminate item rest) rest := by
    unfold ActionThread
    rw [hpc]
    exact if_pos hstart
  rw [TADC_StreamStart.Go_eq, exec_bind, TADC_StreamStart.transferSize_exec] at hrun
  rw [Daemon.piece, TADC_StreamStart.transferSize_exec] at hfirst
  by_cases hstatus : TADC_StreamStart.transferStatus env d.machine.sys = 0
  · rw [if_pos hstatus] at hrun hfirst
    -- after the call, and after `AdcStreamTerminate = 0`
    let m₁ := TADC_StreamStart.called env .apci_dma_transfer_size d.machine
    let m₂ := { m₁ with AdcStreamTerminate := false }
    let d₁ := { d.setMachine m₁ with action := .clearTerminate item rest }
    let d₂ := { d₁.setMachine m₂ with action := .testWorker item rest }
    have hreach : (daemonSystem pf env β).Reaches ByAction d d₂ :=
      byAction_step (byAction_step .start hfirst) rfl
    have hrun : exec (do
        if d.adc.globals.AdcWorkerThreadID = -1 then
          TADC_StreamStart.createWorker env
          TADC_StreamStart.noteWorker
        TADC_StreamStart.startDma env) m₂ = some (r, m) := hrun
    by_cases hid : d.adc.globals.AdcWorkerThreadID = -1
    · have hcreate : ActionThread pf env d₂ = some { d₂ with action := .createWorker item rest } :=
        if_pos hid
      let d₃ := { d₂ with action := .createWorker item rest }
      have hnext : ActionThread pf env d₃ =
          match (TADC_StreamStart.createWorker env).exec m₂ with
          | some (.ok _, m) =>
            some { d₃.setMachine m with
              adc       := (d₃.setMachine m).adc.createWorker
              startedBy := some item
              action    := .noteWorker rest }
          | some (.error _, m) => some { d₃.setMachine m with action := .items rest }
          | none => none := if_neg (halone hid)
      rw [if_pos hid, exec_bind, TADC_StreamStart.createWorker_exec] at hrun
      rw [TADC_StreamStart.createWorker_exec] at hnext
      by_cases hrc : TADC_StreamStart.createStatus env m₂.sys = 0
      · rw [if_pos hrc] at hrun hnext
        cases hrun
        have hnoted := byAction_step (byAction_step (byAction_step hreach hcreate) hnext) rfl
        exact ⟨_, byAction_step hnoted rfl, rfl, rfl⟩
      · rw [if_neg hrc] at hrun hnext
        cases hrun
        exact ⟨_, byAction_step (byAction_step hreach hcreate) hnext, rfl, rfl⟩
    · have hskip : ActionThread pf env d₂ = some { d₂ with action := .startDma rest } := if_neg hid
      rw [if_neg hid] at hrun
      cases hrun
      exact ⟨_, byAction_step (byAction_step hreach hskip) rfl, rfl, rfl⟩
  · rw [if_neg hstatus] at hrun hfirst
    cases hwhat : errMsgOfStatus (TADC_StreamStart.transferStatus env d.machine.sys) with
    | none =>
      rw [hwhat] at hrun
      cases hrun
    | some what =>
      rw [hwhat] at hrun hfirst
      cases hrun
      exact ⟨_, byAction_step .start hfirst, rfl, rfl⟩

end EnetTcp
