import EnetTcp.Lib.Ring
import EnetTcp.Lib.Runs
import EnetTcp.Types

/-!
# The ADC streaming threads (adc.cpp)

`worker_main` copies the blocks that the driver reports into a ring and `log_main`
sends them. Two semaphores count the free and the filled slots. Each step below is
one semaphore operation, one section under the mutex, or one access to a flag; what
the driver, the semaphores and the socket answer is part of the step.
-/

namespace EnetTcp

abbrev RING_BUFFER_SLOTS : Nat := 255

instance : NeZero RING_BUFFER_SLOTS := ⟨by decide⟩

/-! ## 1. The state -/

/-- Where the worker thread stands. The names are those of the statement it is about
to execute; the locals of the slot loop go along. -/
inductive WorkerPc
  /-- No worker thread has been created. -/
  | absent
  /-- `done = 0`, the first statement. -/
  | entry
  | init
  | map
  | testLogger
  | clearTerminate
  | createLogger
  | noteLogger
  | loop
  | ready
  | waitIrq
  | stopStream
  | stopLogger
  | take (first_slot : Int) (i : Nat) (num_slots : Int)
  | copy (first_slot : Int) (i : Nat) (num_slots : Int)
  | post (first_slot : Int) (i : Nat) (num_slots : Int)
  | terminateLogger
  | wake
  | join
  | forgetLogger
  | idleConnection
  | idleWorker
  | ended
  deriving DecidableEq

/-- Where the logger thread stands. -/
inductive LoggerPc
  /-- No logger thread has been created. -/
  | absent
  /-- `AdcLoggerTerminate = false`, the first statement. -/
  | entry
  | readConn
  | loop
  | wait
  | send
  | post
  /-- `AdcStreamTerminate = true` after `EPIPE`. -/
  | pipeStream
  /-- `AdcLoggerTerminate = true` after `EPIPE`. -/
  | pipeLogger
  | ended
  deriving DecidableEq

/-- The globals that the streaming threads share with the rest of the daemon. -/
structure AdcGlobals where
  done : Bool := false
  AdcStreamTerminate : Bool := false
  AdcStreamingConnection : Int32 := -1
  AdcWorkerThreadID : Int := -1
  deriving DecidableEq

/-- All of adc.cpp, for blocks of type `β`. `copied` and `sent` are records, oldest
first: the blocks the worker has put into the ring, and those the logger has sent. -/
structure AdcStream (β : Type) where
  globals : AdcGlobals := {}
  AdcLoggerTerminate : Bool := false
  AdcLoggerThreadID : Int := -1
  empty : Nat := 0
  full : Nat := 0
  ring_buffer : Fin RING_BUFFER_SLOTS → β
  worker : WorkerPc := .absent
  logger_started : Bool := false
  logger : LoggerPc := .absent
  /-- The logger's copy of the connection. -/
  conn : Int32 := 0
  ring_read_index : Fin RING_BUFFER_SLOTS := 0
  copied : List β := []
  sent : List β := []

/-! ## 2. worker_main -/

/-- What the calls of one worker step answer. -/
structure WorkerAnswer (β : Type) where
  /-- The result of `sem_init`, `mmap`, `pthread_create` or `apci_wait_for_irq`. -/
  status : Int := 0
  first_slot : Int := 0
  num_slots : Int := 0
  /-- What the DMA buffer holds, slot by slot. -/
  mmap_addr : Fin RING_BUFFER_SLOTS → β

/-- `(first_slot + i) % RING_BUFFER_SLOTS`; a negative index is outside the ring. -/
def slotIndex (first_slot : Int) (i : Nat) : Option (Fin RING_BUFFER_SLOTS) :=
  let index := (first_slot + i).tmod RING_BUFFER_SLOTS
  if 0 ≤ index then some (Ring.slot RING_BUFFER_SLOTS index.toNat) else none

/-- The head of the slot loop. -/
def slotLoop (first_slot : Int) (i : Nat) (num_slots : Int) : WorkerPc :=
  if (i : Int) < num_slots then .take first_slot i num_slots else .loop

variable {β : Type}

/-- One step of `worker_main`, if the thread can take one. It blocks in
`sem_wait(&empty)` and in `pthread_join`. -/
def worker_main (answer : WorkerAnswer β) (s : AdcStream β) : Option (AdcStream β) :=
  match s.worker with
  | .absent => none
  | .entry => some { s with globals.done := false, logger_started := false, worker := .init }
  | .init =>
    if answer.status ≠ 0 then some { s with worker := .ended }
    else some { s with empty := RING_BUFFER_SLOTS, full := 0, worker := .map }
  | .map =>
    if answer.status ≠ 0 then some { s with worker := .ended }
    else some { s with worker := .testLogger }
  | .testLogger =>
    if s.AdcLoggerThreadID = -1 then some { s with worker := .clearTerminate }
    else some { s with worker := .loop }
  | .clearTerminate =>
    some { s with AdcLoggerTerminate := false, logger_started := true, worker := .createLogger }
  | .createLogger =>
    if answer.status ≠ 0 then some { s with logger_started := false, worker := .loop }
    else some { s with logger := .entry, worker := .noteLogger }
  | .noteLogger => some { s with AdcLoggerThreadID := 0, worker := .loop }
  | .loop =>
    if s.globals.done then some { s with worker := .terminateLogger }
    else some { s with worker := .ready }
  | .ready =>
    if answer.num_slots = 0 then some { s with worker := .waitIrq }
    else some { s with worker := slotLoop answer.first_slot 0 answer.num_slots }
  | .waitIrq =>
    if answer.status ≠ 0 then some { s with worker := .stopStream }
    else some { s with worker := .loop }
  | .stopStream => some { s with globals.AdcStreamTerminate := true, worker := .stopLogger }
  | .stopLogger => some { s with AdcLoggerTerminate := true, worker := .terminateLogger }
  | .take first_slot i num_slots =>
    if s.empty = 0 then none
    else some { s with empty := s.empty - 1, worker := .copy first_slot i num_slots }
  | .copy first_slot i num_slots =>
    -- an index outside the ring is undefined
    (slotIndex first_slot i).map fun slot =>
      { s with
        ring_buffer := Function.update s.ring_buffer slot (answer.mmap_addr slot)
        copied      := s.copied ++ [answer.mmap_addr slot]
        worker      := .post first_slot i num_slots }
  | .post first_slot i num_slots =>
    some { s with full := s.full + 1, worker := slotLoop first_slot (i + 1) num_slots }
  | .terminateLogger => some { s with AdcLoggerTerminate := true, worker := .wake }
  | .wake => some { s with full := s.full + 1, worker := .join }
  | .join =>
    if s.logger_started then
      if s.logger = .ended then some { s with logger_started := false, worker := .forgetLogger }
      else none
    else some { s with worker := .idleConnection }
  | .forgetLogger => some { s with AdcLoggerThreadID := -1, worker := .idleConnection }
  | .idleConnection =>
    some { s with globals.AdcStreamingConnection := -1, worker := .idleWorker }
  | .idleWorker => some { s with globals.AdcWorkerThreadID := -1, worker := .ended }
  | .ended => none

/-! ## 3. log_main -/

inductive TimedWait
  | taken
  | timedOut
  | failed
  deriving DecidableEq

inductive SendResult
  /-- The whole block has been sent. -/
  | whole
  /-- Less than a block, or an error that is not `EPIPE`. -/
  | other
  | brokenPipe
  deriving DecidableEq

/-- What the calls of one logger step answer. -/
structure LoggerAnswer where
  wait : TimedWait := .taken
  send : SendResult := .whole

/-- One step of `log_main`, if the thread can take one. -/
def log_main (answer : LoggerAnswer) (s : AdcStream β) : Option (AdcStream β) :=
  match s.logger with
  | .absent => none
  | .entry => some { s with AdcLoggerTerminate := false, logger := .readConn }
  | .readConn =>
    some { s with conn := s.globals.AdcStreamingConnection, ring_read_index := 0, logger := .loop }
  | .loop =>
    if s.AdcLoggerTerminate then some { s with logger := .ended }
    else some { s with logger := .wait }
  | .wait =>
    match answer.wait with
    | .taken => if s.full = 0 then none else some { s with full := s.full - 1, logger := .send }
    | .timedOut => some { s with logger := .loop }
    | .failed => some { s with logger := .ended }
  | .send =>
    match answer.send with
    | .whole =>
      some { s with sent := s.sent ++ [s.ring_buffer s.ring_read_index], logger := .post }
    | .other => some { s with logger := .post }
    | .brokenPipe => some { s with logger := .pipeStream }
  | .post =>
    some { s with
      empty           := s.empty + 1
      ring_read_index := s.ring_read_index + 1
      logger          := .loop }
  | .pipeStream => some { s with globals.AdcStreamTerminate := true, logger := .pipeLogger }
  | .pipeLogger => some { s with AdcLoggerTerminate := true, logger := .loop }
  | .ended => none

/-! ## 4. The two threads together -/

inductive AdcAction (β : Type)
  | worker_main (answer : WorkerAnswer β)
  | log_main (answer : LoggerAnswer)
  /-- Other threads and the signal handlers leave these values behind. -/
  | others (globals : AdcGlobals)

def adcSystem (β : Type) : StepSystem (AdcStream β) (AdcAction β) where
  next a s :=
    match a with
    | .worker_main answer => worker_main answer s
    | .log_main answer => log_main answer s
    | .others globals => some { s with globals }

/-- What `pthread_create` makes of the state: a worker at its first statement, with
nothing copied and nothing sent. -/
def AdcStream.createWorker (s : AdcStream β) : AdcStream β :=
  { s with worker := .entry, copied := [], sent := [] }

/-- A worker has just been created, and no logger runs. Everything else is as any
earlier stream has left it. -/
structure AdcStream.Created (s : AdcStream β) : Prop where
  worker : s.worker = .entry
  logger : s.logger = .absent ∨ s.logger = .ended
  copied : s.copied = []
  sent : s.sent = []

/-! ## 5. What a step does -/

/-- One constructor for each branch of `worker_main`.

* `entry` to `map`: the flags, the semaphores and the DMA memory, with `initFailed` and `mapFailed`
  as the ways out.
* `noLogger` to `noteLogger`: the logger thread is started unless its id is noted already.
* `leaveLoop`, `goOn`: the head of the loop looks at `done` only.
* `noSlots`, `slots`: the driver says how many slots are ready. `irq`, `irqFailed`, `stopStream`,
  `stopLogger`: when there are none the thread waits for the interrupt, whose failure is the end.
* `take`, `copy`, `post`: one slot goes into the ring buffer.
* `terminateLogger` to `forgetLogger`: the logger is told to end, woken and joined.
* `idleConnection`, `idleWorker`: a new stream may start. -/
inductive WorkerStep (answer : WorkerAnswer β) (s : AdcStream β) : AdcStream β → Prop
  | entry : s.worker = .entry →
      WorkerStep answer s { s with globals.done := false, logger_started := false, worker := .init }
  | initFailed : s.worker = .init → answer.status ≠ 0 →
      WorkerStep answer s { s with worker := .ended }
  | init : s.worker = .init → answer.status = 0 →
      WorkerStep answer s { s with empty := RING_BUFFER_SLOTS, full := 0, worker := .map }
  | mapFailed : s.worker = .map → answer.status ≠ 0 →
      WorkerStep answer s { s with worker := .ended }
  | map : s.worker = .map → answer.status = 0 → WorkerStep answer s { s with worker := .testLogger }
  | noLogger : s.worker = .testLogger → s.AdcLoggerThreadID = -1 →
      WorkerStep answer s { s with worker := .clearTerminate }
  | someLogger : s.worker = .testLogger → s.AdcLoggerThreadID ≠ -1 →
      WorkerStep answer s { s with worker := .loop }
  | clearTerminate : s.worker = .clearTerminate →
      WorkerStep answer s
        { s with AdcLoggerTerminate := false, logger_started := true, worker := .createLogger }
  | createFailed : s.worker = .createLogger → answer.status ≠ 0 →
      WorkerStep answer s { s with logger_started := false, worker := .loop }
  | createLogger : s.worker = .createLogger → answer.status = 0 →
      WorkerStep answer s { s with logger := .entry, worker := .noteLogger }
  | noteLogger : s.worker = .noteLogger →
      WorkerStep answer s { s with AdcLoggerThreadID := 0, worker := .loop }
  | leaveLoop : s.worker = .loop → s.globals.done = true →
      WorkerStep answer s { s with worker := .terminateLogger }
  | goOn : s.worker = .loop → s.globals.done = false →
      WorkerStep answer s { s with worker := .ready }
  | noSlots : s.worker = .ready → answer.num_slots = 0 →
      WorkerStep answer s { s with worker := .waitIrq }
  | slots : s.worker = .ready → answer.num_slots ≠ 0 →
      WorkerStep answer s { s with worker := slotLoop answer.first_slot 0 answer.num_slots }
  | irqFailed : s.worker = .waitIrq → answer.status ≠ 0 →
      WorkerStep answer s { s with worker := .stopStream }
  | irq : s.worker = .waitIrq → answer.status = 0 → WorkerStep answer s { s with worker := .loop }
  | stopStream : s.worker = .stopStream →
      WorkerStep answer s { s with globals.AdcStreamTerminate := true, worker := .stopLogger }
  | stopLogger : s.worker = .stopLogger →
      WorkerStep answer s { s with AdcLoggerTerminate := true, worker := .terminateLogger }
  | take {first_slot : Int} {i : Nat} {num_slots : Int} :
      s.worker = .take first_slot i num_slots → s.empty ≠ 0 →
      WorkerStep answer s { s with empty := s.empty - 1, worker := .copy first_slot i num_slots }
  | copy {first_slot : Int} {i : Nat} {num_slots : Int} {slot : Fin RING_BUFFER_SLOTS} :
      s.worker = .copy first_slot i num_slots → slotIndex first_slot i = some slot →
      WorkerStep answer s
        { s with
          ring_buffer := Function.update s.ring_buffer slot (answer.mmap_addr slot)
          copied      := s.copied ++ [answer.mmap_addr slot]
          worker      := .post first_slot i num_slots }
  | post {first_slot : Int} {i : Nat} {num_slots : Int} :
      s.worker = .post first_slot i num_slots →
      WorkerStep answer s
        { s with full := s.full + 1, worker := slotLoop first_slot (i + 1) num_slots }
  | terminateLogger : s.worker = .terminateLogger →
      WorkerStep answer s { s with AdcLoggerTerminate := true, worker := .wake }
  | wake : s.worker = .wake → WorkerStep answer s { s with full := s.full + 1, worker := .join }
  | join : s.worker = .join → s.logger_started = true → s.logger = .ended →
      WorkerStep answer s { s with logger_started := false, worker := .forgetLogger }
  | noJoin : s.worker = .join → s.logger_started = false →
      WorkerStep answer s { s with worker := .idleConnection }
  | forgetLogger : s.worker = .forgetLogger →
      WorkerStep answer s { s with AdcLoggerThreadID := -1, worker := .idleConnection }
  | idleConnection : s.worker = .idleConnection →
      WorkerStep answer s { s with globals.AdcStreamingConnection := -1, worker := .idleWorker }
  | idleWorker : s.worker = .idleWorker →
      WorkerStep answer s { s with globals.AdcWorkerThreadID := -1, worker := .ended }

theorem worker_main_step {answer : WorkerAnswer β} {s s' : AdcStream β}
    (h : worker_main answer s = some s') : WorkerStep answer s s' := by
  unfold worker_main at h
  split at h
  case h_1 => cases h
  case h_2 hpc =>
    cases h
    exact .entry hpc
  case h_3 hpc =>
    split at h <;> cases h
    case isTrue hstatus => exact .initFailed hpc hstatus
    case isFalse hstatus => exact .init hpc (Decidable.not_not.mp hstatus)
  case h_4 hpc =>
    split at h <;> cases h
    case isTrue hstatus => exact .mapFailed hpc hstatus
    case isFalse hstatus => exact .map hpc (Decidable.not_not.mp hstatus)
  case h_5 hpc =>
    split at h <;> cases h
    case isTrue hlogger => exact .noLogger hpc hlogger
    case isFalse hlogger => exact .someLogger hpc hlogger
  case h_6 hpc =>
    cases h
    exact .clearTerminate hpc
  case h_7 hpc =>
    split at h <;> cases h
    case isTrue hstatus => exact .createFailed hpc hstatus
    case isFalse hstatus => exact .createLogger hpc (Decidable.not_not.mp hstatus)
  case h_8 hpc =>
    cases h
    exact .noteLogger hpc
  case h_9 hpc =>
    split at h <;> cases h
    case isTrue hdone => exact .leaveLoop hpc hdone
    case isFalse hdone => exact .goOn hpc (Bool.not_eq_true _ ▸ hdone)
  case h_10 hpc =>
    split at h <;> cases h
    case isTrue hslots => exact .noSlots hpc hslots
    case isFalse hslots => exact .slots hpc hslots
  case h_11 hpc =>
    split at h <;> cases h
    case isTrue hstatus => exact .irqFailed hpc hstatus
    case isFalse hstatus => exact .irq hpc (Decidable.not_not.mp hstatus)
  case h_12 hpc =>
    cases h
    exact .stopStream hpc
  case h_13 hpc =>
    cases h
    exact .stopLogger hpc
  case h_14 hpc =>
    split at h <;> cases h
    case isFalse hempty => exact .take hpc hempty
  case h_15 hpc =>
    obtain ⟨slot, hslot, rfl⟩ := Option.map_eq_some_iff.mp h
    exact .copy hpc hslot
  case h_16 hpc =>
    cases h
    exact .post hpc
  case h_17 hpc =>
    cases h
    exact .terminateLogger hpc
  case h_18 hpc =>
    cases h
    exact .wake hpc
  case h_19 hpc =>
    split at h
    case isTrue hstarted =>
      split at h <;> cases h
      case isTrue hended => exact .join hpc hstarted hended
    case isFalse hstarted =>
      cases h
      exact .noJoin hpc (Bool.not_eq_true _ ▸ hstarted)
  case h_20 hpc =>
    cases h
    exact .forgetLogger hpc
  case h_21 hpc =>
    cases h
    exact .idleConnection hpc
  case h_22 hpc =>
    cases h
    exact .idleWorker hpc
  case h_23 => cases h

/-- One constructor for each branch of `log_main`.

* `entry`, `readConn`: the flag is cleared, and the connection is read once.
* `leaveLoop`, `goOn`: the head of the loop looks at `AdcLoggerTerminate`.
* `taken`, `timedOut`, `waitFailed`: the outcomes of the wait for a full slot. Without one in time
  the loop goes round again, and an error is the end.
* `whole`, `other`, `brokenPipe`: the outcomes of `send`. Only the first one puts the slot on the
  wire. `other` goes on as if it had, and `brokenPipe` asks both threads to end.
* `post`: the slot is free again.
* `pipeStream`, `pipeLogger`: what `brokenPipe` sets, one flag after the other. -/
inductive LoggerStep (answer : LoggerAnswer) (s : AdcStream β) : AdcStream β → Prop
  | entry : s.logger = .entry →
      LoggerStep answer s { s with AdcLoggerTerminate := false, logger := .readConn }
  | readConn : s.logger = .readConn →
      LoggerStep answer s
        { s with conn := s.globals.AdcStreamingConnection, ring_read_index := 0, logger := .loop }
  | leaveLoop : s.logger = .loop → s.AdcLoggerTerminate = true →
      LoggerStep answer s { s with logger := .ended }
  | goOn : s.logger = .loop → s.AdcLoggerTerminate = false →
      LoggerStep answer s { s with logger := .wait }
  | taken : s.logger = .wait → answer.wait = .taken → s.full ≠ 0 →
      LoggerStep answer s { s with full := s.full - 1, logger := .send }
  | timedOut : s.logger = .wait → answer.wait = .timedOut →
      LoggerStep answer s { s with logger := .loop }
  | waitFailed : s.logger = .wait → answer.wait = .failed →
      LoggerStep answer s { s with logger := .ended }
  | whole : s.logger = .send → answer.send = .whole →
      LoggerStep answer s
        { s with sent := s.sent ++ [s.ring_buffer s.ring_read_index], logger := .post }
  | other : s.logger = .send → answer.send = .other →
      LoggerStep answer s { s with logger := .post }
  | brokenPipe : s.logger = .send → answer.send = .brokenPipe →
      LoggerStep answer s { s with logger := .pipeStream }
  | post : s.logger = .post →
      LoggerStep answer s
        { s with
          empty           := s.empty + 1
          ring_read_index := s.ring_read_index + 1
          logger          := .loop }
  | pipeStream : s.logger = .pipeStream →
      LoggerStep answer s { s with globals.AdcStreamTerminate := true, logger := .pipeLogger }
  | pipeLogger : s.logger = .pipeLogger →
      LoggerStep answer s { s with AdcLoggerTerminate := true, logger := .loop }

theorem log_main_step {answer : LoggerAnswer} {s s' : AdcStream β}
    (h : log_main answer s = some s') : LoggerStep answer s s' := by
  unfold log_main at h
  split at h
  case h_1 => cases h
  case h_2 hpc =>
    cases h
    exact .entry hpc
  case h_3 hpc =>
    cases h
    exact .readConn hpc
  case h_4 hpc =>
    split at h <;> cases h
    case isTrue hterminate => exact .leaveLoop hpc hterminate
    case isFalse hterminate => exact .goOn hpc (Bool.not_eq_true _ ▸ hterminate)
  case h_5 hpc =>
    split at h
    case h_1 hwait =>
      split at h <;> cases h
      case isFalse hfull => exact .taken hpc hwait hfull
    case h_2 hwait =>
      cases h
      exact .timedOut hpc hwait
    case h_3 hwait =>
      cases h
      exact .waitFailed hpc hwait
  case h_6 hpc =>
    split at h <;> cases h
    case h_1 hsend => exact .whole hpc hsend
    case h_2 hsend => exact .other hpc hsend
    case h_3 hsend => exact .brokenPipe hpc hsend
  case h_7 hpc =>
    cases h
    exact .post hpc
  case h_8 hpc =>
    cases h
    exact .pipeStream hpc
  case h_9 hpc =>
    cases h
    exact .pipeLogger hpc
  case h_10 => cases h

end EnetTcp
