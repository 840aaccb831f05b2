import EnetTcp.AdcStream

/-!
# The stream of blocks

1. The worker is not left behind: as long as no burst of slots is larger than the
   number of free slots when the logger has gone, the worker does not wait for a
   slot that nobody can free.
2. What is sent is what was copied: as long as the logger does not take the post
   that wakes it at the end, it sends each block once, in order, before its slot is
   used again.
-/

namespace EnetTcp

variable {β : Type}

/-! ## 1. The worker is not left behind -/

/-- No thread is left that could post `empty`: the logger has left its loop, or none
could be created. -/
def AdcStream.NoLogger (s : AdcStream β) : Prop := s.logger = .absent ∨ s.logger = .ended

instance (s : AdcStream β) : Decidable s.NoLogger := inferInstanceAs (Decidable (_ ∨ _))

/-- The worker waits in `sem_wait(&empty)` at count 0, and nobody can post it. -/
def AdcStream.Stuck (s : AdcStream β) : Prop :=
  (∃ first_slot i num_slots, s.worker = .take first_slot i num_slots) ∧ s.empty = 0 ∧ s.NoLogger

/-- How often the worker has still to take `empty` before its slot loop ends. -/
def WorkerPc.remaining : WorkerPc → Nat
  | .take _ i num_slots => (num_slots - i).toNat
  | .copy _ i num_slots | .post _ i num_slots => (num_slots - (i + 1 : Nat)).toNat
  | _ => 0

/-- With this step the logger leaves its loop. -/
def AdcStream.LoggerLeaves (s : AdcStream β) (answer : LoggerAnswer) : Prop :=
  (s.logger = .loop ∧ s.AdcLoggerTerminate = true) ∨ (s.logger = .wait ∧ answer.wait = .failed)

instance (s : AdcStream β) (answer : LoggerAnswer) : Decidable (s.LoggerLeaves answer) :=
  inferInstanceAs (Decidable (_ ∨ _))

/-- The free slots are enough for what the worker has in hand when the logger leaves,
and for what the driver reports when no logger is left. -/
def EnoughEmpty (s : AdcStream β) : AdcAction β → Prop
  | .worker_main answer => s.worker = .ready ∧ s.NoLogger → answer.num_slots ≤ s.empty
  | .log_main answer => s.LoggerLeaves answer → s.worker.remaining ≤ s.empty
  | .others _ => True

instance : (s : AdcStream β) → (a : AdcAction β) → Decidable (EnoughEmpty s a)
  | s, .worker_main answer =>
    inferInstanceAs (Decidable (s.worker = .ready ∧ s.NoLogger → answer.num_slots ≤ s.empty))
  | s, .log_main answer =>
    inferInstanceAs (Decidable (s.LoggerLeaves answer → s.worker.remaining ≤ s.empty))
  | _, .others _ => inferInstanceAs (Decidable True)

namespace StreamingLemmas

/-- Without a logger there is a free slot for each that the worker has still to take. -/
structure Served (s : AdcStream β) : Prop where
  enough : s.NoLogger → s.worker.remaining ≤ s.empty
  inBurst : ∀ first_slot i num_slots, s.worker = .take first_slot i num_slots →
    (i : Int) < num_slots

theorem remaining_slotLoop (first_slot : Int) (i : Nat) (num_slots : Int) :
    (slotLoop first_slot i num_slots).remaining = (num_slots - i).toNat := by
  unfold slotLoop
  split
  · rfl
  · simp only [WorkerPc.remaining]
    omega

theorem inBurst_slotLoop {first_slot first_slot' : Int} {i i' : Nat} {num_slots num_slots' : Int}
    (h : slotLoop first_slot i num_slots = .take first_slot' i' num_slots') :
    (i' : Int) < num_slots' := by
  unfold slotLoop at h
  split at h
  · cases h
    assumption
  · cases h

/-- A statement outside the slot loop takes nothing. -/
theorem Served.outside {s : AdcStream β} (hremaining : s.worker.remaining = 0)
    (htake : ∀ first_slot i num_slots, s.worker ≠ .take first_slot i num_slots) : Served s :=
  ⟨fun _ => hremaining ▸ Nat.zero_le _, fun _ _ _ h => absurd h (htake _ _ _)⟩

theorem Served.worker_main {s s' : AdcStream β} {answer : WorkerAnswer β} (h : Served s)
    (hcond : EnoughEmpty s (.worker_main answer)) (hstep : WorkerStep answer s s') : Served s' := by
  cases hstep
  case slots hpc hslots =>
    refine ⟨fun hgone => ?_, fun _ _ _ htake => inBurst_slotLoop htake⟩
    have henough : answer.num_slots ≤ s.empty := hcond ⟨hpc, hgone⟩
    rw [remaining_slotLoop]
    show (answer.num_slots - (0 : Nat)).toNat ≤ s.empty
    omega
  case take first_slot i num_slots hpc hempty =>
    refine ⟨fun hgone => ?_, fun _ _ _ htake => nomatch htake⟩
    have henough := h.enough hgone
    rw [hpc] at henough
    simp only [WorkerPc.remaining] at henough ⊢
    omega
  case copy first_slot i num_slots slot hpc hslot =>
    refine ⟨fun hgone => ?_, fun _ _ _ htake => nomatch htake⟩
    have henough := h.enough hgone
    rw [hpc] at henough
    exact henough
  case post first_slot i num_slots hpc =>
    refine ⟨fun hgone => ?_, fun _ _ _ htake => inBurst_slotLoop htake⟩
    have henough := h.enough hgone
    rw [hpc] at henough
    rw [remaining_slotLoop]
    exact henough
  all_goals exact .outside rfl fun _ _ _ htake => nomatch htake

theorem Served.log_main {s s' : AdcStream β} {answer : LoggerAnswer} (h : Served s)
    (hcond : EnoughEmpty s (.log_main answer)) (hstep : LoggerStep answer s s') : Served s' := by
  cases hstep
  -- the two steps that end the logger are those that the condition is about
  case leaveLoop hpc hterminate => exact ⟨fun _ => hcond (.inl ⟨hpc, hterminate⟩), h.inBurst⟩
  case waitFailed hpc hwait => exact ⟨fun _ => hcond (.inr ⟨hpc, hwait⟩), h.inBurst⟩
  all_goals
    refine ⟨fun hgone => ?_, h.inBurst⟩
    rcases hgone with hgone | hgone <;> cases hgone

end StreamingLemmas

open StreamingLemmas

/-- In every state of the two threads that is reached with enough free slots. -/
theorem worker_not_stuck {s₀ s : AdcStream β} (hstart : s₀.Created)
    (h : (adcSystem β).Reaches EnoughEmpty s₀ s) : ¬s.Stuck := by
  have hserved : Served s := by
    refine h.invariant (I := Served) ?_ ?_
    · exact .outside (by rw [hstart.worker]; rfl) fun _ _ _ htake => by
        rw [hstart.worker] at htake
        cases htake
    · intro s a s' hs hcond hnext
      cases a with
      | worker_main answer => exact hs.worker_main hcond (worker_main_step hnext)
      | log_main answer => exact hs.log_main hcond (log_main_step hnext)
      | others globals =>
        cases hnext
        exact ⟨hs.enough, hs.inBurst⟩
  rintro ⟨⟨first_slot, i, num_slots, htake⟩, hempty, hgone⟩
  have henough := hserved.enough hgone
  have hburst := hserved.inBurst _ _ _ htake
  rw [htake, hempty] at henough
  simp only [WorkerPc.remaining] at henough
  omega

/-- A worker that has just been created for connection 5. -/
def exStream : AdcStream Nat where
  globals     := { AdcStreamingConnection := 5 }
  ring_buffer := fun _ => 0
  worker      := .entry

/-- A step of the worker in which every call succeeds. The DMA buffer holds the slot
numbers from 1 on. -/
def exWorker : AdcAction Nat := .worker_main { mmap_addr := fun slot => slot.val + 1 }

/-- The driver reports this many slots from the first one on. -/
def exReport (first_slot num_slots : Int) : AdcAction Nat :=
  .worker_main { first_slot, num_slots, mmap_addr := fun slot => slot.val + 1 }

/-- The worker has started the logger and asks the driver. -/
def exStarted : List (AdcAction Nat) := List.replicate 8 exWorker

/-- The logger starts, takes a block, finds the client gone and leaves. -/
def exBrokenPipe : List (AdcAction Nat) := List.replicate 8 (.log_main { send := .brokenPipe })

/-- The client is gone while the second of two slots waits to be taken. -/
theorem worker_not_stuck_broken_pipe :
    ∃ s, (adcSystem Nat).Reaches EnoughEmpty exStream s ∧ s.worker = .take 0 1 2 ∧
      s.logger = .ended ∧ ¬s.Stuck := by
  have hrun : ((adcSystem Nat).runWith EnoughEmpty
      (exStarted ++ exReport 0 2 :: List.replicate 3 exWorker ++ exBrokenPipe) exStream).map
      (fun s => decide (s.worker = .take 0 1 2 ∧ s.logger = .ended)) = some true := by
    decide +kernel
  obtain ⟨s, hreach, hs⟩ := StepSystem.exists_reaches_of_runWith hrun
  obtain ⟨hworker, hlogger⟩ := of_decide_eq_true hs
  exact ⟨s, hreach, hworker, hlogger, worker_not_stuck ⟨rfl, .inl rfl, rfl, rfl⟩ hreach⟩

/-- The ring is full when the logger leaves, and the driver reports one more slot. -/
theorem stuck_worker :
    ∃ s, exStream.Created ∧ (adcSystem Nat).Reachable exStream s ∧ s.Stuck := by
  have hrun : ((adcSystem Nat).run
      (exStarted ++ exReport 0 255 :: List.replicate (3 * 255) exWorker ++ exBrokenPipe ++
        [exWorker, exReport 0 1]) exStream).map
      (fun s => decide (s.worker = .take 0 0 1 ∧ s.empty = 0 ∧ s.NoLogger)) = some true := by
    decide +kernel
  obtain ⟨s, hreach, hs⟩ := StepSystem.exists_reachable_of_run hrun
  obtain ⟨hworker, hempty, hgone⟩ := of_decide_eq_true hs
  exact ⟨s, ⟨rfl, .inl rfl, rfl, rfl⟩, hreach, ⟨_, _, _, hworker⟩, hempty, hgone⟩

/-! ## 2. What is sent is what was copied -/

/-- How far the worker is with the slot in hand and with its end. -/
inductive WorkerStage
  /-- The semaphores are not initialised. -/
  | fresh
  /-- They are, and there is no logger yet. -/
  | initialised
  | between
  /-- A free slot is taken, and the block not copied. -/
  | holding
  /-- The block is copied and not posted. -/
  | owing
  /-- The post that wakes the logger at the end is made, and the logger may still run. -/
  | woken
  | gone
  deriving DecidableEq

def WorkerPc.stage : WorkerPc → WorkerStage
  | .entry | .init => .fresh
  | .map | .testLogger | .clearTerminate | .createLogger => .initialised
  | .copy .. => .holding
  | .post .. => .owing
  | .join => .woken
  | .absent | .forgetLogger | .idleConnection | .idleWorker | .ended => .gone
  | _ => .between

/-- The driver reports the slots one after the other from 0 on, and the socket takes
whole blocks. -/
def DriverInOrder (s : AdcStream β) : AdcAction β → Prop
  | .worker_main answer =>
    s.worker = .ready → answer.first_slot = (s.copied.length % RING_BUFFER_SLOTS : Nat)
  | .log_main answer => s.logger = .send → answer.send = .whole
  | .others _ => True

/-- The logger does not take the post that is there to wake it: once that post is made,
it does not take `full` at count 1. -/
def SparesWake (s : AdcStream β) : AdcAction β → Prop
  | .log_main answer =>
    s.logger = .wait ∧ answer.wait = .taken ∧ s.worker.stage = .woken → s.full ≠ 1
  | _ => True

instance : (s : AdcStream β) → (a : AdcAction β) → Decidable (DriverInOrder s a)
  | _, .worker_main _ => inferInstanceAs (Decidable (_ → _))
  | _, .log_main _ => inferInstanceAs (Decidable (_ → _))
  | _, .others _ => inferInstanceAs (Decidable True)

instance : (s : AdcStream β) → (a : AdcAction β) → Decidable (SparesWake s a)
  | _, .log_main _ => inferInstanceAs (Decidable (_ → _))
  | _, .worker_main _ | _, .others _ => inferInstanceAs (Decidable True)

/-- The blocks the logger has sent are the first ones the worker has copied, those that
are copied and not sent are still in the ring, and the next send is of the first of
them. -/
structure AdcStream.Intact (s : AdcStream β) : Prop where
  inOrder : s.sent <+: s.copied
  kept : ∀ j (h : j < s.copied.length), s.sent.length ≤ j →
    s.ring_buffer (Ring.slot RING_BUFFER_SLOTS j) = s.copied[j]
  copiedBefore : s.logger = .send → ∃ h : s.sent.length < s.copied.length,
    s.ring_buffer s.ring_read_index = s.copied[s.sent.length]

/-! The invariant: what the semaphores count. -/

namespace WorkerStage

/-- The semaphores are initialised, and a logger may run. -/
def Counting : WorkerStage → Prop
  | .fresh | .gone => False
  | _ => True

/-- Free slots the worker has taken and not used. -/
def held : WorkerStage → Nat
  | .holding => 1
  | _ => 0

/-- Blocks it has copied and not posted. -/
def owed : WorkerStage → Nat
  | .owing => 1
  | _ => 0

/-- Posts without a block. -/
def extra : WorkerStage → Nat
  | .woken => 1
  | _ => 0

end WorkerStage

/-- Filled slots the logger has taken and not sent. -/
def LoggerPc.held : LoggerPc → Nat
  | .send => 1
  | _ => 0

/-- Blocks it has sent and not posted. -/
def LoggerPc.owed : LoggerPc → Nat
  | .post => 1
  | _ => 0

/-- The logger has no filled slot in hand. -/
def LoggerPc.Resting : LoggerPc → Prop
  | .send | .post | .pipeStream | .pipeLogger => False
  | _ => True

/-- The slot in hand is the one for the next block. -/
def WorkerPc.Aligned (copied : Nat) : WorkerPc → Prop
  | .take first_slot i _ | .copy first_slot i _ =>
    ∃ k : Nat, first_slot = k ∧ (k + i) % RING_BUFFER_SLOTS = copied % RING_BUFFER_SLOTS
  | .post first_slot i _ =>
    ∃ k : Nat, first_slot = k ∧ (k + (i + 1)) % RING_BUFFER_SLOTS = copied % RING_BUFFER_SLOTS
  | _ => True

/-- The invariant of the buffer at a stage of the worker. -/
structure AdcStream.Buffered (s : AdcStream β) (stage : WorkerStage) : Prop where
  quiet : stage = .fresh ∨ stage = .initialised → s.NoLogger ∧ s.copied = [] ∧ s.sent = []
  running : ¬s.NoLogger → s.logger_started = true ∧ stage.Counting
  filled : stage.Counting →
    s.full + s.sent.length + s.logger.held + stage.owed = s.copied.length + stage.extra
  free : stage.Counting →
    s.empty + s.copied.length + stage.held + s.logger.owed = RING_BUFFER_SLOTS + s.sent.length
  unsent : s.logger = .entry ∨ s.logger = .readConn → s.sent = []
  index : s.logger = .loop ∨ s.logger = .wait ∨ s.logger = .send →
    s.ring_read_index = Ring.slot RING_BUFFER_SLOTS s.sent.length
  indexNext : s.logger = .post →
    s.ring_read_index + 1 = Ring.slot RING_BUFFER_SLOTS s.sent.length
  sending : s.logger = .send → s.sent.length < s.copied.length
  noPipe : s.logger ≠ .pipeStream ∧ s.logger ≠ .pipeLogger
  holds : Ring.Holds s.ring_buffer s.copied s.sent.length
  inOrder : s.sent = s.copied.take s.sent.length

/-- The invariant: the buffer, and the locals of the worker. -/
structure AdcStream.Streams (s : AdcStream β) : Prop where
  buffered : s.Buffered s.worker.stage
  aligned : s.worker.Aligned s.copied.length
  started : s.worker = .createLogger → s.logger_started = true

namespace StreamingLemmas

theorem slotIndex_nat (k i : Nat) :
    slotIndex k i = some (Ring.slot RING_BUFFER_SLOTS (k + i)) := by
  have hnat : ((k : Int) + i).tmod RING_BUFFER_SLOTS = ((k + i) % RING_BUFFER_SLOTS : Nat) := rfl
  unfold slotIndex
  simp only [hnat, Int.toNat_natCast]
  rw [if_pos (Int.natCast_nonneg _)]
  simp [Ring.slot, Fin.ofNat]

theorem aligned_slotLoop {copied k i : Nat} {num_slots : Int}
    (h : (k + i) % RING_BUFFER_SLOTS = copied % RING_BUFFER_SLOTS) :
    (slotLoop k i num_slots).Aligned copied := by
  unfold slotLoop
  split
  · exact ⟨k, rfl, h⟩
  · trivial

theorem slot_eq {j k : Nat} (h : j % RING_BUFFER_SLOTS = k % RING_BUFFER_SLOTS) :
    Ring.slot RING_BUFFER_SLOTS j = Ring.slot RING_BUFFER_SLOTS k := Fin.ext h

theorem held_of_noLogger {s : AdcStream β} (h : s.NoLogger) :
    s.logger.held = 0 ∧ s.logger.owed = 0 := by
  rcases h with h | h <;> rw [h] <;> exact ⟨rfl, rfl⟩

theorem held_of_resting {logger : LoggerPc} (h : logger.Resting) :
    logger.held = 0 ∧ logger.owed = 0 := by
  cases logger
  case send | post | pipeStream | pipeLogger => exact h.elim
  all_goals exact ⟨rfl, rfl⟩

end StreamingLemmas

open StreamingLemmas

namespace AdcStream

variable {s s' : AdcStream β} {stage : WorkerStage}

/-- Steps that touch neither the buffer nor the logger. -/
theorem Buffered.moved (h : s.Buffered stage) {globals : AdcGlobals} {terminate started : Bool}
    {id : Int} {worker : WorkerPc} (hstarted : ¬s.NoLogger → started = true) :
    Buffered
      { s with
        globals := globals, AdcLoggerTerminate := terminate, AdcLoggerThreadID := id
        logger_started := started, worker := worker } stage :=
  { h with running := fun hlogger => ⟨hstarted hlogger, (h.running hlogger).2⟩ }

/-- The same with the worker still at the same stage. -/
theorem Streams.moved (h : s.Streams) {globals : AdcGlobals} {terminate : Bool} {id : Int}
    {worker : WorkerPc} (hstage : worker.stage = s.worker.stage)
    (haligned : worker.Aligned s.copied.length) (hcreate : worker ≠ .createLogger) :
    Streams
      { s with
        globals := globals, AdcLoggerTerminate := terminate, AdcLoggerThreadID := id
        worker := worker } := by
  refine ⟨?_, haligned, fun h => absurd h hcreate⟩
  show Buffered _ worker.stage
  rw [hstage]
  exact h.buffered.moved fun hlogger => (h.buffered.running hlogger).1

/-- Without a logger the worker may end, or go on without one. -/
theorem Buffered.gone (h : s.Buffered stage) (hlogger : s.NoLogger) : s.Buffered .gone :=
  { h with
    quiet   := fun hstage => by rcases hstage with hstage | hstage <;> cases hstage
    running := fun hrunning => absurd hlogger hrunning
    filled  := fun hcounting => hcounting.elim
    free    := fun hcounting => hcounting.elim }

theorem Buffered.between (h : s.Buffered .initialised) : s.Buffered .between :=
  { h with
    quiet   := fun hstage => by rcases hstage with hstage | hstage <;> cases hstage
    running := fun hrunning => absurd (h.quiet (.inr rfl)).1 hrunning }

/-- The semaphores start at 255 and 0. -/
theorem Buffered.init (h : s.Buffered .fresh) :
    Buffered { s with empty := RING_BUFFER_SLOTS, full := 0, worker := .map } .initialised := by
  obtain ⟨hlogger, hcopied, hsent⟩ := h.quiet (.inl rfl)
  obtain ⟨hheld, howed⟩ := held_of_noLogger hlogger
  refine
    { h with
      quiet := fun _ => ⟨hlogger, hcopied, hsent⟩, running := ?_, filled := ?_, free := ?_ }
  · exact fun hrunning => absurd hlogger hrunning
  · intro _
    show 0 + s.sent.length + s.logger.held + 0 = s.copied.length + 0
    rw [hcopied, hsent, hheld]
    rfl
  · intro _
    show RING_BUFFER_SLOTS + s.copied.length + 0 + s.logger.owed = RING_BUFFER_SLOTS + s.sent.length
    rw [hcopied, hsent, howed]
    rfl

theorem Buffered.createLogger (h : s.Buffered .initialised) (hstarted : s.logger_started = true) :
    Buffered { s with logger := .entry, worker := .noteLogger } .between := by
  obtain ⟨hlogger, hcopied, hsent⟩ := h.quiet (.inr rfl)
  obtain ⟨hheld, howed⟩ := held_of_noLogger hlogger
  have hfilled := h.filled trivial
  have hfree := h.free trivial
  rw [hheld] at hfilled
  rw [howed] at hfree
  exact
    { quiet     := fun hstage => by rcases hstage with hstage | hstage <;> cases hstage
      running   := fun _ => ⟨hstarted, trivial⟩
      filled    := fun _ => hfilled
      free      := fun _ => hfree
      unsent    := fun _ => hsent
      index     := fun hpc => by rcases hpc with hpc | hpc | hpc <;> cases hpc
      indexNext := fun hpc => nomatch hpc
      sending   := fun hpc => nomatch hpc
      noPipe    := ⟨(nomatch ·), (nomatch ·)⟩
      holds     := h.holds
      inOrder   := h.inOrder }

/-- `sem_wait(&empty)` -/
theorem Buffered.take (h : s.Buffered .between) (hempty : s.empty ≠ 0) {worker : WorkerPc} :
    Buffered { s with empty := s.empty - 1, worker := worker } .holding := by
  have hfree := h.free trivial
  refine { h with quiet := ?_, free := ?_ }
  · exact fun hstage => by rcases hstage with hstage | hstage <;> cases hstage
  · intro _
    simp only [WorkerStage.held] at hfree ⊢
    omega

/-- `memcpy`: the slot of the next block is free. -/
theorem Buffered.copy (h : s.Buffered .holding) (block : β) {worker : WorkerPc} :
    Buffered
      { s with
        ring_buffer :=
          Function.update s.ring_buffer (Ring.slot RING_BUFFER_SLOTS s.copied.length) block
        copied      := s.copied ++ [block]
        worker      := worker } .owing := by
  have hfilled := h.filled trivial
  have hfree := h.free trivial
  simp only [WorkerStage.owed, WorkerStage.extra, WorkerStage.held] at hfilled hfree
  -- one of the 255 posts of `empty` is in hand, so the old block of the slot has been sent
  have hroom : s.copied.length < s.sent.length + RING_BUFFER_SLOTS := by omega
  refine { h with quiet := ?_, filled := ?_, free := ?_, sending := ?_, holds := ?_, inOrder := ?_ }
  · exact fun hstage => by rcases hstage with hstage | hstage <;> cases hstage
  · intro _
    simp only [WorkerStage.owed, WorkerStage.extra, List.length_append, List.length_singleton]
    omega
  · intro _
    simp only [WorkerStage.held, List.length_append, List.length_singleton]
    omega
  · intro hpc
    rw [List.length_append]
    exact Nat.lt_add_right _ (h.sending hpc)
  · exact h.holds.write hroom block
  · rw [List.take_append_of_le_length h.holds.le]
    exact h.inOrder

/-- `sem_post(&full)` in the loop. -/
theorem Buffered.post (h : s.Buffered .owing) {worker : WorkerPc} :
    Buffered { s with full := s.full + 1, worker := worker } .between := by
  have hfilled := h.filled trivial
  refine { h with quiet := ?_, filled := ?_ }
  · exact fun hstage => by rcases hstage with hstage | hstage <;> cases hstage
  · intro _
    simp only [WorkerStage.owed, WorkerStage.extra] at hfilled ⊢
    omega

/-- `sem_post(&full)` after the loop. -/
theorem Buffered.wake (h : s.Buffered .between) :
    Buffered { s with full := s.full + 1, worker := .join } .woken := by
  have hfilled := h.filled trivial
  refine { h with quiet := ?_, filled := ?_ }
  · exact fun hstage => by rcases hstage with hstage | hstage <;> cases hstage
  · intro _
    simp only [WorkerStage.owed, WorkerStage.extra] at hfilled ⊢
    omega

/-- Between two slots, and behind the last one, the worker has no slot in hand. -/
theorem stage_slotLoop (first_slot : Int) (i : Nat) (num_slots : Int) :
    (slotLoop first_slot i num_slots).stage = .between := by
  unfold slotLoop
  split <;> rfl

theorem Streams.worker_main {answer : WorkerAnswer β} (h : s.Streams)
    (hcond : DriverInOrder s (.worker_main answer)) (hstep : WorkerStep answer s s') :
    s'.Streams := by
  have hbuffered := h.buffered
  have haligned := h.aligned
  cases hstep
  case entry hpc =>
    rw [hpc] at hbuffered
    exact ⟨hbuffered.moved fun hlogger => absurd (hbuffered.quiet (.inl rfl)).1 hlogger, trivial,
      fun hpc => nomatch hpc⟩
  case initFailed hpc hstatus =>
    rw [hpc] at hbuffered
    have hgone := hbuffered.gone (hbuffered.quiet (.inl rfl)).1
    exact ⟨hgone.moved fun hlogger => (hgone.running hlogger).1, trivial, fun hpc => nomatch hpc⟩
  case init hpc hstatus =>
    rw [hpc] at hbuffered
    exact ⟨hbuffered.init, trivial, fun hpc => nomatch hpc⟩
  case mapFailed hpc hstatus =>
    rw [hpc] at hbuffered
    have hgone := hbuffered.gone (hbuffered.quiet (.inr rfl)).1
    exact ⟨hgone.moved fun hlogger => (hgone.running hlogger).1, trivial, fun hpc => nomatch hpc⟩
  case someLogger hpc hlogger =>
    rw [hpc] at hbuffered
    exact ⟨hbuffered.between.moved fun hlogger => (hbuffered.running hlogger).1, trivial,
      fun hpc => nomatch hpc⟩
  case clearTerminate hpc =>
    rw [hpc] at hbuffered
    exact ⟨hbuffered.moved fun _ => rfl, trivial, fun _ => rfl⟩
  case createFailed hpc hstatus =>
    rw [hpc] at hbuffered
    exact ⟨hbuffered.between.moved fun hlogger => absurd (hbuffered.quiet (.inr rfl)).1 hlogger,
      trivial, fun hpc => nomatch hpc⟩
  case createLogger hpc hstatus =>
    rw [hpc] at hbuffered
    exact ⟨hbuffered.createLogger (h.started hpc), trivial, fun hpc => nomatch hpc⟩
  case slots hpc hslots =>
    -- the driver goes on where it has stopped
    have hfirst : answer.first_slot = (s.copied.length % RING_BUFFER_SLOTS : Nat) := hcond hpc
    refine h.moved (by rw [stage_slotLoop, hpc]; rfl) ?_ ?_
    · rw [hfirst]
      exact aligned_slotLoop (Nat.mod_mod _ _)
    · intro hcreate
      have hstage := stage_slotLoop answer.first_slot 0 answer.num_slots
      rw [hcreate] at hstage
      cases hstage
  case take first_slot i num_slots hpc hempty =>
    rw [hpc] at hbuffered haligned
    exact ⟨hbuffered.take hempty, haligned, fun hpc => nomatch hpc⟩
  case copy first_slot i num_slots slot hpc hslot =>
    rw [hpc] at hbuffered haligned
    obtain ⟨k, rfl, hk⟩ := haligned
    rw [slotIndex_nat, slot_eq hk] at hslot
    cases hslot
    refine ⟨hbuffered.copy _, ⟨k, rfl, ?_⟩, fun hpc => nomatch hpc⟩
    rw [List.length_append, List.length_singleton, ← Nat.add_assoc]
    rw [Nat.add_mod, hk, ← Nat.add_mod]
  case post first_slot i num_slots hpc =>
    rw [hpc] at hbuffered haligned
    obtain ⟨k, rfl, hk⟩ := haligned
    have hstage := stage_slotLoop k (i + 1) num_slots
    refine ⟨?_, aligned_slotLoop hk, fun hcreate => ?_⟩
    · show Buffered _ (slotLoop k (i + 1) num_slots).stage
      rw [hstage]
      exact hbuffered.post
    · have hcreate : slotLoop k (i + 1) num_slots = .createLogger := hcreate
      rw [hcreate] at hstage
      cases hstage
  case wake hpc =>
    rw [hpc] at hbuffered
    exact ⟨hbuffered.wake, trivial, fun hpc => nomatch hpc⟩
  case join hpc hstarted hended =>
    have hgone := hbuffered.gone (.inr hended)
    exact ⟨hgone.moved fun hlogger => absurd (.inr hended) hlogger, trivial, fun hpc => nomatch hpc⟩
  case noJoin hpc hstarted =>
    -- a logger that runs has been noted in `logger_started`
    have hlogger : s.NoLogger := by
      refine Decidable.not_not.mp fun hlogger => ?_
      rw [(hbuffered.running hlogger).1] at hstarted
      cases hstarted
    have hgone := hbuffered.gone hlogger
    exact ⟨hgone.moved fun hrunning => absurd hlogger hrunning, trivial, fun hpc => nomatch hpc⟩
  all_goals
    exact h.moved (by rw [‹s.worker = _›]; rfl) trivial fun hpc => nomatch hpc

/-- While the logger lives the worker has got past its start. -/
theorem Buffered.not_quiet (h : s.Buffered stage) (hlogger : ¬s.NoLogger) {p : Prop} :
    stage = .fresh ∨ stage = .initialised → p :=
  fun hstage => absurd (h.quiet hstage).1 hlogger

/-- The logger goes on with no slot in hand before and after. -/
theorem Buffered.rests (h : s.Buffered stage) (hlogger : ¬s.NoLogger) (hfrom : s.logger.Resting)
    {logger : LoggerPc} {terminate : Bool} {conn : Int32} {index : Fin RING_BUFFER_SLOTS}
    (hto : logger.Resting) (hunsent : logger = .entry ∨ logger = .readConn → s.sent = [])
    (hindex : logger = .loop ∨ logger = .wait →
      index = Ring.slot RING_BUFFER_SLOTS s.sent.length) :
    Buffered
      { s with
        AdcLoggerTerminate := terminate, conn := conn, ring_read_index := index
        logger := logger } stage := by
  have hheld : logger.held = s.logger.held := (held_of_resting hto).1.trans
    (held_of_resting hfrom).1.symm
  have howed : logger.owed = s.logger.owed := (held_of_resting hto).2.trans
    (held_of_resting hfrom).2.symm
  exact
    { h with
      quiet     := h.not_quiet hlogger
      running   := fun _ => h.running hlogger
      filled    := hheld ▸ h.filled
      free      := howed ▸ h.free
      unsent    := hunsent
      index     := fun hpc => by
        rcases hpc with hpc | hpc | hpc
        · exact hindex (.inl hpc)
        · exact hindex (.inr hpc)
        · have hpc : logger = .send := hpc
          rw [hpc] at hto
          exact hto.elim
      indexNext := fun hpc => by
        have hpc : logger = .post := hpc
        rw [hpc] at hto
        exact hto.elim
      sending   := fun hpc => by
        have hpc : logger = .send := hpc
        rw [hpc] at hto
        exact hto.elim
      noPipe    := by
        constructor
        all_goals
          rintro rfl
          exact hto.elim }

/-- `sem_timedwait(&full)`: the post that is taken is not the last one of the end. -/
theorem Buffered.taken (h : s.Buffered stage) (hpc : s.logger = .wait) (hfull : s.full ≠ 0)
    (hspares : stage = .woken → s.full ≠ 1) :
    Buffered { s with full := s.full - 1, logger := .send } stage := by
  have hlogger : ¬s.NoLogger := by
    unfold NoLogger
    rw [hpc]
    decide
  have hcounting := (h.running hlogger).2
  have hfilled := h.filled hcounting
  have hfree := h.free hcounting
  rw [hpc] at hfilled hfree
  simp only [LoggerPc.held, LoggerPc.owed] at hfilled hfree
  refine
    { h with
      quiet := h.not_quiet hlogger, running := fun _ => h.running hlogger
      filled := fun _ => ?_, free := fun _ => hfree
      unsent := fun hpc => by rcases hpc with hpc | hpc <;> cases hpc
      index := fun _ => h.index (.inr (.inl hpc)), indexNext := (nomatch ·)
      sending := fun _ => ?_, noPipe := ⟨(nomatch ·), (nomatch ·)⟩ }
  · simp only [LoggerPc.held]
    omega
  · show s.sent.length < s.copied.length
    cases stage
    case woken =>
      -- one post has no block, and the logger leaves the last one
      have := hspares rfl
      simp only [WorkerStage.owed, WorkerStage.extra] at hfilled
      omega
    all_goals
      simp only [WorkerStage.owed, WorkerStage.extra] at hfilled
      omega

/-- `send`: the block in the slot is the next one. -/
theorem Buffered.whole (h : s.Buffered stage) (hpc : s.logger = .send) :
    Buffered { s with sent := s.sent ++ [s.ring_buffer s.ring_read_index], logger := .post }
      stage := by
  have hlogger : ¬s.NoLogger := by
    unfold NoLogger
    rw [hpc]
    decide
  have hcounting := (h.running hlogger).2
  have hfilled := h.filled hcounting
  have hfree := h.free hcounting
  rw [hpc] at hfilled hfree
  have hsending := h.sending hpc
  have hindex := h.index (.inr (.inr hpc))
  refine
    { h with
      quiet := h.not_quiet hlogger, running := fun _ => h.running hlogger
      filled := fun _ => ?_, free := fun _ => ?_
      unsent := fun hpc => by rcases hpc with hpc | hpc <;> cases hpc
      index := fun hpc => by rcases hpc with hpc | hpc | hpc <;> cases hpc
      indexNext := fun _ => ?_, sending := (nomatch ·)
      noPipe := ⟨(nomatch ·), (nomatch ·)⟩, holds := ?_, inOrder := ?_ }
  · simp only [LoggerPc.held, List.length_append, List.length_singleton] at hfilled ⊢
    omega
  · simp only [LoggerPc.owed, List.length_append, List.length_singleton] at hfree ⊢
    omega
  · rw [List.length_append, List.length_singleton]
    exact (congrArg (· + 1) hindex).trans (Ring.slot_succ _)
  · rw [List.length_append, List.length_singleton]
    exact h.holds.read hsending
  · rw [List.length_append, List.length_singleton, h.holds.take_succ hsending, ← h.inOrder,
      ← hindex]

/-- `sem_post(&empty)`, and on to the next slot. -/
theorem Buffered.posted (h : s.Buffered stage) (hpc : s.logger = .post) :
    Buffered
      { s with
        empty           := s.empty + 1
        ring_read_index := s.ring_read_index + 1
        logger          := .loop } stage := by
  have hlogger : ¬s.NoLogger := by
    unfold NoLogger
    rw [hpc]
    decide
  have hcounting := (h.running hlogger).2
  have hfilled := h.filled hcounting
  have hfree := h.free hcounting
  rw [hpc] at hfilled hfree
  exact
    { h with
      quiet := h.not_quiet hlogger, running := fun _ => h.running hlogger
      filled := fun _ => hfilled
      free := fun _ => by
        simp only [LoggerPc.owed] at hfree ⊢
        omega
      unsent := fun hpc => by rcases hpc with hpc | hpc <;> cases hpc
      index := fun _ => h.indexNext hpc, indexNext := (nomatch ·), sending := (nomatch ·)
      noPipe := ⟨(nomatch ·), (nomatch ·)⟩ }

/-- The logger has no block in hand, at the head of its loop, in its wait or past its end. -/
theorem Streams.looped (h : s.Streams) (hfrom : s.logger = .loop ∨ s.logger = .wait)
    {logger : LoggerPc} (hto : logger = .loop ∨ logger = .wait ∨ logger = .ended) :
    Streams { s with logger := logger } := by
  have hlogger : ¬s.NoLogger := by
    unfold NoLogger
    rcases hfrom with hpc | hpc <;> rw [hpc] <;> decide
  have hresting : s.logger.Resting := by
    rcases hfrom with hpc | hpc <;> rw [hpc] <;> trivial
  refine ⟨h.buffered.rests hlogger hresting ?_ ?_ fun _ => h.buffered.index (hfrom.imp_right .inl),
    h.aligned, h.started⟩
  · rcases hto with rfl | rfl | rfl <;> trivial
  · intro hpc
    rcases hto with rfl | rfl | rfl <;> rcases hpc with hpc | hpc <;> cases hpc

/-- The worker stays where it is, and so does what it knows. -/
theorem Streams.log_main {answer : LoggerAnswer} (h : s.Streams)
    (hcond : DriverInOrder s (.log_main answer)) (hspares : SparesWake s (.log_main answer))
    (hstep : LoggerStep answer s s') : s'.Streams := by
  have hbuffered := h.buffered
  have hrest : ∀ logger, s.logger = logger → logger.Resting → logger ≠ .absent ∧ logger ≠ .ended →
      ¬s.NoLogger ∧ s.logger.Resting := by
    rintro logger rfl hresting hlive
    exact ⟨fun hgone => hgone.elim hlive.1 hlive.2, hresting⟩
  cases hstep
  case entry hpc =>
    obtain ⟨hlogger, hfrom⟩ := hrest _ hpc trivial (by decide)
    exact ⟨hbuffered.rests hlogger hfrom trivial (fun _ => hbuffered.unsent (.inl hpc))
      fun hpc => (by rcases hpc with hpc | hpc <;> cases hpc), h.aligned, h.started⟩
  case readConn hpc =>
    obtain ⟨hlogger, hfrom⟩ := hrest _ hpc trivial (by decide)
    refine ⟨hbuffered.rests hlogger hfrom trivial ?_ fun _ => ?_, h.aligned, h.started⟩
    · exact fun _ => hbuffered.unsent (.inr hpc)
    · rw [hbuffered.unsent (.inr hpc)]
      rfl
  case leaveLoop hpc _ => exact h.looped (.inl hpc) (.inr (.inr rfl))
  case goOn hpc _ => exact h.looped (.inl hpc) (.inr (.inl rfl))
  case taken hpc hwait hfull =>
    have htaken := hbuffered.taken hpc hfull fun hwoken => hspares ⟨hpc, hwait, hwoken⟩
    exact ⟨htaken, h.aligned, h.started⟩
  case timedOut hpc _ => exact h.looped (.inr hpc) (.inl rfl)
  case waitFailed hpc _ => exact h.looped (.inr hpc) (.inr (.inr rfl))
  case whole hpc hsend => exact ⟨hbuffered.whole hpc, h.aligned, h.started⟩
  case other hpc hsend => cases hsend.symm.trans (hcond hpc)
  case brokenPipe hpc hsend => cases hsend.symm.trans (hcond hpc)
  case post hpc => exact ⟨hbuffered.posted hpc, h.aligned, h.started⟩
  case pipeStream hpc => exact absurd hpc hbuffered.noPipe.1
  case pipeLogger hpc => exact absurd hpc hbuffered.noPipe.2

theorem Streams.created (h : s.Created) : s.Streams := by
  have hstage : s.worker.stage = .fresh := by
    rw [h.worker]
    rfl
  refine ⟨?_, ?_, fun hpc => ?_⟩
  · rw [hstage]
    refine
      { quiet := fun _ => ⟨h.logger, h.copied, h.sent⟩
        running := fun hrunning => absurd h.logger hrunning
        filled := False.elim, free := False.elim, unsent := fun _ => h.sent
        index := ?_, indexNext := ?_, sending := ?_, noPipe := ?_, holds := ?_, inOrder := ?_ }
    · intro hpc
      rcases h.logger with hlogger | hlogger <;> rw [hlogger] at hpc <;>
        rcases hpc with hpc | hpc | hpc <;> cases hpc
    · rcases h.logger with hlogger | hlogger <;> rw [hlogger] <;> exact (nomatch ·)
    · rcases h.logger with hlogger | hlogger <;> rw [hlogger] <;> exact (nomatch ·)
    · rcases h.logger with hlogger | hlogger <;> rw [hlogger] <;> decide
    · rw [h.copied, h.sent]
      exact Ring.holds_nil
    · rw [h.copied, h.sent]
      rfl
  · rw [h.worker]
    trivial
  · rw [h.worker] at hpc
    cases hpc

theorem Streams.intact (h : s.Streams) : s.Intact where
  inOrder := h.buffered.inOrder ▸ List.take_prefix _ _
  kept := h.buffered.holds.kept
  copiedBefore hpc := by
    refine ⟨h.buffered.sending hpc, ?_⟩
    rw [h.buffered.index (.inr (.inr hpc))]
    exact h.buffered.holds.kept _ (h.buffered.sending hpc) (Nat.le_refl _)

end AdcStream

/-- In every state of the two threads that is reached while the logger spares the post
that wakes it. -/
theorem stream_intact {s₀ s : AdcStream β} (hstart : s₀.Created)
    (h : (adcSystem β).Reaches (fun s a => DriverInOrder s a ∧ SparesWake s a) s₀ s) :
    s.Intact := by
  refine AdcStream.Streams.intact (h.invariant (AdcStream.Streams.created hstart) ?_)
  rintro s a s' hs ⟨hcond, hspares⟩ hnext
  cases a with
  | worker_main answer => exact hs.worker_main hcond (worker_main_step hnext)
  | log_main answer => exact hs.log_main hcond hspares (log_main_step hnext)
  | others globals =>
    cases hnext
    exact ⟨hs.buffered.moved fun hlogger => (hs.buffered.running hlogger).1, hs.aligned, hs.started⟩

/-- Two blocks are copied, and both are sent. -/
theorem stream_intact_two_blocks :
    ∃ s, (adcSystem Nat).Reaches (fun s a => DriverInOrder s a ∧ SparesWake s a) exStream s ∧
      s.sent = [1, 2] ∧ s.Intact := by
  have hrun : ((adcSystem Nat).runWith (fun s a => DriverInOrder s a ∧ SparesWake s a)
      (exStarted ++ exReport 0 2 :: List.replicate 6 exWorker ++
        List.replicate 11 (.log_main {})) exStream).map
      (fun s => decide (s.sent = [1, 2])) = some true := by
    decide +kernel
  obtain ⟨s, hreach, hs⟩ := StepSystem.exists_reaches_of_runWith hrun
  exact ⟨s, hreach, of_decide_eq_true hs, stream_intact ⟨rfl, .inl rfl, rfl, rfl⟩ hreach⟩

/-- The wait for data is cancelled before the first block. The logger is woken and
sends a slot into which nothing has been copied. -/
theorem stale_block_sent :
    ∃ s, exStream.Created ∧ (adcSystem Nat).Reaches DriverInOrder exStream s ∧
      s.copied = [] ∧ s.sent = [0] ∧ ¬s.Intact := by
  have hrun : ((adcSystem Nat).runWith DriverInOrder
      (exStarted ++ List.replicate 3 (.log_main {}) ++ [exWorker] ++
        [.worker_main { status := -1, mmap_addr := fun slot => slot.val + 1 }] ++
        List.replicate 4 exWorker ++ List.replicate 2 (.log_main {})) exStream).map
      (fun s => decide (s.copied = [] ∧ s.sent = [0])) = some true := by
    decide +kernel
  obtain ⟨s, hreach, hs⟩ := StepSystem.exists_reaches_of_runWith hrun
  obtain ⟨hcopied, hsent⟩ := of_decide_eq_true hs
  refine ⟨s, ⟨rfl, .inl rfl, rfl, rfl⟩, hreach, hcopied, hsent, fun hintact => ?_⟩
  have := hintact.inOrder
  rw [hcopied, hsent] at this
  cases List.prefix_nil.mp this

end EnetTcp
