import EnetTcp.AdcControl
import EnetTcp.Crashes
import EnetTcp.Streaming

/-!
# The claim on the ADC stream

1. `done` stays set, as long as no worker starts after it has been set.
2. There is never a second worker.
3. While a worker streams, the stream is claimed for the connection of the item that
   started it, as long as every claim is of four bytes and not of -1.
4. No claim is left behind, as long as nothing fails on the way from the claim to
   its worker.
-/

namespace EnetTcp

open Prog

variable {ε β : Type} {pf : Platform} {env : Env ε}

/-! ## 1. Shutdown -/

/-- The first statement of the worker runs while nobody has asked for the end. -/
def StartsBeforeDone (d : Daemon ε β) : DaemonAction β → Prop
  | .worker_main _ => d.adc.worker = .entry → d.adc.globals.done = false
  | _ => True

instance : (d : Daemon ε β) → (a : DaemonAction β) → Decidable (StartsBeforeDone d a)
  | _, .worker_main _ => inferInstanceAs (Decidable (_ → _))
  | _, .receive .. | _, .ActionThread | _, .log_main _ | _, .signal =>
    inferInstanceAs (Decidable True)

namespace ClaimLemmas

/-- No `Go` takes the request back. -/
theorem changes_done {id : DataItemIds} {this : TItemBody} {m m' : Machine ε}
    (h : Changes pf env id this m m') (hdone : m.done = true) : m'.done = true := by
  induction h with
  | refl => exact hdone
  | tail _ hchange ih => cases hchange <;> first | exact ih | rfl

theorem receiveFrame_some {Socket : Int} {buf : TBytes} {seen : Int32} {d d' : Daemon ε β}
    (h : receiveFrame pf Socket buf seen d = some d') :
    ∃ m g, (GotMessage pf buf).exec ⟨d.Config, seen⟩ = some (.ok m, g) ∧
      d' = { d with
        ActionQueue := d.ActionQueue ++ [⟨Socket, .heap m⟩]
        adc.globals.AdcStreamingConnection :=
          if g.AdcStreamingConnection = seen then d.adc.globals.AdcStreamingConnection
          else g.AdcStreamingConnection } := by
  unfold receiveFrame at h
  split at h
  case h_1 m g hrun =>
    cases h
    exact ⟨m, g, hrun, rfl⟩
  case h_2 => cases h

end ClaimLemmas

open ClaimLemmas

theorem ActionStep.done {d d' : Daemon ε β} (h : ActionStep pf env d d')
    (hdone : d.adc.globals.done = true) : d'.adc.globals.done = true := by
  cases h
  case item hpc hstart hrun => exact changes_done (goItem_effect hrun).1 hdone
  all_goals exact hdone

theorem WorkerStep.done {answer : WorkerAnswer β} {s s' : AdcStream β}
    (h : WorkerStep answer s s') (hentry : s.worker = .entry → s.globals.done = false)
    (hdone : s.globals.done = true) : s'.globals.done = true := by
  cases h
  case entry hpc => cases hdone.symm.trans (hentry hpc)
  all_goals exact hdone

theorem LoggerStep.globals {answer : LoggerAnswer} {s s' : AdcStream β}
    (h : LoggerStep answer s s') : s'.globals.done = s.globals.done ∧
      s'.globals.AdcStreamingConnection = s.globals.AdcStreamingConnection ∧
      s'.globals.AdcWorkerThreadID = s.globals.AdcWorkerThreadID ∧ s'.worker = s.worker := by
  cases h <;> exact ⟨rfl, rfl, rfl, rfl⟩

/-- In every run without a worker that starts too late. -/
theorem done_stays {d d' : Daemon ε β} (hdone : d.adc.globals.done = true)
    (h : (daemonSystem pf env β).Reaches StartsBeforeDone d d') :
    d'.adc.globals.done = true := by
  refine h.invariant (I := fun d => d.adc.globals.done = true) hdone ?_
  intro d a d' hdone hcond hnext
  cases a with
  | receive Socket buf seen =>
    obtain ⟨m, g, -, rfl⟩ := receiveFrame_some hnext
    exact hdone
  | ActionThread => exact (ActionThread_step hnext).done hdone
  | worker_main answer =>
    obtain ⟨adc, hadc, rfl⟩ := Option.map_eq_some_iff.mp hnext
    exact (worker_main_step hadc).done hcond hdone
  | log_main answer =>
    obtain ⟨adc, hadc, rfl⟩ := Option.map_eq_some_iff.mp hnext
    exact (log_main_step hadc).globals.1.trans hdone
  | signal =>
    cases hnext
    rfl

/-- A daemon that has just started. -/
def exDaemon : Daemon Unit Nat where
  adc := { ring_buffer := fun _ => 0 }
  sys := { env := (), calls := [] }

/-- A command that starts the stream for connection 5 and then stops the daemon. -/
def exStartAndReboot : TBytes :=
  frameBytes 67 [itemBytes DataItemIds.ADC_StreamStart [5, 0, 0, 0],
    itemBytes DataItemIds.BRD_REBOOT [0x18, 0x2D, 0x44, 0x54, 0xFB, 0x21, 0x09, 0x40]]

/-- The action thread runs both items. -/
def exRunBoth : List (DaemonAction Nat) :=
  .receive 5 exStartAndReboot (-1) :: List.replicate 8 .ActionThread

def exWorkerStep : DaemonAction Nat := .worker_main { mmap_addr := fun _ => 0 }

/-- The worker starts, the daemon is told to stop, and the worker goes on. -/
theorem done_stays_reboot :
    ∃ d d' : Daemon Unit Nat, (daemonSystem exPlatform exEnv Nat).Reachable exDaemon d ∧
      (daemonSystem exPlatform exEnv Nat).Reaches StartsBeforeDone d d' ∧
      d'.adc.worker = .map ∧ d'.adc.globals.done = true := by
  have hrun : (((daemonSystem exPlatform exEnv Nat).runWith (fun _ _ => True)
      (exRunBoth.take 7 ++ exWorkerStep :: exRunBoth.drop 7) exDaemon).bind fun d =>
      ((daemonSystem exPlatform exEnv Nat).runWith StartsBeforeDone [exWorkerStep] d).map fun d' =>
        decide (d.adc.globals.done = true ∧ d'.adc.worker = .map)) = some true := by
    decide +kernel
  obtain ⟨d, d', hreach, hreach', hd⟩ := StepSystem.exists_reaches_of_runs hrun
  obtain ⟨hdone, hworker⟩ := of_decide_eq_true hd
  exact ⟨d, d', hreach, hreach', hworker, done_stays hdone hreach'⟩

/-- The worker takes its first step when both items have been run. -/
theorem reboot_lost :
    ∃ d d' : Daemon Unit Nat, (daemonSystem exPlatform exEnv Nat).Reachable exDaemon d ∧
      d.adc.globals.done = true ∧ (daemonSystem exPlatform exEnv Nat).Reachable d d' ∧
      d'.adc.globals.done = false := by
  have hrun : (((daemonSystem exPlatform exEnv Nat).runWith (fun _ _ => True) exRunBoth
      exDaemon).bind fun d =>
      ((daemonSystem exPlatform exEnv Nat).runWith (fun _ _ => True) [exWorkerStep] d).map fun d' =>
        decide (d.adc.globals.done = true ∧ d'.adc.globals.done = false)) = some true := by
    decide +kernel
  obtain ⟨d, d', hreach, hreach', hd⟩ := StepSystem.exists_reaches_of_runs hrun
  obtain ⟨hdone, hdone'⟩ := of_decide_eq_true hd
  exact ⟨d, d', hreach, hdone, hreach', hdone'⟩

/-! ## 2. One worker -/

/-- Nothing has been received yet, and nothing runs but the action thread. -/
structure Daemon.Started (d : Daemon ε β) : Prop where
  globals : d.adc.globals = {}
  worker : d.adc.worker = .absent
  logger : d.adc.logger = .absent
  ActionQueue : d.ActionQueue = []
  action : d.action = .loop

/-- A living worker is noted, or about to be; and one is created only when there is none. -/
structure Daemon.OneWorker (d : Daemon ε β) : Prop where
  noted : d.adc.worker.Alive →
    d.adc.globals.AdcWorkerThreadID ≠ -1 ∨ ∃ rest, d.action = .noteWorker rest
  alone : ∀ item rest, d.action = .createWorker item rest → ¬d.adc.worker.Alive

namespace ClaimLemmas

/-- Only the `Go` of `ADC_StreamStart` notes a worker. -/
theorem changes_worker {id : DataItemIds} {this : TItemBody} {m m' : Machine ε}
    (h : Changes pf env id this m m') (hother : this.params ≠ .TADC_StreamStart) :
    m'.AdcWorkerThreadID = m.AdcWorkerThreadID := by
  induction h with
  | refl => rfl
  | tail _ hchange ih =>
    cases hchange
    case AdcWorkerThreadID hstart => exact absurd hstart hother
    all_goals exact ih

end ClaimLemmas

/-- Steps of the action thread away from the creation. -/
theorem Daemon.OneWorker.moved {d d' : Daemon ε β} (h : d.OneWorker)
    (hworker : d'.adc.worker = d.adc.worker)
    (hid : d'.adc.globals.AdcWorkerThreadID = d.adc.globals.AdcWorkerThreadID)
    (hfrom : ∀ rest, d.action ≠ .noteWorker rest)
    (hto : ∀ item rest, d'.action ≠ .createWorker item rest) : d'.OneWorker := by
  refine ⟨fun halive => ?_, fun item rest hpc => absurd hpc (hto item rest)⟩
  rw [hworker] at halive
  rcases h.noted halive with hnoted | ⟨rest, hnote⟩
  · exact .inl (hid ▸ hnoted)
  · exact absurd hnote (hfrom rest)

theorem ActionStep.oneWorker {d d' : Daemon ε β} (h : ActionStep pf env d d')
    (hone : d.OneWorker) : d'.OneWorker := by
  cases h
  case item hpc hstart hrun =>
    refine hone.moved rfl (changes_worker (goItem_effect hrun).1 hstart) (fun rest hnote => ?_) ?_
    · cases hpc.symm.trans hnote
    · intro _ _ hcreate
      cases hcreate
  case noWorker hpc hid =>
    -- a living worker would be noted, or about to be
    have hdead : ¬d.adc.worker.Alive := by
      intro halive
      rcases hone.noted halive with hnoted | ⟨rest, hnote⟩
      · exact hnoted hid
      · cases hpc.symm.trans hnote
    exact ⟨fun halive => absurd halive hdead, fun _ _ _ => hdead⟩
  case createWorker =>
    refine ⟨fun _ => .inr ⟨_, rfl⟩, ?_⟩
    intro _ _ hcreate
    cases hcreate
  case noteWorker =>
    refine ⟨fun _ => .inl ?_, ?_⟩
    · show (0 : Int) ≠ -1
      decide
    · intro _ _ hcreate
      cases hcreate
  all_goals
    have hpc := ‹d.action = _›
    refine hone.moved rfl rfl (fun rest hnote => ?_) ?_
    · cases hpc.symm.trans hnote
    · intro _ _ hpc
      cases hpc

/-- Only a living worker takes a step. -/
theorem WorkerStep.alive {answer : WorkerAnswer β} {s s' : AdcStream β}
    (h : WorkerStep answer s s') : s.worker.Alive := by
  cases h <;> (rw [‹s.worker = _›]; exact ⟨nofun, nofun⟩)

theorem WorkerStep.oneWorker {d : Daemon ε β} {answer : WorkerAnswer β} {adc : AdcStream β}
    (h : WorkerStep answer d.adc adc) (hone : d.OneWorker) : Daemon.OneWorker { d with adc } := by
  refine ⟨fun halive => ?_, fun item rest hpc => absurd h.alive (hone.alone item rest hpc)⟩
  have hnoted := hone.noted h.alive
  cases h
  case idleWorker => exact absurd rfl halive.2
  all_goals exact hnoted

/-- In every run there is at most one worker. -/
theorem oneWorker_of_reachable {d₀ d : Daemon ε β} (hstart : d₀.Started)
    (h : (daemonSystem pf env β).Reachable d₀ d) : d.OneWorker := by
  refine h.invariant (I := Daemon.OneWorker) ?_ ?_
  · refine ⟨fun halive => absurd hstart.worker halive.1, fun item rest hpc => ?_⟩
    cases hstart.action.symm.trans hpc
  · intro d a d' hone _ hnext
    cases a with
    | receive Socket buf seen =>
      obtain ⟨m, g, -, rfl⟩ := receiveFrame_some hnext
      exact ⟨hone.noted, hone.alone⟩
    | ActionThread => exact (ActionThread_step hnext).oneWorker hone
    | worker_main answer =>
      obtain ⟨adc, hadc, rfl⟩ := Option.map_eq_some_iff.mp hnext
      exact (worker_main_step hadc).oneWorker hone
    | log_main answer =>
      obtain ⟨adc, hadc, rfl⟩ := Option.map_eq_some_iff.mp hnext
      obtain ⟨-, -, hid, hworker⟩ := (log_main_step hadc).globals
      refine ⟨fun halive => ?_, fun item rest hpc => ?_⟩
      · rw [hid]
        exact hone.noted (hworker ▸ halive)
      · rw [hworker]
        exact hone.alone item rest hpc
    | signal =>
      cases hnext
      exact ⟨hone.noted, hone.alone⟩

/-- Stages at which no logger runs. -/
def WorkerStage.Lone : WorkerStage → Prop
  | .fresh | .initialised | .gone => True
  | _ => False

/-- A logger only runs under a worker that will join it, and a new worker finds the
records empty. -/
structure AdcStream.Joins (s : AdcStream β) : Prop where
  alone : s.worker.stage.Lone → s.NoLogger
  joined : ¬s.NoLogger → s.logger_started = true
  started : s.worker = .createLogger → s.logger_started = true
  records : s.worker = .entry → s.copied = [] ∧ s.sent = []

theorem WorkerStep.joins {answer : WorkerAnswer β} {s s' : AdcStream β}
    (h : WorkerStep answer s s') (hjoins : s.Joins) : s'.Joins := by
  have halone := hjoins.alone
  have hslotLoop : ∀ first_slot i num_slots,
      ¬(slotLoop first_slot i num_slots).stage.Lone ∧
      slotLoop first_slot i num_slots ≠ .createLogger ∧
      slotLoop first_slot i num_slots ≠ .entry := by
    intro first_slot i num_slots
    unfold slotLoop
    split <;> exact ⟨id, nofun, nofun⟩
  cases h
  case createLogger hpc hstatus =>
    exact ⟨False.elim, fun _ => hjoins.started hpc, nofun, nofun⟩
  case join hpc hstarted hended =>
    exact ⟨fun _ => .inr hended, fun hlogger => absurd (.inr hended) hlogger, nofun, nofun⟩
  case noJoin hpc hstarted =>
    -- `logger_started` is set for a logger that runs
    have hlogger : s.NoLogger := Decidable.not_not.mp fun hlogger => by
      cases hstarted.symm.trans (hjoins.joined hlogger)
    exact ⟨fun _ => hlogger, fun hrunning => absurd hlogger hrunning, nofun, nofun⟩
  case clearTerminate hpc =>
    rw [hpc] at halone
    exact ⟨fun _ => halone trivial, fun _ => rfl, fun _ => rfl, nofun⟩
  case entry hpc | createFailed hpc _ =>
    rw [hpc] at halone
    have hlogger : s.NoLogger := halone trivial
    exact ⟨fun _ => hlogger, fun hrunning => absurd hlogger hrunning, nofun, nofun⟩
  case slots hpc hslots =>
    obtain ⟨hstage, hcreate, hentry⟩ := hslotLoop answer.first_slot 0 answer.num_slots
    exact ⟨fun hlone => absurd hlone hstage, hjoins.joined, fun hpc => absurd hpc hcreate,
      fun hpc => absurd hpc hentry⟩
  case post first_slot i num_slots hpc =>
    obtain ⟨hstage, hcreate, hentry⟩ := hslotLoop first_slot (i + 1) num_slots
    exact ⟨fun hlone => absurd hlone hstage, hjoins.joined, fun hpc => absurd hpc hcreate,
      fun hpc => absurd hpc hentry⟩
  case someLogger => exact ⟨False.elim, hjoins.joined, nofun, nofun⟩
  all_goals
    rw [‹s.worker = _›] at halone
    exact ⟨halone, hjoins.joined, nofun, nofun⟩

theorem LoggerStep.joins {answer : LoggerAnswer} {s s' : AdcStream β}
    (h : LoggerStep answer s s') (hjoins : s.Joins) : s'.Joins := by
  have hrunning : ¬s.NoLogger := by
    unfold AdcStream.NoLogger
    cases h <;> (rw [‹s.logger = _›]; exact nofun)
  have hstage : ¬s.worker.stage.Lone := fun hlone => hrunning (hjoins.alone hlone)
  have hstarted := hjoins.joined hrunning
  have hentry : s.worker ≠ .entry := by
    intro hpc
    rw [hpc] at hstage
    exact hstage trivial
  cases h <;>
    exact ⟨fun hlone => absurd hlone hstage, fun _ => hstarted, hjoins.started,
      fun hpc => absurd hpc hentry⟩

/-- A worker that is dead has left no logger behind. -/
theorem AdcStream.Joins.createWorker {s : AdcStream β} (h : s.Joins) (hdead : ¬s.worker.Alive) :
    s.createWorker.Joins := by
  have hlogger : s.NoLogger := by
    refine h.alone ?_
    cases hpc : s.worker
    case absent | ended => exact trivial
    all_goals
      rw [hpc] at hdead
      exact absurd ⟨nofun, nofun⟩ hdead
  exact ⟨fun _ => hlogger, fun hrunning => absurd hlogger hrunning, nofun, fun _ => ⟨rfl, rfl⟩⟩

theorem joins_of_reachable {d₀ d : Daemon ε β} (hstart : d₀.Started)
    (h : (daemonSystem pf env β).Reachable d₀ d) : d.adc.Joins := by
  refine h.invariant (I := fun d => d.adc.Joins) ?_ ?_
  · refine ⟨fun _ => .inl hstart.logger, fun hrunning => absurd (.inl hstart.logger) hrunning,
      ?_, ?_⟩
    all_goals
      rw [hstart.worker]
      nofun
  · intro d a d' hjoins _ hnext
    cases a with
    | receive Socket buf seen =>
      obtain ⟨m, g, -, rfl⟩ := receiveFrame_some hnext
      exact ⟨hjoins.alone, hjoins.joined, hjoins.started, hjoins.records⟩
    | ActionThread =>
      cases ActionThread_step hnext
      case createWorker hpc hdead hstatus => exact hjoins.createWorker hdead
      all_goals exact ⟨hjoins.alone, hjoins.joined, hjoins.started, hjoins.records⟩
    | worker_main answer =>
      obtain ⟨adc, hadc, rfl⟩ := Option.map_eq_some_iff.mp hnext
      exact (worker_main_step hadc).joins hjoins
    | log_main answer =>
      obtain ⟨adc, hadc, rfl⟩ := Option.map_eq_some_iff.mp hnext
      exact (log_main_step hadc).joins hjoins
    | signal =>
      cases hnext
      exact ⟨hjoins.alone, hjoins.joined, hjoins.started, hjoins.records⟩

/-- A worker of the daemon starts as the streams of `stream_intact` and
`worker_not_stuck` do. -/
theorem created_of_reachable {d₀ d : Daemon ε β} (hstart : d₀.Started)
    (h : (daemonSystem pf env β).Reachable d₀ d) (hentry : d.adc.worker = .entry) :
    d.adc.Created := by
  have hjoins := joins_of_reachable hstart h
  obtain ⟨hcopied, hsent⟩ := hjoins.records hentry
  refine ⟨hentry, hjoins.alone ?_, hcopied, hsent⟩
  rw [hentry]
  trivial

/-! ## 3. The stream belongs to its claim -/

def TDataItem.isStart (item : TDataItem) : Bool := decide (item.params = .TADC_StreamStart)

/-- The connection that an `ADC_StreamStart` names; without data it names none. -/
def TDataItem.connectionId (item : TDataItem) : Option Int32 :=
  if item.rawBytes.length = 4 then some (ReadU32LE item.rawBytes 0).toInt32 else none

/-- The items of a message that start the stream. -/
def TMessage.starts (m : TMessage) : List TDataItem := m.DataItems.filter TDataItem.isStart

/-- Those of them that will be run. -/
def TActionQueueItem.starts (q : TActionQueueItem) : List TDataItem :=
  match q.theMessage with
  | .heap m => if isRequest m.Id then m.starts else []
  | .dangling _ => []

/-- Those the action thread has in hand and that have not created a worker yet. -/
def ActionPc.starts : ActionPc → List TDataItem
  | .loop | .ended => []
  | .items todo => todo.filter TDataItem.isStart
  | .clearTerminate item rest | .testWorker item rest | .createWorker item rest =>
    item :: rest.filter TDataItem.isStart
  | .noteWorker rest | .startDma rest => rest.filter TDataItem.isStart

/-- The worker has been created and has not given the stream back: it has not executed
`AdcStreamingConnection = -1`. -/
def WorkerPc.Streaming (pc : WorkerPc) : Prop := pc.Alive ∧ pc ≠ .idleWorker

instance (pc : WorkerPc) : Decidable pc.Streaming := inferInstanceAs (Decidable (_ ∧ _))

/-- All items that wait to start the stream, oldest first. -/
def Daemon.waiting (d : Daemon ε β) : List TDataItem :=
  d.action.starts ++ d.ActionQueue.flatMap TActionQueueItem.starts

/-- What is claimed: the ids of the items that wait and of the one that streams. -/
def Daemon.claims (d : Daemon ε β) : List (Option Int32) :=
  d.waiting.map TDataItem.connectionId ++
    if d.adc.worker.Streaming then [d.startedBy.bind TDataItem.connectionId] else []

/-- While the worker streams, the stream is claimed, it is claimed for the connection of
the item that created the worker, and a further claim is refused. -/
structure Daemon.Exclusive (pf : Platform) (d : Daemon ε β) : Prop where
  claimed : d.adc.worker.Streaming → d.adc.globals.AdcStreamingConnection ≠ -1
  owner : d.adc.worker.Streaming → ∃ item, d.startedBy = some item ∧
    item.connectionId = some d.adc.globals.AdcStreamingConnection
  busy : d.adc.worker.Streaming → ∀ (c : TConfig) (f : Frame) (w : WireItem),
    f.Constructs pf ⟨c, d.adc.globals.AdcStreamingConnection⟩ w →
    w.DId = DataItemIds.ADC_StreamStart → w.data.length = 4 →
    (FromBytes pf f.bytes).exec ⟨c, d.adc.globals.AdcStreamingConnection⟩ =
      some (.error (.logicError (text "ADC Busy already on Connection: " ++
        intToDecimal d.adc.globals.AdcStreamingConnection.toInt)),
        ⟨c, d.adc.globals.AdcStreamingConnection⟩)

/-- The item names a connection that is not the idle mark. -/
def TDataItem.NamesConnection (item : TDataItem) : Prop :=
  ∃ id, item.connectionId = some id ∧ id ≠ -1

instance (item : TDataItem) : Decidable item.NamesConnection :=
  match h : item.connectionId with
  | none => isFalse fun ⟨_, hid, _⟩ => by cases h.symm.trans hid
  | some id =>
    if hne : id = -1 then isFalse fun ⟨_, hid, hid'⟩ => hid' (by cases h.symm.trans hid; exact hne)
    else isTrue ⟨id, h, hne⟩

/-- Each item of a received request that is to start the stream names a connection. -/
def NamesConnections : Option (Except Exn TMessage × Globals) → Prop
  | some (.ok m, _) => isRequest m.Id = true → ∀ item ∈ m.starts, item.NamesConnection
  | _ => True

instance : (q : Option (Except Exn TMessage × Globals)) → Decidable (NamesConnections q)
  | some (.ok m, _) =>
    inferInstanceAs (Decidable (isRequest m.Id = true → ∀ item ∈ m.starts, item.NamesConnection))
  | some (.error _, _) | none => inferInstanceAs (Decidable True)

/-- Between the test and the store of a claim no other thread writes, and each item that
is to start the stream names a connection other than -1. -/
def ClaimsWell (pf : Platform) (d : Daemon ε β) : DaemonAction β → Prop
  | .receive _ buf seen => seen = d.adc.globals.AdcStreamingConnection ∧
    NamesConnections ((GotMessage pf buf).exec ⟨d.Config, seen⟩)
  | _ => True

instance (pf : Platform) : (d : Daemon ε β) → (a : DaemonAction β) → Decidable (ClaimsWell pf d a)
  | _, .receive .. => inferInstanceAs (Decidable (_ ∧ _))
  | _, .ActionThread | _, .worker_main _ | _, .log_main _ | _, .signal =>
    inferInstanceAs (Decidable True)

namespace ClaimLemmas

/-- Only one class makes an item that starts the stream. -/
theorem construct_start {cls : ItemClass} {data : TBytes} {g g' : Globals} {body : TItemBody}
    (h : (construct pf cls data).exec g = some (.ok body, g'))
    (hstart : body.params = .TADC_StreamStart) :
    cls = .TADC_StreamStart ∧ body.rawBytes = data := by
  have hbind {α : Type} {p : Prog Exn Globals α} {f : α → Prog Exn Globals TItemBody}
      (h : (p >>= f).exec g = some (.ok body, g')) :
      ∃ a g₁, (f a).exec g₁ = some (.ok body, g') := by
    rw [exec_bind, Option.bind_eq_some_iff] at h
    obtain ⟨⟨q, g₁⟩, -, h⟩ := h
    cases q with
    | error => cases h
    | ok a => exact ⟨a, g₁, h⟩
  cases cls
  case TADC_StreamStart =>
    obtain ⟨_, _, h⟩ := hbind h
    cases h
    exact ⟨rfl, rfl⟩
  case TBRD_GetNumberOfAdcChannels | TREG_Write1 | TADC_BaseClock | TSYS_UploadFileName
      | TDAC_Output | TDAC_OutputV | TDAC_Range1 =>
    obtain ⟨_, _, h⟩ := hbind h
    cases h
    cases hstart
  all_goals
    cases h
    cases hstart

/-- What building one item does to the claim. -/
theorem builds_stream {w : WireItem} {g g' : Globals} {item : TDataItem}
    (h : w.Builds pf g item g') :
    (item.isStart = false ∧ g' = g) ∨
      (item.isStart = true ∧ ((item.connectionId = none ∧ g' = g) ∨
        ∃ id, item.connectionId = some id ∧ g.AdcStreamingConnection = -1 ∧
          g' = { g with AdcStreamingConnection := id })) := by
  obtain ⟨⟨e, -, -, hrun⟩, -⟩ := h
  by_cases hstart : item.params = .TADC_StreamStart
  · obtain ⟨hcls, hbytes⟩ := construct_start hrun hstart
    refine .inr ⟨decide_eq_true hstart, ?_⟩
    rw [hcls, streamStart_exec] at hrun
    unfold TDataItem.connectionId
    rw [hbytes]
    split at hrun
    case isTrue => cases hrun
    case isFalse hfree =>
      obtain ⟨-, rfl⟩ := Prod.mk.inj (Option.some.inj hrun)
      by_cases hlen : w.data.length = 4
      · rw [if_pos hlen, if_pos hlen]
        exact .inr ⟨_, rfl, Decidable.not_not.mp fun hbusy => hfree ⟨hlen, hbusy⟩, rfl⟩
      · rw [if_neg hlen, if_neg hlen]
        exact .inl ⟨rfl, rfl⟩
  · refine .inl ⟨decide_eq_false hstart, ?_⟩
    rcases construct_globals hrun with hsame | ⟨-, hcls, -⟩
    · exact hsame
    · rw [hcls, streamStart_exec] at hrun
      split at hrun
      case isTrue => cases hrun
      case isFalse =>
        obtain ⟨hbody, -⟩ := Prod.mk.inj (Option.some.inj hrun)
        have hparams := congrArg TItemBody.params (Except.ok.inj hbody)
        exact absurd hparams.symm hstart

/-- On a claimed stream nothing is claimed. -/
theorem built_busy {g g' : Globals} {ws : List WireItem} {items : List TDataItem}
    (h : Built pf g ws items g') (hbusy : g.AdcStreamingConnection ≠ -1) : g' = g := by
  rcases h.globals with ⟨-, hsame⟩ | ⟨-, hfree, -⟩
  · exact hsame
  · exact absurd hfree hbusy

/-- If each item that starts the stream names a connection other than -1, there is at
most one, and it has claimed the free stream. -/
theorem built_starts {g g' : Globals} {ws : List WireItem} {items : List TDataItem}
    (h : Built pf g ws items g')
    (hids : ∀ item ∈ items.filter TDataItem.isStart, item.NamesConnection) :
    items.filter TDataItem.isStart = [] ∨
      ∃ item, items.filter TDataItem.isStart = [item] ∧ g.AdcStreamingConnection = -1 ∧
        item.connectionId = some g'.AdcStreamingConnection ∧ g'.AdcStreamingConnection ≠ -1 := by
  induction h with
  | nil => exact .inl rfl
  | @cons g g₁ g₂ w ws item items hw hrest ih =>
    rcases builds_stream hw with ⟨hother, rfl⟩ | ⟨hstart, hclaim⟩
    · rw [List.filter_cons_of_neg (by rw [hother]; decide)] at hids ⊢
      exact ih hids
    · rw [List.filter_cons_of_pos hstart] at hids ⊢
      obtain ⟨⟨id, hid, hne⟩, hids⟩ := List.forall_mem_cons.mp hids
      rcases hclaim with ⟨hnone, -⟩ | ⟨_, hsome, hfree, rfl⟩
      · cases hnone.symm.trans hid
      · cases hsome.symm.trans hid
        obtain rfl := built_busy hrest hne
        rcases ih hids with hnil | ⟨_, -, hfree', -⟩
        · exact .inr ⟨item, by rw [hnil], hfree, hid, hne⟩
        · exact absurd hfree' hne

/-- The items of a received message, if it has any, are those that were built. -/
theorem GotMessage_built {buf : TBytes} {g g' : Globals} {m : TMessage}
    (h : (GotMessage pf buf).exec g = some (.ok m, g')) :
    ∃ ws items, Built pf g ws items g' ∧ (m.DataItems = items ∨ m.DataItems = []) := by
  rw [GotMessage_exec, Option.map_eq_some_iff] at h
  obtain ⟨⟨q, g₁⟩, hq, hr⟩ := h
  obtain ⟨hm, rfl⟩ := Prod.mk.inj hr
  by_cases hheader : HeaderOk pf buf
  · obtain ⟨ws, items, c, ⟨_, _, -, -, hbuilt, -⟩, rfl⟩ := (FromBytes_iff hheader).mp hq
    refine ⟨ws, items, hbuilt, ?_⟩
    unfold finish at hm
    cases c with
    | ok code =>
      simp only [Except.map] at hm
      split at hm <;> cases hm
      · exact .inr rfl
      · exact .inl rfl
    | error e =>
      cases e <;> cases hm
      exact .inr rfl
  · obtain ⟨r, hok, hthrown, hrun⟩ := FromBytes_of_not_headerOk hheader
    rw [hrun] at hq
    cases hq
    refine ⟨[], [], .nil, .inr ?_⟩
    match q, hm with
    | .ok (m', code), hm =>
      cases hm
      exact (hok _ _ rfl).1
    | .error (.logicError what), hm =>
      cases hm
      rfl

theorem GotMessage_busy {buf : TBytes} {g g' : Globals} {m : TMessage}
    (h : (GotMessage pf buf).exec g = some (.ok m, g')) (hbusy : g.AdcStreamingConnection ≠ -1) :
    g' = g := by
  obtain ⟨ws, items, hbuilt, -⟩ := GotMessage_built h
  exact built_busy hbuilt hbusy

theorem GotMessage_starts {buf : TBytes} {g g' : Globals} {m : TMessage}
    (h : (GotMessage pf buf).exec g = some (.ok m, g'))
    (hids : ∀ item ∈ m.starts, item.NamesConnection) :
    m.starts = [] ∨ ∃ item, m.starts = [item] ∧ g.AdcStreamingConnection = -1 ∧
      item.connectionId = some g'.AdcStreamingConnection ∧ g'.AdcStreamingConnection ≠ -1 := by
  obtain ⟨ws, items, hbuilt, hitems | hitems⟩ := GotMessage_built h
  · unfold TMessage.starts at hids ⊢
    rw [hitems] at hids ⊢
    exact built_starts hbuilt hids
  · refine .inl ?_
    rw [TMessage.starts, hitems]
    rfl

/-- A further claim on a claimed stream is refused. -/
theorem FromBytes_busy {g : Globals} {f : Frame} {w : WireItem} (h : f.Constructs pf g w)
    (hid : w.DId = DataItemIds.ADC_StreamStart) (hlen : w.data.length = 4)
    (hbusy : g.AdcStreamingConnection ≠ -1) :
    (FromBytes pf f.bytes).exec g =
      some (.error (.logicError (text "ADC Busy already on Connection: " ++
        intToDecimal g.AdcStreamingConnection.toInt)), g) := by
  obtain ⟨hvalid, ws, items, g', rest, hpayload, hbuilt⟩ := h
  -- the items in front of it have not changed the claim
  obtain rfl := built_busy hbuilt hbusy
  obtain ⟨e, he, hclass⟩ : ∃ e, DIdDict.find w.DId = some e ∧ e.Construct = .TADC_StreamStart ∧
      e.minLen = 4 ∧ e.maxLen = 4 := by
    rw [hid]
    exact ⟨_, rfl, rfl, rfl, rfl⟩
  obtain ⟨hclass, hmin, hmax⟩ := hclass
  have hadmits : e.Admits w.data := .inr ⟨hmin ▸ hlen.ge, hmax ▸ hlen.le⟩
  have hrefused : Stops pf g' (w.bytes ++ (rest ++ [f.checksum])) (w.bytes.length + rest.length)
      (.error (.logicError (text "ADC Busy already on Connection: " ++
        intToDecimal g'.AdcStreamingConnection.toInt))) := by
    refine .refused he hadmits ?_
    rw [hclass, streamStart_exec, if_pos ⟨hlen, hbusy⟩]
  refine (FromBytes_frame hvalid).mpr ⟨ws, items, _, ⟨_, _, ?_, ?_, hbuilt, hrefused⟩, rfl⟩
  · rw [hpayload, List.append_assoc, List.append_assoc]
  · rw [hpayload, List.length_append, List.length_append]

end ClaimLemmas

/-- There is at most one claim, and it is the one in `AdcStreamingConnection`. -/
def Daemon.OneClaim (d : Daemon ε β) : Prop :=
  d.claims = [] ∨ ∃ id, d.claims = [some id] ∧ id ≠ -1 ∧ d.adc.globals.AdcStreamingConnection = id

/-- Steps that leave the claims there. -/
theorem Daemon.OneClaim.keep {d d' : Daemon ε β} (h : d.OneClaim) (hclaims : d'.claims = d.claims)
    (hconn : d'.adc.globals.AdcStreamingConnection = d.adc.globals.AdcStreamingConnection) :
    d'.OneClaim := by
  unfold OneClaim
  rw [hclaims, hconn]
  exact h

/-- Steps that take one away. -/
theorem Daemon.OneClaim.drop {d d' : Daemon ε β} (h : d.OneClaim) (id : Option Int32)
    (hclaims : d.claims = id :: d'.claims) : d'.OneClaim := by
  rcases h with hnil | ⟨_, hone, -⟩
  · cases hclaims.symm.trans hnil
  · exact .inl (List.cons.inj (hclaims.symm.trans hone)).2

/-- The item in hand does not get its worker with the next step: its transfer cannot be
set up, a worker is noted, or none can be created. -/
def Daemon.Fails (env : Env ε) (d : Daemon ε β) : Prop :=
  match d.action with
  | .items (item :: _) =>
    item.params = .TADC_StreamStart ∧ TADC_StreamStart.transferStatus env d.sys ≠ 0
  | .testWorker _ _ => d.adc.globals.AdcWorkerThreadID ≠ -1
  | .createWorker _ _ => TADC_StreamStart.createStatus env d.sys ≠ 0
  | _ => False

/-- What a step of the action thread does to the items that wait and to the worker. -/
inductive Daemon.Serves (env : Env ε) (d d' : Daemon ε β) : Prop
  | keep : d'.waiting = d.waiting → d'.adc.worker = d.adc.worker → d'.startedBy = d.startedBy →
      Serves env d d'
  | fail (item : TDataItem) : d.waiting = item :: d'.waiting → d'.adc.worker = d.adc.worker →
      d'.startedBy = d.startedBy → d.Fails env → Serves env d d'
  /-- The first item creates the worker. -/
  | create (item : TDataItem) : d.waiting = item :: d'.waiting → ¬d.adc.worker.Alive →
      d'.adc.worker = .entry → d'.startedBy = some item → Serves env d d'

namespace ClaimLemmas

theorem starts_of_start {item : TDataItem} (h : item.params = .TADC_StreamStart)
    (rest : List TDataItem) :
    ActionPc.starts (.items (item :: rest)) = item :: rest.filter TDataItem.isStart :=
  List.filter_cons_of_pos (decide_eq_true h)

theorem starts_of_other {item : TDataItem} (h : item.params ≠ .TADC_StreamStart)
    (rest : List TDataItem) :
    ActionPc.starts (.items (item :: rest)) = rest.filter TDataItem.isStart :=
  List.filter_cons_of_neg fun hstart => h (of_decide_eq_true hstart)

end ClaimLemmas

theorem ActionStep.serves {d d' : Daemon ε β} (h : ActionStep pf env d d') : d.Serves env d' := by
  cases h
  case dequeue socket m queue hpc hdone hqueue =>
    refine .keep ?_ rfl rfl
    unfold Daemon.waiting
    rw [hpc, hqueue, List.flatMap_cons]
    simp only [ActionPc.starts, TActionQueueItem.starts, TMessage.starts]
    split <;> rfl
  case item hpc hstart hrun =>
    refine .keep ?_ rfl rfl
    unfold Daemon.waiting
    rw [hpc, starts_of_other hstart]
    rfl
  case transferSize hpc hstart hstatus =>
    refine .keep ?_ rfl rfl
    unfold Daemon.waiting
    rw [hpc, starts_of_start hstart]
    rfl
  case transferFailed item rest sys hpc hstart hstatus =>
    refine .fail item ?_ rfl rfl ?_
    · unfold Daemon.waiting
      rw [hpc, starts_of_start hstart]
      rfl
    · unfold Daemon.Fails
      rw [hpc]
      exact ⟨hstart, hstatus⟩
  case someWorker item rest hpc hid =>
    refine .fail item ?_ rfl rfl ?_
    · unfold Daemon.waiting
      rw [hpc]
      rfl
    · unfold Daemon.Fails
      rw [hpc]
      exact hid
  case createWorker item rest sys hpc hdead hstatus =>
    refine .create item ?_ hdead rfl rfl
    unfold Daemon.waiting
    rw [hpc]
    rfl
  case createFailed item rest sys hpc hstatus =>
    refine .fail item ?_ rfl rfl ?_
    · unfold Daemon.waiting
      rw [hpc]
      rfl
    · unfold Daemon.Fails
      rw [hpc]
      exact hstatus
  all_goals
    refine .keep ?_ rfl rfl
    unfold Daemon.waiting
    rw [‹d.action = _›]
    rfl

/-- The action thread does not touch the claim. -/
theorem ActionStep.conn {d d' : Daemon ε β} (h : ActionStep pf env d d') :
    d'.adc.globals.AdcStreamingConnection = d.adc.globals.AdcStreamingConnection := by
  cases h <;> rfl

/-- The worker gives the stream back in one step, and ends without it in others. -/
theorem WorkerStep.streaming {answer : WorkerAnswer β} {s s' : AdcStream β}
    (h : WorkerStep answer s s') :
    (s.worker.Streaming ∧ s'.globals.AdcStreamingConnection = -1 ∧ ¬s'.worker.Streaming) ∨
      (s'.globals.AdcStreamingConnection = s.globals.AdcStreamingConnection ∧
        (s'.worker.Streaming → s.worker.Streaming)) := by
  have hfrom := h.alive
  cases h
  case idleConnection hpc =>
    refine .inl ⟨⟨hfrom, ?_⟩, rfl, fun hstreaming => hstreaming.2 rfl⟩
    rw [hpc]
    decide
  case idleWorker hpc => exact .inr ⟨rfl, fun hstreaming => absurd rfl hstreaming.1.2⟩
  all_goals
    refine .inr ⟨rfl, fun _ => ⟨hfrom, ?_⟩⟩
    rw [‹s.worker = _›]
    nofun

namespace Daemon

variable {d d' : Daemon ε β}

/-- The claim of the worker. -/
theorem claims_eq (d : Daemon ε β) : d.claims = d.waiting.map TDataItem.connectionId ++
    if d.adc.worker.Streaming then [d.startedBy.bind TDataItem.connectionId] else [] := rfl

/-- When the worker no longer streams, only those that wait have claims. -/
theorem OneClaim.released (h : d.OneClaim) (hwaiting : d'.waiting = d.waiting)
    (hstreaming : ¬d'.adc.worker.Streaming)
    (hconn : d'.adc.globals.AdcStreamingConnection = d.adc.globals.AdcStreamingConnection ∨
      d.adc.worker.Streaming) : d'.OneClaim := by
  have hclaims' : d'.claims = d.waiting.map TDataItem.connectionId := by
    rw [claims_eq, hwaiting, if_neg hstreaming, List.append_nil]
  unfold OneClaim
  rw [hclaims']
  unfold OneClaim at h
  rw [claims_eq] at h
  by_cases hbefore : d.adc.worker.Streaming
  · rw [if_pos hbefore] at h
    rcases h with hnil | ⟨id, hone, -⟩
    · exact absurd hnil (List.append_ne_nil_of_right_ne_nil _ (List.cons_ne_nil _ _))
    · refine .inl ?_
      exact (List.append_eq_singleton_iff.mp hone).elim And.left fun h =>
        absurd h.2 (List.cons_ne_nil _ _)
  · rw [if_neg hbefore, List.append_nil] at h
    rw [hconn.resolve_right hbefore]
    exact h

theorem OneClaim.serves (h : d.OneClaim) (hserves : d.Serves env d')
    (hconn : d'.adc.globals.AdcStreamingConnection = d.adc.globals.AdcStreamingConnection) :
    d'.OneClaim := by
  cases hserves with
  | keep hwaiting hworker hstarted =>
    refine h.keep ?_ hconn
    rw [claims_eq, claims_eq, hwaiting, hworker, hstarted]
  | fail item hwaiting hworker hstarted hfails =>
    refine h.drop item.connectionId ?_
    rw [claims_eq, claims_eq, hwaiting, hworker, hstarted]
    rfl
  | create item hwaiting hdead hworker hstarted =>
    -- the claim of the item is now that of the worker
    have hstreaming : ¬d.adc.worker.Streaming := fun hstreaming => hdead hstreaming.1
    have hclaims : d.claims = item.connectionId :: d'.waiting.map TDataItem.connectionId := by
      rw [claims_eq, if_neg hstreaming, hwaiting, List.append_nil]
      rfl
    have hclaims' : d'.claims = d'.waiting.map TDataItem.connectionId ++ [item.connectionId] := by
      rw [claims_eq, hworker, hstarted]
      rfl
    rcases h with hnil | ⟨id, hone, hne, hid⟩
    · cases hclaims.symm.trans hnil
    · obtain ⟨hitem, hrest⟩ := List.cons.inj (hclaims.symm.trans hone)
      refine .inr ⟨id, ?_, hne, hconn.trans hid⟩
      rw [hclaims', hrest, hitem]
      rfl

end Daemon

/-- A message has come in, with the items `starts` that start the stream. -/
theorem Daemon.OneClaim.received {d d' : Daemon ε β} (h : d.OneClaim) {starts : List TDataItem}
    (hwaiting : d'.waiting = d.waiting ++ starts) (hworker : d'.adc.worker = d.adc.worker)
    (hstarted : d'.startedBy = d.startedBy)
    (hbusy : d.adc.globals.AdcStreamingConnection ≠ -1 →
      d'.adc.globals.AdcStreamingConnection = d.adc.globals.AdcStreamingConnection)
    (hstarts : starts = [] ∨ ∃ item, starts = [item] ∧
      d.adc.globals.AdcStreamingConnection = -1 ∧
      item.connectionId = some d'.adc.globals.AdcStreamingConnection ∧
      d'.adc.globals.AdcStreamingConnection ≠ -1) : d'.OneClaim := by
  rcases hstarts with rfl | ⟨item, rfl, hfree, hid, hne⟩
  · have hclaims : d'.claims = d.claims := by
      rw [claims_eq, claims_eq, hwaiting, hworker, hstarted, List.append_nil]
    rcases h with hnil | ⟨id, hone, hne, hid⟩
    · exact .inl (hclaims.trans hnil)
    · exact .inr ⟨id, hclaims.trans hone, hne, (hbusy (hid ▸ hne)).trans hid⟩
  · rcases h with hnil | ⟨id, -, hne', hid'⟩
    · -- the stream was free, and the new item has the only claim
      obtain ⟨hmap, hrunning⟩ := List.append_eq_nil_iff.mp hnil
      refine .inr ⟨_, ?_, hne, rfl⟩
      rw [claims_eq, hwaiting, hworker, hstarted, hrunning, List.map_append, hmap, ← hid]
      rfl
    · exact absurd (hid'.symm.trans hfree) hne'

theorem receiveFrame_oneClaim {Socket : Int} {buf : TBytes} {seen : Int32} {d d' : Daemon ε β}
    (h : receiveFrame pf Socket buf seen d = some d') (hclaim : d.OneClaim)
    (hseen : seen = d.adc.globals.AdcStreamingConnection)
    (hids : NamesConnections ((GotMessage pf buf).exec ⟨d.Config, seen⟩)) : d'.OneClaim := by
  obtain ⟨m, g, hrun, rfl⟩ := receiveFrame_some h
  subst hseen
  have hconn : (if g.AdcStreamingConnection = d.adc.globals.AdcStreamingConnection then
      d.adc.globals.AdcStreamingConnection else g.AdcStreamingConnection) =
      g.AdcStreamingConnection := by
    split
    case isTrue hsame => exact hsame.symm
    case isFalse => rfl
  rw [hconn]
  have hstarts : TActionQueueItem.starts ⟨Socket, .heap m⟩ = [] ∨
      ∃ item, TActionQueueItem.starts ⟨Socket, .heap m⟩ = [item] ∧
        d.adc.globals.AdcStreamingConnection = -1 ∧
        item.connectionId = some g.AdcStreamingConnection ∧ g.AdcStreamingConnection ≠ -1 := by
    by_cases hrequest : isRequest m.Id = true
    · have hqueued : TActionQueueItem.starts ⟨Socket, .heap m⟩ = m.starts := if_pos hrequest
      rw [hqueued]
      rw [hrun] at hids
      exact GotMessage_starts hrun (hids hrequest)
    · exact .inl (if_neg hrequest)
  refine hclaim.received ?_ rfl rfl (fun hbusy => ?_) hstarts
  · unfold Daemon.waiting
    rw [List.flatMap_append, List.flatMap_singleton, List.append_assoc]
  · rw [GotMessage_busy hrun hbusy]

theorem oneClaim_of_reaches {d₀ d : Daemon ε β} (hstart : d₀.Started)
    (h : (daemonSystem pf env β).Reaches (ClaimsWell pf) d₀ d) : d.OneClaim := by
  refine h.invariant (I := Daemon.OneClaim) (.inl ?_) ?_
  · rw [Daemon.claims_eq, Daemon.waiting, hstart.action, hstart.ActionQueue, hstart.worker]
    rfl
  · intro d a d' hclaim hwell hnext
    cases a with
    | receive Socket buf seen => exact receiveFrame_oneClaim hnext hclaim hwell.1 hwell.2
    | ActionThread =>
      have hstep := ActionThread_step hnext
      exact hclaim.serves hstep.serves hstep.conn
    | worker_main answer =>
      obtain ⟨adc, hadc, rfl⟩ := Option.map_eq_some_iff.mp hnext
      have hstep := worker_main_step hadc
      -- the worker keeps the stream, or gives it back, or has had none
      by_cases hafter : adc.worker.Streaming
      · rcases hstep.streaming with ⟨-, -, hreleased⟩ | ⟨hconn, hbefore⟩
        · exact absurd hafter hreleased
        · refine hclaim.keep ?_ hconn
          rw [Daemon.claims_eq, Daemon.claims_eq, if_pos hafter, if_pos (hbefore hafter)]
          rfl
      · refine hclaim.released rfl hafter ?_
        rcases hstep.streaming with ⟨hbefore, -, -⟩ | ⟨hconn, -⟩
        · exact .inr hbefore
        · exact .inl hconn
    | log_main answer =>
      obtain ⟨adc, hadc, rfl⟩ := Option.map_eq_some_iff.mp hnext
      obtain ⟨-, hconn, -, hworker⟩ := (log_main_step hadc).globals
      refine hclaim.keep ?_ hconn
      rw [Daemon.claims_eq, Daemon.claims_eq, hworker]
      rfl
    | signal =>
      cases hnext
      exact hclaim.keep rfl rfl

/-- A command that starts the stream for connection 5. -/
def exStart : TBytes := frameBytes 67 [itemBytes DataItemIds.ADC_StreamStart [5, 0, 0, 0]]

/-- The message is received and run. -/
def exRun (frame : TBytes) : List (DaemonAction Nat) :=
  .receive 5 frame (-1) :: List.replicate 7 .ActionThread

/-- The same command without the id. The factory accepts it, and nothing is claimed. -/
def exStartNobody : TBytes := frameBytes 67 [itemBytes DataItemIds.ADC_StreamStart []]

/-- An accepted `ADC_StreamStart` waits to be executed, or is executed. -/
def Daemon.Starting (d : Daemon ε β) : Prop :=
  d.waiting ≠ [] ∨ (∃ rest, d.action = .noteWorker rest) ∨ ∃ rest, d.action = .startDma rest

/-- When none does and no worker runs, the stream is free and no worker is noted. -/
def Daemon.Unleaked (d : Daemon ε β) : Prop :=
  ¬d.Starting → ¬d.adc.worker.Alive →
    d.adc.globals.AdcStreamingConnection = -1 ∧ d.adc.globals.AdcWorkerThreadID = -1

/-- If the item in hand gets no worker, the claim is still seen to: there is none, or a
worker that has not given the stream back, or another item that waits. -/
def Daemon.SeenTo (d : Daemon ε β) : Prop :=
  d.adc.globals.AdcStreamingConnection = -1 ∨ d.adc.worker.Streaming ∨ 1 < d.waiting.length

/-- The worker that is about to be noted has not ended yet. -/
def Daemon.NotedInTime (d : Daemon ε β) : Prop :=
  match d.action with
  | .noteWorker _ => d.adc.worker.Alive
  | _ => True

instance (env : Env ε) (d : Daemon ε β) : Decidable (d.Fails env) := by
  unfold Daemon.Fails
  split <;> infer_instance

instance (d : Daemon ε β) : Decidable d.SeenTo := inferInstanceAs (Decidable (_ ∨ _ ∨ _))

instance (d : Daemon ε β) : Decidable d.NotedInTime := by
  unfold Daemon.NotedInTime
  split <;> infer_instance

/-- A frame that changes the claim is accepted as a request that has an item for it. -/
def ClaimIsAccepted (seen : Int32) : Option (Except Exn TMessage × Globals) → Prop
  | some (.ok m, g) => g.AdcStreamingConnection ≠ seen → isRequest m.Id = true ∧ m.starts ≠ []
  | _ => True

instance (seen : Int32) :
    (q : Option (Except Exn TMessage × Globals)) → Decidable (ClaimIsAccepted seen q)
  | some (.ok m, g) => inferInstanceAs
    (Decidable (g.AdcStreamingConnection ≠ seen → isRequest m.Id = true ∧ m.starts ≠ []))
  | some (.error _, _) | none => inferInstanceAs (Decidable True)

/-- Nothing goes wrong between a claim and its release: a frame that claims the stream is
accepted as a request with its item, an item that gets no worker leaves no claim, the
worker is noted before it ends, and its initialisation succeeds. -/
def NothingFails (pf : Platform) (env : Env ε) (d : Daemon ε β) : DaemonAction β → Prop
  | .receive _ buf seen => ClaimIsAccepted seen ((GotMessage pf buf).exec ⟨d.Config, seen⟩)
  | .ActionThread => (d.Fails env → d.SeenTo) ∧ d.NotedInTime
  | .worker_main answer => d.adc.worker = .init ∨ d.adc.worker = .map → answer.status = 0
  | _ => True

instance (pf : Platform) (env : Env ε) :
    (d : Daemon ε β) → (a : DaemonAction β) → Decidable (NothingFails pf env d a)
  | d, .receive _ buf seen =>
    inferInstanceAs (Decidable (ClaimIsAccepted seen ((GotMessage pf buf).exec ⟨d.Config, seen⟩)))
  | d, .ActionThread => inferInstanceAs (Decidable ((d.Fails env → d.SeenTo) ∧ d.NotedInTime))
  | d, .worker_main answer => inferInstanceAs
    (Decidable (d.adc.worker = .init ∨ d.adc.worker = .map → answer.status = 0))
  | _, .log_main _ | _, .signal => inferInstanceAs (Decidable True)

/-- A claim has its item or its worker, and a note has its worker. -/
structure Daemon.Tracked (d : Daemon ε β) : Prop where
  claim : d.adc.globals.AdcStreamingConnection ≠ -1 → d.waiting ≠ [] ∨ d.adc.worker.Streaming
  note : d.adc.globals.AdcWorkerThreadID ≠ -1 → d.adc.worker.Alive

theorem Daemon.Tracked.serves {d d' : Daemon ε β} (h : d.Tracked) (hserves : d.Serves env d')
    (hconn : d'.adc.globals.AdcStreamingConnection = d.adc.globals.AdcStreamingConnection)
    (hcond : d.Fails env → d.SeenTo) :
    d'.adc.globals.AdcStreamingConnection ≠ -1 → d'.waiting ≠ [] ∨ d'.adc.worker.Streaming := by
  intro hclaimed
  rw [hconn] at hclaimed
  cases hserves with
  | keep hwaiting hworker hstarted =>
    rw [hwaiting, hworker]
    exact h.claim hclaimed
  | fail item hwaiting hworker hstarted hfails =>
    rw [hworker]
    rcases hcond hfails with hfree | hstreaming | hmore
    · exact absurd hfree hclaimed
    · exact .inr hstreaming
    · -- another item waits behind the one that has failed
      refine .inl fun hnil => ?_
      rw [hwaiting, hnil] at hmore
      exact absurd hmore (Nat.lt_irrefl 1)
  | create item hwaiting hdead hworker hstarted =>
    rw [hworker]
    exact .inr (by decide)

theorem ActionStep.tracked {d d' : Daemon ε β} (h : ActionStep pf env d d') (htracked : d.Tracked)
    (hcond : (d.Fails env → d.SeenTo) ∧ d.NotedInTime) : d'.Tracked := by
  refine ⟨htracked.serves h.serves h.conn hcond.1, ?_⟩
  cases h
  case item hpc hstart hrun =>
    intro hid
    have hsame := changes_worker (goItem_effect hrun).1 hstart
    exact htracked.note fun hnone => hid (hsame.trans hnone)
  case createWorker => exact fun _ => ⟨nofun, nofun⟩
  case noteWorker hpc =>
    have hnoted := hcond.2
    unfold Daemon.NotedInTime at hnoted
    rw [hpc] at hnoted
    exact fun _ => hnoted
  all_goals exact htracked.note

/-- A worker whose initialisation succeeds gives everything back before it ends. -/
theorem WorkerStep.gives {answer : WorkerAnswer β} {s s' : AdcStream β}
    (h : WorkerStep answer s s') (hinit : s.worker = .init ∨ s.worker = .map → answer.status = 0) :
    (s'.globals.AdcStreamingConnection ≠ -1 → s'.globals.AdcStreamingConnection =
        s.globals.AdcStreamingConnection ∧ (s.worker.Streaming → s'.worker.Streaming)) ∧
      (s'.globals.AdcWorkerThreadID ≠ -1 → s'.worker.Alive) := by
  cases h
  case initFailed hpc hstatus => exact absurd (hinit (.inl hpc)) hstatus
  case mapFailed hpc hstatus => exact absurd (hinit (.inr hpc)) hstatus
  case idleConnection => exact ⟨fun hclaimed => absurd rfl hclaimed, fun _ => ⟨nofun, nofun⟩⟩
  case idleWorker hpc =>
    refine ⟨fun _ => ⟨rfl, fun hstreaming => absurd hpc hstreaming.2⟩, fun hid => absurd rfl hid⟩
  case slots hpc hslots =>
    unfold slotLoop
    split <;> exact ⟨fun _ => ⟨rfl, fun _ => ⟨⟨nofun, nofun⟩, nofun⟩⟩, fun _ => ⟨nofun, nofun⟩⟩
  case post hpc =>
    unfold slotLoop
    split <;> exact ⟨fun _ => ⟨rfl, fun _ => ⟨⟨nofun, nofun⟩, nofun⟩⟩, fun _ => ⟨nofun, nofun⟩⟩
  all_goals exact ⟨fun _ => ⟨rfl, fun _ => ⟨⟨nofun, nofun⟩, nofun⟩⟩, fun _ => ⟨nofun, nofun⟩⟩

theorem receiveFrame_tracked {Socket : Int} {buf : TBytes} {seen : Int32} {d d' : Daemon ε β}
    (h : receiveFrame pf Socket buf seen d = some d') (htracked : d.Tracked)
    (hcond : ClaimIsAccepted seen ((GotMessage pf buf).exec ⟨d.Config, seen⟩)) : d'.Tracked := by
  obtain ⟨m, g, hrun, rfl⟩ := receiveFrame_some h
  rw [hrun] at hcond
  refine ⟨fun hclaimed => ?_, htracked.note⟩
  have hmore : Daemon.waiting { d with ActionQueue := d.ActionQueue ++ [⟨Socket, .heap m⟩] } =
      d.waiting ++ TActionQueueItem.starts ⟨Socket, .heap m⟩ := by
    unfold Daemon.waiting
    rw [List.flatMap_append, List.flatMap_singleton, List.append_assoc]
  by_cases hsame : g.AdcStreamingConnection = seen
  · have hclaimed : d.adc.globals.AdcStreamingConnection ≠ -1 := by
      have := hclaimed
      simp only [if_pos hsame] at this
      exact this
    rcases htracked.claim hclaimed with hwaiting | hstreaming
    · exact .inl (hmore ▸ List.append_ne_nil_of_left_ne_nil hwaiting _)
    · exact .inr hstreaming
  · obtain ⟨hrequest, hstarts⟩ := hcond hsame
    have hqueued : TActionQueueItem.starts ⟨Socket, .heap m⟩ = m.starts := if_pos hrequest
    refine .inl (hmore ▸ ?_)
    rw [hqueued]
    exact List.append_ne_nil_of_right_ne_nil _ hstarts

/-- In every state reached without such a failure. -/
theorem nothing_leaked {d₀ d : Daemon ε β} (hstart : d₀.Started)
    (h : (daemonSystem pf env β).Reaches (NothingFails pf env) d₀ d) : d.Unleaked := by
  have htracked : d.Tracked := by
    refine h.invariant (I := Daemon.Tracked) ?_ ?_
    · constructor
      all_goals
        intro hset
        rw [hstart.globals] at hset
        exact absurd rfl hset
    · intro d a d' htracked hcond hnext
      cases a with
      | receive Socket buf seen => exact receiveFrame_tracked hnext htracked hcond
      | ActionThread => exact (ActionThread_step hnext).tracked htracked hcond
      | worker_main answer =>
        obtain ⟨adc, hadc, rfl⟩ := Option.map_eq_some_iff.mp hnext
        obtain ⟨hclaim, hnote⟩ := (worker_main_step hadc).gives hcond
        refine ⟨fun hclaimed => ?_, hnote⟩
        obtain ⟨hconn, hstreaming⟩ := hclaim hclaimed
        exact (htracked.claim (hconn ▸ hclaimed)).imp id hstreaming
      | log_main answer =>
        obtain ⟨adc, hadc, rfl⟩ := Option.map_eq_some_iff.mp hnext
        obtain ⟨-, hconn, hid, hworker⟩ := (log_main_step hadc).globals
        constructor
        · rw [hconn, hworker]
          exact htracked.claim
        · rw [hid, hworker]
          exact htracked.note
      | signal =>
        cases hnext
        exact ⟨htracked.claim, htracked.note⟩
  intro hidle hdead
  constructor
  · refine Decidable.not_not.mp fun hclaimed => ?_
    rcases htracked.claim hclaimed with hwaiting | hstreaming
    · exact hidle (.inl hwaiting)
    · exact hdead hstreaming.1
  · exact Decidable.not_not.mp fun hnoted => hdead (htracked.note hnoted)

def exFailingStep : DaemonAction Nat := .worker_main { status := -1, mmap_addr := fun _ => 0 }

/-- The worker starts without a logger, its wait for data is cancelled, and it ends. -/
def exWorkerRun : List (DaemonAction Nat) :=
  List.replicate 5 exWorkerStep ++ [exFailingStep, exWorkerStep, exWorkerStep, exFailingStep] ++
    List.replicate 7 exWorkerStep

/-- The stream is started and stopped, and nothing is left. -/
theorem nothing_leaked_stream :
    ∃ d : Daemon Unit Nat, (daemonSystem exPlatform exEnv Nat).Reaches
      (NothingFails exPlatform exEnv) exDaemon d ∧ d.adc.worker = .ended ∧ d.Unleaked := by
  have hrun : ((daemonSystem exPlatform exEnv Nat).runWith (NothingFails exPlatform exEnv)
      (exRun exStart ++ .ActionThread :: exWorkerRun) exDaemon).map
      (fun d => decide (d.adc.worker = .ended)) = some true := by
    decide +kernel
  obtain ⟨d, hreach, hd⟩ := StepSystem.exists_reaches_of_runWith hrun
  exact ⟨d, hreach, of_decide_eq_true hd, nothing_leaked ⟨rfl, rfl, rfl, rfl, rfl⟩ hreach⟩

/-- The driver refuses the transfer size. -/
def exNoTransfer : Env Unit where
  answer c e :=
    match c with
    | .apci_dma_transfer_size => ((-1 : Int), e)
    | c => exEnv.answer c e

/-- The command has been answered, and the stream stays claimed for connection 5. -/
theorem claim_leaked :
    ∃ d : Daemon Unit Nat, (daemonSystem exPlatform exNoTransfer Nat).Reachable exDaemon d ∧
      d.adc.globals.AdcStreamingConnection = 5 ∧ ¬d.Unleaked := by
  have hrun : ((daemonSystem exPlatform exNoTransfer Nat).run
      (.receive 5 exStart (-1) :: List.replicate 3 .ActionThread) exDaemon).map
      (fun d => decide (d.adc.globals.AdcStreamingConnection = 5 ∧ d.adc.worker = .absent ∧
        d.action = .loop ∧ d.waiting = [])) = some true := by
    decide +kernel
  obtain ⟨d, hreach, hd⟩ := StepSystem.exists_reachable_of_run hrun
  obtain ⟨hconn, hworker, haction, hwaiting⟩ := of_decide_eq_true hd
  have hidle : ¬d.Starting := by
    rintro (hsome | ⟨rest, hpc⟩ | ⟨rest, hpc⟩)
    · exact hsome hwaiting
    · cases haction.symm.trans hpc
    · cases haction.symm.trans hpc
  have hdead : ¬d.adc.worker.Alive := fun halive => halive.1 hworker
  refine ⟨d, hreach, hconn, fun hunleaked => ?_⟩
  have hfree := (hunleaked hidle hdead).1
  rw [hconn] at hfree
  cases hfree

end EnetTcp
