import Mathlib.Algebra.Order.BigOperators.Group.List
import EnetTcp.Shutdown

/-!
# The joins of exit_handler (aioenetd.cpp)

When `done` is set, every thread that `main` joins is on its way to its end, and the
`nullptr` that `exit_handler` puts on the queue wakes the action thread if it sleeps.
This holds as long as nobody clears `done` again.

Results:
1. `shutdown_bounded`: `main` and the threads that it joins have at most 32 statements in
   front of them.
2. `shutdown_progress`: one of them can always go on, or it waits for the mutex and its
   owner can.
-/

namespace EnetTcp

open Monitor Prog ShutdownLemmas

/-! ## 1. A bound -/

/-- The step does not clear `done`. -/
def KeepsDone {ε : Type} (s : DaemonState ε) : Action DaemonThread (DaemonChoice ε) → Prop
  | .outside (.setDone false) => s.shared.queue.done = false
  | _ => True

instance {ε : Type} (s : DaemonState ε) (a : Action DaemonThread (DaemonChoice ε)) :
    Decidable (KeepsDone s a) := by
  unfold KeepsDone
  split <;> infer_instance

/-- The statements that a thread has in front of it at most, when `done` is set. -/
def DaemonPc.left : DaemonPc → Nat
  | .sleeping => 13
  | .setDone => 12
  | .cancelIrq => 11
  | .queue (.enqueue _) => 10
  | .queue (.push _) => 9
  | .queue .notify => 8
  | .queue (.unlock none) => 7
  | .queue (.return_ none) => 6
  | .joinAdc => 5
  | .joinControl => 4
  | .joinAction => 3
  | .reset => 2
  | .saveConfig => 1
  | .queue .wait => 9
  | .queue .dequeue | .queue .testStop => 7
  | .queue .loop => 6
  | .queue .testDone | .queue .pop => 5
  | .queue (.unlock (some _)) => 4
  | .queue (.return_ (some _)) => 3
  | .handle _ => 2
  | .select => 5
  | .accept => 4
  | .serve _ => 3
  | .accepting => 2
  | .head => 1
  | _ => 0

/-- A thread that waits gets the mutex back first. -/
def statementsLeft : Status DaemonPc → Nat
  | .running pc => pc.left
  | .waiting pc => pc.left + 1

/-- `main` and the threads that it joins. -/
def joinedThreads : List DaemonThread := [.main, .action, .control, .adc]

/-- The longest way to the end. -/
def DaemonThread.longest : DaemonThread → Nat
  | .main => 13
  | .action => 9
  | .control | .adc => 5
  | .receiver _ => 10

/-- The steps of a run that are taken by these threads. -/
def ownSteps {ε : Type} (as : List (Action DaemonThread (DaemonChoice ε))) : Nat :=
  as.countP fun a => ∃ i ∈ joinedThreads, a.thread = some i

namespace JoiningLemmas

variable {ε : Type} {pf : Platform} {env : Env ε} {apci : Int} {s s' : DaemonState ε}
  {i : DaemonThread} {st st' : Status DaemonPc} {x x' : DaemonWorld ε}

theorem goItems_done {items : List TDataItem} {m m' : Machine ε} {qs : List GoResult}
    (h : goItems pf env items m = some (qs, m')) (hdone : m.done = true) : m'.done = true := by
  induction items generalizing m qs with
  | nil =>
    cases h
    exact hdone
  | cons item items ih =>
    obtain ⟨⟨q, m₁⟩, hq, h⟩ := Option.bind_eq_some_iff.mp h
    obtain ⟨⟨qs', m₂⟩, hqs, h⟩ := Option.map_eq_some_iff.mp h
    cases h
    exact ih hqs (ClaimLemmas.changes_done (goItem_effect hq).1 hdone)

theorem respond_done {m : TMessage} {machine machine' : Machine ε} {bytes : TBytes}
    (h : respond pf env m machine = some (bytes, machine')) (hdone : machine.done = true) :
    machine'.done = true := by
  unfold respond at h
  split at h
  · obtain ⟨⟨qs, m₁⟩, hqs, h⟩ := Option.bind_eq_some_iff.mp h
    obtain ⟨bytes', -, h⟩ := Option.map_eq_some_iff.mp h
    cases h
    exact goItems_done hqs hdone
  · obtain ⟨bytes', -, h⟩ := Option.map_eq_some_iff.mp h
    cases h
    exact hdone

/-- No statement of a thread clears `done`. -/
theorem threadMove_done (h : ThreadMove pf env i x st x' st') (hdone : x.queue.done = true) :
    x'.queue.done = true := by
  cases h with
  | through | asleep | woken => exact hdone
  | queue hrun => cases hrun <;> exact hdone
  | world hmove =>
    cases hmove with
    | setDone => rfl
    | handle hi hx =>
      obtain ⟨m, bytes, machine, -, hrespond, rfl⟩ := handle_some hx
      exact respond_done hrespond hdone
    | serve =>
      unfold DaemonWorld.serve
      split <;> exact hdone
    | _ => exact hdone

theorem done_step {a : Action DaemonThread (DaemonChoice ε)} (hcond : KeepsDone s a)
    (hstep : DaemonStep pf env s a s') (hdone : s.shared.queue.done = true) :
    s'.shared.queue.done = true := by
  cases hstep with
  | thread _ _ hmove => exact threadMove_done hmove hdone
  | spurious _ _ hshared =>
    rw [hshared]
    exact hdone
  | outside ha _ hx =>
    rcases outside_some hx with ⟨value, rfl, hshared⟩ | ⟨machine, -, hshared⟩ <;> rw [hshared]
    · subst ha
      cases value with
      | true => rfl
      | false =>
        have hclear : s.shared.queue.done = false := hcond
        rw [hdone] at hclear
        cases hclear
    · exact hdone

/-- Each statement of these threads leaves less to do. -/
theorem threadMove_left (h : ThreadMove pf env i x st x' st') (hi : i ∈ joinedThreads)
    (hdone : x.queue.done = true) : statementsLeft st' < statementsLeft st := by
  cases h with
  | through hthrough =>
    cases hthrough with
    | unlock result => cases result <;> exact Nat.lt_add_one _
    | enqueue | dequeue | notify => exact Nat.lt_add_one _
  | asleep | woken => exact Nat.lt_add_one _
  | queue hrun =>
    cases hrun with
    | push | pop => exact Nat.lt_add_one _
    | loop =>
      simp [hdone, statementsLeft, DaemonPc.left]
    | testStop => split <;> simp [statementsLeft, DaemonPc.left]
    | testDone =>
      rw [hdone]
      exact Nat.lt_add_one 4
    | enqueued hthread =>
      obtain rfl | ⟨k, rfl⟩ := hthread
      · exact Nat.lt_add_one 5
      · simp [joinedThreads] at hi
    | dequeued v => cases v <;> simp [behindCall, statementsLeft, DaemonPc.left]
  | world hmove =>
    cases hmove with
    | sleeping =>
      rw [hdone]
      exact Nat.lt_add_one 12
    | join j hi hj hmem =>
      simp only [List.mem_cons, Prod.mk.injEq, List.not_mem_nil, or_false] at hmem
      obtain ⟨-, rfl, rfl⟩ | ⟨-, rfl, rfl⟩ | ⟨-, rfl, rfl⟩ := hmem <;> exact Nat.lt_add_one _
    | setDone | cancelIrq | reset | saveConfig | return_ | handle | serve =>
      exact Nat.lt_add_one _
    | dequeue _ hclear | listen _ hclear =>
      rw [hdone] at hclear
      cases hclear
    | accepting =>
      rw [hdone]
      exact Nat.lt_add_one 1
    | selected _ hn =>
      obtain rfl | rfl | ⟨rfl, hclear⟩ := hn
      · simp [statementsLeft, DaemonPc.left]
      · exact Nat.lt_add_one 4
      · rw [hdone] at hclear
        cases hclear
    | accepted _ hn =>
      obtain ⟨socket, rfl⟩ | rfl := hn
      · exact Nat.lt_add_one 3
      · simp [statementsLeft, DaemonPc.left]
    | received item hk =>
      subst hk
      simp [joinedThreads] at hi

theorem left_step {a : Action DaemonThread (DaemonChoice ε)} (hstep : DaemonStep pf env s a s')
    (hdone : s.shared.queue.done = true) (hi : i ∈ joinedThreads) (hthread : a.thread = some i) :
    statementsLeft (s'.status i) < statementsLeft (s.status i) := by
  cases hstep with
  | thread hj hstatus hmove =>
    cases hj.symm.trans hthread
    rw [hstatus, Function.update_self]
    exact threadMove_left hmove hi hdone
  | spurious hnone =>
    rw [hnone] at hthread
    cases hthread
  | outside ha =>
    subst ha
    cases hthread

theorem left_le {i : DaemonThread} {st : Status DaemonPc} (h : InProgram i st) :
    statementsLeft st ≤ i.longest := by
  cases st with
  | waiting pc =>
    cases i with
    | action =>
      cases h
      exact Nat.le_of_ble_eq_true rfl
    | _ => exact h.elim
  | running pc =>
    cases pc with
    | queue q =>
      cases q with
      | unlock result | return_ result =>
        cases result <;> cases i <;> first | exact h.elim | exact Nat.le_of_ble_eq_true rfl
      | _ => cases i <;> first | exact h.elim | exact Nat.le_of_ble_eq_true rfl
    | _ => cases i <;> first | exact h.elim | exact Nat.le_of_ble_eq_true rfl

theorem workLeft_le (hprog : ∀ i, InProgram i (s.status i)) :
    workLeft statementsLeft joinedThreads s ≤ 32 := by
  unfold workLeft
  calc (joinedThreads.map fun i => statementsLeft (s.status i)).sum
      ≤ (joinedThreads.map DaemonThread.longest).sum :=
        List.sum_le_sum fun i _ => left_le (hprog i)
    _ = 32 := rfl

theorem ownSteps_le {as : List (Action DaemonThread (DaemonChoice ε))} {machine : Machine ε}
    (h : (daemonMonitor pf env apci).system.Reachable (daemonStarted machine) s)
    (hdone : s.shared.queue.done = true)
    (hrun : (daemonMonitor pf env apci).system.runWith KeepsDone as s = some s') :
    ownSteps as + workLeft statementsLeft joinedThreads s' ≤
      workLeft statementsLeft joinedThreads s := by
  induction as generalizing s with
  | nil =>
    cases hrun
    exact (Nat.zero_add _).le
  | cons a as ih =>
    unfold StepSystem.runWith at hrun
    split at hrun
    case isTrue hcond =>
      obtain ⟨s₁, hnext, hrest⟩ := Option.bind_eq_some_iff.mp hrun
      have hstep := daemon_step (inProgram_reaches h) (next_step hnext)
      have hless : workLeft statementsLeft joinedThreads _ +
          (if ∃ i ∈ joinedThreads, a.thread = some i then 1 else 0) ≤
          workLeft statementsLeft joinedThreads _ :=
        workLeft_step (next_step hnext) (by decide) fun i hi hthread =>
          left_step hstep hdone hi hthread
      have hmore := ih (h.step trivial hnext) (done_step hcond hstep hdone) hrest
      unfold ownSteps at *
      rw [List.countP_cons]
      simp only [decide_eq_true_eq]
      omega
    case isFalse => cases hrun

end JoiningLemmas

open JoiningLemmas

/-- From the moment `done` is set and stays set, `main` and the threads that it joins take at
most 32 steps, whatever the others do in between. -/
theorem shutdown_bounded {ε : Type} {pf : Platform} {env : Env ε} {apci : Int}
    {machine : Machine ε} {s s' : DaemonState ε} {as : List (Action DaemonThread (DaemonChoice ε))}
    (h : (daemonMonitor pf env apci).system.Reachable (daemonStarted machine) s)
    (hdone : s.shared.queue.done = true)
    (hrun : (daemonMonitor pf env apci).system.runWith KeepsDone as s = some s') :
    ownSteps as ≤ 32 := by
  have hsteps := ownSteps_le h hdone hrun
  have hbound := workLeft_le (inProgram_reaches h)
  omega

/-- The way out of `exShutdown` takes 14 statements of these threads. -/
theorem shutdown_bounded_example :
    ownSteps (exShutdown.drop 1) = 14 ∧ ownSteps (exShutdown.drop 1) ≤ 32 := by
  obtain ⟨s, s', hreach, hrun, hs⟩ : ∃ s s' : DaemonState Unit,
      (daemonMonitor exPlatform exEnv 5).system.Reachable exDaemonStarted s ∧
      (daemonMonitor exPlatform exEnv 5).system.runWith KeepsDone (exShutdown.drop 1) s =
        some s' ∧ s.shared.queue.done = true :=
    ⟨_, _, .step (a := .outside (.setDone true)) .start trivial rfl, rfl, rfl⟩
  exact ⟨by decide, shutdown_bounded hreach hs hrun⟩


/-! ## 2. Nobody is stuck -/

/-- `main` has gone through the `notify_one` of its `enqueue`. -/
def DaemonPc.Notified : DaemonPc → Prop
  | .queue (.unlock _) | .queue (.return_ _) | .joinAdc | .joinControl | .joinAction | .reset
  | .saveConfig | .ended => True
  | _ => False

/-- What `exit_handler` relies on when it waits for the action thread. -/
structure Leaving {ε : Type} (s : DaemonState ε) : Prop where
  done : ∀ pc, s.status .main = .running pc → pc ≠ .sleeping → pc ≠ .setDone →
    s.shared.queue.done = true
  awake : ∀ pc, s.status .main = .running pc → pc.Notified →
    s.waitSet = [] ∧ s.status .action ≠ .running (.queue .wait)
  returned : ∀ i ∈ [DaemonThread.adc, .control, .action], s.status i = .running .ended →
    i ∈ s.shared.returned

namespace JoiningLemmas

variable {ε : Type} {pf : Platform} {env : Env ε} {apci : Int} {s s' : DaemonState ε}
  {i : DaemonThread} {st st' : Status DaemonPc} {x x' : DaemonWorld ε}

/-- The queue's mutex, seen from the daemon. -/
theorem reaches_queue {C : DaemonState ε → Action DaemonThread (DaemonChoice ε) → Prop}
    {machine : Machine ε} (h : (daemonMonitor pf env apci).system.Reaches C
      (daemonStarted machine) s) : Exclusive (fun _ pc => pc.Holds) (queueOf s) :=
  SafeQueueLemmas.reaches_exclusive (queueOf_reaches h.reachable)

theorem queuePc_holds {pc : DaemonPc} (h : pc.queuePc.Holds) : ∃ q, pc = .queue q ∧ q.Holds := by
  cases pc with
  | queue q => exact ⟨q, rfl, h⟩
  | _ => exact h.elim

theorem owner_queue (h : Exclusive (fun _ pc => pc.Holds) (queueOf s)) {i : DaemonThread} :
    s.owner = some i ↔ ∃ q, s.status i = .running (.queue q) ∧ q.Holds := by
  have howner : s.owner = some i ↔ ∃ pc, (s.status i).map DaemonPc.queuePc = .running pc ∧
      pc.Holds := h.owner i
  rw [howner]
  constructor
  · rintro ⟨pc, hpc, hholds⟩
    cases hst : s.status i with
    | running pc' =>
      rw [hst] at hpc
      cases hpc
      obtain ⟨q, rfl, hq⟩ := queuePc_holds hholds
      exact ⟨q, rfl, hq⟩
    | waiting pc' =>
      rw [hst] at hpc
      cases hpc
  · rintro ⟨q, hq, hholds⟩
    rw [hq]
    exact ⟨q, rfl, hholds⟩

/-- Only the action thread sleeps. -/
theorem sleeper_action (h : Exclusive (fun _ pc => pc.Holds) (queueOf s))
    (hprog : ∀ i, InProgram i (s.status i)) {i : DaemonThread} (hi : i ∈ s.waitSet) :
    i = .action := by
  obtain ⟨pc, hpc⟩ := h.asleep i hi
  have hpc : (s.status i).map DaemonPc.queuePc = .waiting pc := hpc
  have hplace := hprog i
  cases hst : s.status i with
  | running pc' =>
    rw [hst] at hpc
    cases hpc
  | waiting pc' =>
    rw [hst] at hplace
    cases i with
    | action => rfl
    | _ => exact hplace.elim

/-- `notify_one` leaves nobody asleep. -/
theorem erase_sleeper (h : Exclusive (fun _ pc => pc.Holds) (queueOf s))
    (hprog : ∀ i, InProgram i (s.status i)) {j : DaemonThread} (hj : j ∈ s.waitSet) :
    s.waitSet.erase j = [] := by
  refine List.eq_nil_iff_forall_not_mem.mpr fun k hk => ?_
  have hk' := sleeper_action h hprog (List.mem_of_mem_erase hk)
  have hj' := sleeper_action h hprog hj
  subst hk' hj'
  exact h.nodup.not_mem_erase hk

/-- A thread goes to sleep only when `done` is not set. -/
theorem threadMove_wait (h : ThreadMove pf env i x st x' (.running (.queue .wait)))
    (hdone : x.queue.done = true) : False := by
  generalize hst : Status.running (DaemonPc.queue .wait) = st' at h
  cases h with
  | through hthrough => cases hthrough <;> cases hst
  | asleep | woken => cases hst
  | queue hrun =>
    cases hrun with
    | loop => simp [hdone] at hst
    | testStop | testDone => split at hst <;> cases hst
    | enqueued => split at hst <;> cases hst
    | dequeued v => cases v <;> cases hst
    | push | pop => cases hst
  | world hmove =>
    cases hmove with
    | sleeping | accepting => split at hst <;> cases hst
    | join j hi hj hmem =>
      cases hst
      simp at hmem
    | selected hi hs => obtain rfl | rfl | ⟨rfl, -⟩ := hs <;> cases hst
    | accepted hi hs => obtain ⟨socket, rfl⟩ | rfl := hs <;> cases hst
    | _ => cases hst

theorem wait_step {a : Action DaemonThread (DaemonChoice ε)} (hstep : DaemonStep pf env s a s')
    (hdone : s.shared.queue.done = true) (hi : s'.status i = .running (.queue .wait)) :
    s.status i = .running (.queue .wait) := by
  cases hstep with
  | thread _ hstatus hmove =>
    rw [hstatus] at hi
    rcases update_cases hi with ⟨rfl, rfl⟩ | ⟨-, hst⟩
    · exact (threadMove_wait hmove hdone).elim
    · exact hst
  | spurious _ hstatus | outside _ hstatus => exact hstatus ▸ hi

/-- `main` comes to these places from `notify_one`. -/
theorem threadMove_notified {n : DaemonPc} (h : ThreadMove pf env .main x st x' (.running n))
    (hn : n.Notified) : ∃ pc, st = .running pc ∧ (pc = .queue .notify ∨ pc.Notified) := by
  cases h with
  | through hthrough =>
    cases hthrough with
    | enqueue | dequeue => exact hn.elim
    | notify => exact ⟨_, rfl, .inl rfl⟩
    | unlock => exact ⟨_, rfl, .inr trivial⟩
  | woken hi => cases hi
  | queue hrun =>
    cases hrun with
    | push => exact hn.elim
    | enqueued => exact ⟨_, rfl, .inr trivial⟩
    | loop hi | testStop hi | testDone hi | pop hi | dequeued _ hi => cases hi
  | world hmove =>
    refine ⟨_, rfl, .inr ?_⟩
    cases hmove with
    | sleeping => split at hn <;> exact hn.elim
    | setDone | cancelIrq => exact hn.elim
    | join j hi hj hmem =>
      simp only [List.mem_cons, Prod.mk.injEq, List.not_mem_nil, or_false] at hmem
      obtain ⟨-, rfl, -⟩ | ⟨-, rfl, -⟩ | ⟨-, rfl, -⟩ := hmem <;> trivial
    | reset | saveConfig => trivial
    | return_ hi => obtain h | h | h := hi <;> cases h
    | dequeue hi | handle hi | received _ hi => cases hi
    | listen hi | accepting hi | selected hi | accepted hi | serve hi =>
      obtain h | h := hi <;> cases h

/-- Nobody goes to sleep who is not about to. -/
theorem waitSet_step {a : Action DaemonThread (DaemonChoice ε)}
    (hstep : (daemonMonitor pf env apci).Step s a s')
    (hnone : ∀ i, s.status i ≠ .running (.queue .wait)) (hempty : s.waitSet = []) :
    s'.waitSet = [] := by
  cases hstep with
  | wait hpc hcode howner =>
    obtain ⟨q, m, rfl, rfl, hq⟩ := code_wait hcode
    cases q <;> cases hq
    exact absurd hpc (hnone _)
  | notify hpc hcode hj =>
    rw [hempty] at hj
    cases hj
  | spurious hj =>
    rw [hempty] at hj
    cases hj
  | lock | unlock | reacquire | run | notifyNobody | outside => exact hempty

/-- Whoever sleeps when `main` comes to its `notify_one` is woken by it. -/
theorem notify_step {a : Action DaemonThread (DaemonChoice ε)}
    (hqueue : Exclusive (fun _ pc => pc.Holds) (queueOf s))
    (hprog : ∀ i, InProgram i (s.status i)) (hstep : (daemonMonitor pf env apci).Step s a s')
    (hmain : s.status .main = .running (.queue .notify))
    (hmoved : s'.status .main ≠ .running (.queue .notify)) : s'.waitSet = [] := by
  have hcode : (daemonMonitor pf env apci).code .main (.queue .notify) =
      .notify_one (.queue (.unlock none)) := rfl
  have hself {pc : DaemonPc} {j : DaemonThread} {st : Status DaemonPc}
      (hpc : s.status j = .running pc) (hst : Function.update s.status j st .main ≠
        .running (.queue .notify)) : j = .main ∧ pc = .queue .notify := by
    by_cases hj : j = .main
    · subst hj
      rw [hmain] at hpc
      cases hpc
      exact ⟨rfl, rfl⟩
    · rw [Function.update_of_ne (Ne.symm hj)] at hst
      exact absurd hmain hst
  cases hstep with
  | lock hpc hcode' | unlock hpc hcode' | wait hpc hcode' | run hpc hcode' =>
    obtain ⟨rfl, rfl⟩ := hself hpc hmoved
    rw [hcode] at hcode'
    cases hcode'
  | @reacquire j choice pc hpc =>
    by_cases hj : j = .main
    · subst hj
      rw [hmain] at hpc
      cases hpc
    · exact absurd hmain (Function.update_of_ne (Ne.symm hj) _ s.status ▸ hmoved)
  | notify hpc hcode' hj => exact erase_sleeper hqueue hprog hj
  | notifyNobody hpc hcode' hempty => exact hempty
  | spurious | outside => exact absurd hmain hmoved

/-- A thread ends by returning. -/
theorem threadMove_ended (h : ThreadMove pf env i x st x' (.running .ended))
    (hi : i ∈ [DaemonThread.adc, .control, .action]) : i ∈ x'.returned := by
  have hmain : i ≠ .main := by
    rintro rfl
    simp at hi
  generalize hst : Status.running DaemonPc.ended = st' at h
  cases h with
  | through | asleep | woken => cases hst
  | queue hrun =>
    cases hrun with
    | enqueued => split at hst <;> cases hst
    | dequeued v => cases v <;> cases hst
    | push | loop | testStop | testDone | pop => cases hst
  | world hmove =>
    cases hmove with
    | return_ => exact List.mem_cons_self
    | accepting => split at hst <;> cases hst
    | selected _ hs => obtain rfl | rfl | ⟨rfl, -⟩ := hs <;> cases hst
    | accepted _ hs => obtain ⟨socket, rfl⟩ | rfl := hs <;> cases hst
    | sleeping hi | join _ hi | saveConfig _ hi => exact absurd hi hmain
    | _ => cases hst

theorem returned_step {a : Action DaemonThread (DaemonChoice ε)} (hstep : DaemonStep pf env s a s')
    (h : s.status i = .running .ended → i ∈ s.shared.returned)
    (hi : i ∈ [DaemonThread.adc, .control, .action]) (hended : s'.status i = .running .ended) :
    i ∈ s'.shared.returned := by
  cases hstep with
  | thread _ hstatus hmove =>
    rw [hstatus] at hended
    rcases update_cases hended with ⟨rfl, rfl⟩ | ⟨-, hst⟩
    · exact threadMove_ended hmove hi
    · rcases threadMove_returned hmove with hsame | ⟨-, -, hmore⟩
      · rw [hsame]
        exact h hst
      · rw [hmore]
        exact List.mem_cons_of_mem _ (h hst)
  | spurious _ hstatus hshared =>
    rw [hshared]
    exact h (hstatus ▸ hended)
  | outside _ hstatus hx =>
    rcases outside_some hx with ⟨value, -, hshared⟩ | ⟨machine, -, hshared⟩ <;> rw [hshared] <;>
      exact h (hstatus ▸ hended)

/-- `main` leaves its loop when `done` is set, or sets it. -/
theorem threadMove_leaving {n : DaemonPc} (h : ThreadMove pf env .main x st x' (.running n))
    (hsleeping : n ≠ .sleeping) (hsetDone : n ≠ .setDone) :
    (∃ pc, st = .running pc ∧ pc ≠ .sleeping ∧ pc ≠ .setDone) ∨ x'.queue.done = true := by
  cases h with
  | through | queue =>
    exact .inl ⟨_, rfl, DaemonPc.noConfusion, DaemonPc.noConfusion⟩
  | woken hi => cases hi
  | world hmove =>
    cases hmove with
    | sleeping =>
      cases hdone : x.queue.done with
      | true => exact .inr rfl
      | false =>
        rw [hdone] at hsleeping
        exact absurd rfl hsleeping
    | setDone => exact .inr rfl
    | join j hi hj hmem =>
      refine .inl ⟨_, rfl, ?_, ?_⟩ <;> rintro rfl <;> simp at hmem
    | _ => exact .inl ⟨_, rfl, DaemonPc.noConfusion, DaemonPc.noConfusion⟩

theorem leaving_done {a : Action DaemonThread (DaemonChoice ε)} {n : DaemonPc} (h : Leaving s)
    (hcond : KeepsDone s a) (hstep : DaemonStep pf env s a s')
    (hn : s'.status .main = .running n) (hsleeping : n ≠ .sleeping) (hsetDone : n ≠ .setDone) :
    s'.shared.queue.done = true := by
  have hkept {pc : DaemonPc} (hpc : s.status .main = .running pc) (hs : pc ≠ .sleeping)
      (hd : pc ≠ .setDone) : s'.shared.queue.done = true :=
    done_step hcond hstep (h.done pc hpc hs hd)
  cases hstep with
  | thread _ hstatus hmove =>
    rw [hstatus] at hn
    rcases update_cases hn with ⟨rfl, rfl⟩ | ⟨-, hst⟩
    · rcases threadMove_leaving hmove hsleeping hsetDone with ⟨pc, hpc, hs, hd⟩ | hdone
      · exact hkept hpc hs hd
      · exact hdone
    · exact hkept hst hsleeping hsetDone
  | spurious _ hstatus | outside _ hstatus => exact hkept (hstatus ▸ hn) hsleeping hsetDone

/-- Behind `main`'s `notify_one` nobody sleeps or goes to sleep. -/
theorem leaving_awake {a : Action DaemonThread (DaemonChoice ε)} {n : DaemonPc} (h : Leaving s)
    (hqueue : Exclusive (fun _ pc => pc.Holds) (queueOf s))
    (hprog : ∀ i, InProgram i (s.status i)) (hstep : (daemonMonitor pf env apci).Step s a s')
    (hn : s'.status .main = .running n) (hnotified : n.Notified) :
    s'.waitSet = [] ∧ s'.status .action ≠ .running (.queue .wait) := by
  have hmoves := daemon_step hprog hstep
  have hawake {pc : DaemonPc} (hpc : s.status .main = .running pc) (hbefore : pc.Notified) :
      s'.waitSet = [] ∧ s'.status .action ≠ .running (.queue .wait) := by
    obtain ⟨hempty, haction⟩ := h.awake pc hpc hbefore
    have hdone : s.shared.queue.done = true := by
      refine h.done pc hpc ?_ ?_ <;> rintro rfl <;> exact hbefore.elim
    refine ⟨waitSet_step hstep (fun i hi => ?_) hempty,
      fun hi => haction (wait_step hmoves hdone hi)⟩
    have hplace := hprog i
    rw [hi] at hplace
    cases i with
    | action => exact haction hi
    | _ => exact hplace.elim
  cases hmoves with
  | thread _ hstatus hmove =>
    have hn' := hn
    rw [hstatus] at hn'
    rcases update_cases hn' with ⟨rfl, rfl⟩ | ⟨-, hst⟩
    · obtain ⟨pc, hpc, rfl | hbefore⟩ := threadMove_notified hmove hnotified
      · have hdone : s.shared.queue.done = true :=
          h.done _ hpc DaemonPc.noConfusion DaemonPc.noConfusion
        refine ⟨notify_step hqueue hprog hstep hpc ?_, fun hi => ?_⟩
        · rw [hn]
          intro heq
          cases heq
          exact hnotified
        · -- both would hold the mutex
          have hwait := wait_step (daemon_step hprog hstep) hdone hi
          have hmain := (owner_queue hqueue).mpr ⟨_, hpc, trivial⟩
          rw [(owner_queue hqueue).mpr ⟨_, hwait, trivial⟩] at hmain
          cases hmain
      · exact hawake hpc hbefore
    · exact hawake hst hnotified
  | spurious _ hstatus | outside _ hstatus => exact hawake (hstatus ▸ hn) hnotified

theorem leaving_reaches {machine : Machine ε}
    (h : (daemonMonitor pf env apci).system.Reaches KeepsDone (daemonStarted machine) s) :
    Leaving s := by
  induction h with
  | start =>
    refine ⟨fun pc hpc hsleeping => ?_, fun pc hpc hnotified => ?_, fun i hi hended => ?_⟩
    · cases hpc
      exact absurd rfl hsleeping
    · cases hpc
      exact hnotified.elim
    · cases i with
      | main | receiver => simp at hi
      | action | control | adc => cases hended
  | step hreach hcond hnext ih =>
    have hprog := inProgram_reaches hreach
    have hstep := next_step hnext
    exact
      { done := fun pc => leaving_done ih hcond (daemon_step hprog hstep)
        awake := fun pc => leaving_awake ih (reaches_queue hreach) hprog hstep
        returned := fun i hi => returned_step (daemon_step hprog hstep) (ih.returned i hi) hi }

/-- `front` meets an element. -/
theorem pop_reaches {machine : Machine ε} {i : DaemonThread}
    (h : (daemonMonitor pf env apci).system.Reaches KeepsDone (daemonStarted machine) s)
    (hpop : s.status i = .running (.queue .pop)) :
    (SafeQueue.pop i s.shared.queue).isSome = true := by
  have hqueue : (safeQueue DaemonThread TActionQueueItem).system.Reaches
      (fun s a => a = .outside (.setDone false) → s.shared.done = false)
      (SafeQueue.initial DaemonThread TActionQueueItem) (queueOf s) := by
    rw [← queueOf_started machine]
    refine embeds_reaches embeds ?_
      (h.strengthen (I := fun s => ∀ i, InProgram i (s.status i)) fun _ => inProgram_reaches)
    rintro t a t' a' ⟨hprog, hcond⟩ hstep hinner rfl
    cases hdone : t.shared.queue.done with
    | false => exact hdone
    | true =>
      have hkept : (t'.map DaemonWorld.queue DaemonPc.queuePc).shared.done = true :=
        done_step hcond (daemon_step hprog hstep) hdone
      generalize t'.map DaemonWorld.queue DaemonPc.queuePc = u at hinner hkept
      cases hinner with
      | outside hx =>
        cases hx
        cases hkept
  have hfacts := SafeQueueLemmas.reaches_facts (fun _ hcond => hcond rfl) hqueue
  have hq : s.shared.queue.q ≠ [] := by
    refine hfacts.running i .pop ?_
    exact congrArg (Status.map DaemonPc.queuePc) hpop
  unfold SafeQueue.pop
  split
  case h_1 hempty => exact absurd hempty hq
  case h_2 => rfl

theorem code_queueStmt (i : DaemonThread) (q : QueuePc TActionQueueItem) :
    (daemonMonitor pf env apci).code i (.queue q) = queueStmt i q := by
  cases i <;> rfl

/-- The thread that holds the mutex goes on. -/
theorem enabled_owner {machine : Machine ε} {i : DaemonThread}
    (h : (daemonMonitor pf env apci).system.Reaches KeepsDone (daemonStarted machine) s)
    (howner : s.owner = some i) : (daemonMonitor pf env apci).Enabled s i := by
  obtain ⟨q, hq, hholds⟩ := (owner_queue (reaches_queue h)).mp howner
  have hcode : (daemonMonitor pf env apci).code i (.queue q) = queueStmt i q :=
    code_queueStmt i q
  cases q with
  | push | loop | testStop | testDone | tryTest => exact enabled_run .none hq hcode rfl
  | notify => exact enabled_notify hq hcode
  | wait => exact enabled_wait hq hcode howner
  | unlock result => exact enabled_unlock hq hcode howner
  | pop =>
    refine enabled_run .none hq hcode ?_
    rw [Option.isSome_map]
    exact pop_reaches h hq
  | elsewhere | enqueue | dequeue | tryDequeue | return_ | Stop | StopNotify => exact hholds.elim

/-- A listener goes on until it returns. -/
theorem enabled_listener {i : DaemonThread} (hi : i = .control ∨ i = .adc)
    (hplace : InProgram i (s.status i)) (hnot : s.status i ≠ .running .ended) :
    (daemonMonitor pf env apci).Enabled s i := by
  cases hst : s.status i with
  | waiting pc =>
    rw [hst] at hplace
    obtain rfl | rfl := hi <;> exact hplace.elim
  | running pc =>
    rw [hst] at hplace hnot
    have hcode : (daemonMonitor pf env apci).code i pc = listenerCode i pc := by
      cases pc with
      | queue q => obtain rfl | rfl := hi <;> exact hplace.elim
      | _ => obtain rfl | rfl := hi <;> rfl
    cases pc with
    | head | accepting | serve => exact enabled_run .none hst hcode rfl
    | select => exact enabled_run (.select .timeout) hst hcode rfl
    | accept => exact enabled_run (.accepted (some 0)) hst hcode rfl
    | ended => exact absurd rfl hnot
    | queue | sleeping | setDone | cancelIrq | joinAdc | joinControl | joinAction | reset
    | saveConfig | handle | receive => obtain rfl | rfl := hi <;> exact hplace.elim

end JoiningLemmas

/-- A message or the save never comes to an end. -/
def Hangs {ε : Type} (pf : Platform) (env : Env ε) (s : DaemonState ε) : Prop :=
  (∃ anAction, s.status .action = .running (.handle anAction) ∧
    s.shared.handle pf env anAction = none) ∨
  s.status .main = .running .saveConfig ∧ s.shared.saveConfig pf env = none

namespace JoiningLemmas

variable {ε : Type} {pf : Platform} {env : Env ε} {apci : Int} {s s' : DaemonState ε}

/-- The action thread goes on until it returns, when it is awake and the mutex is free. -/
theorem enabled_action (hqueue : Exclusive (fun _ pc => pc.Holds) (queueOf s))
    (hplace : InProgram .action (s.status .action)) (howner : s.owner = none)
    (hawake : s.waitSet = []) (hnot : s.status .action ≠ .running .ended) :
    (daemonMonitor pf env apci).Enabled s .action ∨ Hangs pf env s := by
  have hfree {q : QueuePc TActionQueueItem} (hq : s.status .action = .running (.queue q)) :
      ¬q.Holds := by
    intro hholds
    have haction := (owner_queue hqueue).mpr ⟨q, hq, hholds⟩
    rw [howner] at haction
    cases haction
  cases hst : s.status .action with
  | waiting pc =>
    refine .inl (enabled_woken hst ?_ howner)
    rw [hawake]
    exact List.not_mem_nil
  | running pc =>
    rw [hst] at hplace hnot
    cases pc with
    | head => exact .inl (enabled_run .none hst rfl rfl)
    | handle anAction =>
      cases hhandle : s.shared.handle pf env anAction with
      | none => exact .inr (.inl ⟨anAction, hst, hhandle⟩)
      | some x =>
        refine .inl (enabled_run .none hst rfl ?_)
        rw [hhandle]
        rfl
    | queue q =>
      cases q with
      | dequeue => exact .inl (enabled_lock hst rfl howner)
      | return_ result => exact .inl (enabled_run .none hst rfl rfl)
      | loop | wait | testStop | testDone | pop | unlock => exact absurd trivial (hfree hst)
      | elsewhere | enqueue | push | notify | tryDequeue | tryTest | Stop | StopNotify =>
        exact hplace.elim
    | ended => exact absurd rfl hnot
    | sleeping | setDone | cancelIrq | joinAdc | joinControl | joinAction | reset | saveConfig
    | accepting | select | accept | serve | receive => exact hplace.elim

/-- `main` waits in a join for a thread that has returned or goes on. -/
theorem enabled_join {i : DaemonThread} {pc next : DaemonPc} (h : Leaving s)
    (hpc : s.status .main = .running pc)
    (hcode : (daemonMonitor pf env apci).code .main pc = .run fun _ x => x.join i next)
    (hi : i ∈ [DaemonThread.adc, .control, .action]) (hended : s.status i = .running .ended) :
    (daemonMonitor pf env apci).Enabled s .main := by
  refine enabled_run .none hpc hcode ?_
  rw [DaemonWorld.join, if_pos (h.returned i hi hended)]
  rfl

end JoiningLemmas

/-- `main` has ended, or one of the threads that it joins can go on, or a receiver thread that
has the mutex can, unless a message or the save never comes to an end. -/
def NobodyStuck {ε : Type} (pf : Platform) (env : Env ε) (apci : Int) (s : DaemonState ε) : Prop :=
  s.status .main = .running .ended ∨ Hangs pf env s ∨
    (∃ i ∈ joinedThreads, (daemonMonitor pf env apci).Enabled s i) ∨
    ∃ k, s.owner = some (.receiver k) ∧ (daemonMonitor pf env apci).Enabled s (.receiver k)

/-- The joins of `exit_handler` do not deadlock. -/
theorem shutdown_progress {ε : Type} {pf : Platform} {env : Env ε} {apci : Int}
    {machine : Machine ε} {s : DaemonState ε}
    (h : (daemonMonitor pf env apci).system.Reaches KeepsDone (daemonStarted machine) s) :
    NobodyStuck pf env apci s := by
  have hprog := inProgram_reaches h
  have hleaving := leaving_reaches h
  have hqueue := reaches_queue h
  have hgoes {i : DaemonThread} (hi : i ∈ joinedThreads)
      (henabled : (daemonMonitor pf env apci).Enabled s i) : NobodyStuck pf env apci s :=
    .inr (.inr (.inl ⟨i, hi, henabled⟩))
  cases howner : s.owner with
  | some i =>
    have henabled := enabled_owner h howner
    cases i with
    | receiver k => exact .inr (.inr (.inr ⟨k, howner, henabled⟩))
    | main | action | control | adc => exact hgoes (by decide) henabled
  | none =>
    have hlistener {i : DaemonThread} (hi : i = .control ∨ i = .adc) {pc next : DaemonPc}
        (hpc : s.status .main = .running pc)
        (hcode : (daemonMonitor pf env apci).code .main pc = .run fun _ x => x.join i next) :
        ∃ j ∈ joinedThreads, (daemonMonitor pf env apci).Enabled s j := by
      by_cases hended : s.status i = .running .ended
      · refine ⟨.main, by decide, enabled_join hleaving hpc hcode ?_ hended⟩
        obtain rfl | rfl := hi <;> decide
      · refine ⟨i, ?_, enabled_listener hi (hprog i) hended⟩
        obtain rfl | rfl := hi <;> decide
    have hplace := hprog .main
    cases hst : s.status .main with
    | waiting pc =>
      rw [hst] at hplace
      exact hplace.elim
    | running pc =>
      rw [hst] at hplace
      cases pc with
      | sleeping | setDone | cancelIrq | reset =>
        exact hgoes (i := .main) (by decide) (enabled_run .none hst rfl rfl)
      | queue q =>
        have hfree : ¬q.Holds := by
          intro hholds
          have hmain := (owner_queue hqueue).mpr ⟨q, hst, hholds⟩
          rw [howner] at hmain
          cases hmain
        cases q with
        | enqueue t => exact hgoes (i := .main) (by decide) (enabled_lock hst rfl howner)
        | return_ result => exact hgoes (i := .main) (by decide) (enabled_run .none hst rfl rfl)
        | push | notify | loop | wait | testStop | testDone | pop | tryTest | unlock =>
          exact absurd trivial hfree
        | elsewhere | dequeue | tryDequeue | Stop | StopNotify => exact hplace.elim
      | joinAdc => exact .inr (.inr (.inl (hlistener (.inr rfl) hst rfl)))
      | joinControl => exact .inr (.inr (.inl (hlistener (.inl rfl) hst rfl)))
      | joinAction =>
        by_cases hended : s.status .action = .running .ended
        · exact hgoes (i := .main) (by decide) (enabled_join hleaving hst rfl (by decide) hended)
        · obtain ⟨hawake, -⟩ := hleaving.awake _ hst trivial
          rcases enabled_action hqueue (hprog .action) howner hawake hended with henabled | hhangs
          · exact hgoes (by decide) henabled
          · exact .inr (.inl hhangs)
      | saveConfig =>
        cases hsave : s.shared.saveConfig pf env with
        | none => exact .inr (.inl (.inr ⟨hst, hsave⟩))
        | some x =>
          refine hgoes (i := .main) (by decide) (enabled_run .none hst rfl ?_)
          rw [hsave]
          rfl
      | ended => exact .inl hst
      | head | handle | accepting | select | accept | serve | receive => exact hplace.elim

/-- `main` waits for the action thread, which has been woken. -/
theorem shutdown_progress_example : ∃ s : DaemonState Unit,
    s.status .main = .running .joinAction ∧ s.status .action = .waiting (.queue .testStop) ∧
    NobodyStuck exPlatform exEnv 5 s := by
  have hrun : ((daemonMonitor exPlatform exEnv 5).system.runWith KeepsDone
      (List.replicate 4 (.step .action .none) ++
        [.outside (.setDone true), .step .adc .none, .step .control .none] ++
        List.replicate 5 (.step .main .none) ++ [.notify .main (some .action)] ++
        List.replicate 4 (.step .main .none)) exDaemonStarted).map
      (fun s => decide (s.status .main = .running .joinAction ∧
        s.status .action = .waiting (.queue .testStop))) = some true := by decide +kernel
  obtain ⟨s, hreach, hs⟩ := StepSystem.exists_reaches_of_runWith hrun
  obtain ⟨hmain, haction⟩ := of_decide_eq_true hs
  exact ⟨s, hmain, haction, shutdown_progress hreach⟩

end EnetTcp
