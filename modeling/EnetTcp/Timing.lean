import EnetTcp.Lib.Pipeline
import EnetTcp.Serving

/-!
# Receivers and the action thread

The receiver threads parse frames and put messages on the queue, the action thread
runs them, and the steps interleave. `threads` is the queue between them as a
`Pipeline`, and every step of the daemon is one of its steps (`threadStep_refines`).

`timing_independent`: how the steps interleave does not matter in runs where no
frame is parsed while a message is pending that may change what it reads.
-/

namespace EnetTcp

open Prog Pipeline

variable {ε : Type}

/-! ## 1. Steps of the threads -/

section

variable (pf : Platform) (env : Env ε)

/-- One step: a receiver makes a message of a frame that a socket has brought, or
the action thread handles the first message on the queue. -/
def threadStep (w : World ε) : Event (Int × Frame) → Option (World ε)
  | .produce (aSocket, f) => (enqueueFrame pf aSocket f.bytes).after w
  | .consume =>
    if w.machine.done ∨ w.ActionQueue = [] then none
    else (actionStep pf (daemonGo pf env)).after w

/-- A run of the threads. Frames are parsed in worlds where that is `Allowed`. -/
inductive ThreadRun (Allowed : World ε → Frame → Prop) :
    World ε → List (Event (Int × Frame)) → World ε → Prop
  | nil {w : World ε} : ThreadRun Allowed w [] w
  | cons {w w₁ w₂ : World ε} {e : Event (Int × Frame)} {es : List (Event (Int × Frame))} :
      threadStep pf env w e = some w₁ → (∀ aSocket f, e = .produce (aSocket, f) → Allowed w f) →
      ThreadRun Allowed w₁ es w₂ → ThreadRun Allowed w (e :: es) w₂

end

/-- The action thread has no more to do. -/
def World.Finished (w : World ε) : Prop := w.ActionQueue = [] ∨ w.machine.done = true

/-- What a client and the hardware can see. -/
structure SameOutcome (w w' : World ε) : Prop where
  registerWrites : w.machine.sys.registerWrites = w'.machine.sys.registerWrites
  Config : w.machine.Config = w'.machine.Config
  sent : w.sent = w'.sent

/-- Two runs to the end that put the same frames on the queue in the same order
have the same outcome. -/
def TimingIndependent (pf : Platform) (env : Env ε) (Allowed : World ε → Frame → Prop) : Prop :=
  ∀ w w₁ w₂ es₁ es₂, ThreadRun pf env Allowed w es₁ w₁ → ThreadRun pf env Allowed w es₂ w₂ →
    inputs es₁ = inputs es₂ → w₁.Finished → w₂.Finished → SameOutcome w₁ w₂

/-! ## 2. The queue as a pipeline -/

/-- What the threads share besides the queue. -/
structure Shared (ε : Type) where
  machine : Machine ε
  AdcStreamingConnection : Int32
  sent : List (Int × TBytes)

def World.shared (w : World ε) : Shared ε := ⟨w.machine, w.AdcStreamingConnection, w.sent⟩

/-- The queue between the receivers and the action thread. -/
def threads (pf : Platform) (env : Env ε) :
    Pipeline (Shared ε) (Int × Frame) TActionQueueItem where
  produce i s :=
    ((GotMessage pf i.2.bytes).exec ⟨s.machine.Config, s.AdcStreamingConnection⟩).bind fun q =>
      q.1.toOption.map fun m => (⟨i.1, .heap m⟩,
        { s with AdcStreamingConnection := q.2.AdcStreamingConnection })
  consume item s :=
    match item.theMessage with
    | .heap m => (respond pf env m s.machine).map fun r =>
      { s with machine := r.2, sent := s.sent ++ [(item.Socket, r.1)] }
    | .dangling _ => none
  stopped s := s.machine.done

variable {pf : Platform} {env : Env ε}

/-- The steps of the daemon are steps of the pipeline. -/
theorem threadStep_refines {w w' : World ε} {e : Event (Int × Frame)}
    (h : threadStep pf env w e = some w') :
    (threads pf env).Step (w.shared, w.ActionQueue) e (w'.shared, w'.ActionQueue) := by
  cases e with
  | produce i =>
    obtain ⟨aSocket, f⟩ := i
    obtain ⟨⟨⟩, hrun⟩ := after_eq_some.mp h
    rw [enqueueFrame_exec, Option.map_eq_some_iff] at hrun
    obtain ⟨⟨q, g'⟩, hgot, hr⟩ := hrun
    cases q with
    | error x => cases hr
    | ok m =>
      cases hr
      have hconfig : g'.Config = w.machine.Config := GotMessage_config hgot
      have hshared : { w.shared with AdcStreamingConnection := g'.AdcStreamingConnection } =
          (w.setGlobals g').shared := by
        rw [World.setGlobals, hconfig]
        rfl
      refine .produce ?_
      show Option.bind ((GotMessage pf f.bytes).exec w.globals) _ = _
      rw [hgot]
      exact congrArg (fun s => some (_, s)) hshared
  | consume =>
    rw [threadStep] at h
    split at h
    case isTrue => cases h
    case isFalse hgoing =>
      obtain ⟨hdone, hqueue⟩ := not_or.mp hgoing
      obtain ⟨⟨⟩, hrun⟩ := after_eq_some.mp h
      obtain ⟨⟨aSocket, ref⟩, rest, hitems⟩ := List.exists_cons_of_ne_nil hqueue
      cases ref with
      | dangling m =>
        rw [actionStep, exec_get_bind, hitems] at hrun
        cases hrun
      | heap m =>
        rw [actionStep_heap pf _ hitems, handleMessage_daemon, Option.map_eq_some_iff] at hrun
        obtain ⟨r, hr, heq⟩ := hrun
        cases heq
        rw [hitems]
        refine .consume (Bool.eq_false_iff.mpr hdone) ?_
        show Option.map _ (respond pf env m w.machine) = _
        rw [hr]
        rfl

/-! ## 3. Draining the queue -/

/-- The cells that a message on the queue may write. -/
def TActionQueueItem.writes (item : TActionQueueItem) : List Cell := item.theMessage.enqueued.writes

/-- The same with another claim on the ADC stream. -/
def Shared.withAdc (a : Int32) (s : Shared ε) : Shared ε := { s with AdcStreamingConnection := a }

namespace TimingLemmas

theorem consume_withAdc (a : Int32) (item : TActionQueueItem) (s : Shared ε) :
    (threads pf env).consume item (s.withAdc a) =
      ((threads pf env).consume item s).map (Shared.withAdc a) := by
  obtain ⟨aSocket, ref⟩ := item
  cases ref with
  | heap m =>
    show Option.map _ (respond pf env m s.machine) =
      Option.map _ (Option.map _ (respond pf env m s.machine))
    rw [Option.map_map]
    rfl
  | dangling m => rfl

theorem consume_keeps {item : TActionQueueItem} {s s' : Shared ε}
    (h : (threads pf env).consume item s = some s') :
    s'.AdcStreamingConnection = s.AdcStreamingConnection ∧
      ∀ cell ∉ item.writes, s.machine.Config.at cell = s'.machine.Config.at cell := by
  obtain ⟨aSocket, ref⟩ := item
  cases ref with
  | heap m =>
    obtain ⟨r, hr, rfl⟩ := Option.map_eq_some_iff.mp h
    exact ⟨rfl, fun cell hcell => respond_keeps hr hcell⟩
  | dangling m => cases h

/-- Who has claimed the ADC stream does not matter for what is pending. -/
theorem drain_withAdc (a : Int32) (q : List TActionQueueItem) (s : Shared ε) :
    (threads pf env).drain q (s.withAdc a) =
      ((threads pf env).drain q s).map (Shared.withAdc a) := by
  induction q generalizing s with
  | nil => rfl
  | cons item q ih =>
    have hstopped : (threads pf env).stopped (s.withAdc a) = (threads pf env).stopped s := rfl
    rw [drain, drain, hstopped, consume_withAdc]
    split
    · rfl
    · cases (threads pf env).consume item s with
      | none => rfl
      | some s' => exact ih s'

/-- What is pending leaves the claim alone, and the cells that it does not write. -/
theorem drain_keeps {q : List TActionQueueItem} {s s' : Shared ε}
    (h : (threads pf env).drain q s = some s') :
    s'.AdcStreamingConnection = s.AdcStreamingConnection ∧
      ∀ cell, (∀ item ∈ q, cell ∉ item.writes) →
        s.machine.Config.at cell = s'.machine.Config.at cell := by
  induction q generalizing s with
  | nil =>
    cases h
    exact ⟨rfl, fun _ _ => rfl⟩
  | cons item q ih =>
    rw [drain] at h
    split at h
    case isTrue =>
      cases h
      exact ⟨rfl, fun _ _ => rfl⟩
    case isFalse =>
      obtain ⟨s₁, hconsume, hdrain⟩ := Option.bind_eq_some_iff.mp h
      obtain ⟨hadc, hcells⟩ := consume_keeps hconsume
      obtain ⟨hadc', hcells'⟩ := ih hdrain
      refine ⟨hadc'.trans hadc, fun cell hunwritten => ?_⟩
      obtain ⟨hhead, htail⟩ := List.forall_mem_cons.mp hunwritten
      exact (hcells cell hhead).trans (hcells' cell htail)

end TimingLemmas

open TimingLemmas

/-! ## 4. Timing -/

/-- No message on the queue may change what parsing the frame reads. -/
def Undisturbed (pf : Platform) (w : World ε) (f : Frame) : Prop :=
  ∀ item ∈ w.ActionQueue, ∀ cell ∈ item.writes, ¬ f.Reads pf w.globals cell

/-- An undisturbed frame is parsed alike before and after what is pending is done. -/
theorem calm_of_undisturbed {w : World ε} {f : Frame} (h : Undisturbed pf w f) (aSocket : Int) :
    (threads pf env).Calm (aSocket, f) w.shared w.ActionQueue := by
  intro item s' t' hproduce hdrain
  obtain ⟨⟨r, g'⟩, hgot, hmade⟩ := Option.bind_eq_some_iff.mp hproduce
  obtain ⟨m, hm, hitem⟩ := Option.map_eq_some_iff.mp hmade
  obtain ⟨rfl, rfl⟩ := Prod.mk.inj hitem
  obtain rfl : r = .ok m := by
    cases r with
    | error x => cases hm
    | ok m' => exact congrArg Except.ok (Option.some.inj hm)
  have hlater : ((threads pf env).drain w.ActionQueue w.shared).map
      (Shared.withAdc g'.AdcStreamingConnection) = some t' :=
    (drain_withAdc g'.AdcStreamingConnection w.ActionQueue w.shared).symm.trans hdrain
  obtain ⟨t, ht, rfl⟩ := Option.map_eq_some_iff.mp hlater
  obtain ⟨hadc, hcells⟩ := drain_keeps ht
  have hagree := GotMessage_agree (c := t.machine.Config) (fun cell hreads =>
    hcells cell fun item hitem hwrites => h item hitem cell hwrites hreads) hgot
  have hglobals : (⟨t.machine.Config, t.AdcStreamingConnection⟩ : Globals) =
      Globals.withConfig t.machine.Config w.globals := by
    rw [hadc]
    rfl
  refine ⟨t, ht, ?_⟩
  show Option.bind ((GotMessage pf f.bytes).exec ⟨t.machine.Config, t.AdcStreamingConnection⟩) _ = _
  rw [hglobals]
  refine (congrArg (Option.bind · _) hagree).trans ?_
  rfl

/-- An undisturbed run is a calm run of the pipeline. -/
theorem ThreadRun.calm {w w' : World ε} {es : List (Event (Int × Frame))}
    (h : ThreadRun pf env (Undisturbed pf) w es w') :
    (threads pf env).CalmRun (w.shared, w.ActionQueue) es (w'.shared, w'.ActionQueue) := by
  induction h with
  | nil => exact .nil
  | cons hstep hallowed _ ih =>
    refine .cons (threadStep_refines hstep) (fun i hi => ?_) ih
    exact calm_of_undisturbed (hallowed i.1 i.2 hi) i.1

/-- Timing does not matter in runs where every frame is parsed undisturbed. -/
theorem timing_independent (pf : Platform) (env : Env ε) :
    TimingIndependent pf env (Undisturbed pf) := by
  intro w w₁ w₂ es₁ es₂ hrun₁ hrun₂ hinputs hend₁ hend₂
  have hshared : w₁.shared = w₂.shared :=
    runs_agree hrun₁.calm hrun₂.calm hinputs hend₁ hend₂
  obtain ⟨hmachine, -, hsent⟩ := Shared.mk.inj hshared
  exact ⟨by rw [hmachine], by rw [hmachine], hsent⟩

/-! ## 5. A frame that is parsed too early -/

/-- Take the steps one after the other. -/
def threadSteps (pf : Platform) (env : Env ε) :
    List (Event (Int × Frame)) → World ε → Option (World ε)
  | [], w => some w
  | e :: es, w => (threadStep pf env w e).bind (threadSteps pf env es)

theorem ThreadRun.of_steps {es : List (Event (Int × Frame))} {w w' : World ε}
    (h : threadSteps pf env es w = some w') : ThreadRun pf env (fun _ _ => True) w es w' := by
  induction es generalizing w with
  | nil =>
    cases h
    exact .nil
  | cons e es ih =>
    obtain ⟨w₁, hstep, hrest⟩ := Option.bind_eq_some_iff.mp h
    exact .cons hstep (fun _ _ _ => trivial) (ih hrest)

/-- A command that sets the scale of DAC 0 to zero. -/
def exScale : Frame where
  MId := 0x43
  payload := [0x10, 0x02, 5, 0, 0, 0, 0, 0, 0]
  checksum := 0x9D
  fits := by decide

/-- A command that puts 0x1234 counts out on DAC 0. -/
def exOutput : Frame where
  MId := 0x43
  payload := [0x01, 0x02, 3, 0, 0, 0x34, 0x12]
  checksum := 0x6A
  fits := by decide

/-- The output is scaled with the old coefficient when it is parsed before the
first command has been run, and with the new one otherwise. -/
theorem early_parse_changes_output : ¬TimingIndependent exPlatform exEnv fun _ _ => True := by
  intro h
  let scale : Event (Int × Frame) := .produce (0, exScale)
  let output : Event (Int × Frame) := .produce (0, exOutput)
  let seen (w : World Unit) : List TActionQueueItem × List SysCall :=
    (w.ActionQueue, w.machine.sys.registerWrites)
  have hearly : (threadSteps exPlatform exEnv [scale, output, .consume, .consume]
      (exWorld [])).map seen = some ([], [.apci_write32 0x30 0x00301234]) := by decide +kernel
  have hlate : (threadSteps exPlatform exEnv [scale, .consume, output, .consume]
      (exWorld [])).map seen = some ([], [.apci_write32 0x30 0x00300000]) := by decide +kernel
  obtain ⟨w₁, hsteps₁, hseen₁⟩ := Option.map_eq_some_iff.mp hearly
  obtain ⟨w₂, hsteps₂, hseen₂⟩ := Option.map_eq_some_iff.mp hlate
  obtain ⟨hqueue₁, hwrites₁⟩ := Prod.mk.inj hseen₁
  obtain ⟨hqueue₂, hwrites₂⟩ := Prod.mk.inj hseen₂
  have hsame := h _ _ _ _ _ (.of_steps hsteps₁) (.of_steps hsteps₂) rfl (.inl hqueue₁)
    (.inl hqueue₂)
  have hwrites := hsame.registerWrites
  rw [hwrites₁, hwrites₂] at hwrites
  exact absurd hwrites (by decide)

end EnetTcp
