import EnetTcp.Connections

/-!
# Where replies go

What the system of connections, receiver threads and the action thread does, step by
step (`NetStep`), and which client a reply goes to.

* `reply_round`: the steps of the action thread are those of `ActionThread`.
* `reply_isolated`: replies go back to where their frames came from, as long as no number
  is used again while something is underway under it.
-/

namespace EnetTcp

open Prog

variable {ε : Type} {pf : Platform} {env : Env ε}

/-! ## 1. What a step does -/

/-- The item that a thread makes of the first `taken` bytes of its buffer. -/
def ReceiverThread.cut (t : ReceiverThread) (taken : Nat) (theMessage : MessageRef) : Queued where
  Socket     := t.controlSocket
  theMessage := theMessage
  frame      := t.buffer.take taken
  origin     := t.origin.take taken

/-- A thread has put an item on the queue. -/
def Net.hand (k : Nat) (t : ReceiverThread) (pc : ReceiverPc) (taken : Nat)
    (theMessage : MessageRef) (net : Net ε) : Net ε :=
  { net.setThread k { t with
      pc     := pc
      buffer := t.buffer.drop taken
      origin := t.origin.drop taken
      handed := t.handed ++ [t.cut taken theMessage] } with
    ActionQueue := net.ActionQueue ++ [t.cut taken theMessage] }

/-- The steps of the system.

* `client`, `accept`: a connection is accepted, with a receiver thread or without one.
* `finish`, `call`: the head of the loop of `threadReceiver`.
* `bytes`, `closed`, `failed`: the outcomes of `recv`.
* `frame`, `waits`, `oversize`: a round of the processing puts a message on the queue, finds none,
  or gives the whole buffer up for a message that says so.
* `disconnect`, `leave`: a connection is closed, with the thread going on or not.
* `ends`, `dequeue`, `run`: the action thread ends, or takes a message and runs its items.
* `send`, `lost`: the reply goes to the connection that has the socket by then, if there is one. -/
inductive NetStep (pf : Platform) (env : Env ε) (net : Net ε) : NetAction → Net ε → Prop
  | client {socket : Int} : net.sockets socket = none →
      NetStep pf env net (.accept socket true)
        { net with
          connections := net.connections + 1
          sockets     := Function.update net.sockets socket (some net.connections)
          threads     :=
            net.threads ++ [{ controlSocket := socket, connection := net.connections }] }
  | accept {socket : Int} : net.sockets socket = none →
      NetStep pf env net (.accept socket false)
        { net with
          connections := net.connections + 1
          sockets     := Function.update net.sockets socket (some net.connections) }
  | finish {k : Nat} {t : ReceiverThread} : net.threads[k]? = some t → t.pc = .loop →
      net.machine.done = true →
      NetStep pf env net (.loop k) (net.setThread k { t with pc := .disconnect })
  | call {k : Nat} {t : ReceiverThread} : net.threads[k]? = some t → t.pc = .loop →
      NetStep pf env net (.loop k)
        (net.setThread k { t with pc := .recv (net.sockets t.controlSocket) })
  | bytes {k connection : Nat} {t : ReceiverThread} {chunk : TBytes} :
      net.threads[k]? = some t → t.pc = .recv (some connection) →
      NetStep pf env net (.recv k (.bytes chunk)) (net.setThread k { t with
        pc       := .process
        buffer   := t.buffer ++ chunk
        origin   := t.origin ++ List.replicate chunk.length connection
        received := t.received ++ chunk })
  | closed {k connection : Nat} {t : ReceiverThread} :
      net.threads[k]? = some t → t.pc = .recv (some connection) →
      NetStep pf env net (.recv k .closed) (net.setThread k { t with pc := .hangup })
  | failed {k : Nat} {t : ReceiverThread} {connection : Option Nat} :
      net.threads[k]? = some t → t.pc = .recv connection →
      NetStep pf env net (.recv k .failed) (net.setThread k { t with pc := .disconnect })
  | frame {k : Nat} {t : ReceiverThread} {g g₁ g' : Globals} {f : Frame} {rest : TBytes}
      {m : TMessage} : net.threads[k]? = some t → t.pc = .process → t.buffer = f.bytes ++ rest →
      (GotMessage pf f.bytes).exec g₁ = some (.ok m, g') →
      NetStep pf env net (.process k g) (net.hand k t .process f.bytes.length (.heap m))
  | waits {k : Nat} {t : ReceiverThread} {g : Globals} : net.threads[k]? = some t →
      t.pc = .process → frameFormat.peel t.buffer = none → ¬Oversize t.buffer →
      NetStep pf env net (.process k g) (net.setThread k { t with pc := .loop })
  | oversize {k : Nat} {t : ReceiverThread} {g : Globals} : net.threads[k]? = some t →
      t.pc = .process → Oversize t.buffer →
      NetStep pf env net (.process k g)
        (net.hand k t .refuse t.buffer.length (.dangling { Id := 88, DataItems := [] }))
  | disconnect {k : Nat} {t : ReceiverThread} {pc : ReceiverPc} : net.threads[k]? = some t →
      t.pc.disconnected = some pc →
      NetStep pf env net (.disconnect k)
        ((net.setThread k { t with pc := pc }).close t.controlSocket)
  | leave {k : Nat} {t : ReceiverThread} : net.threads[k]? = some t → t.pc = .refused →
      NetStep pf env net (.leave k) (net.setThread k { t with pc := .loop })
  | ends : net.action = .waiting → net.machine.done = true →
      NetStep pf env net .ActionThread { net with action := .ended }
  | dequeue {message : Queued} {queue : List Queued} : net.action = .waiting →
      net.ActionQueue = message :: queue →
      NetStep pf env net .ActionThread
        { net with ActionQueue := queue, action := .running message }
  | run {message : Queued} {r : TBytes × Machine ε} : net.action = .running message →
      net.Exists message → respond pf env message.theMessage.enqueued net.machine = some r →
      NetStep pf env net .ActionThread
        { net with machine := r.2, action := .sending message r.1 }
  | send {message : Queued} {rbuf : TBytes} {connection : Nat} :
      net.action = .sending message rbuf → net.sockets message.Socket = some connection →
      NetStep pf env net .ActionThread
        { net with
          sent   := net.sent ++ [{ client := connection, message, rbuf }]
          action := .waiting }
  | lost {message : Queued} {rbuf : TBytes} : net.action = .sending message rbuf →
      net.sockets message.Socket = none →
      NetStep pf env net .ActionThread { net with action := .waiting }

namespace DeliveryLemmas

variable {net net' : Net ε} {k : Nat}

/-- No text gets out of `GotMessage`. -/
theorem GotMessage_not_logicError {buf : TBytes} {g g' : Globals} {what : TBytes} :
    (GotMessage pf buf).exec g ≠ some (.error (.logicError what), g') := by
  intro h
  rw [GotMessage_exec, Option.map_eq_some_iff] at h
  obtain ⟨⟨q, g₁⟩, -, hr⟩ := h
  match q, hr with
  | .ok (_, _), hr => cases hr
  | .error (.logicError _), hr => cases hr
  | .error (.stdException _), hr => cases hr
  | .error .unknown, hr => cases hr

theorem process_step {g : Globals} (h : net.process pf k g = some net') :
    NetStep pf env net (.process k g) net' := by
  unfold Net.process at h
  cases hk : net.threads[k]? with
  | none =>
    rw [hk] at h
    cases h
  | some t =>
    rw [hk] at h
    simp only at h
    split at h
    case isFalse => cases h
    case isTrue hpc =>
      cases hpeel : frameFormat.peel t.buffer with
      | some p =>
        obtain ⟨f, rest⟩ := p
        have hbuf : t.buffer = f.bytes ++ rest := frameFormat.eq_of_peel hpeel
        rw [processRound_frame pf t.controlSocket (r := net.receiver t g) hbuf] at h
        cases hgot : (GotMessage pf f.bytes).exec (net.receiver t g).world.globals with
        | none =>
          rw [hgot] at h
          cases h
        | some q =>
          obtain ⟨q, g'⟩ := q
          rw [hgot] at h
          match q, hgot, h with
          | .ok m, hgot, h =>
            have hstep : net.processed k t .process
                ((net.receiver t g).took t.controlSocket f rest g' m) =
                net.hand k t .process f.bytes.length (.heap m) := by
              have htaken : t.buffer.length - rest.length = f.bytes.length := by
                rw [hbuf, List.length_append, Nat.add_sub_cancel]
              have hrest : t.buffer.drop f.bytes.length = rest := by rw [hbuf, List.drop_left]
              unfold Net.hand
              rw [hrest, ← htaken]
              rfl
            cases h
            rw [hstep]
            exact .frame hk hpc hbuf hgot
          | .error (.logicError what), hgot, _ => exact absurd hgot GotMessage_not_logicError
          | .error (.stdException _), _, h => cases h
          | .error .unknown, _, h => cases h
      | none =>
        -- no frame: a header that announces too much, or the beginning of a frame
        by_cases hover : Oversize t.buffer
        · rw [processRound_oversize pf t.controlSocket (r := net.receiver t g) hover.1 hover.2] at h
          have hstep : NetStep pf env net (.process k g) _ := .oversize hk hpc hover
          unfold Net.hand at hstep
          rw [List.drop_length] at hstep
          cases h
          exact hstep
        · have hwait := (oversize_or_waiting hpeel).resolve_left hover
          rw [FramingLemmas.processRound_waiting pf t.controlSocket (r := net.receiver t g) hwait]
            at h
          have hstep : net.processed k t .loop (net.receiver t g) =
              net.setThread k { t with pc := .loop } := by
            have htaken : t.buffer.length - (net.receiver t g).buffer.length = 0 :=
              Nat.sub_self _
            unfold Net.processed
            rw [htaken]
            simp only [Net.receiver, List.map_nil, List.append_nil, List.drop_zero]
            rfl
          cases h
          rw [hstep]
          exact .waits hk hpc hpeel hover

theorem accept_step {socket : Int} {control : Bool} (h : net.accept socket control = some net') :
    NetStep pf env net (.accept socket control) net' := by
  unfold Net.accept at h
  split at h
  case isTrue hfree =>
    cases h
    cases control with
    | false => exact .accept hfree
    | true => exact .client hfree
  case isFalse => cases h

theorem loop_step (h : net.loop k = some net') : NetStep pf env net (.loop k) net' := by
  unfold Net.loop at h
  split at h
  case h_1 => cases h
  case h_2 t hk =>
    split at h
    case isTrue hpc =>
      cases h
      split
      case isTrue hdone => exact .finish hk hpc hdone
      case isFalse => exact .call hk hpc
    case isFalse => cases h

theorem recv_step {result : Net.RecvResult} (h : net.recv k result = some net') :
    NetStep pf env net (.recv k result) net' := by
  unfold Net.recv at h
  split at h
  case h_1 => cases h
  case h_2 t hk =>
    split at h
    case h_1 connection chunk hpc =>
      split at h
      case isTrue => cases h
      case isFalse =>
        cases h
        exact .bytes hk hpc
    case h_2 hpc =>
      cases h
      exact .closed hk hpc
    case h_3 hpc =>
      cases h
      exact .failed hk hpc
    case h_4 => cases h

theorem disconnect_step (h : net.disconnect k = some net') :
    NetStep pf env net (.disconnect k) net' := by
  unfold Net.disconnect at h
  split at h
  case h_1 => cases h
  case h_2 t hk =>
    obtain ⟨pc, hpc, rfl⟩ := Option.map_eq_some_iff.mp h
    exact .disconnect hk hpc

theorem leave_step (h : net.leave k = some net') : NetStep pf env net (.leave k) net' := by
  unfold Net.leave at h
  split at h
  case h_1 => cases h
  case h_2 t hk =>
    split at h
    case isTrue hpc =>
      cases h
      exact .leave hk hpc
    case isFalse => cases h

theorem reply_step (h : net.reply pf env = some net') :
    NetStep pf env net .ActionThread net' := by
  unfold Net.reply at h
  split at h
  case h_1 hact =>
    split at h
    case isTrue hdone =>
      cases h
      exact .ends hact hdone
    case isFalse =>
      split at h
      case h_1 => cases h
      case h_2 message queue hqueue =>
        cases h
        exact .dequeue hact hqueue
  case h_2 message hact =>
    split at h
    case isTrue hexists =>
      obtain ⟨r, hr, rfl⟩ := Option.map_eq_some_iff.mp h
      exact .run hact hexists hr
    case isFalse => cases h
  case h_3 message rbuf hact =>
    split at h
    case h_1 connection hopen =>
      cases h
      exact .send hact hopen
    case h_2 hopen =>
      cases h
      exact .lost hact hopen
  case h_4 => cases h

end DeliveryLemmas

open DeliveryLemmas

theorem netStep_of_next {a : NetAction} {net net' : Net ε}
    (h : (netSystem pf env).next a net = some net') : NetStep pf env net a net' := by
  cases a with
  | accept socket control => exact accept_step h
  | loop k => exact loop_step h
  | recv k result => exact recv_step h
  | process k g => exact process_step h
  | disconnect k => exact disconnect_step h
  | leave k => exact leave_step h
  | ActionThread => exact reply_step h

/-- What the functions of the daemon see of the state. -/
def Net.world (AdcStreamingConnection : Int32) (net : Net ε) : World ε where
  machine                := net.machine
  AdcStreamingConnection := AdcStreamingConnection
  ActionQueue            := net.ActionQueue.map (·.toTActionQueueItem)
  sent                   := net.sent.map fun r => (r.message.Socket, r.rbuf)

/-- Three steps of the action thread with no step of another thread in between are one
round of the loop of `ActionThread`. -/
theorem reply_round {net : Net ε} {message : Queued} {queue : List Queued} {m : TMessage}
    {connection : Nat} (hact : net.action = .waiting) (hdone : net.machine.done = false)
    (hqueue : net.ActionQueue = message :: queue) (hheap : message.theMessage = .heap m)
    (hopen : net.sockets message.Socket = some connection) (claim : Int32) :
    (((net.reply pf env).bind (Net.reply pf env)).bind (Net.reply pf env)).map (Net.world claim) =
      (actionStep pf (daemonGo pf env)).after (net.world claim) := by
  have hitems : (net.world claim).ActionQueue =
      ⟨message.Socket, .heap m⟩ :: queue.map (·.toTActionQueueItem) := by
    show net.ActionQueue.map _ = _
    rw [hqueue, List.map_cons, ← hheap]
  have hdequeue : net.reply pf env =
      some { net with ActionQueue := queue, action := .running message } := by
    unfold Net.reply
    rw [hact, hqueue]
    simp only [hdone, Bool.false_eq_true, if_false]
  have hexists (net : Net ε) : net.Exists message := by
    unfold Net.Exists
    rw [hheap]
    trivial
  have hrun (net : Net ε) (hact : net.action = .running message) : net.reply pf env =
      (respond pf env m net.machine).map fun r =>
        { net with machine := r.2, action := .sending message r.1 } := by
    unfold Net.reply
    rw [hact]
    simp only [if_pos (hexists net), hheap, MessageRef.enqueued]
  rw [hdequeue, Option.bind_some, hrun _ rfl, Prog.after, actionStep_heap pf _ hitems,
    handleMessage_daemon]
  show _ = Option.bind (Option.map _ (respond pf env m net.machine)) _
  cases respond pf env m net.machine with
  | none => rfl
  | some r =>
    simp only [Option.map_some, Option.bind_some]
    unfold Net.reply
    simp only [hopen, Option.map_some, Net.world, List.map_append, List.map_cons, List.map_nil]
    rfl

/-! ## 2. The client that gets the reply -/

/-- The messages that wait for a reply, oldest first. -/
def ReplyPc.hands : ReplyPc → List Queued
  | .running message | .sending message _ => [message]
  | .waiting | .ended => []

def Net.pending (net : Net ε) : List Queued := net.action.hands ++ net.ActionQueue

/-- Every reply has gone to the connection that all bytes of its frame came from. -/
def Isolated (net : Net ε) : Prop :=
  ∀ r ∈ net.sent, r.message.origin ≠ [] ∧ ∀ c ∈ r.message.origin, c = r.client

/-- In `recv`, on a number that was open. -/
def ReceiverPc.Receives : ReceiverPc → Prop
  | .recv (some _) => True
  | _ => False

instance : DecidablePred ReceiverPc.Receives
  | .recv (some _) => .isTrue trivial
  | .recv none | .loop | .process | .refuse | .refused | .hangup | .disconnect | .ended =>
    .isFalse id

/-- The thread has bytes of a connection in its buffer, or waits for some. -/
def ReceiverThread.Holds (t : ReceiverThread) : Prop :=
  ¬t.pc.Over ∧ (t.buffer ≠ [] ∨ t.pc.Receives)

instance : DecidablePred ReceiverThread.Holds := fun _ => inferInstanceAs (Decidable (_ ∧ _))

/-- A new connection gets a number only when nothing that came in under it is left: no
message in the queue or in the hands of the action thread, and no receiver thread with a
part of one. -/
def AcceptsClean (net : Net ε) : NetAction → Prop
  | .accept socket _ => (∀ q ∈ net.pending, q.Socket ≠ socket) ∧
    ∀ t ∈ net.threads, t.controlSocket = socket → ¬t.Holds
  | _ => True

instance (net : Net ε) : DecidablePred (AcceptsClean net)
  | .accept _ _ => inferInstanceAs (Decidable (_ ∧ _))
  | .loop _ | .recv _ _ | .process _ _ | .disconnect _ | .leave _ | .ActionThread => .isTrue trivial

/-- What has come from `origin` has come from the connection that is open under the number,
if one is. -/
def Own (sockets : Int → Option Nat) (socket : Int) (origin : List Nat) : Prop :=
  ∀ c, sockets socket = some c → ∀ b ∈ origin, b = c

/-- What the thread has, and what it waits for. -/
structure OwnThread (sockets : Int → Option Nat) (t : ReceiverThread) : Prop where
  buffer : ¬t.pc.Over → Own sockets t.controlSocket t.origin
  call : ∀ c, t.pc = .recv (some c) → Own sockets t.controlSocket [c]
  length : t.origin.length = t.buffer.length

/-- Nothing that came in under a number is mixed up with what another connection sends. -/
structure Apart (net : Net ε) : Prop where
  pending : ∀ q ∈ net.pending, q.origin ≠ [] ∧ Own net.sockets q.Socket q.origin
  threads : ∀ t ∈ net.threads, OwnThread net.sockets t
  sent : Isolated net

namespace DeliveryLemmas

variable {sockets : Int → Option Nat} {socket other : Int} {origin origin' : List Nat}

theorem own_subset (h : Own sockets socket origin) (hsub : origin' ⊆ origin) :
    Own sockets socket origin' := fun c hc b hb => h c hc b (hsub hb)

theorem own_append (h : Own sockets socket origin) (h' : Own sockets socket origin') :
    Own sockets socket (origin ++ origin') := by
  intro c hc b hb
  rcases List.mem_append.mp hb with hb | hb
  · exact h c hc b hb
  · exact h' c hc b hb

theorem own_close (h : Own sockets socket origin) :
    Own (Function.update sockets other none) socket origin := by
  intro c hc
  by_cases heq : socket = other
  · rw [heq, Function.update_self] at hc
    cases hc
  · rw [Function.update_of_ne heq] at hc
    exact h c hc

/-- A number that nothing has come in under may be given to a new connection. -/
theorem own_accept {new : Nat} (h : Own sockets socket origin)
    (hclean : socket = other → origin = []) :
    Own (Function.update sockets other (some new)) socket origin := by
  intro c hc b hb
  by_cases heq : socket = other
  · rw [hclean heq] at hb
    cases hb
  · rw [Function.update_of_ne heq] at hc
    exact h c hc b hb

variable {t : ReceiverThread}

theorem ownThread_close (h : OwnThread sockets t) :
    OwnThread (Function.update sockets other none) t :=
  ⟨fun hlive => own_close (h.buffer hlive), fun c hc => own_close (h.call c hc), h.length⟩

theorem ownThread_accept {new : Nat} (h : OwnThread sockets t)
    (hclean : t.controlSocket = other → ¬t.Holds) :
    OwnThread (Function.update sockets other (some new)) t := by
  refine ⟨fun hlive => own_accept (h.buffer hlive) fun heq => ?_, fun c hc => ?_, h.length⟩
  · have hempty : t.buffer = [] := by
      by_contra hne
      exact hclean heq ⟨hlive, .inl hne⟩
    rw [← List.length_eq_zero_iff, h.length, hempty, List.length_nil]
  · refine own_accept (h.call c hc) fun heq => absurd ⟨?_, .inr ?_⟩ (hclean heq)
    · rw [hc]
      exact id
    · rw [hc]
      trivial

/-- The thread goes on, to a `recv` on what is open under its number at most. -/
theorem ownThread_goto (h : OwnThread sockets t) {pc : ReceiverPc}
    (hover : t.pc.Over → pc.Over)
    (hcall : ∀ c, pc = .recv (some c) → sockets t.controlSocket = some c) :
    OwnThread sockets { t with pc := pc } := by
  refine ⟨fun hlive => h.buffer fun h => hlive (hover h), fun c hc c' hopen b hb => ?_, h.length⟩
  rw [List.mem_singleton.mp hb]
  exact Option.some.inj ((hcall c hc).symm.trans hopen)

/-- `Disconnect` brings no thread back into its loop, and leads to no `recv`. -/
theorem disconnected_over {pc pc' : ReceiverPc} (h : pc.disconnected = some pc') :
    (pc.Over → pc'.Over) ∧ ∀ c, pc' ≠ .recv (some c) := by
  cases pc with
  | refuse =>
    cases h
    exact ⟨id, nofun⟩
  | hangup | disconnect =>
    cases h
    exact ⟨fun _ => trivial, nofun⟩
  | loop | recv | process | refused | ended => cases h

variable {net : Net ε} {k : Nat}

theorem ownThread_at (h : Apart net) (hk : net.threads[k]? = some t) :
    OwnThread net.sockets t := h.threads t (List.mem_of_getElem? hk)

theorem apart_setThread (h : Apart net) (ht : OwnThread net.sockets t) :
    Apart (net.setThread k t) := by
  refine ⟨h.pending, fun t' ht' => ?_, h.sent⟩
  rcases List.mem_or_eq_of_mem_set ht' with hmem | rfl
  · exact h.threads t' hmem
  · exact ht

theorem apart_close (h : Apart net) (socket : Int) : Apart (net.close socket) :=
  ⟨fun q hq => ⟨(h.pending q hq).1, own_close (h.pending q hq).2⟩,
    fun t ht => ownThread_close (h.threads t ht), h.sent⟩

/-- What a thread puts on the queue comes out of its buffer. -/
theorem apart_hand (h : Apart net) (hk : net.threads[k]? = some t) (hpc : t.pc = .process)
    {pc : ReceiverPc} (hcall : ∀ c, pc ≠ .recv (some c)) {taken : Nat} (hpos : 0 < taken)
    (hle : taken ≤ t.buffer.length) (theMessage : MessageRef) :
    Apart (net.hand k t pc taken theMessage) := by
  have ht := ownThread_at h hk
  have hown : Own net.sockets t.controlSocket t.origin := ht.buffer (by rw [hpc]; exact id)
  have hset := apart_setThread (k := k) h (t := { t with
    pc     := pc
    buffer := t.buffer.drop taken
    origin := t.origin.drop taken
    handed := t.handed ++ [t.cut taken theMessage] })
    ⟨fun _ => own_subset hown (List.drop_subset ..), fun c hc => absurd hc (hcall c), by
      rw [List.length_drop, List.length_drop, ht.length]⟩
  refine ⟨fun q hq => ?_, hset.threads, h.sent⟩
  have hmem : q ∈ net.pending ++ [t.cut taken theMessage] := by
    rw [Net.pending, List.append_assoc]
    exact hq
  rcases List.mem_append.mp hmem with hq | hq
  · exact h.pending q hq
  · rw [List.mem_singleton.mp hq]
    refine ⟨List.ne_nil_of_length_pos ?_, own_subset hown (List.take_subset ..)⟩
    show 0 < (t.origin.take taken).length
    rw [List.length_take_of_le (ht.length ▸ hle)]
    exact hpos

/-- Messages of `net`, one more reply, and the rest as it was. -/
theorem apart_reply {net' : Net ε} (h : Apart net) (hsockets : net'.sockets = net.sockets)
    (hthreads : net'.threads = net.threads) (hpending : net'.pending ⊆ net.pending)
    (hsent : Isolated net') : Apart net' := by
  refine ⟨fun q hq => ?_, ?_, hsent⟩
  · rw [hsockets]
    exact h.pending q (hpending hq)
  · rw [hsockets, hthreads]
    exact h.threads

end DeliveryLemmas

open DeliveryLemmas

/-- One step. -/
theorem apart_step {net net' : Net ε} {a : NetAction} (h : Apart net) (hclean : AcceptsClean net a)
    (hstep : NetStep pf env net a net') : Apart net' := by
  cases hstep with
  | @client socket hfree =>
    refine ⟨fun q hq => ⟨(h.pending q hq).1, own_accept (h.pending q hq).2 fun heq =>
      absurd heq (hclean.1 q hq)⟩, fun t ht => ?_, h.sent⟩
    rcases List.mem_append.mp ht with ht | ht
    · exact ownThread_accept (h.threads t ht) (hclean.2 t ht)
    · -- the new thread has nothing yet
      rw [List.mem_singleton.mp ht]
      refine ⟨fun _ _ _ _ hb => ?_, fun _ hpc => ?_, rfl⟩
      · cases hb
      · cases hpc
  | @accept socket hfree =>
    exact ⟨fun q hq => ⟨(h.pending q hq).1, own_accept (h.pending q hq).2 fun heq =>
      absurd heq (hclean.1 q hq)⟩,
      fun t ht => ownThread_accept (h.threads t ht) (hclean.2 t ht), h.sent⟩
  | finish hk hpc _ =>
    exact apart_setThread h (ownThread_goto (ownThread_at h hk) (fun _ => trivial) nofun)
  | call hk hpc =>
    refine apart_setThread h (ownThread_goto (ownThread_at h hk) (fun hover => ?_) fun c hc => ?_)
    · rw [hpc] at hover
      exact hover
    · injection hc
  | @bytes k connection t chunk hk hpc =>
    have ht := ownThread_at h hk
    refine apart_setThread h ⟨fun _ => ?_, nofun, ?_⟩
    · -- `recv` was called on the connection that is open now, if one is
      refine own_append (ht.buffer (by rw [hpc]; exact id)) ?_
      refine own_subset (ht.call connection hpc) fun b hb => ?_
      exact List.mem_singleton.mpr (List.eq_of_mem_replicate hb)
    · show (t.origin ++ _).length = (t.buffer ++ chunk).length
      rw [List.length_append, List.length_append, List.length_replicate, ht.length]
  | closed hk hpc =>
    exact apart_setThread h (ownThread_goto (ownThread_at h hk) (fun _ => trivial) nofun)
  | failed hk hpc =>
    exact apart_setThread h (ownThread_goto (ownThread_at h hk) (fun _ => trivial) nofun)
  | @frame k t _ _ _ f rest _ hk hpc hbuf _ =>
    refine apart_hand h hk hpc (fun _ hpc => by cases hpc) (frameFormat.length_encode_pos f) ?_ _
    rw [hbuf, List.length_append]
    exact Nat.le_add_right ..
  | waits hk hpc _ _ =>
    refine apart_setThread h (ownThread_goto (ownThread_at h hk) (fun hover => ?_) nofun)
    rw [hpc] at hover
    exact hover
  | oversize hk hpc hover =>
    exact apart_hand h hk hpc (fun _ hpc => by cases hpc)
      (Nat.lt_of_lt_of_le (by decide) hover.1) (Nat.le_refl _) _
  | @disconnect k t pc hk hpc =>
    obtain ⟨hover, hcall⟩ := disconnected_over hpc
    exact apart_close (apart_setThread h (ownThread_goto (ownThread_at h hk) hover
      fun c hc => absurd hc (hcall c))) _
  | leave hk hpc =>
    refine apart_setThread h (ownThread_goto (ownThread_at h hk) (fun hover => ?_) nofun)
    rw [hpc] at hover
    exact hover
  | ends hact _ =>
    refine apart_reply h rfl rfl ?_ h.sent
    rw [Net.pending, Net.pending, hact]
    exact List.Subset.refl _
  | dequeue hact hqueue =>
    refine apart_reply h rfl rfl ?_ h.sent
    rw [Net.pending, Net.pending, hact, hqueue]
    exact List.Subset.refl _
  | run hact _ _ =>
    refine apart_reply h rfl rfl ?_ h.sent
    rw [Net.pending, Net.pending, hact]
    exact List.Subset.refl _
  | @send message rbuf connection hact hopen =>
    refine apart_reply h rfl rfl ?_ fun r hr => ?_
    · rw [Net.pending, Net.pending, hact]
      exact List.subset_append_right ..
    · rcases List.mem_append.mp hr with hr | hr
      · exact h.sent r hr
      · rw [List.mem_singleton.mp hr]
        have hmem : message ∈ net.pending := by
          rw [Net.pending, hact]
          exact List.mem_cons_self
        obtain ⟨horigin, hown⟩ := h.pending message hmem
        exact ⟨horigin, hown connection hopen⟩
  | lost hact _ =>
    -- the number is closed, and the reply goes to nobody
    refine apart_reply h rfl rfl ?_ h.sent
    rw [Net.pending, Net.pending, hact]
    exact List.subset_append_right ..

theorem Net.Started.apart {net : Net ε} (h : net.Started) : Apart net := by
  refine ⟨fun q hq => ?_, fun t ht => ?_, fun r hr => ?_⟩
  · rw [Net.pending, h.action, h.ActionQueue] at hq
    cases hq
  · rw [h.threads] at ht
    cases ht
  · rw [h.sent] at hr
    cases hr

/-- In a run that accepts connections with care, no reply goes to another client. -/
theorem reply_isolated {start net : Net ε} (hstart : start.Started)
    (h : (netSystem pf env).Reaches AcceptsClean start net) : Isolated net :=
  (h.invariant hstart.apart fun _ _ _ hinv hclean hnext =>
    apart_step hinv hclean (netStep_of_next hnext)).sent

/-- A daemon without clients. -/
def exNet : Net Unit where
  machine := { Config := InitConfig, sys := { env := (), calls := [] } }

/-- A query without items. -/
def exEmptyQuery : TBytes := frameBytes 81 []

/-- Client 7 connects and sends a query, which gets on the queue. -/
def exAsk : List NetAction :=
  [.accept 7 true, .loop 0, .recv 0 (.bytes exEmptyQuery), .process 0 exGlobals,
    .process 0 exGlobals]

/-- The action thread takes an item, runs it and sends the reply. -/
def exReply : List NetAction := List.replicate 3 .ActionThread

/-- The client hangs up, and its number goes to the next one. -/
def exReuse : List NetAction := [.loop 0, .recv 0 .closed, .disconnect 0, .accept 7 true]

/-- The number is used again when the reply is sent. -/
theorem reply_isolated_reuse :
    ∃ net, (netSystem exPlatform exEnv).Reaches AcceptsClean exNet net ∧ net.sent ≠ [] ∧
      net.sockets 7 = some 1 ∧ Isolated net := by
  have hrun : ((netSystem exPlatform exEnv).runWith AcceptsClean (exAsk ++ exReply ++ exReuse)
      exNet).map (fun net => decide (net.sent ≠ [] ∧ net.sockets 7 = some 1)) = some true := by
    decide +kernel
  obtain ⟨net, hreach, hnet⟩ := StepSystem.exists_reaches_of_runWith hrun
  obtain ⟨hsent, hsocket⟩ := of_decide_eq_true hnet
  exact ⟨net, hreach, hsent, hsocket,
    reply_isolated ⟨rfl, fun _ => rfl, rfl, rfl, rfl, rfl⟩ hreach⟩

/-- The number is used again while the query is on the queue. -/
theorem reply_to_stranger :
    ∃ net, exNet.Started ∧ (netSystem exPlatform exEnv).Reachable exNet net ∧
      (∃ r ∈ net.sent, ∃ c ∈ r.message.origin, c ≠ r.client) ∧ ¬Isolated net := by
  have hrun : ((netSystem exPlatform exEnv).run (exAsk ++ exReuse ++ exReply) exNet).map
      (fun net => net.sent.any fun r => r.message.origin.any (· != r.client)) = some true := by
    decide +kernel
  obtain ⟨net, hreach, hnet⟩ := StepSystem.exists_reachable_of_run hrun
  obtain ⟨r, hr, horigin⟩ := List.any_eq_true.mp hnet
  obtain ⟨c, hc, hne⟩ := List.any_eq_true.mp horigin
  have hne : c ≠ r.client := bne_iff_ne.mp hne
  exact ⟨net, ⟨rfl, fun _ => rfl, rfl, rfl, rfl, rfl⟩, hreach, ⟨r, hr, c, hc, hne⟩,
    fun h => hne ((h r hr).2 c hc)⟩

end EnetTcp
