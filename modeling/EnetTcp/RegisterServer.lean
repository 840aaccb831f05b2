import EnetTcp.OneReply
import EnetTcp.RegisterCommands

/-!
# The daemon as a server of registers

Many clients send requests of register commands, each over its own connection and thread. However
the threads take turns, the requests are carried out in one order, as a whole and one after the
other, and every reply is what the memory answers in that order. The order is made of what the
clients have sent and of nothing else.

* `tracks`: the daemon does what the server of an object does (`SharedObject.server`).
* `registers_linearized`: what follows for the memory, the replies and the order.
-/

namespace EnetTcp

open Prog RegisterLemmas RegisterCommandLemmas DeliveryLemmas SharedObject

variable {ε : Type} {pf : Platform} {env : Env ε} {regs : ε → RegisterFile}

/-! ## 1. Requests of clients -/

/-- A request, the receiver thread that it came in with, and the item of the queue that the thread
has made of it. -/
structure ClientRequest where
  thread : Nat
  message : Queued
  request : RegisterRequest
  frame : message.frame = request.bytes
  parsed : message.theMessage = .heap request.message

/-- The registers, for all clients. -/
def clientObject : SharedObject RegisterFile ClientRequest TBytes where
  apply op := requestObject.apply op.request

/-- What stands at the front of a buffer is a request of commands. -/
def RegisterClients (net : Net ε) : NetAction → Prop
  | .process k _ => ∀ t ∈ net.threads[k]?, ¬Oversize t.buffer ∧
    ∀ (f : Frame) (rest : TBytes), t.buffer = f.bytes ++ rest → ∃ x : RegisterRequest,
      f.bytes = x.bytes
  | _ => True

/-- The messages that no item has been run of, oldest first. -/
def Net.unserved (net : Net ε) : List Queued :=
  match net.action with
  | .running message => message :: net.ActionQueue
  | .waiting | .sending .. | .ended => net.ActionQueue

/-- Of what a thread has received, nothing has got lost: it is on the queue or in the buffer. -/
def ReceiverThread.KeepsBytes (t : ReceiverThread) : Prop :=
  t.received = t.handed.flatMap (·.frame) ++ t.buffer

/-- The operations of one thread, among those of all. -/
def ofThread (k : Nat) (ops : List ClientRequest) : List Queued :=
  (ops.filter (·.thread = k)).map (·.message)

/-- The replies so far, the one that is about to be sent included. -/
def Net.replied (net : Net ε) : List (Queued × TBytes) :=
  net.sent.map (fun r => (r.message, r.rbuf)) ++
    match net.action with
    | .sending message rbuf => [(message, rbuf)]
    | .waiting | .running _ | .ended => []

/-! ## 2. The server -/

/-- The daemon, and a server that does the same: the server has taken in what the threads have put
on the queue, and nothing else. -/
structure Tracks (regs : ε → RegisterFile) (net : Net ε)
    (v : ServerState RegisterFile ClientRequest TBytes) : Prop where
  memory : regs net.machine.sys.env = v.state
  unserved : net.unserved = v.waiting.map (·.message)
  replied : net.replied.Sublist (v.served.map fun p => (p.1.message, p.2))
  clients : ∀ (k : Nat) (t : ReceiverThread), net.threads[k]? = some t →
    t.handed = ofThread k v.accepted
  owned : ∀ op ∈ v.accepted, op.thread < net.threads.length
  received : ∀ t ∈ net.threads, t.KeepsBytes

/-- The threads go on, or a new one starts, and none of them puts anything on the queue. -/
structure HandsNothing (net net' : Net ε) : Prop where
  grows : net.threads.length ≤ net'.threads.length
  handed : ∀ (k : Nat) (t : ReceiverThread), net'.threads[k]? = some t →
    t.handed = (net.threads[k]?).elim [] ReceiverThread.handed
  received : (∀ t ∈ net.threads, t.KeepsBytes) → ∀ t ∈ net'.threads, t.KeepsBytes

namespace RegisterServerLemmas

variable {net : Net ε} {v : ServerState RegisterFile ClientRequest TBytes}

/-- The thread of an operation is one of those that are there. -/
theorem ofThread_new {n k : Nat} {ops : List ClientRequest} (howned : ∀ op ∈ ops, op.thread < n)
    (hk : n ≤ k) : ofThread k ops = [] := by
  unfold ofThread
  rw [List.filter_eq_nil_iff.mpr, List.map_nil]
  intro op hop
  have hlt := howned op hop
  simp only [decide_eq_true_eq]
  omega

theorem ofThread_append (k : Nat) (ops : List ClientRequest) (op : ClientRequest) :
    ofThread k (ops ++ [op]) = ofThread k ops ++ if op.thread = k then [op.message] else [] := by
  unfold ofThread
  rw [List.filter_append, List.map_append, List.filter_singleton]
  by_cases h : op.thread = k <;> simp [h]

/-- A step that has no part in the requests. -/
theorem tracks_of_eq {net' : Net ε} (h : Tracks regs net v)
    (hmachine : net'.machine = net.machine) (hunserved : net'.unserved = net.unserved)
    (hreplied : net'.replied.Sublist net.replied) (hthreads : HandsNothing net net') :
    ∃ v', clientObject.server.Reachable v v' ∧ Tracks regs net' v' := by
  refine ⟨v, .start, hmachine ▸ h.memory, hunserved.trans h.unserved, hreplied.trans h.replied,
    fun k t hk => ?_, fun op hop => Nat.lt_of_lt_of_le (h.owned op hop) hthreads.grows,
    hthreads.received h.received⟩
  rw [hthreads.handed k t hk]
  cases hold : net.threads[k]? with
  | none => exact (ofThread_new h.owned (List.getElem?_eq_none_iff.mp hold)).symm
  | some u => exact h.clients k u hold

/-- A thread goes on, and puts nothing on the queue. -/
theorem handsNothing_set {net' : Net ε} {k : Nat} {t t' : ReceiverThread}
    (h : net'.threads = net.threads.set k t') (hk : net.threads[k]? = some t)
    (hhanded : t'.handed = t.handed) (hbytes : t.KeepsBytes → t'.KeepsBytes) :
    HandsNothing net net' where
  grows := by
    rw [h, List.length_set]
  handed j u hu := by
    obtain ⟨hlt, -⟩ := List.getElem?_eq_some_iff.mp hk
    rw [h, List.getElem?_set] at hu
    split at hu
    case isTrue hj =>
      subst hj
      cases hu
      rw [hk]
      exact hhanded
    case isFalse => rw [hu, Option.elim_some]
  received hall u hu := by
    rw [h] at hu
    rcases List.mem_or_eq_of_mem_set hu with hu | rfl
    · exact hall u hu
    · exact hbytes (hall t (List.mem_of_getElem? hk))

theorem handsNothing_same {net' : Net ε} (h : net'.threads = net.threads) :
    HandsNothing net net' where
  grows := h ▸ Nat.le_refl _
  handed k t hk := by
    rw [h] at hk
    rw [hk, Option.elim_some]
  received hall := h ▸ hall

/-- A client connects. -/
theorem handsNothing_client {net' : Net ε} {t : ReceiverThread}
    (h : net'.threads = net.threads ++ [t]) (hhanded : t.handed = []) (hbytes : t.KeepsBytes) :
    HandsNothing net net' where
  grows := by
    rw [h, List.length_append]
    exact Nat.le_add_right _ _
  handed k u hk := by
    rw [h, List.getElem?_append] at hk
    split at hk
    case isTrue => rw [hk, Option.elim_some]
    case isFalse hge =>
      rw [List.getElem?_eq_none (Nat.le_of_not_lt hge), Option.elim_none]
      rw [List.mem_singleton.mp (List.mem_of_getElem? hk)]
      exact hhanded
  received hall u hu := by
    rw [h] at hu
    rcases List.mem_append.mp hu with hu | hu
    · exact hall u hu
    · rw [List.mem_singleton.mp hu]
      exact hbytes

theorem keepsBytes_hand {t : ReceiverThread} {pc : ReceiverPc} {n : Nat} {m : MessageRef}
    (h : t.KeepsBytes) :
    ReceiverThread.KeepsBytes { t with
      pc := pc
      buffer := t.buffer.drop n
      origin := t.origin.drop n
      handed := t.handed ++ [t.cut n m] } := by
  unfold ReceiverThread.KeepsBytes at h ⊢
  rw [List.flatMap_append, List.flatMap_singleton, List.append_assoc]
  show t.received = _ ++ (t.buffer.take n ++ t.buffer.drop n)
  rw [List.take_append_drop]
  exact h

/-- A request gets on the queue. -/
theorem tracks_hand (h : Tracks regs net v) {k : Nat} {t : ReceiverThread}
    (hk : net.threads[k]? = some t) {f : Frame} {rest : TBytes}
    (hbuffer : t.buffer = f.bytes ++ rest) {x : RegisterRequest} (hx : f.bytes = x.bytes) :
    ∃ v', clientObject.server.Reachable v v' ∧
      Tracks regs (net.hand k t .process f.bytes.length (.heap x.message)) v' := by
  obtain ⟨hlt, -⟩ := List.getElem?_eq_some_iff.mp hk
  let op : ClientRequest :=
    { thread := k
      message := t.cut f.bytes.length (.heap x.message)
      request := x
      frame := by
        show t.buffer.take f.bytes.length = x.bytes
        rw [hbuffer, List.take_left, hx]
      parsed := rfl }
  have haccepted : ({ v with waiting := v.waiting ++ [op] } :
      ServerState RegisterFile ClientRequest TBytes).accepted = v.accepted ++ [op] :=
    (List.append_assoc ..).symm
  refine ⟨{ v with waiting := v.waiting ++ [op] },
    .step .start trivial (next_accept op v), h.memory, ?_, h.replied, fun j u hu => ?_,
    fun o ho => ?_, fun u hu => ?_⟩
  · show _ = (v.waiting ++ [op]).map (·.message)
    rw [List.map_append, ← h.unserved]
    unfold Net.unserved Net.hand Net.setThread
    cases net.action <;> rfl
  · -- the thread of the request has one more, the others have what they had
    rw [haccepted, ofThread_append]
    unfold Net.hand Net.setThread at hu
    rw [List.getElem?_set] at hu
    split at hu
    case isTrue hj =>
      subst hj
      cases hu
      rw [if_pos rfl, ← h.clients k t hk]
    case isFalse hj =>
      rw [if_neg hj, List.append_nil]
      exact h.clients j u hu
  · rw [haccepted] at ho
    show o.thread < (net.threads.set k _).length
    rw [List.length_set]
    rcases List.mem_append.mp ho with ho | ho
    · exact h.owned o ho
    · rw [List.mem_singleton.mp ho]
      exact hlt
  · rcases List.mem_or_eq_of_mem_set hu with hu | rfl
    · exact h.received u hu
    · exact keepsBytes_hand (h.received t (List.mem_of_getElem? hk))

/-- The items of a message are run. -/
theorem tracks_run (hregs : RegisterCells env regs) (h : Tracks regs net v) {message : Queued}
    (haction : net.action = .running message) {r : TBytes × Machine ε}
    (hrun : respond pf env message.theMessage.enqueued net.machine = some r) :
    ∃ v', clientObject.server.Reachable v v' ∧
      Tracks regs { net with machine := r.2, action := .sending message r.1 } v' := by
  have hunserved := h.unserved
  have hreplied := h.replied
  simp only [Net.unserved, haction] at hunserved
  simp only [Net.replied, haction, List.append_nil] at hreplied
  obtain ⟨op, waiting, hwaiting, hop, hqueue⟩ := List.map_eq_cons_iff.mp hunserved.symm
  obtain ⟨m', hrequest, -, hmemory⟩ := request_run pf hregs op.request net.machine
  subst hop
  rw [op.parsed] at hrun
  cases hrequest.symm.trans hrun
  have haccepted (served : List (ClientRequest × TBytes)) (answer : TBytes)
      (state : RegisterFile) :
      ({ state, waiting, served := served ++ [(op, answer)] } :
        ServerState RegisterFile ClientRequest TBytes).accepted =
        served.map Prod.fst ++ op :: waiting := by
    rw [ServerState.accepted, List.map_append, List.append_assoc]
    rfl
  refine ⟨_, .step .start trivial (next_serve hwaiting), ?_, hqueue.symm, ?_, fun k t hk => ?_,
    fun op hop => ?_, h.received⟩
  · show regs m'.sys.env = (clientObject.apply op v.state).2
    rw [hmemory, h.memory]
    rfl
  · show (net.sent.map _ ++ [(op.message, _)]).Sublist _
    rw [List.map_append, h.memory]
    exact hreplied.append (List.Sublist.refl _)
  · rw [haccepted, ← hwaiting]
    exact h.clients k t hk
  · rw [haccepted, ← hwaiting] at hop
    exact h.owned op hop

/-- Every step of the daemon is one of the server, or none. -/
theorem tracks_step (hregs : RegisterCells env regs) {net' : Net ε} {a : NetAction}
    (h : Tracks regs net v) (hclients : RegisterClients net a)
    (hstep : NetStep pf env net a net') :
    ∃ v', clientObject.server.Reachable v v' ∧ Tracks regs net' v' := by
  cases hstep with
  | client =>
    exact tracks_of_eq h rfl rfl (List.Sublist.refl _) (handsNothing_client rfl rfl rfl)
  | accept => exact tracks_of_eq h rfl rfl (List.Sublist.refl _) (handsNothing_same rfl)
  | @bytes k connection t chunk hk hpc =>
    refine tracks_of_eq h rfl rfl (List.Sublist.refl _) (handsNothing_set rfl hk rfl ?_)
    intro hbytes
    show t.received ++ chunk = t.handed.flatMap (·.frame) ++ (t.buffer ++ chunk)
    rw [← List.append_assoc, ← hbytes]
  | finish hk | call hk | closed hk | failed hk | waits hk | disconnect hk | leave hk =>
    exact tracks_of_eq h rfl rfl (List.Sublist.refl _) (handsNothing_set rfl hk rfl id)
  | @frame k t g g₁ g' f rest m hk hpc hbuffer hgot =>
    obtain ⟨x, hx⟩ := (hclients t hk).2 f rest hbuffer
    rw [hx, GotMessage_request] at hgot
    cases hgot
    exact tracks_hand h hk hbuffer hx
  | @oversize k t g hk hpc hover => exact absurd hover (hclients t hk).1
  | ends haction =>
    refine tracks_of_eq h rfl ?_ ?_ (handsNothing_same rfl)
    · simp only [Net.unserved, haction]
    · simp only [Net.replied, haction]
      exact List.Sublist.refl _
  | dequeue haction hqueue =>
    refine tracks_of_eq h rfl ?_ ?_ (handsNothing_same rfl)
    · simp only [Net.unserved, haction, hqueue]
    · simp only [Net.replied, haction]
      exact List.Sublist.refl _
  | run haction _ hrun => exact tracks_run hregs h haction hrun
  | @send message rbuf connection haction hopen =>
    refine tracks_of_eq h rfl ?_ ?_ (handsNothing_same rfl)
    · simp only [Net.unserved, haction]
    · simp only [Net.replied, haction, List.map_append, List.map_cons, List.map_nil,
        List.append_nil]
      exact List.Sublist.refl _
  | @lost message rbuf haction hclosed =>
    refine tracks_of_eq h rfl ?_ ?_ (handsNothing_same rfl)
    · simp only [Net.unserved, haction]
    · simp only [Net.replied, haction, List.append_nil]
      exact List.sublist_append_left _ _

theorem tracks (hregs : RegisterCells env regs) {net' : Net ε} (h : Tracks regs net v)
    (hreach : (netSystem pf env).Reaches RegisterClients net net') :
    ∃ v', clientObject.server.Reachable v v' ∧ Tracks regs net' v' :=
  hreach.followed h fun _ _ _ _ htracks hclients hnext =>
    tracks_step hregs htracks hclients (netStep_of_next hnext)

theorem tracks_started {start : Net ε} (h : start.Started) :
    Tracks regs start { state := regs start.machine.sys.env } := by
  refine ⟨rfl, ?_, ?_, fun k t hk => ?_, nofun, fun t ht => ?_⟩
  · rw [Net.unserved, h.action, h.ActionQueue]
    rfl
  · rw [Net.replied, h.sent, h.action]
    exact List.nil_sublist _
  · rw [h.threads] at hk
    cases hk
  · rw [h.threads] at ht
    cases ht

end RegisterServerLemmas

open RegisterServerLemmas

/-! ## 3. One order -/

/-- One order of the requests explains what the daemon has done.

* `memory`, `replies`: `served` have been carried out one after the other, from the memory `r₀`
  on, and each reply is what the memory has answered then.
* `unserved`: `waiting` come next; no item of them has been run.
* `clients`, `owned`: the order has the requests of each thread as the thread has handed them in,
  and no others.
* `received`: a thread hands in what it receives, byte for byte; the rest is in its buffer. -/
structure Linearized (regs : ε → RegisterFile) (r₀ : RegisterFile) (net : Net ε)
    (served waiting : List ClientRequest) : Prop where
  memory : regs net.machine.sys.env = clientObject.final served r₀
  replies : (net.sent.map fun r => (r.message, r.rbuf)).Sublist
    ((served.map (·.message)).zip (clientObject.answers served r₀))
  unserved : net.unserved = waiting.map (·.message)
  clients : ∀ (k : Nat) (t : ReceiverThread), net.threads[k]? = some t →
    t.handed = ofThread k (served ++ waiting)
  owned : ∀ op ∈ served ++ waiting, op.thread < net.threads.length
  received : ∀ t ∈ net.threads, t.KeepsBytes

namespace RegisterServerLemmas

theorem linearized {r₀ : RegisterFile} {net : Net ε}
    {v : ServerState RegisterFile ClientRequest TBytes} (h : Tracks regs net v)
    (hserves : Serves clientObject r₀ v) :
    Linearized regs r₀ net (v.served.map Prod.fst) v.waiting := by
  refine ⟨h.memory.trans hserves.state, ?_, h.unserved, h.clients, h.owned, h.received⟩
  have hpairs : (v.served.map fun p => (p.1.message, p.2)) =
      ((v.served.map Prod.fst).map (·.message)).zip
        (clientObject.answers (v.served.map Prod.fst) r₀) := by
    rw [← hserves.answers, List.map_map, List.zip_map']
    rfl
  rw [← hpairs]
  exact (List.sublist_append_left _ _).trans h.replied

end RegisterServerLemmas

/-- Registers that are shared by any number of clients, at any time of a run and at any later
time. The order of the requests only grows: what has been answered stands before what comes in
later. -/
theorem registers_linearized (hregs : RegisterCells env regs) {start net net' : Net ε}
    (hstart : start.Started) (h : (netSystem pf env).Reaches RegisterClients start net)
    (h' : (netSystem pf env).Reaches RegisterClients net net') :
    ∃ served waiting served' waiting',
      Linearized regs (regs start.machine.sys.env) net served waiting ∧
      Linearized regs (regs start.machine.sys.env) net' served' waiting' ∧
      served <+: served' ∧ served ++ waiting <+: served' ++ waiting' := by
  obtain ⟨v, hreach, htracks⟩ := tracks hregs (tracks_started hstart) h
  obtain ⟨v', hreach', htracks'⟩ := tracks hregs htracks h'
  refine ⟨v.served.map Prod.fst, v.waiting, v'.served.map Prod.fst, v'.waiting,
    linearized htracks (serves_object hreach),
    linearized htracks' (serves_object (hreach.trans hreach')), ?_, accepted_grows hreach'⟩
  exact (served_grows hreach').map _

def exRegisterNet : Net RegisterFile where
  machine := exRegisterWorld.machine

/-- Nothing else is in the buffers than the request of the example. -/
def exampleBuffers (net : Net RegisterFile) : NetAction → Bool
  | .process k _ => (net.threads[k]?).all fun t =>
      decide (t.buffer = [] ∨ t.buffer = exRegisterRequest.bytes)
  | _ => true

theorem exampleBuffers_clients {net : Net RegisterFile} {a : NetAction}
    (h : exampleBuffers net a = true) : RegisterClients net a := by
  unfold exampleBuffers at h
  unfold RegisterClients
  split
  case h_1 k g =>
    intro t ht
    simp only [Option.mem_def.mp ht, Option.all_some] at h
    rcases of_decide_eq_true h with hbuffer | hbuffer <;> rw [hbuffer]
    · refine ⟨by decide, fun f rest hsplit => ?_⟩
      exact absurd (List.append_eq_nil_iff.mp hsplit.symm).1 (List.cons_ne_nil _ _)
    · refine ⟨by decide +kernel, fun f rest hsplit => ⟨exRegisterRequest, ?_⟩⟩
      have hwhole : (frameFormat.peel exRegisterRequest.bytes).map
          (fun p => p.1.bytes) = some exRegisterRequest.bytes := by
        decide +kernel
      have hpeel : frameFormat.peel (f.bytes ++ rest) = some (f, rest) :=
        frameFormat.peel_encode f rest
      rw [hsplit, hpeel] at hwhole
      rw [hsplit]
      exact Option.some.inj hwhole
  case h_2 => trivial

/-- Two clients ask at once, and the first is answered. -/
def exAskTwice : List NetAction :=
  [.accept 7 true, .accept 8 true, .loop 0, .loop 1, .recv 1 (.bytes exRegisterRequest.bytes),
    .recv 0 (.bytes exRegisterRequest.bytes), .process 1 exGlobals, .process 0 exGlobals] ++ exReply

theorem registers_linearized_example :
    ∃ net net', (netSystem exPlatform exRegisterEnv).Reaches RegisterClients exRegisterNet net ∧
      (netSystem exPlatform exRegisterEnv).Reaches RegisterClients net net' ∧
      net.sent.length = 1 ∧ net'.sent.length = 2 ∧
      ∃ served waiting served' waiting', Linearized id (fun _ => 0) net served waiting ∧
        Linearized id (fun _ => 0) net' served' waiting' ∧
        served <+: served' ∧ served ++ waiting <+: served' ++ waiting' := by
  have hrun : (((netSystem exPlatform exRegisterEnv).runWith
      (fun net a => exampleBuffers net a = true) exAskTwice exRegisterNet).bind fun net =>
        ((netSystem exPlatform exRegisterEnv).runWith
          (fun net a => exampleBuffers net a = true) exReply net).map fun net' =>
            decide (net.sent.length = 1 ∧ net'.sent.length = 2)) = some true := by
    decide +kernel
  obtain ⟨net, net', hreach, hreach', hsent⟩ := StepSystem.exists_reaches_of_runs hrun
  have hclients := hreach.weaken fun _ _ => exampleBuffers_clients
  have hclients' := hreach'.weaken fun _ _ => exampleBuffers_clients
  exact ⟨net, net', hclients, hclients', (of_decide_eq_true hsent).1, (of_decide_eq_true hsent).2,
    registers_linearized exRegister_cells ⟨rfl, fun _ => rfl, rfl, rfl, rfl, rfl⟩ hclients
      hclients'⟩

end EnetTcp
