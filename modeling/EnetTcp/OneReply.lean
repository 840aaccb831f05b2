import EnetTcp.Delivery
import Mathlib.Data.List.Forall2

/-!
# One reply for each frame

As long as no connection is closed, what is on its way from a thread to its client is
in one row: the replies that have been sent, the message in the hands of the action
thread, and the thread's items on the queue are what the thread has put there (`Flows`).

`one_reply_each`: the replies on a connection answer its frames, one each and in order.
-/

namespace EnetTcp

open Prog

variable {ε : Type} {pf : Platform} {env : Env ε}

/-! ## 1. The runs in question -/

/-- No connection is closed, no header announces too much, and `done` is not set. -/
def Steady (net : Net ε) (a : NetAction) : Prop :=
  net.machine.done = false ∧
    match a with
    | .recv _ .closed | .disconnect _ => False
    | .process k _ => ∀ t ∈ net.threads[k]?, ¬Oversize t.buffer
    | _ => True

instance (net : Net ε) : DecidablePred (Steady net) := by
  intro a
  unfold Steady
  split <;> infer_instance

/-- The replies on a connection, oldest first. -/
def Net.repliesTo (net : Net ε) (connection : Nat) : List Sent :=
  net.sent.filter (·.client = connection)

/-- The items of a thread that wait for a reply, oldest first. -/
def Net.pendingOf (net : Net ε) (socket : Int) : List Queued :=
  net.pending.filter (·.Socket = socket)

/-- The reply is what came of the message that was made of the frame. -/
def Sent.Answers (pf : Platform) (env : Env ε) (r : Sent) (f : Frame) : Prop :=
  ∃ m g g' machine machine', (GotMessage pf f.bytes).exec g = some (.ok m, g') ∧
    r.message.theMessage = .heap m ∧ respond pf env m machine = some (r.rbuf, machine')

/-- What a client gets. `frames` are those that the thread has completed, and `left` those
that are still in its buffer while it is in the loop of `ProcessMessages`. -/
structure InOrder (pf : Platform) (env : Env ε) (net : Net ε) (t : ReceiverThread) : Prop where
  connected : net.sockets t.controlSocket = some t.connection
  calls : ∀ connection, t.pc = .recv connection → connection = some t.connection
  replies : ∃ frames left rest, frameFormat.Splits t.received (frames ++ left) rest ∧
    (t.pc ≠ .process → left = []) ∧
    (∃ answered waiting, frames = answered ++ waiting ∧
      List.Forall₂ (Sent.Answers pf env) (net.repliesTo t.connection) answered) ∧
    (net.ActionQueue = [] → net.action = .waiting →
      List.Forall₂ (Sent.Answers pf env) (net.repliesTo t.connection) frames)

/-! ## 2. The invariant -/

/-- The item is a message of the thread that was made of a frame. -/
structure Made (pf : Platform) (t : ReceiverThread) (q : Queued) : Prop where
  socket : q.Socket = t.controlSocket
  message : ∃ m g g', q.theMessage = .heap m ∧ (GotMessage pf q.frame).exec g = some (.ok m, g')

/-- The thread has made a message of each frame that it has completed. -/
structure Framed (pf : Platform) (t : ReceiverThread) : Prop where
  calls : ∀ connection, t.pc = .recv connection → connection = some t.connection
  stays : t.pc ≠ .refused
  rests : t.pc ≠ .process → frameFormat.peel t.buffer = none
  made : ∀ q ∈ t.handed, Made pf t q
  frames : ∃ frames, t.handed.map (·.frame) = frames.map Frame.bytes ∧
    t.received = frameFormat.encodeAll frames ++ t.buffer

/-- What a thread has put on the queue is in one row. -/
def Flows (net : Net ε) (t : ReceiverThread) : Prop :=
  (net.repliesTo t.connection).map (·.message) ++ net.pendingOf t.controlSocket = t.handed

/-- The number and the connection of each thread. -/
def Net.clients (net : Net ε) : List (Int × Nat) :=
  net.threads.map fun t => (t.controlSocket, t.connection)

/-- Each number stands for the connection it was given to. -/
structure Wired (net : Net ε) : Prop where
  connected : ∀ p ∈ net.clients, net.sockets p.1 = some p.2
  distinct : (net.clients.map Prod.fst).Nodup
  injective : ∀ socket socket' c, net.sockets socket = some c → net.sockets socket' = some c →
    socket = socket'
  counted : ∀ socket c, net.sockets socket = some c → c < net.connections

def Responds (pf : Platform) (env : Env ε) (q : Queued) (rbuf : TBytes) : Prop :=
  ∃ machine machine', respond pf env q.theMessage.enqueued machine = some (rbuf, machine')

structure Delivers (pf : Platform) (env : Env ε) (net : Net ε) : Prop where
  wired : Wired net
  framed : ∀ t ∈ net.threads, Framed pf t
  flows : ∀ t ∈ net.threads, Flows net t
  pending : ∀ q ∈ net.pending, q.Socket ∈ net.clients.map Prod.fst
  sent : ∀ r ∈ net.sent, r.client ∈ net.clients.map Prod.snd ∧ Responds pf env r.message r.rbuf
  sending : ∀ q rbuf, net.action = .sending q rbuf → Responds pf env q rbuf

namespace OneReplyLemmas

variable {net : Net ε} {k : Nat} {t t' : ReceiverThread}

theorem wired_at (h : Wired net) (ht : t ∈ net.threads) :
    net.sockets t.controlSocket = some t.connection :=
  h.connected (t.controlSocket, t.connection) (List.mem_map_of_mem ht)

/-- The numbers of the threads. -/
theorem clients_fst : net.clients.map Prod.fst = net.threads.map (·.controlSocket) := by
  rw [Net.clients, List.map_map]
  rfl

theorem clients_snd : net.clients.map Prod.snd = net.threads.map (·.connection) := by
  rw [Net.clients, List.map_map]
  rfl

theorem clients_setThread (hk : net.threads[k]? = some t)
    (hsocket : t'.controlSocket = t.controlSocket) (hconnection : t'.connection = t.connection) :
    (net.setThread k t').clients = net.clients := by
  obtain ⟨hlt, heq⟩ := List.getElem?_eq_some_iff.mp hk
  have hlen : k < net.clients.length := by
    rw [Net.clients, List.length_map]
    exact hlt
  have hsame : (t'.controlSocket, t'.connection) = net.clients[k] := by
    simp only [Net.clients, List.getElem_map, heq, hsocket, hconnection]
  calc (net.setThread k t').clients
    _ = net.clients.set k (t'.controlSocket, t'.connection) := List.map_set ..
    _ = net.clients.set k net.clients[k] := by rw [hsame]
    _ = net.clients := List.set_getElem_self hlen

/-- A thread of the new state is the changed one, or another one with another number. -/
theorem mem_setThread (h : Wired net) (hk : net.threads[k]? = some t) {u : ReceiverThread}
    (hu : u ∈ (net.setThread k t').threads) :
    u = t' ∨ (u ∈ net.threads ∧ u.controlSocket ≠ t.controlSocket) := by
  obtain ⟨hlt, heq⟩ := List.getElem?_eq_some_iff.mp hk
  obtain ⟨j, hj⟩ := List.mem_iff_getElem?.mp hu
  rw [Net.setThread, List.getElem?_set, if_pos hlt] at hj
  split at hj
  case isTrue hkj =>
    exact .inl (Option.some.inj hj).symm
  case isFalse hkj =>
    refine .inr ⟨List.mem_of_getElem? hj, fun hsocket => hkj ?_⟩
    have hnodup := h.distinct
    rw [clients_fst] at hnodup
    refine (List.getElem?_inj (by rw [List.length_map]; exact hlt) hnodup).mp ?_
    rw [List.getElem?_map, List.getElem?_map, hk, hj, Option.map_some, Option.map_some, hsocket]

theorem wired_of_eq {net' : Net ε} (h : Wired net) (hclients : net'.clients = net.clients)
    (hsockets : net'.sockets = net.sockets) (hconnections : net'.connections = net.connections) :
    Wired net' := by
  obtain ⟨hconnected, hdistinct, hinjective, hcounted⟩ := h
  rw [← hclients] at hconnected hdistinct
  rw [← hsockets] at hconnected hinjective hcounted
  rw [← hconnections] at hcounted
  exact ⟨hconnected, hdistinct, hinjective, hcounted⟩

/-- A number that is free is given to a new connection, which may be a client's. -/
theorem wired_accept {net' : Net ε} {socket : Int} (h : Wired net)
    (hfree : net.sockets socket = none)
    (hclients : net'.clients = net.clients ∨
      net'.clients = net.clients ++ [(socket, net.connections)])
    (hsockets : net'.sockets = Function.update net.sockets socket (some net.connections))
    (hconnections : net'.connections = net.connections + 1) : Wired net' := by
  have hnew : net'.sockets socket = some net.connections := by
    rw [hsockets, Function.update_self]
  have hold {other : Int} (hne : other ≠ socket) : net'.sockets other = net.sockets other := by
    rw [hsockets, Function.update_of_ne hne]
  have hused {p : Int × Nat} (hp : p ∈ net.clients) : p.1 ≠ socket := by
    intro heq
    rw [← heq, h.connected p hp] at hfree
    cases hfree
  have hconnected {p : Int × Nat} (hp : p ∈ net.clients) : net'.sockets p.1 = some p.2 :=
    (hold (hused hp)).trans (h.connected p hp)
  -- an open number is the new one or an old one
  have hcases {other : Int} {c : Nat} (hc : net'.sockets other = some c) :
      (other = socket ∧ c = net.connections) ∨
        (net.sockets other = some c ∧ c < net.connections) := by
    by_cases heq : other = socket
    · rw [heq, hnew] at hc
      exact .inl ⟨heq, (Option.some.inj hc).symm⟩
    · rw [hold heq] at hc
      exact .inr ⟨hc, h.counted other c hc⟩
  refine ⟨fun p hp => ?_, ?_, fun s s' c hs hs' => ?_, fun s c hs => ?_⟩
  · rcases hclients with hclients | hclients <;> rw [hclients] at hp
    · exact hconnected hp
    · rcases List.mem_append.mp hp with hp | hp
      · exact hconnected hp
      · rw [List.mem_singleton.mp hp]
        exact hnew
  · rcases hclients with hclients | hclients <;> rw [hclients]
    · exact h.distinct
    · rw [List.map_append, List.map_singleton, List.nodup_append]
      refine ⟨h.distinct, List.nodup_singleton _, fun s hs s' hs' => ?_⟩
      obtain ⟨p, hp, rfl⟩ := List.mem_map.mp hs
      rw [List.mem_singleton.mp hs']
      exact hused hp
  · rcases hcases hs with ⟨rfl, rfl⟩ | ⟨hs, hlt⟩ <;> rcases hcases hs' with ⟨rfl, hc⟩ | ⟨hs', hlt'⟩
    · rfl
    · exact absurd hlt' (Nat.lt_irrefl _)
    · rw [hc] at hlt
      exact absurd hlt (Nat.lt_irrefl _)
    · exact h.injective s s' c hs hs'
  · rw [hconnections]
    rcases hcases hs with ⟨-, rfl⟩ | ⟨-, hlt⟩
    · exact Nat.lt_succ_self _
    · exact Nat.lt_succ_of_lt hlt

/-- A thread has moved on without putting anything on the queue. -/
theorem delivers_setThread (h : Delivers pf env net) (hk : net.threads[k]? = some t)
    (hframed : Framed pf t') (hsocket : t'.controlSocket = t.controlSocket)
    (hconnection : t'.connection = t.connection) (hhanded : t'.handed = t.handed) :
    Delivers pf env (net.setThread k t') := by
  have hclients := clients_setThread hk hsocket hconnection
  refine ⟨wired_of_eq h.wired hclients rfl rfl, fun u hu => ?_, fun u hu => ?_, ?_, ?_, h.sending⟩
  · rcases mem_setThread h.wired hk hu with rfl | ⟨hu, -⟩
    · exact hframed
    · exact h.framed u hu
  · rcases mem_setThread h.wired hk hu with rfl | ⟨hu, -⟩
    · show (net.repliesTo u.connection).map _ ++ net.pendingOf u.controlSocket = u.handed
      rw [hsocket, hconnection, hhanded]
      exact h.flows t (List.mem_of_getElem? hk)
    · exact h.flows u hu
  · rw [hclients]
    exact h.pending
  · rw [hclients]
    exact h.sent

theorem pendingOf_own {net' : Net ε} {q : Queued} (h : net'.pending = net.pending ++ [q]) :
    net'.pendingOf q.Socket = net.pendingOf q.Socket ++ [q] := by
  have hone : [q].filter (·.Socket = q.Socket) = [q] := by simp
  rw [Net.pendingOf, h, List.filter_append, hone]
  rfl

theorem pendingOf_other {net' : Net ε} {q : Queued} (h : net'.pending = net.pending ++ [q])
    {socket : Int} (hne : q.Socket ≠ socket) : net'.pendingOf socket = net.pendingOf socket := by
  have hnone : [q].filter (·.Socket = socket) = [] := by simp [hne]
  rw [Net.pendingOf, h, List.filter_append, hnone, List.append_nil]
  rfl

/-- A thread has put a message on the queue. -/
theorem delivers_hand (h : Delivers pf env net) (hk : net.threads[k]? = some t)
    {pc : ReceiverPc} {taken : Nat} {theMessage : MessageRef}
    (hframed : Framed pf { t with
      pc     := pc
      buffer := t.buffer.drop taken
      origin := t.origin.drop taken
      handed := t.handed ++ [t.cut taken theMessage] }) :
    Delivers pf env (net.hand k t pc taken theMessage) := by
  have hclients : (net.hand k t pc taken theMessage).clients = net.clients :=
    clients_setThread hk rfl rfl
  have hpending : (net.hand k t pc taken theMessage).pending =
      net.pending ++ [t.cut taken theMessage] := (List.append_assoc ..).symm
  have ht : t ∈ net.threads := List.mem_of_getElem? hk
  refine ⟨wired_of_eq h.wired hclients rfl rfl, fun u hu => ?_, fun u hu => ?_, fun q hq => ?_, ?_,
    h.sending⟩
  · rcases mem_setThread h.wired hk hu with rfl | ⟨hu, -⟩
    · exact hframed
    · exact h.framed u hu
  · unfold Flows
    rcases mem_setThread h.wired hk hu with rfl | ⟨hu, hne⟩
    · have hown := pendingOf_own hpending
      have hflows : _ = t.handed := h.flows t ht
      show _ ++ (net.hand k t pc taken theMessage).pendingOf (t.cut taken theMessage).Socket =
        t.handed ++ [t.cut taken theMessage]
      rw [hown, ← hflows, List.append_assoc]
      rfl
    · rw [pendingOf_other hpending (Ne.symm hne)]
      exact h.flows u hu
  · rw [hclients]
    rw [hpending] at hq
    rcases List.mem_append.mp hq with hq | hq
    · exact h.pending q hq
    · rw [List.mem_singleton.mp hq, clients_fst]
      exact List.mem_map_of_mem ht
  · rw [hclients]
    exact h.sent

/-- The number of an item under way is open, on the connection of a client. -/
theorem connected_of_pending (h : Delivers pf env net) {q : Queued} (hq : q ∈ net.pending) :
    ∃ connection ∈ net.clients.map Prod.snd, net.sockets q.Socket = some connection := by
  obtain ⟨p, hp, hsocket⟩ := List.mem_map.mp (h.pending q hq)
  refine ⟨p.2, List.mem_map_of_mem hp, ?_⟩
  rw [← hsocket]
  exact h.wired.connected p hp

/-- Nothing is on the way for a client that is new. -/
theorem flows_new (h : Delivers pf env net) {socket : Int} (hfree : net.sockets socket = none) :
    net.repliesTo net.connections = [] ∧ net.pendingOf socket = [] := by
  refine ⟨List.filter_eq_nil_iff.mpr fun r hr => ?_, List.filter_eq_nil_iff.mpr fun q hq => ?_⟩
  · obtain ⟨p, hp, hclient⟩ := List.mem_map.mp (h.sent r hr).1
    have hlt := h.wired.counted p.1 p.2 (h.wired.connected p hp)
    rw [hclient] at hlt
    rw [decide_eq_true_eq]
    exact Nat.ne_of_lt hlt
  · obtain ⟨connection, -, hopen⟩ := connected_of_pending h hq
    rw [decide_eq_true_eq]
    rintro rfl
    rw [hopen] at hfree
    cases hfree

/-- The action thread has changed places of a message, or sent its reply. -/
theorem delivers_reply {net' : Net ε} (h : Delivers pf env net)
    (hthreads : net'.threads = net.threads) (hsockets : net'.sockets = net.sockets)
    (hconnections : net'.connections = net.connections) (hpending : net'.pending ⊆ net.pending)
    (hflows : ∀ u ∈ net.threads, Flows net u → Flows net' u)
    (hsent : ∀ r ∈ net'.sent, r ∈ net.sent ∨
      (r.client ∈ net.clients.map Prod.snd ∧ Responds pf env r.message r.rbuf))
    (hsending : ∀ q rbuf, net'.action = .sending q rbuf → Responds pf env q rbuf) :
    Delivers pf env net' := by
  have hclients : net'.clients = net.clients := by rw [Net.clients, Net.clients, hthreads]
  refine ⟨wired_of_eq h.wired hclients hsockets hconnections, ?_, fun u hu => ?_, fun q hq => ?_,
    fun r hr => ?_, hsending⟩
  · rw [hthreads]
    exact h.framed
  · rw [hthreads] at hu
    exact hflows u hu (h.flows u hu)
  · rw [hclients]
    exact h.pending q (hpending hq)
  · rw [hclients]
    rcases hsent r hr with hr | hr
    · exact h.sent r hr
    · exact hr

theorem made_of_same {q : Queued} (h : Made pf t q) (hsocket : t'.controlSocket = t.controlSocket) :
    Made pf t' q := ⟨h.socket.trans hsocket.symm, h.message⟩

/-- A thread that has just started has taken in nothing. -/
theorem framed_new (connection : Nat) (socket : Int) :
    Framed pf { controlSocket := socket, connection := connection } := by
  refine ⟨?_, ?_, fun _ => rfl, List.forall_mem_nil _, [], rfl, rfl⟩
  · rintro _ ⟨⟩
  · rintro ⟨⟩

theorem framed_goto (h : Framed pf t) {pc : ReceiverPc}
    (hcalls : ∀ connection, pc = .recv connection → connection = some t.connection)
    (hstays : pc ≠ .refused) (hrests : frameFormat.peel t.buffer = none) :
    Framed pf { t with pc := pc } :=
  ⟨hcalls, hstays, fun _ => hrests, fun q hq => made_of_same (h.made q hq) rfl, h.frames⟩

theorem framed_bytes (h : Framed pf t) (chunk : TBytes) (connection : Nat) :
    Framed pf { t with
      pc       := .process
      buffer   := t.buffer ++ chunk
      origin   := t.origin ++ List.replicate chunk.length connection
      received := t.received ++ chunk } := by
  obtain ⟨frames, hhanded, hreceived⟩ := h.frames
  refine ⟨?_, ?_, fun hpc => absurd rfl hpc, fun q hq => made_of_same (h.made q hq) rfl,
    frames, hhanded, ?_⟩
  · rintro _ ⟨⟩
  · rintro ⟨⟩
  · rw [hreceived, List.append_assoc]

theorem framed_hand (h : Framed pf t) {f : Frame} {rest : TBytes} {m : TMessage} {g g' : Globals}
    (hbuf : t.buffer = f.bytes ++ rest)
    (hgot : (GotMessage pf f.bytes).exec g = some (.ok m, g')) :
    Framed pf { t with
      pc     := .process
      buffer := t.buffer.drop f.bytes.length
      origin := t.origin.drop f.bytes.length
      handed := t.handed ++ [t.cut f.bytes.length (.heap m)] } := by
  have hframe : (t.cut f.bytes.length (.heap m)).frame = f.bytes := by
    show t.buffer.take f.bytes.length = f.bytes
    rw [hbuf, List.take_left]
  obtain ⟨frames, hhanded, hreceived⟩ := h.frames
  refine ⟨?_, ?_, fun hpc => absurd rfl hpc, fun q hq => ?_, frames ++ [f], ?_, ?_⟩
  · rintro _ ⟨⟩
  · rintro ⟨⟩
  · rcases List.mem_append.mp hq with hq | hq
    · exact made_of_same (h.made q hq) rfl
    · rw [List.mem_singleton.mp hq]
      refine ⟨rfl, m, g, g', rfl, ?_⟩
      rw [hframe]
      exact hgot
  · rw [List.map_append, List.map_append, hhanded, List.map_singleton, List.map_singleton, hframe]
  · rw [hreceived, hbuf, List.drop_left, RecordFormat.encodeAll_append, List.append_assoc,
      RecordFormat.encodeAll_cons, RecordFormat.encodeAll_nil, List.append_nil]
    rfl

theorem repliesTo_own {net' : Net ε} {r : Sent} (h : net'.sent = net.sent ++ [r]) :
    net'.repliesTo r.client = net.repliesTo r.client ++ [r] := by
  have hone : [r].filter (·.client = r.client) = [r] := by simp
  rw [Net.repliesTo, h, List.filter_append, hone]
  rfl

theorem repliesTo_other {net' : Net ε} {r : Sent} (h : net'.sent = net.sent ++ [r])
    {connection : Nat} (hne : r.client ≠ connection) :
    net'.repliesTo connection = net.repliesTo connection := by
  have hnone : [r].filter (·.client = connection) = [] := by simp [hne]
  rw [Net.repliesTo, h, List.filter_append, hnone, List.append_nil]
  rfl

/-- The first message that waits for a reply has got it. -/
theorem flows_send {net' : Net ε} {q : Queued} {r : Sent} {u : ReceiverThread}
    (hflows : Flows net u) (hsent : net'.sent = net.sent ++ [r]) (hmessage : r.message = q)
    (hpending : net.pending = q :: net'.pending)
    (hsame : r.client = u.connection ↔ q.Socket = u.controlSocket) : Flows net' u := by
  unfold Flows at hflows ⊢
  by_cases hclient : r.client = u.connection
  · have hrow : net.pendingOf u.controlSocket = q :: net'.pendingOf u.controlSocket := by
      unfold Net.pendingOf
      rw [hpending, List.filter_cons, if_pos (decide_eq_true (hsame.mp hclient))]
    rw [← hflows, hrow, ← hclient, repliesTo_own hsent, List.map_append, List.map_singleton,
      hmessage, List.append_assoc]
    rfl
  · have hrow : net.pendingOf u.controlSocket = net'.pendingOf u.controlSocket := by
      unfold Net.pendingOf
      rw [hpending, List.filter_cons,
        if_neg fun heq => hclient (hsame.mpr (of_decide_eq_true heq))]
    rw [← hflows, hrow, repliesTo_other hsent hclient]

theorem flows_of_eq {net' : Net ε} {u : ReceiverThread} (hflows : Flows net u)
    (hpending : net'.pending = net.pending) (hsent : net'.sent = net.sent) : Flows net' u := by
  unfold Flows Net.pendingOf Net.repliesTo at hflows ⊢
  rw [hpending, hsent]
  exact hflows

/-- A new client has got a thread. -/
theorem delivers_client (h : Delivers pf env net) {socket : Int}
    (hfree : net.sockets socket = none) : Delivers pf env { net with
      connections := net.connections + 1
      sockets     := Function.update net.sockets socket (some net.connections)
      threads     :=
        net.threads ++ [{ controlSocket := socket, connection := net.connections }] } := by
  obtain ⟨hreplies, hpending⟩ := flows_new h hfree
  have hclients : (Net.clients { net with
      connections := net.connections + 1
      sockets     := Function.update net.sockets socket (some net.connections)
      threads     :=
        net.threads ++ [{ controlSocket := socket, connection := net.connections }] }) =
      net.clients ++ [(socket, net.connections)] := List.map_append ..
  refine ⟨wired_accept h.wired hfree (.inr hclients) rfl rfl, fun t ht => ?_, fun t ht => ?_,
    fun q hq => ?_, fun r hr => ?_, h.sending⟩
  · rcases List.mem_append.mp ht with ht | ht
    · exact h.framed t ht
    · rw [List.mem_singleton.mp ht]
      exact framed_new net.connections socket
  · rcases List.mem_append.mp ht with ht | ht
    · exact h.flows t ht
    · rw [List.mem_singleton.mp ht]
      show (net.repliesTo net.connections).map _ ++ net.pendingOf socket = []
      rw [hreplies, hpending]
      rfl
  · rw [hclients, List.map_append]
    exact List.mem_append_left _ (h.pending q hq)
  · rw [hclients, List.map_append]
    exact ⟨List.mem_append_left _ (h.sent r hr).1, (h.sent r hr).2⟩

/-- A thread has moved to another place of its loop. -/
theorem delivers_goto (h : Delivers pf env net) (hk : net.threads[k]? = some t) {pc : ReceiverPc}
    (hcalls : ∀ connection, pc = .recv connection → connection = some t.connection)
    (hstays : pc ≠ .refused) (hrests : frameFormat.peel t.buffer = none) :
    Delivers pf env (net.setThread k { t with pc := pc }) :=
  delivers_setThread h hk
    (framed_goto (h.framed t (List.mem_of_getElem? hk)) hcalls hstays hrests) rfl rfl rfl

/-- The reply to the first item that waits has been sent. -/
theorem delivers_send {net' : Net ε} {r : Sent} (h : Delivers pf env net)
    (hthreads : net'.threads = net.threads) (hsockets : net'.sockets = net.sockets)
    (hconnections : net'.connections = net.connections)
    (hpending : net.pending = r.message :: net'.pending) (hsent : net'.sent = net.sent ++ [r])
    (hopen : net.sockets r.message.Socket = some r.client)
    (hresponds : Responds pf env r.message r.rbuf) (hwaits : net'.action = .waiting) :
    Delivers pf env net' := by
  refine delivers_reply h hthreads hsockets hconnections (fun q hq => ?_) (fun u hu hflows => ?_)
    (fun s hs => ?_) ?_
  · rw [hpending]
    exact List.mem_cons_of_mem _ hq
  · -- the number of the item and the connection of the reply name the same thread
    have hconnected := wired_at h.wired hu
    refine flows_send hflows hsent rfl hpending ⟨fun heq => ?_, fun heq => ?_⟩
    · rw [heq] at hopen
      exact h.wired.injective _ _ _ hopen hconnected
    · rw [heq, hconnected] at hopen
      exact (Option.some.inj hopen).symm
  · rw [hsent] at hs
    rcases List.mem_append.mp hs with hs | hs
    · exact .inl hs
    · rw [List.mem_singleton.mp hs]
      have hmem : r.message ∈ net.pending := by
        rw [hpending]
        exact List.mem_cons_self
      obtain ⟨connection, hclient, hconnected⟩ := connected_of_pending h hmem
      rw [hconnected] at hopen
      obtain rfl := Option.some.inj hopen
      exact .inr ⟨hclient, hresponds⟩
  · rw [hwaits]
    rintro _ _ ⟨⟩

end OneReplyLemmas

open OneReplyLemmas

/-! ## 3. Runs -/

/-- One step. -/
theorem delivers_step {net net' : Net ε} {a : NetAction} (h : Delivers pf env net)
    (hsteady : Steady net a) (hstep : NetStep pf env net a net') : Delivers pf env net' := by
  obtain ⟨hdone, hsteady⟩ := hsteady
  cases hstep with
  | client hfree => exact delivers_client h hfree
  | accept hfree =>
    exact ⟨wired_accept h.wired hfree (.inl rfl) rfl rfl, h.framed, h.flows, h.pending, h.sent,
      h.sending⟩
  | finish _ _ hset =>
    rw [hdone] at hset
    cases hset
  | @call k t hk hpc =>
    have ht := List.mem_of_getElem? hk
    refine delivers_goto h hk ?_ ?_ ((h.framed t ht).rests ?_)
    · rintro _ ⟨⟩
      exact wired_at h.wired ht
    · rintro ⟨⟩
    · rw [hpc]
      rintro ⟨⟩
  | bytes hk _ =>
    exact delivers_setThread h hk (framed_bytes (h.framed _ (List.mem_of_getElem? hk)) _ _)
      rfl rfl rfl
  | closed => exact hsteady.elim
  | @failed k t connection hk hpc =>
    refine delivers_goto h hk ?_ ?_ ((h.framed t (List.mem_of_getElem? hk)).rests ?_)
    · rintro _ ⟨⟩
    · rintro ⟨⟩
    · rw [hpc]
      rintro ⟨⟩
  | frame hk _ hbuf hgot =>
    exact delivers_hand h hk (framed_hand (h.framed _ (List.mem_of_getElem? hk)) hbuf hgot)
  | waits hk _ hpeel _ =>
    refine delivers_goto h hk ?_ ?_ hpeel
    · rintro _ ⟨⟩
    · rintro ⟨⟩
  | oversize hk _ hover => exact absurd hover (hsteady _ hk)
  | disconnect => exact hsteady.elim
  | @leave k t hk hpc =>
    -- only an oversize header leads there
    exact absurd hpc (h.framed t (List.mem_of_getElem? hk)).stays
  | ends _ hset =>
    rw [hdone] at hset
    cases hset
  | @dequeue message queue hact hqueue =>
    have hpending : message :: queue = net.pending := by
      rw [Net.pending, hact, hqueue]
      rfl
    refine delivers_reply h rfl rfl rfl (fun q hq => hpending ▸ hq)
      (fun u _ hflows => flows_of_eq hflows hpending rfl) (fun r hr => .inl hr) ?_
    rintro _ _ ⟨⟩
  | @run message r hact _ hrun =>
    have hpending : message :: net.ActionQueue = net.pending := by
      rw [Net.pending, hact]
      rfl
    refine delivers_reply h rfl rfl rfl (fun q hq => hpending ▸ hq)
      (fun u _ hflows => flows_of_eq hflows hpending rfl) (fun r hr => .inl hr) ?_
    rintro _ _ ⟨⟩
    exact ⟨net.machine, r.2, hrun⟩
  | @send message rbuf connection hact hopen =>
    have hpending : net.pending = message :: net.ActionQueue := by
      rw [Net.pending, hact]
      rfl
    exact delivers_send h rfl rfl rfl hpending rfl hopen (h.sending message rbuf hact) rfl
  | @lost message rbuf hact hclosed =>
    -- no number with an item under way is closed
    have hmem : message ∈ net.pending := by
      rw [Net.pending, hact]
      exact List.mem_cons_self
    obtain ⟨connection, -, hopen⟩ := connected_of_pending h hmem
    rw [hopen] at hclosed
    cases hclosed

theorem Net.Started.delivers {net : Net ε} (h : net.Started) : Delivers pf env net := by
  have hclients : net.clients = [] := by rw [Net.clients, h.threads, List.map_nil]
  have hpending : net.pending = [] := by
    rw [Net.pending, h.action, h.ActionQueue]
    rfl
  refine ⟨⟨?_, ?_, fun socket _ _ hc => ?_, fun socket _ hc => ?_⟩, ?_, ?_, ?_, ?_, ?_⟩
  · rw [hclients]
    exact List.forall_mem_nil _
  · rw [hclients]
    exact List.nodup_nil
  · rw [h.sockets socket] at hc
    cases hc
  · rw [h.sockets socket] at hc
    cases hc
  · rw [h.threads]
    exact List.forall_mem_nil _
  · rw [h.threads]
    exact List.forall_mem_nil _
  · rw [hpending]
    exact List.forall_mem_nil _
  · rw [h.sent]
    exact List.forall_mem_nil _
  · rw [h.action]
    rintro _ _ ⟨⟩

/-- The replies that have been sent answer the first frames. -/
theorem Delivers.inOrder {net : Net ε} {t : ReceiverThread} (h : Delivers pf env net)
    (ht : t ∈ net.threads) : InOrder pf env net t := by
  have hframed := h.framed t ht
  have hflows : _ ++ _ = t.handed := h.flows t ht
  obtain ⟨frames, hhanded, hreceived⟩ := hframed.frames
  obtain ⟨left, rest, hsplits⟩ := frameFormat.exists_splits t.buffer
  -- each reply is about a message of the thread
  have hanswers : ∀ r ∈ net.repliesTo t.connection, Made pf t r.message ∧
      Responds pf env r.message r.rbuf := by
    intro r hr
    refine ⟨hframed.made _ ?_, (h.sent r (List.mem_filter.mp hr).1).2⟩
    rw [← hflows]
    exact List.mem_append_left _ (List.mem_map_of_mem hr)
  have hforall {answered : List Frame}
      (heq : (net.repliesTo t.connection).map (·.message.frame) = answered.map Frame.bytes) :
      List.Forall₂ (Sent.Answers pf env) (net.repliesTo t.connection) answered := by
    have hframes : List.Forall₂ (fun r f => r.message.frame = f.bytes)
        (net.repliesTo t.connection) answered := by
      rw [← List.forall₂_eq_eq_eq, List.forall₂_map_left_iff, List.forall₂_map_right_iff] at heq
      exact heq
    refine ((List.forall₂_and_left _ _).mpr ⟨hanswers, hframes⟩).imp ?_
    rintro r f ⟨⟨⟨-, m, g, g', hm, hgot⟩, machine, machine', hrun⟩, hframe⟩
    rw [hm] at hrun
    exact ⟨m, g, g', machine, machine', hframe ▸ hgot, hm, hrun⟩
  refine ⟨wired_at h.wired ht, hframed.calls, frames, left, rest, ⟨?_, hsplits.stop⟩, fun hpc => ?_,
    ?_, fun hqueue hact => ?_⟩
  · rw [hreceived, hsplits.eq, RecordFormat.encodeAll_append, List.append_assoc]
  · exact (frameFormat.splits_unique hsplits (frameFormat.splits_of_stop (hframed.rests hpc))).1
  · rw [← hflows, List.map_append] at hhanded
    obtain ⟨answered, waiting, hsplit, hanswered, -⟩ := List.map_eq_append_iff.mp hhanded.symm
    rw [List.map_map] at hanswered
    exact ⟨answered, waiting, hsplit, hforall hanswered.symm⟩
  · have hnone : net.pendingOf t.controlSocket = [] := by
      rw [Net.pendingOf, Net.pending, hact, hqueue]
      rfl
    rw [← hflows, hnone, List.append_nil, List.map_map] at hhanded
    exact hforall hhanded

/-- However the threads take turns, the replies on each connection answer its frames, one
each and in order, and every reply is on a connection that has a thread. -/
theorem one_reply_each {start net : Net ε} (hstart : start.Started)
    (h : (netSystem pf env).Reaches Steady start net) :
    (∀ r ∈ net.sent, ∃ t ∈ net.threads, t.connection = r.client) ∧
      ∀ t ∈ net.threads, InOrder pf env net t := by
  have hinv : Delivers pf env net := h.invariant hstart.delivers fun _ _ _ hinv hsteady hnext =>
    delivers_step hinv hsteady (netStep_of_next hnext)
  refine ⟨fun r hr => ?_, fun t ht => hinv.inOrder ht⟩
  have hclient := (hinv.sent r hr).1
  rw [clients_snd] at hclient
  exact List.mem_map.mp hclient

/-- Two clients. The query of the first comes in two pieces, and the second has asked in
between. -/
def exTwoClients : List NetAction :=
  [.accept 7 true, .accept 8 true, .loop 0, .recv 0 (.bytes (exEmptyQuery.take 2)),
    .process 0 exGlobals, .loop 1, .recv 1 (.bytes exEmptyQuery), .process 1 exGlobals, .loop 0,
    .recv 0 (.bytes (exEmptyQuery.drop 2)), .process 0 exGlobals, .process 0 exGlobals]

theorem one_reply_each_two_clients :
    ∃ net, (netSystem exPlatform exEnv).Reaches Steady exNet net ∧ net.sent.length = 2 ∧
      ∀ t ∈ net.threads, InOrder exPlatform exEnv net t := by
  have hrun : ((netSystem exPlatform exEnv).runWith Steady (exTwoClients ++ exReply ++ exReply)
      exNet).map (fun net => decide (net.sent.length = 2)) = some true := by
    decide +kernel
  obtain ⟨net, hreach, hsent⟩ := StepSystem.exists_reaches_of_runWith hrun
  exact ⟨net, hreach, of_decide_eq_true hsent,
    (one_reply_each ⟨rfl, fun _ => rfl, rfl, rfl, rfl, rfl⟩ hreach).2⟩

end EnetTcp
