import EnetTcp.Framing
import EnetTcp.Lib.Runs
import EnetTcp.Serving

/-!
# Connections, receiver threads and the action thread

Every control connection has a receiver thread, which knows it by its descriptor
number only, and so do the items on the queue. The operating system gives a number
that has been closed to a later connection.

A step accepts a connection, takes a receiver thread to its next call, or is a step of
the action thread. The greeting of a new client is left to `SendControlHello`.
-/

namespace EnetTcp

open Prog

variable {ε : Type}

/-! ## 1. The state -/

/-- An item on the queue, with the frame it was made of and, for each byte of the frame,
the connection that the byte was received on. -/
structure Queued extends TActionQueueItem where
  frame : TBytes
  origin : List Nat
  deriving DecidableEq

/-- A reply that has been sent, and the connection that its number stood for then. -/
structure Sent where
  client : Nat
  message : Queued
  rbuf : TBytes
  deriving DecidableEq

inductive ReceiverPc
  /-- The head of the loop. -/
  | loop
  /-- In `recv`, on the connection that was open under the number when it was called. -/
  | recv (connection : Option Nat)
  /-- In the loop of `ProcessMessages`. -/
  | process
  /-- A report on an oversize header is on the queue, and `Disconnect` comes next. -/
  | refuse
  /-- Behind it, about to return from `ProcessMessages`. -/
  | refused
  /-- The first `Disconnect` for a client that has hung up. -/
  | hangup
  /-- The last `Disconnect`. -/
  | disconnect
  | ended
  deriving DecidableEq

/-- The thread has left its loop. -/
def ReceiverPc.Over : ReceiverPc → Prop
  | .hangup | .disconnect | .ended => True
  | _ => False

instance : DecidablePred ReceiverPc.Over
  | .hangup | .disconnect | .ended => .isTrue trivial
  | .loop | .recv _ | .process | .refuse | .refused => .isFalse id

/-- Where a `Disconnect` leads to. -/
def ReceiverPc.disconnected : ReceiverPc → Option ReceiverPc
  | .refuse => some .refused
  | .hangup => some .disconnect
  | .disconnect => some .ended
  | _ => none

/-- A receiver thread. Records: the connection it was started for, the connection of each
byte in the buffer, all that it has received, and all that it has put on the queue. -/
structure ReceiverThread where
  controlSocket : Int
  connection : Nat
  pc : ReceiverPc := .loop
  buffer : TBytes := []
  origin : List Nat := []
  received : TBytes := []
  handed : List Queued := []
  deriving DecidableEq

inductive ReplyPc
  /-- The head of the loop, and the wait for an item. -/
  | waiting
  | running (message : Queued)
  | sending (message : Queued) (rbuf : TBytes)
  | ended
  deriving DecidableEq

/-- Connections are counted in the order of `accept`. `sockets` gives the connection that
is open under a number. -/
structure Net (ε : Type) where
  machine : Machine ε
  connections : Nat := 0
  sockets : Int → Option Nat := fun _ => none
  threads : List ReceiverThread := []
  ActionQueue : List Queued := []
  action : ReplyPc := .waiting
  sent : List Sent := []

namespace Net

variable (pf : Platform) (env : Env ε)

def setThread (k : Nat) (t : ReceiverThread) (net : Net ε) : Net ε :=
  { net with threads := net.threads.set k t }

/-- `close` -/
def close (socket : Int) (net : Net ε) : Net ε :=
  { net with sockets := Function.update net.sockets socket none }

/-! ## 2. Connections -/

/-- `accept` gives a number that is not in use. A control connection gets a thread. -/
def accept (socket : Int) (control : Bool) (net : Net ε) : Option (Net ε) :=
  if net.sockets socket = none then
    some { net with
      connections := net.connections + 1
      sockets     := Function.update net.sockets socket (some net.connections)
      threads     := if control then
          net.threads ++ [{ controlSocket := socket, connection := net.connections }]
        else net.threads }
  else none

/-! ## 3. Receiver threads -/

/-- The head of the loop: `done` ends it, and `recv` is called otherwise. -/
def loop (k : Nat) (net : Net ε) : Option (Net ε) :=
  match net.threads[k]? with
  | none => none
  | some t =>
    if t.pc = .loop then
      some (net.setThread k { t with
        pc := if net.machine.done then .disconnect else .recv (net.sockets t.controlSocket) })
    else none

inductive RecvResult
  | bytes (chunk : TBytes)
  /-- The client has closed the connection. -/
  | closed
  | failed
  deriving DecidableEq

/-- `recv` returns. On a number that was not open it fails. -/
def recv (k : Nat) (result : RecvResult) (net : Net ε) : Option (Net ε) :=
  match net.threads[k]? with
  | none => none
  | some t =>
    match t.pc, result with
    | .recv (some connection), .bytes chunk =>
      if chunk = [] then none
      else some (net.setThread k { t with
        pc       := .process
        buffer   := t.buffer ++ chunk
        origin   := t.origin ++ List.replicate chunk.length connection
        received := t.received ++ chunk })
    | .recv (some _), .closed => some (net.setThread k { t with pc := .hangup })
    | .recv _, .failed => some (net.setThread k { t with pc := .disconnect })
    | _, _ => none

/-- `Disconnect` -/
def disconnect (k : Nat) (net : Net ε) : Option (Net ε) :=
  match net.threads[k]? with
  | none => none
  | some t => t.pc.disconnected.map fun pc =>
    (net.setThread k { t with pc := pc }).close t.controlSocket

/-- What a round of `ProcessMessages` works on, with the globals of this moment. What it
puts on the queue goes behind what is there. -/
def receiver (t : ReceiverThread) (g : Globals) (net : Net ε) : Receiver ε where
  buffer := t.buffer
  world :=
    { machine                := { net.machine with Config := g.Config }
      AdcStreamingConnection := g.AdcStreamingConnection
      ActionQueue            := []
      sent                   := [] }

/-- The state after a round that has left `r` behind, but for a `Disconnect`. -/
def processed (k : Nat) (t : ReceiverThread) (pc : ReceiverPc) (r : Receiver ε) (net : Net ε) :
    Net ε :=
  let taken := t.buffer.length - r.buffer.length
  let items := r.world.ActionQueue.map fun item =>
    { item with frame := t.buffer.take taken, origin := t.origin.take taken : Queued }
  { net.setThread k { t with
      pc     := if r.closed then .refuse else pc
      buffer := r.buffer
      origin := t.origin.drop taken
      handed := t.handed ++ items } with
    ActionQueue := net.ActionQueue ++ items }

/-- One round of the loop of `ProcessMessages`. -/
def process (k : Nat) (g : Globals) (net : Net ε) : Option (Net ε) :=
  match net.threads[k]? with
  | none => none
  | some t =>
    if t.pc = .process then
      match (processRound pf t.controlSocket).exec (net.receiver t g) with
      | some (.ok true, r) => some (net.processed k t .process r)
      | some (.ok false, r) | some (.error (.logicError _), r) => some (net.processed k t .loop r)
      -- any other exception ends the daemon
      | _ => none
    else none

/-- `ProcessMessages` returns from its branch for oversize headers. -/
def leave (k : Nat) (net : Net ε) : Option (Net ε) :=
  match net.threads[k]? with
  | none => none
  | some t => if t.pc = .refused then some (net.setThread k { t with pc := .loop }) else none

/-! ## 4. The action thread -/

/-- The message exists. The report on an oversize header is a local variable: it exists
while the thread that has put it on the queue is in that branch. -/
def Exists (message : Queued) (net : Net ε) : Prop :=
  match message.theMessage with
  | .heap _ => True
  | .dangling _ => ∃ t ∈ net.threads,
    (t.pc = .refuse ∨ t.pc = .refused) ∧ t.handed.getLast? = some message

instance (message : Queued) (net : Net ε) : Decidable (net.Exists message) := by
  unfold Exists
  split <;> infer_instance

/-- One step of the loop of `ActionThread`. A reply to a number that is not open is lost,
and reading a message that no longer exists is undefined. -/
def reply (net : Net ε) : Option (Net ε) :=
  match net.action with
  | .waiting =>
    if net.machine.done then some { net with action := .ended }
    else match net.ActionQueue with
      | [] => none
      | message :: queue => some { net with ActionQueue := queue, action := .running message }
  | .running message =>
    if net.Exists message then
      (respond pf env message.theMessage.enqueued net.machine).map fun r =>
        { net with machine := r.2, action := .sending message r.1 }
    else none
  | .sending message rbuf =>
    match net.sockets message.Socket with
    | some connection =>
      some { net with
        sent   := net.sent ++ [{ client := connection, message, rbuf }]
        action := .waiting }
    | none => some { net with action := .waiting }
  | .ended => none

end Net

/-! ## 5. All of them -/

inductive NetAction
  | accept (socket : Int) (control : Bool)
  | loop (k : Nat)
  | recv (k : Nat) (result : Net.RecvResult)
  /-- A round of `ProcessMessages`; `g` are the globals it finds. -/
  | process (k : Nat) (g : Globals)
  | disconnect (k : Nat)
  | leave (k : Nat)
  | ActionThread

def netSystem (pf : Platform) (env : Env ε) : StepSystem (Net ε) NetAction where
  next a net :=
    match a with
    | .accept socket control => net.accept socket control
    | .loop k => net.loop k
    | .recv k result => net.recv k result
    | .process k g => net.process pf k g
    | .disconnect k => net.disconnect k
    | .leave k => net.leave k
    | .ActionThread => net.reply pf env

/-- The daemon has started and has no client yet. -/
structure Net.Started (net : Net ε) : Prop where
  connections : net.connections = 0
  sockets : ∀ socket, net.sockets socket = none
  threads : net.threads = []
  ActionQueue : net.ActionQueue = []
  action : net.action = .waiting
  sent : net.sent = []

end EnetTcp
