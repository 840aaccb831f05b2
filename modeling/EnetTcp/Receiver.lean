import EnetTcp.Message
import EnetTcp.ItemGo

/-!
# Receiver threads (aioenetd.cpp, first half)

One thread for each connection appends what `recv` gives to a buffer, cuts
complete frames off its front, parses each and puts the message on the queue of
the action thread.
-/

namespace EnetTcp

/-! ## 1. Error items -/

inductive SysErrStage
  | Parse
  | Execute

def SysErrStage.code : SysErrStage → UInt32
  | .Parse => 1
  | .Execute => 2

section Build

variable (pf : Platform)

/-- Build an item through the factory. A refused item and a `std::logic_error`
give no item. -/
def BuildDataItem (did : DataItemIds) (payload : TBytes) :
    Prog Exn Globals (Option TDataItem) := do
  match ← (fromBytes pf (itemBytes did payload)).attempt with
  | .ok (item, r) => return if r = ERR_SUCCESS then some item else none
  | .error (.logicError _) => return none
  | .error e => throw e

/-- Twelve bytes of data, then the text. -/
def BuildSysError (stage : SysErrStage) (errIndex info : UInt32) (what : TBytes) :
    Prog Exn Globals (Option TDataItem) :=
  BuildDataItem pf DataItemIds.SYS_Error
    (stuff32 stage.code ++ stuff32 errIndex ++ stuff32 info ++ what)

def BuildSysItemError (itemIndex : UInt16) (originalDid : DataItemIds) (errIndex info : UInt32)
    (what : TBytes) : Prog Exn Globals (Option TDataItem) :=
  BuildDataItem pf DataItemIds.SYS_ItemError
    (stuff16 itemIndex ++ stuff16 originalDid ++ stuff32 errIndex ++ stuff32 info ++ what)

/-! ## 2. One frame -/

/-- Parse a frame. The result code of `FromBytes` is not looked at. A
`std::logic_error` becomes an `X` message; any other exception is not caught. -/
def GotMessage (buf : TBytes) : Prog Exn Globals TMessage := do
  match ← (FromBytes pf buf).attempt with
  | .ok (m, _) => return m
  | .error (.logicError what) =>
    let (errIndex, info) := TryParseGuardWhat what (ErrIndex ERR_MSG_PARSE) 0
    let x ← TMessage.new pf 88 []
    let di ← BuildSysError pf .Parse errIndex info what
    return { x with DataItems := di.toList }
  | .error e => throw e

end Build

/-! ## 3. The queue -/

/-- What the reference in a queue item refers to: a message on the heap, or the
local variable of a function that has returned since. -/
inductive MessageRef
  | heap (m : TMessage)
  | dangling (m : TMessage)
  deriving DecidableEq

/-- The message at the time it was put on the queue. -/
def MessageRef.enqueued : MessageRef → TMessage
  | .heap m => m
  | .dangling m => m

structure TActionQueueItem where
  Socket : Int
  theMessage : MessageRef
  deriving DecidableEq

/-- Everything the threads of the daemon share. `sent` is the record of all
replies, oldest first. -/
structure World (ε : Type) where
  machine : Machine ε
  AdcStreamingConnection : Int32
  ActionQueue : List TActionQueueItem
  sent : List (Int × TBytes)

namespace World

variable {ε α : Type}

def globals (w : World ε) : Globals := ⟨w.machine.Config, w.AdcStreamingConnection⟩

def setGlobals (g : Globals) (w : World ε) : World ε :=
  { w with
    machine := { w.machine with Config := g.Config }
    AdcStreamingConnection := g.AdcStreamingConnection }

/-- Run code that reads and writes the globals of the constructors only. -/
def onGlobals (p : Prog Exn Globals α) : Prog Exn (World ε) α := p.zoom globals setGlobals

def enqueue (item : TActionQueueItem) : Prog Exn (World ε) Unit :=
  modify fun w => { w with ActionQueue := w.ActionQueue ++ [item] }

end World

/-- The world of a daemon that has just started and has these messages to run. -/
def exWorld (ActionQueue : List TActionQueueItem) : World Unit where
  machine := { Config := InitConfig, sys := { env := (), calls := [] } }
  AdcStreamingConnection := -1
  ActionQueue
  sent := []

/-! ## 4. The receive loop -/

/-- The state of one receiver thread and what it shares. `handed` is the record
of the frames given to `GotMessage`, oldest first. -/
structure Receiver (ε : Type) where
  buffer : TBytes := []
  closed : Bool := false
  handed : List TBytes := []
  world : World ε

section Loop

variable {ε α : Type} (pf : Platform) (aSocket : Int)

def onWorld (p : Prog Exn (World ε) α) : Prog Exn (Receiver ε) α :=
  p.zoom Receiver.world fun w r => { r with world := w }

/-- Make a message of a frame and put it on the queue. -/
def enqueueFrame (frame : TBytes) : Prog Exn (World ε) Unit := do
  let aMessage ← World.onGlobals (GotMessage pf frame)
  World.enqueue ⟨aSocket, .heap aMessage⟩

/-- The branch of `ProcessMessages` for a header that announces too much. The
message on the queue is a local variable of the branch. -/
def reportOversize (payloadLen : Nat) : Prog Exn (Receiver ε) Unit := do
  let x ← TMessage.new pf 88 []
  let di ← onWorld (World.onGlobals (BuildSysError pf .Parse (ErrIndex ERR_MSG_LEN_MISMATCH)
    (UInt32.ofNat payloadLen) (text "Payload length exceeds maxPayloadLength")))
  onWorld (World.enqueue ⟨aSocket, .dangling { x with DataItems := di.toList }⟩)
  modify fun r => { r with buffer := [], closed := true }

/-- The branch of `ProcessMessages` for a complete frame. -/
def takeFrame (frameLen : Nat) : Prog Exn (Receiver ε) Unit := do
  let frame := (← get).buffer.take frameLen
  modify fun r => { r with handed := r.handed ++ [frame] }
  onWorld (enqueueFrame pf aSocket frame)
  modify fun r => { r with buffer := r.buffer.drop frameLen }

/-- The body of the loop of `ProcessMessages`, and whether the loop goes on. -/
def processRound : Prog Exn (Receiver ε) Bool := do
  let buffer := (← get).buffer
  if buffer.length < sizeofTMessageHeader then return false
  let payloadLen := payloadSize buffer
  if maxPayloadLength < payloadLen then
    reportOversize pf aSocket payloadLen
    return false
  let frameLen := sizeofTMessageHeader + payloadLen + 1
  if buffer.length < frameLen then return false
  takeFrame pf aSocket frameLen
  return true

/-- The loop of `ProcessMessages`. Each round that goes on takes at least six
bytes off the buffer, so fuel beyond its length is never used up. -/
def processLoop : (fuel : Nat) → Prog Exn (Receiver ε) Unit
  | 0 => Prog.undefined
  | fuel + 1 => do
    if ← processRound pf aSocket then processLoop fuel

def ProcessMessages : Prog Exn (Receiver ε) Unit := do
  processLoop pf aSocket ((← get).buffer.length + 1)

/-- One round of the loop of `threadReceiver` on a chunk that `recv` has given.
On the socket closed for an oversize header `recv` fails and the loop is over. -/
def receiveChunk (chunk : TBytes) : Prog Exn (Receiver ε) Unit := do
  if (← get).closed then return ()
  modify fun r => { r with buffer := r.buffer ++ chunk }
  match ← (ProcessMessages pf aSocket).attempt with
  | .ok () => return ()
  | .error (.logicError _) => return ()
  | .error e => throw e

/-- Other threads leave the globals `step.1` behind, then `recv` gives `step.2`. -/
def receiveStep (step : Globals × TBytes) : Prog Exn (Receiver ε) Unit := do
  onWorld (modify (World.setGlobals step.1))
  receiveChunk pf aSocket step.2

def receiveSteps (steps : List (Globals × TBytes)) : Prog Exn (Receiver ε) PUnit :=
  steps.forM (receiveStep pf aSocket)

end Loop

end EnetTcp
