import EnetTcp.Receiver

/-!
# The action thread (aioenetd.cpp, second half)

The action thread takes one message at a time off the queue, runs the items of a
request in order, and sends the message back. `RunMessage` takes the `Go` of the
items as an argument, so that what holds of it holds for any behaviour of `Go`.
-/

namespace EnetTcp

variable {ε : Type}

/-- The `Go` of an item with a given id. -/
abbrev GoFn (ε : Type) := DataItemIds → Prog Exn (TItemBody × World ε) Unit

section Run

variable (pf : Platform) (go : GoFn ε)

/-- Run `Go` on an item: how it ended, and the item as it left it. -/
def runGo (item : TDataItem) : Prog Exn (World ε) (Except Exn Unit × TDataItem) :=
  ExceptT.mk fun w => ((go item.DId).exec (item.toTItemBody, w)).map fun r =>
    (.ok (r.1, { r.2.1 with DId := item.DId }), r.2.2)

/-- The item that replaces a failed one, or the failed one when none can be built. -/
def replaceFailed (i : Nat) (item : TDataItem) (errIndex info : UInt32) (what : TBytes) :
    Prog Exn (World ε) TDataItem := do
  let errItem ← World.onGlobals
    (BuildSysItemError pf (UInt16.ofNat i) item.DId errIndex info what)
  return errItem.getD item

/-- One round of the loop of `RunMessage`: the item that is in place afterwards,
and whether it has failed. -/
def runItem (i : Nat) (item : TDataItem) : Prog Exn (World ε) (TDataItem × Bool) := do
  let (outcome, item) ← runGo go item
  match outcome with
  | .ok () =>
    if item.resultCode ≠ ERR_SUCCESS then
      return (← replaceFailed pf i item (ErrIndex item.resultCode) 0 [], true)
    else return (item, false)
  | .error (.logicError what) =>
    let (errIndex, info) := TryParseGuardWhat what (ErrIndex ERR_MSG_PARSE) 0
    return (← replaceFailed pf i item errIndex info what, true)
  | .error (.stdException what) =>
    return (← replaceFailed pf i item (ErrIndex ERR_MSG_PARSE) 0 what, true)
  | .error .unknown =>
    return (← replaceFailed pf i item (ErrIndex ERR_MSG_PARSE) 0 (text "unknown exception"), true)

/-- The loop of `RunMessage` from item `i` on: the items, and whether any failed. -/
def runItems : Nat → List TDataItem → Prog Exn (World ε) (List TDataItem × Bool)
  | _, [] => return ([], false)
  | i, item :: items => do
    let (item, failed) ← runItem pf go i item
    let (items, anyError) ← runItems (i + 1) items
    return (item :: items, failed || anyError)

/-- `E` when any item has failed, else `R`. -/
def replyMId (anyError : Bool) : TMessageId := if anyError then 69 else 82

def RunMessage (aMessage : TMessage) : Prog Exn (World ε) TMessage := do
  let (items, anyError) ← runItems pf go 0 aMessage.DataItems
  TMessage.new pf (replyMId anyError) items

/-- Serialize the reply with the configuration of this moment and send it. -/
def SendResponse (Client : Int) (aMessage : TMessage) : Prog Exn (World ε) Unit := do
  let w ← get
  let rbuf ← Prog.ofOption (aMessage.AsBytes w.machine.Config true)
  set { w with sent := w.sent ++ [(Client, rbuf)] }

/-- What the action thread does with a message: only requests are run. -/
def handleMessage (Socket : Int) (theMessage : TMessage) : Prog Exn (World ε) Unit := do
  let reply ← if isRequest theMessage.Id then RunMessage pf go theMessage else pure theMessage
  SendResponse Socket reply

/-- A message that no longer exists is undefined to read. -/
def handleItem (item : TActionQueueItem) : Prog Exn (World ε) Unit :=
  match item.theMessage with
  | .heap m => handleMessage pf go item.Socket m
  | .dangling _ => Prog.undefined

/-- One round of the loop of `ActionThread`. On an empty queue the thread waits. -/
def actionStep : Prog Exn (World ε) Unit := do
  let w ← get
  match w.ActionQueue with
  | [] => return ()
  | item :: rest =>
    set { w with ActionQueue := rest }
    handleItem pf go item

end Run

/-- The `Go` of the daemon: it works on the machine part of the world. -/
def daemonGo (pf : Platform) (env : Env ε) : GoFn ε := fun id =>
  (Go pf env id).zoom (fun s => (s.1, s.2.machine)) fun t s =>
    (t.1, { s.2 with machine := t.2 })

end EnetTcp
