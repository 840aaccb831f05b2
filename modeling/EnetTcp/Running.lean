import EnetTcp.Action
import EnetTcp.ErrorItems

/-!
# What the action thread does

Specs of the functions of the action thread, for any `Go` of the items. The loop
of `RunMessage` first calls every `Go` in order (`List.mapM` of `runGo`) and makes
the reply from what came out of them (`replyItems`): building an error item meets
nothing that a `Go` could see (`runItems_exec`).
-/

namespace EnetTcp

open Prog

variable {pf : Platform} {ε : Type}

/-! ## 1. The reply to one item -/

/-- How a `Go` has ended, and the item as it left it. -/
abbrev GoResult := Except Exn Unit × TDataItem

/-- What is reported of a `Go`: the error index, the info value and the text.
Nothing is reported of a success. -/
def failure : GoResult → Option (UInt32 × UInt32 × TBytes)
  | (.ok (), item) =>
    if item.resultCode ≠ ERR_SUCCESS then some (ErrIndex item.resultCode, 0, []) else none
  | (.error (.logicError what), _) =>
    let (errIndex, info) := TryParseGuardWhat what (ErrIndex ERR_MSG_PARSE) 0
    some (errIndex, info, what)
  | (.error (.stdException what), _) => some (ErrIndex ERR_MSG_PARSE, 0, what)
  | (.error .unknown, _) => some (ErrIndex ERR_MSG_PARSE, 0, text "unknown exception")

/-- The item that `BuildSysItemError` gives. -/
def itemError (itemIndex : UInt16) (originalDid : DataItemIds) (errIndex info : UInt32)
    (what : TBytes) : Option TDataItem :=
  let data := wrapped
    (stuff16 itemIndex ++ stuff16 originalDid ++ stuff32 errIndex ++ stuff32 info ++ what)
  if data.length ≤ 12 then
    some { params := .TSYS_ItemError (TSYS_ItemError.ctor data), rawBytes := data,
           DId := DataItemIds.SYS_ItemError }
  else none

/-- The item of the reply at position `i`. -/
def replyItem (i : Nat) (q : GoResult) : TDataItem :=
  match failure q with
  | none => q.2
  | some (errIndex, info, what) =>
    (itemError (UInt16.ofNat i) q.2.DId errIndex info what).getD q.2

/-- The items of the reply from position `i` on. -/
def replyItems (i : Nat) (qs : List GoResult) : List TDataItem :=
  (qs.zipIdx i).map fun q => replyItem q.2 q.1

/-- Has any `Go` failed? -/
def anyFailed (qs : List GoResult) : Bool := qs.any fun q => (failure q).isSome

theorem length_replyItems (i : Nat) (qs : List GoResult) :
    (replyItems i qs).length = qs.length := by
  rw [replyItems, List.length_map, List.length_zipIdx]

theorem getElem?_replyItems (i k : Nat) (qs : List GoResult) :
    (replyItems i qs)[k]? = (qs[k]?).map (replyItem (i + k)) := by
  rw [replyItems, List.getElem?_map, List.getElem?_zipIdx, Option.map_map]
  rfl

/-- An item keeps its id, or it becomes a report. -/
theorem replyItem_id (i : Nat) (q : GoResult) :
    (replyItem i q).DId = q.2.DId ∨ (replyItem i q).DId = DataItemIds.SYS_ItemError := by
  unfold replyItem
  split
  · exact .inl rfl
  · unfold itemError
    simp only
    split
    · exact .inr rfl
    · exact .inl rfl

/-! ## 2. The loop -/

namespace RunningLemmas

/-- No exception of a `Go` gets past `runGo`. -/
theorem runGo_ok {go : GoFn ε} {item : TDataItem} {w w' : World ε} {r : Except Exn GoResult}
    (h : (runGo go item).exec w = some (r, w')) : ∃ q, r = .ok q ∧ q.2.DId = item.DId := by
  have hrun : (runGo go item).exec w = ((go item.DId).exec (item.toTItemBody, w)).map fun r =>
    (.ok (r.1, { r.2.1 with DId := item.DId }), r.2.2) := rfl
  rw [hrun, Option.map_eq_some_iff] at h
  obtain ⟨q, -, hq⟩ := h
  cases hq
  exact ⟨_, rfl, rfl⟩

theorem replaceFailed_exec (pf : Platform) (i : Nat) (item : TDataItem) (errIndex info : UInt32)
    (what : TBytes) (w : World ε) :
    (replaceFailed pf i item errIndex info what).exec w =
      some (.ok ((itemError (UInt16.ofNat i) item.DId errIndex info what).getD item), w) := by
  rw [replaceFailed, exec_bind, World.onGlobals, exec_zoom, BuildSysItemError_exec]
  rfl

theorem runItem_exec (pf : Platform) (go : GoFn ε) (i : Nat) (item : TDataItem) (w : World ε) :
    (runItem pf go i item).exec w = ((runGo go item).exec w).bind
      (resume fun q => return (replyItem i q, (failure q).isSome)) := by
  rw [runItem, exec_bind]
  congr 1
  funext ⟨q, w'⟩
  match q with
  | .error e => rfl
  | .ok (.ok (), item') =>
    by_cases hcode : item'.resultCode ≠ ERR_SUCCESS
    · simp only [resume_ok, if_pos hcode, exec_bind, replaceFailed_exec, Option.bind_some,
        exec_pure, replyItem, failure, Option.isSome_some]
    · simp only [resume_ok, if_neg hcode, exec_pure, replyItem, failure, Option.isSome_none]
  | .ok (.error (.logicError what), item') | .ok (.error (.stdException what), item')
  | .ok (.error .unknown, item') =>
    simp only [resume_ok, exec_bind, replaceFailed_exec, Option.bind_some, exec_pure, replyItem,
      failure, Option.isSome_some]

/-- The runs of all `Go`s of a message. -/
theorem mapM_runGo_cons (go : GoFn ε) (item : TDataItem) (items : List TDataItem) (w : World ε) :
    ((item :: items).mapM (runGo go)).exec w = ((runGo go item).exec w).bind
      (resume fun q => do return q :: (← items.mapM (runGo go))) := by
  rw [List.mapM_cons, exec_bind]

end RunningLemmas

open RunningLemmas

/-- The loop of `RunMessage` runs all `Go`s and turns their results into a reply. -/
theorem runItems_exec (pf : Platform) (go : GoFn ε) (i : Nat) (items : List TDataItem)
    (w : World ε) :
    (runItems pf go i items).exec w = ((items.mapM (runGo go)).exec w).bind
      (resume fun qs => return (replyItems i qs, anyFailed qs)) := by
  induction items generalizing i w with
  | nil => rfl
  | cons item items ih =>
    rw [runItems, exec_bind, runItem_exec, mapM_runGo_cons]
    cases (runGo go item).exec w with
    | none => rfl
    | some q =>
      obtain ⟨q, w₁⟩ := q
      cases q with
      | error e => rfl
      | ok q =>
        simp only [Option.bind_some, resume_ok, exec_pure, exec_bind, ih]
        cases (items.mapM (runGo go)).exec w₁ with
        | none => rfl
        | some qs =>
          obtain ⟨qs, w₂⟩ := qs
          cases qs <;> rfl

/-- No exception comes out of the loop, and each result is that of its item. -/
theorem mapM_runGo_ok {go : GoFn ε} {items : List TDataItem} {w w' : World ε}
    {r : Except Exn (List GoResult)} (h : (items.mapM (runGo go)).exec w = some (r, w')) :
    ∃ qs, r = .ok qs ∧ qs.map (fun q => q.2.DId) = items.map TDataItem.DId := by
  induction items generalizing w w' r with
  | nil =>
    cases h
    exact ⟨[], rfl, rfl⟩
  | cons item items ih =>
    rw [mapM_runGo_cons, Option.bind_eq_some_iff] at h
    obtain ⟨⟨q, w₁⟩, hq, h⟩ := h
    obtain ⟨q, rfl, hid⟩ := runGo_ok hq
    rw [resume_ok, exec_bind, Option.bind_eq_some_iff] at h
    obtain ⟨⟨qs, w₂⟩, hqs, h⟩ := h
    obtain ⟨qs, rfl, hids⟩ := ih hqs
    cases h
    exact ⟨q :: qs, rfl, by rw [List.map_cons, List.map_cons, hid, hids]⟩

theorem replyMId_mem (anyError : Bool) : replyMId anyError ∈ ValidMessageIDs := by
  cases anyError <;> decide

/-- The reply to a message whose `Go`s have given `qs`. -/
def replyTo (qs : List GoResult) : TMessage :=
  { Id := replyMId (anyFailed qs), DataItems := replyItems 0 qs }

theorem RunMessage_exec (pf : Platform) (go : GoFn ε) (m : TMessage) (w : World ε) :
    (RunMessage pf go m).exec w =
      ((m.DataItems.mapM (runGo go)).exec w).bind (resume fun qs => return replyTo qs) := by
  rw [RunMessage, exec_bind, runItems_exec]
  cases (m.DataItems.mapM (runGo go)).exec w with
  | none => rfl
  | some q =>
    obtain ⟨q, w'⟩ := q
    cases q with
    | error e => rfl
    | ok qs =>
      simp only [Option.bind_some, resume_ok, exec_pure, new_of_mem (replyMId_mem _)]
      rfl

/-! ## 3. One message -/

/-- A message on the heap is taken off the queue and handled. -/
theorem actionStep_heap (pf : Platform) (go : GoFn ε) {w : World ε} {socket : Int} {m : TMessage}
    {rest : List TActionQueueItem} (h : w.ActionQueue = ⟨socket, .heap m⟩ :: rest) :
    (actionStep pf go).exec w =
      (handleMessage pf go socket m).exec { w with ActionQueue := rest } := by
  rw [actionStep, exec_get_bind, h, exec_bind, exec_set]
  rfl

/-- The reply is sent when every item has a payload to send. -/
theorem SendResponse_exec (socket : Int) (m : TMessage) (w : World ε) :
    (SendResponse socket m).exec w =
      (m.AsBytes w.machine.Config true).map fun rbuf =>
        (.ok (), { w with sent := w.sent ++ [(socket, rbuf)] }) := by
  rw [SendResponse, exec_get_bind, exec_bind]
  cases m.AsBytes w.machine.Config true <;> rfl

end EnetTcp
