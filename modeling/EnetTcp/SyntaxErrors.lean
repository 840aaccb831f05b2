import EnetTcp.Acceptance
import EnetTcp.Receiving
import EnetTcp.Running

/-!
# Frames with a syntax error

A syntax error that the parser throws ends in an `X` message. One that it leaves
in the result code is lost: the message with the items read so far goes on the
queue. The results say when a broken frame is

* not run (`nothingExecuted_iff`),
* answered with the report that the documentation promises (`answersError_iff`).
-/

namespace EnetTcp

open Prog

variable {pf : Platform}

/-! ## 1. Nothing of a broken frame is run -/

/-- The action thread calls no `Go` for the message: its run is the same whatever
`Go` does, even where calling it is undefined. -/
def RunsNothing (pf : Platform) (m : TMessage) : Prop :=
  ∀ (ε : Type) (go : GoFn ε) (w : World ε) (socket : Int) (rest : List TActionQueueItem),
    w.ActionQueue = ⟨socket, .heap m⟩ :: rest →
      (actionStep pf go).exec w = (actionStep pf fun _ => Prog.undefined).exec w

/-- When the parser reports a syntax error for the frame, the message that comes
out of it runs nothing. -/
def NothingExecuted (pf : Platform) (g : Globals) (f : Frame) : Prop :=
  ∀ r g', (FromBytes pf f.bytes).exec g = some (r, g') → Rejects r →
    ∀ m, (GotMessage pf f.bytes).exec g = some (.ok m, g') → RunsNothing pf m

/-- A request with a right checksum, in whose payload an item with a bad length
comes behind the items `ws`, which are built. -/
structure PartlyBuilt (pf : Platform) (g : Globals) (f : Frame) (ws : List WireItem) : Prop where
  request : isRequest f.MId = true
  sum : calculateChecksum f.bytes = 0
  nonempty : ws ≠ []
  built : ∃ items g', Built pf g ws items g'
  badLength : ∃ rest n, f.payload ++ [f.checksum] = itemFormat.encodeAll ws ++ rest ∧
    f.payload.length = (itemFormat.encodeAll ws).length + n ∧ BadLength rest n

namespace SyntaxErrorLemmas

/-- A message that is no request, or has no items, runs nothing. -/
theorem runsNothing_of {m : TMessage} (h : isRequest m.Id = false ∨ m.DataItems = []) :
    RunsNothing pf m := by
  intro ε go w socket rest hq
  rw [actionStep_heap pf go hq, actionStep_heap pf _ hq]
  rcases h with hid | hnil
  · simp only [handleMessage, hid, Bool.false_eq_true, if_false]
  · simp only [handleMessage, RunMessage, hnil, runItems]

/-- A `Go` that makes a raw item of any item. -/
def rawGo : GoFn Unit := fun _ => modify fun s => ({ params := .TDataItemRaw }, s.2)

theorem runItems_raw (i : Nat) (items : List TDataItem) (w : World Unit) :
    (runItems pf rawGo i items).exec w =
      some (.ok (items.map fun item => { params := .TDataItemRaw, DId := item.DId }, false),
        w) := by
  induction items generalizing i with
  | nil => rfl
  | cons item items ih =>
    have hitem : (runItem pf rawGo i item).exec w =
        some (.ok ({ params := .TDataItemRaw, DId := item.DId }, false), w) := rfl
    rw [runItems, exec_bind_ok hitem, exec_bind, ih]
    rfl

theorem runItems_undefined {ε : Type} (i : Nat) (item : TDataItem) (items : List TDataItem)
    (w : World ε) : (runItems pf (fun _ => Prog.undefined) i (item :: items)).exec w = none := by
  have hitem : (runItem pf (fun _ => Prog.undefined) i item).exec w = none := rfl
  rw [runItems, exec_bind, hitem, Option.bind_none]

/-- A request with items calls a `Go`. -/
theorem not_runsNothing {m : TMessage} (hid : isRequest m.Id = true) (hne : m.DataItems ≠ []) :
    ¬RunsNothing pf m := by
  intro h
  have hsame := h Unit rawGo (exWorld [⟨0, .heap m⟩]) 0 [] rfl
  rw [actionStep_heap pf rawGo rfl, actionStep_heap pf _ rfl] at hsame
  -- one run sends a reply of raw items, the other is undefined
  have hraw (w : World Unit) : ((handleMessage pf rawGo 0 m).exec w).isSome = true := by
    let raw : TMessage := { Id := replyMId false, DataItems := m.DataItems.map fun item =>
      { params := .TDataItemRaw, DId := item.DId } }
    have hpayload : ∀ item ∈ raw.DataItems,
        calcPayload w.machine.Config true item.toTItemBody = some [] := by
      intro item hitem
      obtain ⟨_, -, rfl⟩ := List.mem_map.mp hitem
      rfl
    have hbytes := AsBytes_eq (fun _ => []) hpayload
    simp only [handleMessage, hid, if_true, RunMessage, exec_bind, runItems_raw, Option.bind_some,
      resume_ok, new_of_mem (by decide : replyMId false ∈ ValidMessageIDs), exec_pure,
      SendResponse_exec, Option.isSome_map]
    exact congrArg Option.isSome hbytes
  have hundefined (w : World Unit) :
      (handleMessage pf (fun _ => Prog.undefined) 0 m).exec w = none := by
    obtain ⟨item, items, hitems⟩ := List.exists_cons_of_ne_nil hne
    simp only [handleMessage, hid, if_true, RunMessage, hitems, exec_bind, runItems_undefined,
      Option.bind_none]
  rw [hundefined] at hsame
  exact absurd (congrArg Option.isSome hsame) (by rw [hraw]; decide)

theorem finish_of_sum {buf : TBytes} (hsum : calculateChecksum buf = 0) (items : List TDataItem)
    (code : TError) :
    finish buf items (.ok code) = .ok ({ Id := buf.headD 0, DataItems := items }, code) := by
  simp only [finish, Except.map, hsum, ne_eq, not_true_eq_false, if_false]

/-- The message that comes out of a rejected frame has no items, or it has the
items in front of a bad length under a right checksum. -/
theorem gotMessage_rejected {f : Frame} {g g' : Globals} {r : Except Exn (TMessage × TError)}
    {m : TMessage} (hrun : (FromBytes pf f.bytes).exec g = some (r, g')) (hrejects : Rejects r)
    (hm : gotMessage r = .ok m) :
    m.DataItems = [] ∨ (calculateChecksum f.bytes = 0 ∧ m.Id = f.MId ∧
      r = .ok (m, ERR_MSG_PAYLOAD_DATAITEM_LEN_MISMATCH) ∧ ∃ ws rest n,
      f.payload ++ [f.checksum] = itemFormat.encodeAll ws ++ rest ∧
      f.payload.length = (itemFormat.encodeAll ws).length + n ∧ BadLength rest n ∧
      Built pf g ws m.DataItems g') := by
  by_cases hid : isValidMessageID pf f.MId = true
  · obtain ⟨ws, items, c, ⟨rest, n, hbytes, hlen, hbuilt, hstops⟩, rfl⟩ :=
      (FromBytes_frame hid).mp hrun
    cases c with
    | error e =>
      cases e with
      | logicError what =>
        simp only [finish, Except.map, gotMessage, Except.ok.injEq] at hm
        exact .inl (hm ▸ rfl)
      | stdException | unknown =>
        simp only [finish, Except.map, gotMessage, reduceCtorEq] at hm
    | ok code =>
      by_cases hsum : calculateChecksum f.bytes = 0
      · rw [finish_of_sum hsum] at hm ⊢
        obtain rfl := Except.ok.inj hm
        cases hstops with
        | leftover =>
          exact absurd hrejects (fun h => (AcceptanceLemmas.rejects_finish.mp h).elim
            (fun hne => hne rfl) (fun hne => hne hsum))
        | badLength hbad => exact .inr ⟨hsum, rfl, rfl, ws, rest, n, hbytes, hlen, hbad, hbuilt⟩
      · simp only [finish, Except.map, ne_eq, hsum, not_false_eq_true, if_true, gotMessage,
          Except.ok.injEq] at hm
        exact .inl (hm ▸ rfl)
  · obtain ⟨r', hok, herror, hrun'⟩ :=
      FromBytes_of_not_headerOk fun h => hid ((headerOk_frame f).mp h)
    rw [hrun'] at hrun
    cases hrun
    cases r with
    | ok v =>
      obtain ⟨m', code⟩ := v
      obtain rfl : m' = m := Except.ok.inj hm
      exact .inl (hok m' code rfl).1
    | error x =>
      obtain rfl := herror x rfl
      cases hm
      exact .inl rfl

end SyntaxErrorLemmas

open SyntaxErrorLemmas

/-- Nothing of a broken frame is run, unless the frame is a request whose right
checksum covers a bad length behind items that are fine. -/
theorem nothingExecuted_iff {g : Globals} {f : Frame} :
    NothingExecuted pf g f ↔ ∀ ws, ¬PartlyBuilt pf g f ws := by
  constructor
  · rintro h ws ⟨hrequest, hsum, hne, ⟨items, g', hbuilt⟩, rest, n, hbytes, hlen, hbad⟩
    have hid : isValidMessageID pf f.MId = true := by
      simp only [isRequest, Bool.or_eq_true, beq_iff_eq] at hrequest
      refine isValidMessageID_of_mem ?_
      rcases hrequest with (hm | hm) | hm <;> rw [hm] <;> decide
    have hrun := (FromBytes_frame hid).mpr
      ⟨ws, items, _, ⟨rest, n, hbytes, hlen, hbuilt, .badLength hbad⟩, rfl⟩
    have hgot : (GotMessage pf f.bytes).exec g =
        some (.ok { Id := f.MId, DataItems := items }, g') := by
      rw [GotMessage_exec, hrun, finish_of_sum hsum]
      rfl
    refine not_runsNothing hrequest ?_
      (h _ g' hrun (AcceptanceLemmas.rejects_finish.mpr (.inl (by decide))) _ hgot)
    rintro hnil
    cases hbuilt with
    | nil => exact hne rfl
    | cons => cases hnil
  · intro h r g' hrun hrejects m hgot
    rw [GotMessage_exec, hrun] at hgot
    simp only [Option.map_some, Option.some.injEq, Prod.mk.injEq, and_true] at hgot
    rcases gotMessage_rejected hrun hrejects hgot with
      hnil | ⟨hsum, hid, -, ws, rest, n, hbytes, hlen, hbad, hbuilt⟩
    · exact runsNothing_of (.inr hnil)
    · cases hrequest : isRequest m.Id
      · exact runsNothing_of (.inl hrequest)
      · cases ws with
        | nil =>
          have hnil : m.DataItems = [] := by
            generalize m.DataItems = items at hbuilt
            cases hbuilt
            rfl
          exact runsNothing_of (.inr hnil)
        | cons w ws =>
          exact absurd ⟨hid ▸ hrequest, hsum, List.cons_ne_nil _ _, ⟨_, _, hbuilt⟩, rest, n, hbytes,
            hlen, hbad⟩ (h (w :: ws))

/-- A configuration message: a write to the register at 0x12, then a read of a
register with two bytes where one is allowed. -/
def exPartlyBuilt : Frame where
  MId := 0x43
  payload := [0x05, 0x01, 2, 0, 0x12, 0, 0x01, 0x01, 2, 0, 0, 0]
  checksum := 0x93
  fits := by decide

/-- The message is a syntax error, and the register is written all the same. -/
theorem partlyBuilt_executed : ¬NothingExecuted exPlatform exGlobals exPartlyBuilt := by
  let m : TMessage := { Id := 0x43, DataItems := [
    { params := .TREG_Write1 [{ offset := 0x12, width := 8, value := 0 }], rawBytes := [0x12, 0],
      DId := DataItemIds.REG_Write1 }] }
  have hrun : (FromBytes exPlatform exPartlyBuilt.bytes).exec exGlobals =
      some (.ok (m, ERR_MSG_PAYLOAD_DATAITEM_LEN_MISMATCH), exGlobals) := by rfl
  have hgot : (GotMessage exPlatform exPartlyBuilt.bytes).exec exGlobals =
      some (.ok m, exGlobals) := by rfl
  intro h
  exact not_runsNothing (by decide) (by decide)
    (h _ _ hrun (fun _ hm => by cases hm) m hgot)

/-! ## 2. A broken frame is reported -/

/-- The index of the error in `err_msg`, as the handler of the exception reads it. -/
def errorIndex : Except Exn (TMessage × TError) → UInt32
  | .ok (_, result) => ErrIndex result
  | .error (.logicError what) => (TryParseGuardWhat what (ErrIndex ERR_MSG_PARSE) 0).1
  | .error _ => ErrIndex ERR_MSG_PARSE

/-- The front of the buffer is a frame with a syntax error or a header that
announces too much. The index is that of the error. -/
inductive SyntaxErrorAt {ε : Type} (pf : Platform) (r : Receiver ε) : UInt32 → Prop
  | frame {f : Frame} {rest : TBytes} {outcome : Except Exn (TMessage × TError)} {g' : Globals} :
      r.buffer = f.bytes ++ rest →
      (FromBytes pf f.bytes).exec r.world.globals = some (outcome, g') →
      Rejects outcome → SyntaxErrorAt pf r (errorIndex outcome)
  | oversize : 5 ≤ r.buffer.length → maxPayloadLength < payloadSize r.buffer →
      SyntaxErrorAt pf r (ErrIndex ERR_MSG_LEN_MISMATCH)

/-- An `X` message with one item, which names the stage of the parser and the index. -/
structure ReportsError (pf : Platform) (errIndex : UInt32) (m : TMessage) : Prop where
  id : m.Id = 88
  item : ∃ item info, m.DataItems = [item] ∧ item.DId = DataItemIds.SYS_Error ∧
    ∀ c, calcPayload c true item.toTItemBody =
      some (stuff32 SysErrStage.Parse.code ++ stuff32 errIndex ++ info)

/-- The round puts a report of the error on the queue, where the action thread
will still find it. -/
def AnswersError {ε : Type} (pf : Platform) (aSocket : Int) (r : Receiver ε) (errIndex : UInt32) :
    Prop :=
  ∃ goesOn r' m, (processRound pf aSocket).exec r = some (.ok goesOn, r') ∧
    r'.world.ActionQueue = r.world.ActionQueue ++ [⟨aSocket, .heap m⟩] ∧ ReportsError pf errIndex m

/-- The client has sent the report itself: an `X` frame with a right checksum,
whose first item is a `SYS_Error` for a bad length and whose second item has one. -/
structure ReportInDisguise (buffer : TBytes) (f : Frame) (w : WireItem) : Prop where
  front : ∃ rest, buffer = f.bytes ++ rest
  id : f.MId = 88
  sum : calculateChecksum f.bytes = 0
  report : w.DId = DataItemIds.SYS_Error ∧ w.data.length ≤ 12 ∧
    ReadU32LE w.data 0 = SysErrStage.Parse.code ∧
    ReadU32LE w.data 4 = ErrIndex ERR_MSG_PAYLOAD_DATAITEM_LEN_MISMATCH
  badLength : ∃ xs n, f.payload ++ [f.checksum] = w.bytes ++ xs ∧
    f.payload.length = w.bytes.length + n ∧ BadLength xs n

namespace SyntaxErrorLemmas

/-- What the factory makes of a `SYS_Error` item. -/
theorem builds_sysError {w : WireItem} (hid : w.DId = DataItemIds.SYS_Error) {g g' : Globals}
    {item : TDataItem} :
    w.Builds pf g item g' ↔ w.data.length ≤ 12 ∧ g' = g ∧
      item = { params := .TSYS_Error (TSYS_Error.ctor w.data), rawBytes := w.data,
               DId := DataItemIds.SYS_Error } := by
  have he : ∃ e, DIdDict.find DataItemIds.SYS_Error = some e ∧ e.Construct = .TSYS_Error ∧
      e.minLen = 0 ∧ e.maxLen = 12 := ⟨_, rfl, rfl, rfl, rfl⟩
  obtain ⟨e, hfind, hcls, hmin, hmax⟩ := he
  constructor
  · rintro ⟨⟨e', hfind', hadmits, hrun⟩, hitem⟩
    obtain rfl : e = e' := Option.some.inj (hfind.symm.trans (hid ▸ hfind'))
    rw [hcls] at hrun
    obtain ⟨body, id⟩ := item
    cases hrun
    obtain rfl : id = DataItemIds.SYS_Error := hitem.trans hid
    exact ⟨(reportEntry_admits hmin hmax _).mp hadmits, rfl, rfl⟩
  · rintro ⟨hlen, rfl, rfl⟩
    refine ⟨⟨e, hid ▸ hfind, (reportEntry_admits hmin hmax _).mpr hlen, ?_⟩, hid.symm⟩
    rw [hcls]
    rfl

/-- The payload of a `SYS_Error` names its stage and its index. -/
theorem sysError_payload_iff {p : SYS_ErrorParams} {stage errIndex : UInt32} :
    (∃ info, TSYS_Error.calcPayload p = stuff32 stage ++ stuff32 errIndex ++ info) ↔
      p.Stage = stage ∧ p.ErrorCode = errIndex := by
  constructor
  · rintro ⟨info, h⟩
    rw [TSYS_Error.calcPayload, List.append_assoc, List.append_assoc] at h
    obtain ⟨hstage, h⟩ := List.append_inj h rfl
    exact ⟨stuff32_inj hstage, stuff32_inj (List.append_inj h rfl).1⟩
  · rintro ⟨rfl, rfl⟩
    exact ⟨_, rfl⟩

/-- What is put on the queue for a frame is the message that `GotMessage` makes of it. -/
theorem answersError_frame {ε : Type} {aSocket : Int} {r : Receiver ε} {f : Frame} {rest : TBytes}
    {outcome : Except Exn (TMessage × TError)} {g' : Globals} (errIndex : UInt32)
    (hfront : r.buffer = f.bytes ++ rest)
    (hrun : (FromBytes pf f.bytes).exec r.world.globals = some (outcome, g')) :
    AnswersError pf aSocket r errIndex ↔
      ∃ m, gotMessage outcome = .ok m ∧ ReportsError pf errIndex m := by
  have hround := processRound_frame pf aSocket hfront
  rw [GotMessage_exec, hrun, Option.map_some, Option.map_some] at hround
  constructor
  · rintro ⟨goesOn, r', m, hr, hqueue, hreports⟩
    rw [hround] at hr
    cases hm : gotMessage outcome with
    | error x =>
      rw [hm] at hr
      cases hr
    | ok m' =>
      rw [hm] at hr
      cases hr
      have hlast := List.append_cancel_left hqueue
      simp only [List.cons.injEq, TActionQueueItem.mk.injEq, MessageRef.heap.injEq, true_and,
        and_true] at hlast
      exact ⟨m', rfl, hlast ▸ hreports⟩
  · rintro ⟨m, hm, hreports⟩
    rw [hm] at hround
    exact ⟨true, _, m, hround, rfl, hreports⟩

end SyntaxErrorLemmas

/-- A syntax error is reported only where the client has written the report. -/
theorem answersError_iff {ε : Type} {aSocket : Int} {r : Receiver ε} {errIndex : UInt32}
    (h : SyntaxErrorAt pf r errIndex) :
    AnswersError pf aSocket r errIndex ↔ ∃ f w, ReportInDisguise r.buffer f w := by
  cases h with
  | oversize hlen hover =>
    constructor
    · rintro ⟨goesOn, r', m, hround, hqueue, -⟩
      rw [processRound_oversize pf aSocket hlen hover] at hround
      cases hround
      have hlast := List.append_cancel_left hqueue
      cases hlast
    · rintro ⟨f, w, ⟨rest, hfront⟩, -⟩
      have hfits : f.payload.length ≤ maxPayloadLength := f.fits
      rw [hfront, f.payloadSize_append] at hover
      omega
  | @frame f rest outcome g' hfront hrun hrejects =>
    rw [answersError_frame _ hfront hrun]
    constructor
    · rintro ⟨m, hm, hid, item, info, hitems, hitemId, hpayload⟩
      rcases gotMessage_rejected hrun hrejects hm with
        hnil | ⟨hsum, hmid, rfl, ws, xs, n, hbytes, hlen, hbad, hbuilt⟩
      · rw [hnil] at hitems
        cases hitems
      · rw [hitems] at hbuilt
        cases hbuilt with
        | cons hw hws =>
          cases hws
          rename_i w
          have hwid : w.DId = DataItemIds.SYS_Error := hw.id.symm.trans hitemId
          obtain ⟨hshort, -, rfl⟩ := (builds_sysError hwid).mp hw
          have hnames := sysError_payload_iff.mp ⟨info, Option.some.inj (hpayload InitConfig)⟩
          rw [RecordFormat.encodeAll_cons, RecordFormat.encodeAll_nil, List.append_nil]
            at hbytes hlen
          exact ⟨f, w, ⟨rest, hfront⟩, hmid.symm.trans hid, hsum,
            ⟨hwid, hshort, hnames.1, hnames.2⟩, xs, n, hbytes, hlen, hbad⟩
    · rintro ⟨f', w, ⟨rest', hfront'⟩, hid, hsum, ⟨hwid, hshort, hstage, hcode⟩, xs, n, hbytes,
        hlen, hbad⟩
      obtain ⟨rfl, -⟩ : f = f' ∧ rest = rest' :=
        frameFormat.encode_append_inj (hfront.symm.trans hfront')
      have hbuilt := Built.cons ((builds_sysError hwid).mpr ⟨hshort, rfl, rfl⟩)
        (.nil : Built pf r.world.globals [] [] r.world.globals)
      have hvalid : isValidMessageID pf f.MId = true :=
        isValidMessageID_of_mem (by rw [hid]; decide)
      have hone : itemFormat.encodeAll [w] = w.bytes := List.append_nil _
      have hrun' := (FromBytes_frame hvalid).mpr
        ⟨[w], _, _, ⟨xs, n, hone ▸ hbytes, hone ▸ hlen, hbuilt, .badLength hbad⟩, rfl⟩
      rw [hrun, finish_of_sum hsum] at hrun'
      cases hrun'
      have hnames : (TSYS_Error.ctor w.data).Stage = _ ∧ (TSYS_Error.ctor w.data).ErrorCode = _ :=
        ⟨hstage, hcode⟩
      obtain ⟨info, hinfo⟩ := sysError_payload_iff.mpr hnames
      exact ⟨_, rfl, hid, _, info, rfl, rfl, fun c => congrArg some hinfo⟩

/-- A query for the unknown id 0x7777. -/
def exUnknownId : Frame where
  MId := 0x51
  payload := [0x77, 0x77, 0, 0]
  checksum := 0xBD
  fits := by decide

/-- A receiver that has just received the query. -/
def exReceiver : Receiver Unit := { buffer := exUnknownId.bytes, world := exWorld [] }

theorem unknownId_syntaxError : SyntaxErrorAt exPlatform exReceiver 12 := by
  have hrun : (FromBytes exPlatform exUnknownId.bytes).exec exReceiver.world.globals =
      some (.error (.logicError (unknownIdWhat 0x7777)), exReceiver.world.globals) := by rfl
  have hindex : errorIndex (.error (.logicError (unknownIdWhat 0x7777))) = 12 := by
    decide +kernel
  have herror := SyntaxErrorAt.frame (List.append_nil _).symm hrun fun _ => nofun
  rwa [hindex] at herror

/-- The query is answered with an `X` message that has no item. -/
theorem unknownId_not_answered :
    SyntaxErrorAt exPlatform exReceiver 12 ∧ ¬AnswersError exPlatform 0 exReceiver 12 := by
  refine ⟨unknownId_syntaxError, ?_⟩
  rintro ⟨goesOn, r', m, hround, hqueue, hreports⟩
  have hrun : (FromBytes exPlatform exUnknownId.bytes).exec exReceiver.world.globals =
      some (.error (.logicError (unknownIdWhat 0x7777)), exReceiver.world.globals) := by rfl
  rw [processRound_frame _ _ (List.append_nil exUnknownId.bytes).symm, GotMessage_exec, hrun]
    at hround
  cases hround
  obtain ⟨_, _, hitems, -⟩ := hreports.item
  cases hqueue
  cases hitems

theorem answersError_iff_unknownId :
    AnswersError exPlatform 0 exReceiver 12 ↔ ∃ f w, ReportInDisguise exReceiver.buffer f w :=
  answersError_iff unknownId_syntaxError

end EnetTcp
