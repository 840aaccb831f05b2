import EnetTcp.Running

/-!
# Replies to requests

For any behaviour of the `Go`s of a message:

* `reply_answers_itemwise`: the reply is a frame with one item for each item of
  the request, as long as its payload is shorter than `2 ^ 32` bytes.
* `failedReplaced_iff`: when a failed item is replaced by a report that names its
  position and its id. The report must come out of the factory, which takes
  twelve bytes, and the position must fit 16 bits.
-/

namespace EnetTcp

open Prog

variable {pf : Platform} {ε : Type}

/-! ## 1. The reply as a whole -/

/-- The bytes are a frame, and the walk over its item headers finds one item for
each item of the request: the same id, or a report. -/
structure AnswersItemwise (bytes : TBytes) (m : TMessage) (ws : List WireItem) : Prop where
  size : payloadSize bytes + 6 = bytes.length
  sum : calculateChecksum bytes = 0
  walk : itemFormat.Splits ((bytes.drop 5).take (payloadSize bytes)) ws []
  count : ws.length = m.DataItems.length
  ids : ∀ (i : Nat) (w : WireItem) (item : TDataItem), ws[i]? = some w →
    m.DataItems[i]? = some item → w.DId = item.DId ∨ w.DId = DataItemIds.SYS_ItemError

/-- The `Go` has returned, and it has left the result code of success. -/
def Succeeded (q : GoResult) : Prop := q.1 = .ok () ∧ q.2.resultCode = ERR_SUCCESS

namespace ReplyLemmas

theorem failure_isNone_iff (q : GoResult) : failure q = none ↔ Succeeded q := by
  obtain ⟨r, item⟩ := q
  match r with
  | .ok () =>
    by_cases hcode : item.resultCode = ERR_SUCCESS
    · simp only [failure, hcode, ne_eq, not_true_eq_false, if_false, Succeeded, and_self]
    · simp only [failure, ne_eq, hcode, not_false_eq_true, if_true, reduceCtorEq,
        Succeeded, and_false]
  | .error (.logicError _) | .error (.stdException _) | .error .unknown =>
    simp only [failure, reduceCtorEq, Succeeded, false_and]

/-- The reply that is sent for a request whose items all have a payload. -/
theorem handleMessage_exec {go : GoFn ε} {m : TMessage} (hreq : isRequest m.Id = true)
    {w w' : World ε} {qs : List GoResult}
    (hgo : (m.DataItems.mapM (runGo go)).exec w = some (.ok qs, w')) (p : TDataItem → TBytes)
    (hp : ∀ item ∈ replyItems 0 qs,
      calcPayload w'.machine.Config true item.toTItemBody = some (p item)) (socket : Int) :
    (handleMessage pf go socket m).exec w = some (.ok (), { w' with sent := w'.sent ++
      [(socket, frameBytes (replyMId (anyFailed qs))
        ((replyItems 0 qs).map fun item => itemBytes item.DId (p item)))] }) := by
  have hbytes : (replyTo qs).AsBytes w'.machine.Config true = some _ := AsBytes_eq p hp
  rw [handleMessage, if_pos hreq, exec_bind, RunMessage_exec, hgo, Option.bind_some, resume_ok,
    exec_pure, Option.bind_some, resume_ok, SendResponse_exec, hbytes]
  rfl

/-- Items with short payloads, one after the other, as records. -/
theorem flatten_itemBytes (items : List TDataItem) (p : TDataItem → TBytes)
    (hp : ∀ item ∈ items, (p item).length < 2 ^ 16) :
    ∃ ws, (items.map fun item => itemBytes item.DId (p item)).flatten = itemFormat.encodeAll ws ∧
      ws.map WireItem.DId = items.map TDataItem.DId := by
  induction items with
  | nil => exact ⟨[], rfl, rfl⟩
  | cons item items ih =>
    obtain ⟨hitem, hitems⟩ := List.forall_mem_cons.mp hp
    obtain ⟨ws, hflat, hids⟩ := ih hitems
    refine ⟨⟨item.DId, p item, hitem⟩ :: ws, ?_, by rw [List.map_cons, List.map_cons, hids]⟩
    rw [List.map_cons, List.flatten_cons, hflat, RecordFormat.encodeAll_cons]
    rfl

theorem length_flatten_itemBytes (items : List TDataItem) (p : TDataItem → TBytes) :
    (items.map fun item => itemBytes item.DId (p item)).flatten.length =
      (items.map fun item => 4 + (p item).length).sum := by
  rw [List.length_flatten, List.map_map]
  congr 2
  funext item
  simp only [Function.comp_apply, itemBytes, List.length_append, length_stuff16]

end ReplyLemmas

open ReplyLemmas

/-- The reply to a request: a frame with one item for each item of the request,
and the id of a response or of an error. -/
theorem reply_answers_itemwise {go : GoFn ε} {m : TMessage} (hreq : isRequest m.Id = true)
    {w w' : World ε} {qs : List GoResult}
    (hgo : (m.DataItems.mapM (runGo go)).exec w = some (.ok qs, w')) (p : TDataItem → TBytes)
    (hp : ∀ item ∈ replyItems 0 qs,
      calcPayload w'.machine.Config true item.toTItemBody = some (p item) ∧
        (p item).length < 2 ^ 16)
    (htotal : ((replyItems 0 qs).map fun item => 4 + (p item).length).sum < 2 ^ 32)
    (socket : Int) :
    ∃ bytes ws, (handleMessage pf go socket m).exec w =
        some (.ok (), { w' with sent := w'.sent ++ [(socket, bytes)] }) ∧
      AnswersItemwise bytes m ws ∧
      ((∀ q ∈ qs, Succeeded q) → bytes.headD 0 = 82) ∧
      ((∃ q ∈ qs, ¬Succeeded q) → bytes.headD 0 = 69) := by
  obtain ⟨ws, hflat, hids⟩ :=
    flatten_itemBytes (replyItems 0 qs) p fun item hitem => (hp item hitem).2
  have hlen := length_flatten_itemBytes (replyItems 0 qs) p
  obtain ⟨_, hqs, hgoIds⟩ := mapM_runGo_ok hgo
  obtain rfl := Except.ok.inj hqs
  have hcount : qs.length = m.DataItems.length := by
    simpa only [List.length_map] using congrArg List.length hgoIds
  refine ⟨_, ws, handleMessage_exec hreq hgo p (fun item hitem => (hp item hitem).1) socket,
    ⟨?_, checksum_frameBytes, ⟨?_, rfl⟩, ?_, ?_⟩, ?_, ?_⟩
  · rw [payloadSize_frameBytes, length_frameBytes, hlen, Nat.mod_eq_of_lt htotal]
  · rw [payload_frameBytes (hlen ▸ htotal), hflat, List.append_nil]
  · have hws := congrArg List.length hids
    rwa [List.length_map, List.length_map, length_replyItems, hcount] at hws
  · intro i v item hv hitem
    have hreply : (replyItems 0 qs)[i]?.map TDataItem.DId = some v.DId := by
      rw [← List.getElem?_map, ← hids, List.getElem?_map, hv]
      rfl
    have hgoId : (qs[i]?).map (fun q => q.2.DId) = some item.DId := by
      rw [← List.getElem?_map, hgoIds, List.getElem?_map, hitem]
      rfl
    rw [getElem?_replyItems, Option.map_map, Option.map_eq_some_iff] at hreply
    obtain ⟨q, hq, hvid⟩ := hreply
    rw [hq] at hgoId
    rw [← hvid, ← Option.some.inj hgoId]
    exact replyItem_id (0 + i) q
  · intro hall
    have hnone : anyFailed qs = false := by
      rw [anyFailed, List.any_eq_false]
      intro q hq
      rw [(failure_isNone_iff q).mpr (hall q hq)]
      decide
    rw [headD_frameBytes, hnone]
    rfl
  · rintro ⟨q, hq, hfailed⟩
    have hsome : anyFailed qs = true := by
      refine List.any_eq_true.mpr ⟨q, hq, ?_⟩
      rw [Option.isSome_iff_ne_none]
      exact fun h => hfailed ((failure_isNone_iff q).mp h)
    rw [headD_frameBytes, hsome]
    rfl

/-- A query with four items. -/
def exQuery : TMessage :=
  { Id := 81
    DataItems := [{ params := .TDataItemRaw, DId := DataItemIds.BRD_GetModel },
      { params := .TDataItemRaw, rawBytes := [0x11], DId := DataItemIds.DAC_Output1 },
      { params := .TDataItemRaw, rawBytes := [0x12], DId := DataItemIds.DIO_InputBit },
      { params := .TDataItemRaw, rawBytes := [0x30], DId := DataItemIds.REG_Read1 }] }

/-- The `Go`s of the query: the second throws, the third leaves an error code, the
others leave a payload. -/
def exQueryGo : GoFn Unit := fun did => do
  if did = DataItemIds.DAC_Output1 then
    throw (.logicError (text "no such channel"))
  if did = DataItemIds.DIO_InputBit then
    modify fun s => ({ s.1 with resultCode := ERR_DId_BAD_PARAM }, s.2)
  if did = DataItemIds.BRD_GetModel then
    modify fun s => ({ s.1 with rawBytes := text "eNET-AIO16-16F" }, s.2)
  if did = DataItemIds.REG_Read1 then
    modify fun s => ({ s.1 with rawBytes := s.1.rawBytes ++ [0x34, 0x12, 0, 0] }, s.2)

/-- What they leave. -/
def exResults : List GoResult :=
  [(.ok (), { params := .TDataItemRaw, rawBytes := text "eNET-AIO16-16F",
              DId := DataItemIds.BRD_GetModel }),
    (.error (.logicError (text "no such channel")),
      { params := .TDataItemRaw, rawBytes := [0x11], DId := DataItemIds.DAC_Output1 }),
    (.ok (), { params := .TDataItemRaw, rawBytes := [0x12], resultCode := ERR_DId_BAD_PARAM,
               DId := DataItemIds.DIO_InputBit }),
    (.ok (), { params := .TDataItemRaw, rawBytes := [0x30, 0x34, 0x12, 0, 0],
               DId := DataItemIds.REG_Read1 })]

theorem reply_answers_query :
    ∃ bytes ws, (handleMessage exPlatform exQueryGo 0 exQuery).exec (exWorld []) =
        some (.ok (), { exWorld [] with sent := (exWorld []).sent ++ [(0, bytes)] }) ∧
      AnswersItemwise bytes exQuery ws ∧ ws.length = 4 ∧ bytes.headD 0 = 69 := by
  have hgo : (exQuery.DataItems.mapM (runGo exQueryGo)).exec (exWorld []) =
      some (.ok exResults, exWorld []) := by rfl
  have hp : ∀ item ∈ replyItems 0 exResults,
      calcPayload InitConfig true item.toTItemBody = some item.rawBytes ∧
        item.rawBytes.length < 2 ^ 16 := by decide
  obtain ⟨bytes, ws, hsent, hanswers, -, hE⟩ :=
    reply_answers_itemwise (by decide) hgo (fun item => item.rawBytes) hp (by decide) 0
  have hfailed : ∃ q ∈ exResults, ¬Succeeded q :=
    ⟨_, .tail _ (.head _), fun h => nomatch h.1⟩
  exact ⟨bytes, ws, hsent, hanswers, hanswers.count, hE hfailed⟩

/-- A `Go` that leaves a reply of 65535 bytes. -/
def exBigGo : GoFn Unit := fun _ =>
  modify fun s => ({ params := .TDataItemRaw, rawBytes := List.replicate 65535 0 }, s.2)

/-- The item that `exBigGo` leaves. -/
def exBigItem : TDataItem :=
  { params := .TDataItemRaw, rawBytes := List.replicate 65535 0, DId := DataItemIds.BRD_Reset }

/-- A query with `n` items. -/
def exBigQuery (n : Nat) : TMessage :=
  { Id := 81
    DataItems := List.replicate n { params := .TDataItemRaw, DId := DataItemIds.BRD_Reset } }

namespace ReplyLemmas

theorem mapM_exBigGo (n : Nat) (w : World Unit) :
    ((exBigQuery n).DataItems.mapM (runGo exBigGo)).exec w =
      some (.ok (List.replicate n (.ok (), exBigItem)), w) := by
  induction n with
  | zero => rfl
  | succ n ih =>
    have hhead (item : TDataItem) (hid : item.DId = DataItemIds.BRD_Reset) :
        (runGo exBigGo item).exec w = some (.ok (.ok (), exBigItem), w) := by
      rw [exBigItem, ← hid]
      rfl
    have hitems : (exBigQuery (n + 1)).DataItems = _ :: (exBigQuery n).DataItems :=
      List.replicate_succ
    rw [hitems, RunningLemmas.mapM_runGo_cons, hhead _ rfl, Option.bind_some, resume_ok, exec_bind,
      ih]
    rfl

theorem replyItems_exBigGo (i n : Nat) :
    replyItems i (List.replicate n (.ok (), exBigItem)) = List.replicate n exBigItem := by
  apply List.ext_getElem?
  intro k
  rw [getElem?_replyItems, List.getElem?_replicate, List.getElem?_replicate]
  split <;> rfl

end ReplyLemmas

/-- The reply items of a message of 65536 items. -/
def exBigReply : List TDataItem := replyItems 0 (List.replicate 65536 (.ok (), exBigItem))

/-- 65536 payloads of 65535 bytes stay below `2 ^ 32` bytes, and their frame does not:
its length field is wrong. -/
theorem big_reply_wraps :
    (∀ item ∈ exBigReply, calcPayload InitConfig true item.toTItemBody =
        some item.rawBytes ∧ item.rawBytes.length < 2 ^ 16) ∧
      (exBigReply.map fun item => item.rawBytes.length).sum < 2 ^ 32 ∧
      ∃ bytes, (handleMessage exPlatform exBigGo 0 (exBigQuery 65536)).exec (exWorld []) =
          some (.ok (), { exWorld [] with sent := [(0, bytes)] }) ∧
        payloadSize bytes + 6 ≠ bytes.length := by
  have hlen : exBigItem.rawBytes.length = 65535 := List.length_replicate
  have hreply : exBigReply = List.replicate 65536 exBigItem := replyItems_exBigGo 0 65536
  have hitems : ∀ item ∈ exBigReply, calcPayload InitConfig true item.toTItemBody =
      some item.rawBytes ∧ item.rawBytes.length < 2 ^ 16 := by
    intro item hitem
    rw [hreply] at hitem
    obtain rfl := List.eq_of_mem_replicate hitem
    exact ⟨rfl, by rw [hlen]; decide⟩
  have hflat : (exBigReply.map fun item => itemBytes item.DId item.rawBytes).flatten.length =
      65536 * 65539 := by
    rw [length_flatten_itemBytes, hreply, List.map_replicate, List.sum_replicate_nat, hlen]
  refine ⟨hitems, ?_, _, handleMessage_exec (by rfl) (mapM_exBigGo 65536 _)
    (fun item => item.rawBytes) (fun item hitem => (hitems item hitem).1) 0, ?_⟩
  · rw [hreply, List.map_replicate, List.sum_replicate_nat, hlen]
    decide
  · rw [payloadSize_frameBytes, length_frameBytes, ← exBigReply, hflat]
    decide

/-! ## 2. Reports on failed items -/

/-- The item reports a failure of the item at position `i` with the id `did`. -/
def ReportsItem (i : Nat) (did : DataItemIds) (item : TDataItem) : Prop :=
  item.DId = DataItemIds.SYS_ItemError ∧
    ∃ p, item.params = .TSYS_ItemError p ∧ p.ItemIndex.toNat = i ∧ p.DId = did

/-- Every item whose `Go` has failed is replaced by a report. -/
def FailedReplaced (pf : Platform) (go : GoFn ε) (m : TMessage) (w : World ε) : Prop :=
  ∀ qs w₁, (m.DataItems.mapM (runGo go)).exec w = some (.ok qs, w₁) →
    ∀ reply w₂, (RunMessage pf go m).exec w = some (.ok reply, w₂) →
      ∀ (i : Nat) (q : GoResult) (request : TDataItem), qs[i]? = some q → ¬Succeeded q →
        m.DataItems[i]? = some request →
          ∃ item, reply.DataItems[i]? = some item ∧ ReportsItem i request.DId item

/-- The length of the data of a report, as its length field counts it. -/
def reportLength (what : TBytes) : Nat := (12 + what.length) % 65536

/-- The report fits: the factory takes it, and the fields that are there hold the
position and the id. A field behind the end is zero. -/
def ReportFits (i : Nat) (did : DataItemIds) (what : TBytes) : Prop :=
  reportLength what ≤ 12 ∧ (2 ≤ reportLength what → i < 65536) ∧
    (reportLength what < 2 → i = 0) ∧ (reportLength what < 4 → did = 0)

/-- The item that has failed stays in place and is a report of the failure itself. -/
def StandsAsReport (i : Nat) (q : GoResult) (what : TBytes) : Prop :=
  12 < reportLength what ∧ ReportsItem i q.2.DId q.2

namespace ReplyLemmas

/-- The bytes of a report. -/
def reportBytes (i : UInt16) (did : DataItemIds) (errIndex info : UInt32) (what : TBytes) :
    TBytes :=
  wrapped (stuff16 i ++ stuff16 did ++ stuff32 errIndex ++ stuff32 info ++ what)

section

variable {i : UInt16} {did : DataItemIds} {errIndex info : UInt32} {what : TBytes}

theorem reportBytes_eq : reportBytes i did errIndex info what =
    (stuff16 i ++ (stuff16 did ++ (stuff32 errIndex ++ stuff32 info ++ what))).take
      (reportLength what) := by
  have hlen : (stuff16 i ++ stuff16 did ++ stuff32 errIndex ++ stuff32 info ++ what).length =
      12 + what.length := by
    simp only [List.length_append, length_stuff16, length_stuff32]
  rw [reportBytes, wrapped, hlen, reportLength]
  simp only [List.append_assoc]

theorem length_reportBytes : (reportBytes i did errIndex info what).length = reportLength what := by
  rw [reportBytes, length_wrapped, reportLength]
  simp only [List.length_append, length_stuff16, length_stuff32]

theorem itemError_eq : itemError i did errIndex info what =
    if reportLength what ≤ 12 then
      some { params := .TSYS_ItemError (TSYS_ItemError.ctor (reportBytes i did errIndex info what)),
             rawBytes := reportBytes i did errIndex info what, DId := DataItemIds.SYS_ItemError }
    else none := by
  rw [← @length_reportBytes i did errIndex info what]
  rfl

/-- The position in a report, as far as its bytes go. -/
theorem report_index : (TSYS_ItemError.ctor (reportBytes i did errIndex info what)).ItemIndex =
    if 1 < reportLength what then i else 0 := by
  show (readU16 (reportBytes i did errIndex info what) 0).getD 0 = _
  rw [reportBytes_eq, readU16_take, readU16_stuff16]
  split <;> rfl

/-- The id in a report, as far as its bytes go. -/
theorem report_id : (TSYS_ItemError.ctor (reportBytes i did errIndex info what)).DId =
    if 3 < reportLength what then did else 0 := by
  show (readU16 (reportBytes i did errIndex info what) 2).getD 0 = _
  rw [reportBytes_eq, readU16_take]
  have hread := (readU16_append (stuff16 i) (stuff16 did ++ (stuff32 errIndex ++ stuff32 info ++
    what)) 0).trans (readU16_stuff16 _ _)
  rw [length_stuff16] at hread
  rw [hread]
  split <;> rfl

end

/-- The item in the reply is a right report in exactly these two cases. -/
theorem replyItem_reports {i : Nat} {q : GoResult} {errIndex info : UInt32} {what : TBytes}
    (h : failure q = some (errIndex, info, what)) :
    ReportsItem i q.2.DId (replyItem i q) ↔
      ReportFits i q.2.DId what ∨ StandsAsReport i q what := by
  have hitem : replyItem i q =
      (itemError (UInt16.ofNat i) q.2.DId errIndex info what).getD q.2 := by
    rw [replyItem, h]
  rw [hitem, itemError_eq]
  by_cases hfit : reportLength what ≤ 12
  · have hstands : ¬StandsAsReport i q what := fun hs => absurd hs.1 (Nat.not_lt_of_le hfit)
    have hindex : (if 1 < reportLength what then UInt16.ofNat i else 0).toNat = i ↔
        (2 ≤ reportLength what → i < 65536) ∧ (reportLength what < 2 → i = 0) := by
      split
      · rw [UInt16.toNat_ofNat']
        omega
      · rw [UInt16.toNat_zero]
        omega
    have hid : (if 3 < reportLength what then q.2.DId else 0) = q.2.DId ↔
        (reportLength what < 4 → q.2.DId = 0) := by
      split
      · exact ⟨fun _ hlt => by omega, fun _ => rfl⟩
      · exact ⟨fun heq _ => heq.symm, fun hzero => (hzero (by omega)).symm⟩
    rw [if_pos hfit, Option.getD_some, or_iff_left hstands]
    simp only [ReportsItem, ReportFits, true_and, Params.TSYS_ItemError.injEq, exists_eq_left',
      report_index, report_id, hfit, hindex, hid, and_assoc]
  · have hnofit : ¬ReportFits i q.2.DId what := fun hf => hfit hf.1
    rw [if_neg hfit, Option.getD_none, or_iff_right hnofit]
    exact ⟨fun hr => ⟨Nat.lt_of_not_le hfit, hr⟩, fun hs => hs.2⟩

end ReplyLemmas

/-- Failed items are replaced as long as the reports on them fit. -/
theorem failedReplaced_iff {go : GoFn ε} {m : TMessage} {w : World ε} :
    FailedReplaced pf go m w ↔
      ∀ qs w₁, (m.DataItems.mapM (runGo go)).exec w = some (.ok qs, w₁) →
        ∀ (i : Nat) (q : GoResult) (errIndex info : UInt32) (what : TBytes), qs[i]? = some q →
          failure q = some (errIndex, info, what) →
            ReportFits i q.2.DId what ∨ StandsAsReport i q what := by
  have hids {qs : List GoResult} {w₁ : World ε}
      (hgo : (m.DataItems.mapM (runGo go)).exec w = some (.ok qs, w₁)) (i : Nat) :
      (qs[i]?).map (fun q => q.2.DId) = (m.DataItems[i]?).map TDataItem.DId := by
    obtain ⟨_, hqs, hall⟩ := mapM_runGo_ok hgo
    obtain rfl := Except.ok.inj hqs
    rw [← List.getElem?_map, hall, List.getElem?_map]
  have hreply {qs : List GoResult} {w₁ : World ε}
      (hgo : (m.DataItems.mapM (runGo go)).exec w = some (.ok qs, w₁)) :
      (RunMessage pf go m).exec w = some (.ok (replyTo qs), w₁) := by
    rw [RunMessage_exec, hgo]
    rfl
  constructor
  · intro h qs w₁ hgo i q errIndex info what hq hfail
    have hfailed : ¬Succeeded q := fun hs => by
      rw [(failure_isNone_iff q).mpr hs] at hfail
      cases hfail
    have hid := hids hgo i
    rw [hq, Option.map_some, eq_comm, Option.map_eq_some_iff] at hid
    obtain ⟨request, hrequest, hid⟩ := hid
    obtain ⟨item, hitem, hreports⟩ :=
      h qs w₁ hgo _ _ (hreply hgo) i q request hq hfailed hrequest
    have hget : (replyItems 0 qs)[i]? = some (replyItem i q) := by
      rw [getElem?_replyItems, hq, Nat.zero_add]
      rfl
    obtain rfl := Option.some.inj (hget.symm.trans hitem)
    rw [hid] at hreports
    exact (replyItem_reports hfail).mp hreports
  · intro h qs w₁ hgo reply w₂ hrun i q request hq hfailed hrequest
    rw [hreply hgo] at hrun
    cases hrun
    obtain ⟨⟨errIndex, info, what⟩, hfail⟩ := Option.ne_none_iff_exists'.mp fun hnone =>
      hfailed ((failure_isNone_iff q).mp hnone)
    have hid := hids hgo i
    rw [hq, hrequest] at hid
    refine ⟨replyItem i q, ?_, ?_⟩
    · show (replyItems 0 qs)[i]? = _
      rw [getElem?_replyItems, hq, Nat.zero_add]
      rfl
    · rw [← Option.some.inj hid]
      exact (replyItem_reports hfail).mpr (h qs w₁ hgo i q errIndex info what hq hfail)

/-- `DAC_Scale1` for a channel that does not exist. -/
def exBadChannel : TDataItem :=
  { params := .TDataItemRaw, Data := [5, 0, 0, 0x80, 0x3F], rawBytes := [5, 0, 0, 0x80, 0x3F],
    DId := DataItemIds.DAC_Scale1 }

/-- The text that its `Go` throws. -/
def exBadChannelWhat : TBytes := guardWhat (lambdaSite 243) ERR_DId_BAD_PARAM 5

/-- A command with this item. -/
def exBadCommand : TMessage := { Id := 67, DataItems := [exBadChannel] }

/-- No report can be built from the text, and the failed item stays. -/
theorem failed_item_stays :
    ¬FailedReplaced exPlatform (daemonGo exPlatform exEnv) exBadCommand (exWorld []) := by
  intro h
  have hgo : (exBadCommand.DataItems.mapM (runGo (daemonGo exPlatform exEnv))).exec (exWorld []) =
      some (.ok [(.error (.logicError exBadChannelWhat), exBadChannel)], exWorld []) := by rfl
  have hrun := RunMessage_exec exPlatform (daemonGo exPlatform exEnv) exBadCommand (exWorld [])
  rw [hgo, Option.bind_some, resume_ok, exec_pure] at hrun
  obtain ⟨item, hitem, hreports⟩ := h _ _ hgo _ _ hrun 0 _ exBadChannel rfl
    (fun hs => nomatch hs.1) rfl
  have hlong : ¬reportLength exBadChannelWhat ≤ 12 := by decide +kernel
  obtain rfl := Option.some.inj hitem
  have hfail : failure (.error (.logicError exBadChannelWhat), exBadChannel) =
      some (_, _, exBadChannelWhat) := rfl
  rcases (replyItem_reports hfail).mp hreports with ⟨hfit, -⟩ | ⟨-, hid, -⟩
  · exact hlong hfit
  · exact absurd hid (by decide)

end EnetTcp
