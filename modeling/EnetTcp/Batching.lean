import EnetTcp.Acceptance
import EnetTcp.Replies
import EnetTcp.Serving

/-!
# One message or two

`batching_law`: a message of the items `xs` and `ys` does what a message of `xs` and
a message of `ys` do one after the other, and answers the same. The index in a
report counts the items of the message, so the reports on items of `ys` name
another one.

The law is for items that are `Independent`. The long message is parsed before any
item of it runs, and serialized after all of them have run.
-/

namespace EnetTcp

open Prog

variable {ε : Type} {pf : Platform} {env : Env ε}

/-! ## 1. Messages of data items -/

/-- A message of data items. -/
def messageOf (id : TMessageId) (ws : List WireItem) : TBytes :=
  frameBytes id (ws.map WireItem.bytes)

/-- The items fit into a message, and it is parsed without an error. -/
def MessageParses (pf : Platform) (g : Globals) (id : TMessageId) (ws : List WireItem) : Prop :=
  (itemFormat.encodeAll ws).length < 2 ^ 32 ∧
    ∃ m g', (FromBytes pf (messageOf id ws)).exec g = some (.ok (m, ERR_SUCCESS), g')

/-- Parse a message, run it, and serialize the items of the reply. -/
def serve (pf : Platform) (env : Env ε) (buf : TBytes) : Prog Exn (World ε) (List TBytes) := do
  let (m, _) ← World.onGlobals (FromBytes pf buf)
  let reply ← RunMessage pf (daemonGo pf env) m
  let w ← get
  Prog.ofOption (reply.DataItems.mapM (TDataItem.AsBytes w.machine.Config true))

/-- The world after a message has been parsed and run. -/
def World.served (w : World ε) (g : Globals) (machine : Machine ε) : World ε :=
  { w with machine, AdcStreamingConnection := g.AdcStreamingConnection }

namespace BatchingLemmas

theorem flatten_bytes (ws : List WireItem) :
    (ws.map WireItem.bytes).flatten = itemFormat.encodeAll ws :=
  List.flatMap_def.symm

theorem FromBytes_messageOf {id : TMessageId} {ws : List WireItem}
    (hsize : (itemFormat.encodeAll ws).length < 2 ^ 32) {g g' : Globals} {m : TMessage} :
    (FromBytes pf (messageOf id ws)).exec g = some (.ok (m, ERR_SUCCESS), g') ↔
      isValidMessageID pf id = true ∧ ∃ items, Built pf g ws items g' ∧
        m = { Id := id, DataItems := items } := by
  have hflat := flatten_bytes ws
  rw [FromBytes_succeeds_iff]
  constructor
  · rintro ⟨ws', items, leftover, hreading, rfl⟩
    have hpayload : ((messageOf id ws).drop 5).take (payloadSize (messageOf id ws)) =
        itemFormat.encodeAll ws := by
      rw [← hflat]
      exact payload_frameBytes (hflat ▸ hsize)
    obtain rfl := AcceptanceLemmas.looseReading_items hreading hpayload
    exact ⟨hreading.header.id, items, hreading.built, rfl⟩
  · rintro ⟨hid, items, hbuilt, rfl⟩
    exact ⟨ws, items, 0, AcceptanceLemmas.looseReading_frameBytes hid hflat hsize hbuilt, rfl⟩

/-- A message that parses is run on the machine, and its reply is serialized with
the configuration that this leaves. -/
theorem serve_exec {buf : TBytes} {w : World ε} {m : TMessage} {code : TError} {g' : Globals}
    (h : (FromBytes pf buf).exec w.globals = some (.ok (m, code), g'))
    (hconfig : g'.Config = w.machine.Config) :
    (serve pf env buf).exec w = (goItems pf env m.DataItems w.machine).bind fun r =>
      ((replyItems 0 r.1).mapM (TDataItem.AsBytes r.2.Config true)).map fun items =>
        (.ok items, w.served g' r.2) := by
  have hworld : w.setGlobals g' =
      { w with AdcStreamingConnection := g'.AdcStreamingConnection } := by
    rw [World.setGlobals, hconfig]
  rw [serve, exec_bind, World.onGlobals, exec_zoom, h, Option.map_some, Option.bind_some, resume_ok,
    hworld, exec_bind, RunMessage_exec, mapM_daemonGo]
  cases goItems pf env m.DataItems w.machine with
  | none => rfl
  | some r =>
    simp only [Option.map_some, Option.bind_some, resume_ok, exec_pure, exec_bind, exec_get]
    show (Prog.ofOption ((replyItems 0 r.1).mapM _)).exec _ = _
    cases (replyItems 0 r.1).mapM (TDataItem.AsBytes r.2.Config true) <;> rfl

end BatchingLemmas

/-! ## 2. Reply items -/

/-- The reply to an item at position `k` of a message, and `n` positions further on:
a report shows its position. -/
inductive Renumbered (n k : Nat) : TBytes → TBytes → Prop
  | same {item : TBytes} : Renumbered n k item item
  | report {rest : TBytes} :
      Renumbered n k (itemBytes DataItemIds.SYS_ItemError (stuff16 (UInt16.ofNat (n + k)) ++ rest))
        (itemBytes DataItemIds.SYS_ItemError (stuff16 (UInt16.ofNat k) ++ rest))

/-- Pairwise the same reply items, from position `k` on. -/
inductive SameItems (same : Nat → TBytes → TBytes → Prop) :
    Nat → List TBytes → List TBytes → Prop
  | nil {k : Nat} : SameItems same k [] []
  | cons {k : Nat} {item item' : TBytes} {items items' : List TBytes} :
      same k item item' → SameItems same (k + 1) items items' →
      SameItems same k (item :: items) (item' :: items')

namespace BatchingLemmas

open ReplyLemmas

/-- Behind the index, a report does not depend on the position. -/
theorem report_tail (i j : UInt16) (did : DataItemIds) (errIndex info : UInt32) (what : TBytes)
    {ofs : Nat} (hofs : 2 ≤ ofs) :
    ReadU32LE (reportBytes i did errIndex info what) ofs =
      ReadU32LE (reportBytes j did errIndex info what) ofs := by
  have hget (k : Nat) (hk : 2 ≤ k) : (reportBytes i did errIndex info what)[k]? =
      (reportBytes j did errIndex info what)[k]? := by
    have hbehind (x : UInt16) (t : TBytes) : (stuff16 x ++ t)[k]? = t[k - 2]? :=
      List.getElem?_append_right hk
    rw [reportBytes_eq, reportBytes_eq, List.getElem?_take, List.getElem?_take, hbehind, hbehind]
  rw [ReadU32LE, ReadU32LE, readU32, readU32, hget ofs hofs, hget _ (by omega), hget _ (by omega),
    hget _ (by omega)]

theorem report_code (i j : UInt16) (did : DataItemIds) (errIndex info : UInt32) (what : TBytes) :
    (TSYS_ItemError.ctor (reportBytes i did errIndex info what)).ErrorCode =
      (TSYS_ItemError.ctor (reportBytes j did errIndex info what)).ErrorCode := by
  simp only [TSYS_ItemError.ctor]
  exact report_tail i j did errIndex info what (by decide)

theorem report_info (i j : UInt16) (did : DataItemIds) (errIndex info : UInt32) (what : TBytes) :
    (TSYS_ItemError.ctor (reportBytes i did errIndex info what)).Info =
      (TSYS_ItemError.ctor (reportBytes j did errIndex info what)).Info := by
  simp only [TSYS_ItemError.ctor]
  exact report_tail i j did errIndex info what (by decide)

/-- A failed item is reported in the same way wherever it stands. -/
theorem replyItem_renumbered (n k : Nat) (q : GoResult) (c : TConfig) :
    Option.Rel (Renumbered n k) ((replyItem (n + k) q).AsBytes c true)
      ((replyItem k q).AsBytes c true) := by
  have hrefl (item : TDataItem) :
      Option.Rel (Renumbered n k) (item.AsBytes c true) (item.AsBytes c true) := by
    cases item.AsBytes c true with
    | none => exact .none
    | some bytes => exact .some .same
  rw [replyItem, replyItem]
  cases failure q with
  | none => exact hrefl q.2
  | some p =>
    obtain ⟨errIndex, info, what⟩ := p
    dsimp only
    rw [itemError_eq, itemError_eq]
    split
    case isFalse => exact hrefl q.2
    case isTrue =>
      refine .some ?_
      simp only [Option.getD_some, TSYS_ItemError.calcPayload, report_index, report_id]
      rw [report_code _ (UInt16.ofNat k), report_info _ (UInt16.ofNat k)]
      simp only [List.append_assoc]
      split
      · exact .report
      · exact .same

theorem replyItems_cons (i : Nat) (q : GoResult) (qs : List GoResult) :
    replyItems i (q :: qs) = replyItem i q :: replyItems (i + 1) qs := by
  rw [replyItems, List.zipIdx_cons, List.map_cons]
  rfl

theorem replyItems_append (i : Nat) (qs qs' : List GoResult) :
    replyItems i (qs ++ qs') = replyItems i qs ++ replyItems (i + qs.length) qs' := by
  rw [replyItems, List.zipIdx_append, List.map_append]
  rfl

theorem replies_renumbered (n k : Nat) (qs : List GoResult) (c : TConfig) :
    Option.Rel (SameItems (Renumbered n) k)
      ((replyItems (n + k) qs).mapM (TDataItem.AsBytes c true))
      ((replyItems k qs).mapM (TDataItem.AsBytes c true)) := by
  induction qs generalizing k with
  | nil => exact .some .nil
  | cons q qs ih =>
    rw [replyItems_cons, replyItems_cons, List.mapM_cons, List.mapM_cons]
    have hhead := replyItem_renumbered n k q c
    have htail := ih (k + 1)
    rw [← Nat.add_assoc] at htail
    revert hhead htail
    generalize (replyItem (n + k) q).AsBytes c true = a
    generalize (replyItem k q).AsBytes c true = a'
    generalize (replyItems (n + k + 1) qs).mapM (TDataItem.AsBytes c true) = as
    generalize (replyItems (k + 1) qs).mapM (TDataItem.AsBytes c true) = as'
    rintro (hhead | _) (htail | _)
    · exact .some (.cons hhead htail)
    all_goals exact .none

/-- An item of the reply shows no cell that the item of the request does not. -/
theorem replyItem_reports_subset (i : Nat) (q : GoResult) :
    (replyItem i q).params.reports ⊆ q.2.params.reports := by
  rw [replyItem]
  cases failure q with
  | none => exact List.Subset.refl _
  | some p =>
    dsimp only
    rw [itemError_eq]
    split
    · exact List.nil_subset _
    · exact List.Subset.refl _

/-- Two configurations that agree on what the items show give the same reply. -/
theorem replies_agree {c c' : TConfig} {qs : List GoResult}
    (h : ∀ q ∈ qs, ∀ cell ∈ q.2.params.reports, c.at cell = c'.at cell) (i : Nat) :
    (replyItems i qs).mapM (TDataItem.AsBytes c true) =
      (replyItems i qs).mapM (TDataItem.AsBytes c' true) := by
  induction qs generalizing i with
  | nil => rfl
  | cons q qs ih =>
    obtain ⟨hhead, htail⟩ := List.forall_mem_cons.mp h
    have hpayload := calcPayload_agree true fun cell hcell =>
      hhead cell (replyItem_reports_subset i q hcell)
    rw [replyItems_cons, List.mapM_cons, List.mapM_cons, ih htail, TDataItem.AsBytes, hpayload]
    rfl

end BatchingLemmas

open BatchingLemmas

/-! ## 3. The law -/

/-- No item of `ys` is parsed with a setting that an item of `xs` may change, and no
item of `xs` shows a text that an item of `ys` may change. -/
structure Independent (pf : Platform) (g : Globals) (xs ys : List WireItem) : Prop where
  parse : ∀ items g', Built pf g xs items g' →
    ∀ x ∈ items, ∀ cell ∈ x.writes, ∀ y ∈ ys, cell ∉ y.reads
  reply : ∀ items g', Built pf g (xs ++ ys) items g' →
    ∀ x ∈ items.take xs.length, ∀ cell ∈ x.params.reports,
      ∀ y ∈ items.drop xs.length, cell ∉ y.writes

/-- The long message ends as the short ones do, and answers what they answer. -/
inductive Joins (same : Nat → TBytes → TBytes → Prop) :
    Except Exn (List TBytes) × World ε → Except Exn (List TBytes × List TBytes) × World ε → Prop
  | intro {xs ys zs : List TBytes} {w : World ε} :
      SameItems same 0 zs ys → Joins same (.ok (xs ++ zs), w) (.ok (xs, ys), w)

/-- One message of `xs` and `ys` has the outcome of a message of `xs` followed by a
message of `ys`, or all is undefined in both. -/
def BatchingLaw (pf : Platform) (env : Env ε) (same : Nat → TBytes → TBytes → Prop)
    (w : World ε) (id : TMessageId) (xs ys : List WireItem) : Prop :=
  MessageParses pf w.globals id xs → MessageParses pf w.globals id ys →
    MessageParses pf w.globals id (xs ++ ys) →
      Option.Rel (Joins same) ((serve pf env (messageOf id (xs ++ ys))).exec w)
        ((do return (← serve pf env (messageOf id xs), ← serve pf env (messageOf id ys))).exec w)

namespace BatchingLemmas

theorem built_length {g g' : Globals} {ws : List WireItem} {items : List TDataItem}
    (h : Built pf g ws items g') : items.length = ws.length := by
  induction h with
  | nil => rfl
  | cons _ _ ih => rw [List.length_cons, List.length_cons, ih]

theorem goItems_length {items : List TDataItem} {m m' : Machine ε} {qs : List GoResult}
    (h : goItems pf env items m = some (qs, m')) : qs.length = items.length := by
  induction items generalizing m qs with
  | nil =>
    cases h
    rfl
  | cons item items ih =>
    obtain ⟨⟨q, m₁⟩, -, h⟩ := Option.bind_eq_some_iff.mp h
    obtain ⟨⟨qs', m₂⟩, hqs, hr⟩ := Option.map_eq_some_iff.mp h
    cases hr
    rw [List.length_cons, List.length_cons, ih hqs]

theorem goItems_reports {items : List TDataItem} {m m' : Machine ε} {qs : List GoResult}
    (h : goItems pf env items m = some (qs, m')) :
    ∀ q ∈ qs, ∃ item ∈ items, q.2.params.reports ⊆ item.params.reports := by
  induction items generalizing m qs with
  | nil =>
    cases h
    exact fun q hq => absurd hq List.not_mem_nil
  | cons item items ih =>
    obtain ⟨⟨q, m₁⟩, hhead, h⟩ := Option.bind_eq_some_iff.mp h
    obtain ⟨⟨qs', m₂⟩, hqs, hr⟩ := Option.map_eq_some_iff.mp h
    cases hr
    refine List.forall_mem_cons.mpr ⟨⟨item, List.mem_cons_self, goItem_reports hhead⟩, ?_⟩
    intro r hr
    obtain ⟨item', hmem, hsub⟩ := ih hqs r hr
    exact ⟨item', List.mem_cons_of_mem _ hmem, hsub⟩

end BatchingLemmas

/-- The law, for independent items and up to the index in reports. -/
theorem batching_law {w : World ε} {xs ys : List WireItem}
    (h : Independent pf w.globals xs ys) (id : TMessageId) :
    BatchingLaw pf env (Renumbered xs.length) w id xs ys := by
  rintro ⟨hsizex, -⟩ ⟨hsizey, -⟩ ⟨hsize, m, g₂, hparse⟩
  obtain ⟨hid, items, hbuilt, rfl⟩ := (FromBytes_messageOf hsize).mp hparse
  obtain ⟨xitems, yitems, g₁, rfl, hx, hy⟩ := hbuilt.append_inv
  have hparsex := (FromBytes_messageOf hsizex).mpr ⟨hid, xitems, hx, rfl⟩
  rw [serve_exec hparse hbuilt.config, goItems_append, exec_bind, serve_exec hparsex hx.config]
  cases hgx : goItems pf env xitems w.machine with
  | none => exact .none
  | some r =>
    obtain ⟨qx, m₁⟩ := r
    -- the message of `ys` is parsed to the same items after `xs` has been run
    have hlater : Built pf (w.served g₁ m₁).globals ys yitems (g₂.withConfig m₁.Config) := by
      refine hy.agree fun y hmem cell hcell => ?_
      rw [hx.config]
      exact goItems_keeps hgx fun x hitem hwrites =>
        h.parse _ _ hx x hitem cell hwrites y hmem hcell
    have hparsey := (FromBytes_messageOf hsizey).mpr ⟨hid, yitems, hlater, rfl⟩
    have hservey : (serve pf env (messageOf id ys)).exec (w.served g₁ m₁) =
        (goItems pf env yitems m₁).bind fun r =>
          ((replyItems 0 r.1).mapM (TDataItem.AsBytes r.2.Config true)).map fun items =>
            (.ok items, w.served g₂ r.2) := serve_exec hparsey rfl
    cases hgy : goItems pf env yitems m₁ with
    | none =>
      rw [hgy] at hservey
      simp only [Option.bind_some, hgy, Option.map_none, Option.bind_none]
      cases (replyItems 0 qx).mapM (TDataItem.AsBytes m₁.Config true) with
      | none => exact .none
      | some rx =>
        simp only [Option.map_some, Option.bind_some, resume_ok, exec_bind, hservey]
        exact .none
    | some r =>
      obtain ⟨qy, m₂⟩ := r
      rw [hgy] at hservey
      have hlen : qx.length = xs.length := (goItems_length hgx).trans (built_length hx)
      -- the items of `ys` leave alone what the reply to `xs` shows
      have hreplyx : (replyItems 0 qx).mapM (TDataItem.AsBytes m₁.Config true) =
          (replyItems 0 qx).mapM (TDataItem.AsBytes m₂.Config true) := by
        refine replies_agree (fun q hq cell hcell => goItems_keeps hgy fun y hy hwrites => ?_) 0
        obtain ⟨x, hmem, hsub⟩ := goItems_reports hgx q hq
        have hsplit := built_length hx
        refine h.reply _ _ hbuilt x ?_ cell (hsub hcell) y ?_ hwrites
        · rwa [← hsplit, List.take_left]
        · rwa [← hsplit, List.drop_left]
      have hreplyy := replies_renumbered xs.length 0 qy m₂.Config
      simp only [Option.bind_some, hgy, Option.map_some, hreplyx]
      rw [replyItems_append, List.mapM_append, Nat.zero_add, hlen]
      cases (replyItems 0 qx).mapM (TDataItem.AsBytes m₂.Config true) with
      | none => exact .none
      | some rx =>
        simp only [Option.map_some, Option.bind_some, resume_ok, exec_bind, hservey]
        revert hreplyy
        generalize (replyItems (xs.length + 0) qy).mapM (TDataItem.AsBytes m₂.Config true) = a
        generalize (replyItems 0 qy).mapM (TDataItem.AsBytes m₂.Config true) = b
        rintro (hsame | _)
        · exact .some (.intro hsame)
        · exact .none

/-! ## 4. Concrete items -/

/-- `BRD_Reset`, which is not implemented. -/
def exReset : WireItem := ⟨DataItemIds.BRD_Reset, [], by decide⟩

/-- Set the scale of DAC 0 to zero. -/
def exSetScale : WireItem := ⟨DataItemIds.DAC_Scale1, [0, 0, 0, 0, 0], by decide⟩

/-- Put 0x1234 counts out on a DAC. -/
def exPutCounts (ch : UInt8) : WireItem := ⟨DataItemIds.DAC_Output1, [ch, 0x34, 0x12], by simp⟩

def exGetModel : WireItem := ⟨DataItemIds.BRD_GetModel, [], by decide⟩

/-- Set the model to twelve letters. -/
def exSetModel : WireItem := ⟨DataItemIds.BRD_Model, List.replicate 12 0x41, by decide⟩

namespace BatchingLemmas

/-- The reply and the register writes of an outcome. -/
def seen {α : Type} (items : α → List TBytes) (r : Option (Except Exn α × World ε)) :
    Option (Option (List TBytes) × List SysCall) :=
  r.map fun r => (r.1.toOption.map items, r.2.machine.sys.registerWrites)

theorem sameItems_eq {k : Nat} {zs ys : List TBytes} (h : SameItems (fun _ => Eq) k zs ys) :
    zs = ys := by
  induction h with
  | nil => rfl
  | cons hitem _ ih => rw [hitem, ih]

theorem seen_of_joins {r : Option (Except Exn (List TBytes) × World ε)}
    {r' : Option (Except Exn (List TBytes × List TBytes) × World ε)}
    (h : Option.Rel (Joins fun _ => Eq) r r') : seen id r = seen (fun p => p.1 ++ p.2) r' := by
  cases h with
  | none => rfl
  | some hjoins =>
    cases hjoins with
    | intro hsame =>
      rw [sameItems_eq hsame]
      rfl

theorem messageParses_of {g : Globals} {id : TMessageId} {ws : List WireItem}
    (hsize : (itemFormat.encodeAll ws).length < 2 ^ 32)
    (h : ((FromBytes pf (messageOf id ws)).exec g).map (fun r => r.1.toOption.map Prod.snd) =
      some (some ERR_SUCCESS)) : MessageParses pf g id ws := by
  obtain ⟨⟨r, g'⟩, hrun, hcode⟩ := Option.map_eq_some_iff.mp h
  cases r with
  | error x => cases hcode
  | ok p =>
    obtain ⟨m, code⟩ := p
    obtain rfl : code = ERR_SUCCESS := Option.some.inj hcode
    exact ⟨hsize, m, g', hrun⟩

end BatchingLemmas

/-- The law holds for settings and outputs of different channels. -/
theorem batching_law_channels :
    Option.Rel (Joins (Renumbered 1))
      ((serve exPlatform exEnv (messageOf 0x43 [exSetScale, exPutCounts 1])).exec (exWorld []))
      ((do return (← serve exPlatform exEnv (messageOf 0x43 [exSetScale]),
        ← serve exPlatform exEnv (messageOf 0x43 [exPutCounts 1]))).exec (exWorld [])) := by
  have hscale {g g' : Globals} {item : TDataItem} (h : exSetScale.Builds exPlatform g item g') :
      item = { params := .TDataItemRaw, Data := exSetScale.data, rawBytes := exSetScale.data,
               DId := exSetScale.DId } := by
    obtain ⟨body, id⟩ := item
    obtain ⟨⟨e, he, -, hrun⟩, rfl⟩ := h
    cases he
    cases hrun
    rfl
  have hind : Independent exPlatform (exWorld []).globals [exSetScale] [exPutCounts 1] := by
    constructor
    · rintro items g' (_ | ⟨hw, _ | _⟩) x hx
      obtain rfl := List.mem_singleton.mp hx
      rw [hscale hw]
      decide
    · rintro items g' (_ | ⟨hw, hrest⟩) x hx cell hcell
      obtain rfl := List.mem_singleton.mp hx
      rw [hscale hw] at hcell
      cases hcell
  exact batching_law hind 0x43 (messageParses_of (by decide) (by decide +kernel))
    (messageParses_of (by decide) (by decide +kernel))
    (messageParses_of (by decide) (by decide +kernel))

/-- The law needs what it says: an index in a report, an output that is parsed before
its setting is changed, and a text that is changed before it is sent. -/
theorem batching_law_fails :
    ¬BatchingLaw exPlatform exEnv (fun _ => Eq) (exWorld []) 0x43 [exReset] [exReset] ∧
      ¬BatchingLaw exPlatform exEnv (fun _ => Eq) (exWorld []) 0x43 [exSetScale] [exPutCounts 0] ∧
      ¬BatchingLaw exPlatform exEnv (fun _ => Eq) (exWorld []) 0x43 [exGetModel] [exSetModel] := by
  refine ⟨fun h => ?_, fun h => ?_, fun h => ?_⟩
  all_goals
    have hrel := h (messageParses_of (by decide) (by decide +kernel))
      (messageParses_of (by decide) (by decide +kernel))
      (messageParses_of (by decide) (by decide +kernel))
    exact absurd (seen_of_joins hrel) (by decide +kernel)

end EnetTcp
