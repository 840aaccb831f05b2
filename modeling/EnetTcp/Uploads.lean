import EnetTcp.Acceptance
import EnetTcp.Lib.Streams
import EnetTcp.Timing

/-!
# Uploads (SYS_.cpp, UploadFilesByDataItem)

All clients share one output stream. `SYS_UploadFileName` opens a file with it,
`SYS_UploadFileData` writes to whatever file it has open, and an empty one closes it.

* `Uploading.produce`, `Uploading.consume`: what a step of the threads does to the files.
* `uploads_whole_iff`: of two uploads both files are whole when the items of the queue come
  in turn.
-/

namespace EnetTcp

open Bytes Pipeline Prog

variable {ε φ : Type} {pf : Platform} {env : Env ε} [DecidableEq φ] {fileOf : TBytes → φ}

/-! ## 1. Uploads on the wire -/

/-- What an item that is part of an upload asks of the stream. -/
inductive UploadItem (pf : Platform) : WireItem → StreamOp TBytes UInt8 → Prop
  /-- The path that the client sends is accepted as `path`. -/
  | name {w : WireItem} {path : TBytes} :
      w.DId = DataItemIds.SYS_UploadFileName → w.data.length ≤ 255 →
      (sanitizePath pf.currentPath w.data : Prog Exn Globals (Option TBytes)) =
        pure (some path) →
      UploadItem pf w (.opens path)
  | data {w : WireItem} :
      w.DId = DataItemIds.SYS_UploadFileData → w.data.length ≤ 65534 → w.data ≠ [] →
      UploadItem pf w (.writes w.data)
  | last {w : WireItem} :
      w.DId = DataItemIds.SYS_UploadFileData → w.data = [] → UploadItem pf w .closes

/-- A request whose items are all parts of uploads. -/
structure UploadRequest (pf : Platform) where
  frame : Frame
  items : List WireItem
  ops : List (StreamOp TBytes UInt8)
  request : isRequest frame.MId = true
  payload : frame.payload = itemFormat.encodeAll items
  sum : calculateChecksum frame.bytes = 0
  uploads : List.Forall₂ (UploadItem pf) items ops

def uploadDataItem (data : TBytes) : TDataItem where
  params := .TSYS_UploadFileData
  Data := data
  DId := DataItemIds.SYS_UploadFileData

/-- The item that the factory makes. -/
def uploadItem : StreamOp TBytes UInt8 → TDataItem
  | .opens path =>
    { params := .TSYS_UploadFileName, Data := path, DId := DataItemIds.SYS_UploadFileName }
  | .writes data => uploadDataItem data
  | .closes => uploadDataItem []

namespace UploadLemmas

theorem not_writes_nil {w : WireItem} {op : StreamOp TBytes UInt8} (h : UploadItem pf w op) :
    op ≠ .writes [] := by
  cases h with
  | name | last => exact fun h => by cases h
  | data _ _ hne => exact fun h => hne (StreamOp.writes.inj h)

theorem proper_of_uploads {ws : List WireItem} {ops : List (StreamOp TBytes UInt8)}
    (h : List.Forall₂ (UploadItem pf) ws ops) : ∀ op ∈ ops, op ≠ .writes [] := by
  induction h with
  | nil => exact fun op hop => absurd hop List.not_mem_nil
  | cons hitem _ ih => exact List.forall_mem_cons.mpr ⟨not_writes_nil hitem, ih⟩

theorem entry_uploadFileName : ∃ e, DIdDict.find DataItemIds.SYS_UploadFileName = some e ∧
    e.Construct = .TSYS_UploadFileName ∧ e.minLen = 1 ∧ e.maxLen = 255 := ⟨_, rfl, rfl, rfl, rfl⟩

theorem entry_uploadFileData : ∃ e, DIdDict.find DataItemIds.SYS_UploadFileData = some e ∧
    e.Construct = .TSYS_UploadFileData ∧ e.minLen = 1 ∧ e.maxLen = 65534 := ⟨_, rfl, rfl, rfl, rfl⟩

theorem builds_upload {w : WireItem} {op : StreamOp TBytes UInt8} (h : UploadItem pf w op)
    (g : Globals) : w.Builds pf g (uploadItem op) g := by
  cases h with
  | name hid hlen hpath =>
    obtain ⟨e, he, hcls, hmin, hmax⟩ := entry_uploadFileName
    have hne : w.data ≠ [] := by
      intro hnil
      rw [hnil] at hpath
      have hrun := congrArg (fun p => p.exec g) hpath
      cases hrun
    have hpos := List.length_pos_iff.mpr hne
    refine ⟨⟨e, hid ▸ he, .inr ⟨by omega, by omega⟩, ?_⟩, hid.symm⟩
    rw [hcls]
    show ((TSYS_UploadFileName.ctor pf w.data >>= fun Data =>
      return { params := .TSYS_UploadFileName, Data } : Prog Exn Globals TItemBody)).exec g = _
    rw [exec_bind, TSYS_UploadFileName.ctor, hpath]
    rfl
  | data hid hlen hne =>
    obtain ⟨e, he, hcls, hmin, hmax⟩ := entry_uploadFileData
    have hpos := List.length_pos_iff.mpr hne
    refine ⟨⟨e, hid ▸ he, .inr ⟨by omega, by omega⟩, ?_⟩, hid.symm⟩
    rw [hcls]
    rfl
  | last hid hnil =>
    obtain ⟨e, he, hcls, -, -⟩ := entry_uploadFileData
    refine ⟨⟨e, hid ▸ he, .inl hnil, ?_⟩, hid.symm⟩
    rw [hcls, hnil]
    rfl

theorem built_uploads {ws : List WireItem} {ops : List (StreamOp TBytes UInt8)}
    (h : List.Forall₂ (UploadItem pf) ws ops) (g : Globals) :
    Built pf g ws (ops.map uploadItem) g := by
  induction h with
  | nil => exact .nil
  | cons hitem _ ih => exact .cons (builds_upload hitem g) ih

theorem isValid_of_isRequest {mid : TMessageId} (h : isRequest mid = true) :
    isValidMessageID pf mid = true := by
  refine isValidMessageID_of_mem ?_
  simp only [isRequest, Bool.or_eq_true, beq_iff_eq] at h
  rcases h with (rfl | rfl) | rfl <;> decide

/-- The message that a receiver makes of the request. -/
theorem gotMessage_upload (r : UploadRequest pf) (g : Globals) :
    (GotMessage pf r.frame.bytes).exec g =
      some (.ok { Id := r.frame.MId, DataItems := r.ops.map uploadItem }, g) := by
  have hreading : LooseReading pf g r.frame.bytes r.items (r.ops.map uploadItem) g 0 :=
    { header := (headerOk_frame _).mpr (isValid_of_isRequest r.request)
      payload := ⟨[r.frame.checksum], by rw [r.frame.drop_bytes, r.payload]⟩
      size := by rw [r.frame.payloadSize_bytes, r.payload, Nat.add_zero]
      leftover_lt := by decide
      built := built_uploads r.uploads g
      sum := r.sum }
  have hparse := FromBytes_succeeds_iff.mpr ⟨_, _, 0, hreading, rfl⟩
  rw [GotMessage, exec_bind, exec_attempt, hparse]
  rfl

end UploadLemmas

/-! ## 2. The shared stream -/

/-- The calls of the shared stream. The daemon makes no other calls on uploaded files: that of
the update is none that a client can name. -/
def SysCall.streamOp : SysCall → Option (StreamOp TBytes UInt8)
  | .ofstream_open path => some (.opens path)
  | .ofstream_write bytes => some (.writes bytes)
  | .ofstream_close => some .closes
  | _ => none

/-- The files after all calls made so far. `d` is what was there before them. -/
def Machine.files (fileOf : TBytes → φ) (d : Files φ UInt8) (m : Machine ε) : Files φ UInt8 :=
  d.run fileOf (m.sys.calls.filterMap SysCall.streamOp)

/-- Every operation on the stream succeeds. -/
structure StreamWorks (env : Env ε) : Prop where
  opens : ∀ path e, (env.answer (.ofstream_open path) e).1 = true
  writes : ∀ bytes e, (env.answer (.ofstream_write bytes) e).1 = true
  closes : ∀ e, (env.answer .ofstream_close e).1 = true

/-- No operation on the stream has failed: it is open when a file has been opened last. -/
structure StreamOk (fileOf : TBytes → φ) (d : Files φ UInt8) (m : Machine ε) : Prop where
  fail : m.upload.fail = false
  is_open : m.upload.is_open = (m.files fileOf d).current.isSome

/-- The machine after one call. -/
def Machine.called (env : Env ε) (c : SysCall) (m : Machine ε) : Machine ε :=
  { m with sys := { env := (env.answer c m.sys.env).2, calls := m.sys.calls ++ [c] } }

namespace UploadLemmas

variable {d : Files φ UInt8}

theorem files_called {c : SysCall} {op : StreamOp TBytes UInt8} (h : c.streamOp = some op)
    (d : Files φ UInt8) (m : Machine ε) :
    (m.called env c).files fileOf d = (m.files fileOf d).step fileOf op := by
  show d.run fileOf (List.filterMap SysCall.streamOp (m.sys.calls ++ [c])) = _
  rw [List.filterMap_append, Files.run_append, List.filterMap_cons_some h, List.filterMap_nil]
  rfl

theorem ofsClose_exec (fileOf : TBytes → φ) (d : Files φ UInt8) (h : StreamWorks env)
    (m : Machine ε) : ∃ m',
    (ofsClose env).exec m = some (.ok (), m') ∧ m'.upload = { m.upload with is_open := false } ∧
      m'.files fileOf d = (m.files fileOf d).step fileOf .closes ∧ m'.done = m.done := by
  refine ⟨_, rfl, ?_, files_called rfl d m, rfl⟩
  simp only [h.closes, Bool.not_true, Bool.or_false]

theorem ofsOpen_exec (fileOf : TBytes → φ) (d : Files φ UInt8) (h : StreamWorks env)
    (path : TBytes) (m : Machine ε) : ∃ m',
    (ofsOpen env path).exec m = some (.ok (), m') ∧
      m'.upload = { m.upload with is_open := true, fail := false } ∧
      m'.files fileOf d = (m.files fileOf d).step fileOf (.opens path) ∧ m'.done = m.done := by
  refine ⟨_, rfl, ?_, files_called rfl d m, rfl⟩
  simp only [h.opens, Bool.not_true]

theorem ofsWrite_exec (fileOf : TBytes → φ) (d : Files φ UInt8) (h : StreamWorks env)
    (data : TBytes) {m : Machine ε}
    (hfail : m.upload.fail = false) : ∃ m',
    (ofsWrite env data).exec m = some (.ok (), m') ∧
      m'.upload = { m.upload with fail := false } ∧
      m'.files fileOf d = (m.files fileOf d).step fileOf (.writes data) ∧ m'.done = m.done := by
  rw [ofsWrite, exec_get_bind, hfail, Bool.not_false, if_pos rfl]
  refine ⟨_, rfl, ?_, files_called rfl d m, rfl⟩
  simp only [h.writes, Bool.not_true]

theorem throwIfFailed_exec (what : String) {m : Machine ε} (hfail : m.upload.fail = false) :
    (throwIfFailed what).exec m = some (.ok (), m) := by
  rw [throwIfFailed, exec_get_bind, hfail, if_neg Bool.false_ne_true]
  rfl

/-- How an item ends, in either branch of `UploadFilesByDataItem`. -/
theorem goItem_name (path : TBytes) (m : Machine ε) :
    goItem pf env (uploadItem (.opens path)) m =
      ((uploadFileName env path).exec m).map fun q =>
        ((.ok (), uploadItem (.opens path)), q.2) := by
  have hgo : goItem pf env (uploadItem (.opens path)) m =
      ((TSYS_UploadFileName.Go env path).exec m).map fun q =>
        ((q.1, uploadItem (.opens path)), q.2) := by
    show Option.map _ (Option.map _ _) = _
    rw [Option.map_map]
    rfl
  rw [hgo, TSYS_UploadFileName.Go, exec_bind, exec_attempt]
  cases (uploadFileName env path).exec m <;> rfl

theorem goItem_data (data : TBytes) (m : Machine ε) :
    goItem pf env (uploadDataItem data) m =
      ((uploadFileData env data).exec m).map fun q => ((.ok (), uploadDataItem data), q.2) := by
  have hgo : goItem pf env (uploadDataItem data) m =
      ((TSYS_UploadFileData.Go env data).exec m).map fun q =>
        ((q.1, uploadDataItem data), q.2) := by
    show Option.map _ (Option.map _ _) = _
    rw [Option.map_map]
    rfl
  rw [hgo, TSYS_UploadFileData.Go, exec_bind, exec_attempt]
  cases (uploadFileData env data).exec m <;> rfl

end UploadLemmas

open UploadLemmas

/-- The machine has done what was asked of the stream. -/
structure Follows (fileOf : TBytes → φ) (d : Files φ UInt8) (op : StreamOp TBytes UInt8)
    (m m' : Machine ε) : Prop where
  ok : StreamOk fileOf d m'
  files : m'.files fileOf d = (m.files fileOf d).step fileOf op
  done : m'.done = m.done

namespace UploadLemmas

variable {d : Files φ UInt8}

theorem open_follows (fileOf : TBytes → φ) (d : Files φ UInt8) (h : StreamWorks env)
    (path : TBytes) (m : Machine ε) : ∃ m', ((do
        modify fun m => { m with upload := { m.upload with filename := path } }
        ofsOpen env path
        throwIfFailed "File Upload process cannot open file ") : Prog Exn (Machine ε) Unit).exec m =
          some (.ok (), m') ∧ Follows fileOf d (.opens path) m m' := by
  let named : Machine ε := { m with upload := { m.upload with filename := path } }
  obtain ⟨m', hrun, hupload, hfiles, hdone⟩ := ofsOpen_exec fileOf d h path named
  have hfail' : m'.upload.fail = false := by rw [hupload]
  rw [exec_bind, exec_modify, Option.bind_some, resume_ok, exec_bind_ok hrun,
    throwIfFailed_exec _ hfail']
  refine ⟨m', rfl, ⟨hfail', ?_⟩, hfiles, hdone⟩
  rw [hupload, hfiles]
  rfl

theorem name_follows (h : StreamWorks env) {m : Machine ε} (hok : StreamOk fileOf d m)
    (path : TBytes) : ∃ m', (uploadFileName env path).exec m = some (.ok (), m') ∧
      Follows fileOf d (.opens path) m m' := by
  rw [uploadFileName, exec_get_bind]
  by_cases hopen : m.upload.is_open = true
  · obtain ⟨m₁, hclose, hupload, hfiles, hdone⟩ := ofsClose_exec fileOf d h m
    have hfail : m₁.upload.fail = false := by rw [hupload]; exact hok.fail
    obtain ⟨m', hrun, hfollows⟩ := open_follows fileOf d h path m₁
    rw [if_pos hopen, exec_bind_ok hclose, exec_bind_ok (throwIfFailed_exec _ hfail)]
    refine ⟨m', hrun, hfollows.ok, hfollows.files.trans ?_, hfollows.done.trans hdone⟩
    -- opening a file does not depend on what was open before
    rw [hfiles]
    rfl
  · rw [if_neg hopen]
    exact open_follows fileOf d h path m

theorem write_follows (h : StreamWorks env) {m : Machine ε} (hok : StreamOk fileOf d m)
    {data : TBytes} (hdata : data ≠ []) : ∃ r m', (uploadFileData env data).exec m = some (r, m') ∧
      Follows fileOf d (.writes data) m m' := by
  have hempty : data.isEmpty = false := List.isEmpty_eq_false_iff.mpr hdata
  rw [uploadFileData, exec_get_bind]
  cases hcurrent : (m.files fileOf d).current with
  | none =>
    have hclosed : m.upload.is_open = false := by rw [hok.is_open, hcurrent]; rfl
    rw [hclosed, Bool.not_false, if_pos rfl]
    refine ⟨_, m, rfl, hok, ?_, rfl⟩
    simp only [Files.step, hcurrent]
  | some f =>
    have hopen : m.upload.is_open = true := by rw [hok.is_open, hcurrent]; rfl
    obtain ⟨m', hwrite, hupload, hfiles, hdone⟩ :=
      ofsWrite_exec fileOf d h data hok.fail
    have hfail : m'.upload.fail = false := by rw [hupload]
    rw [hopen, Bool.not_true, if_neg Bool.false_ne_true, hempty, if_neg Bool.false_ne_true,
      exec_bind_ok hwrite, throwIfFailed_exec _ hfail]
    refine ⟨_, m', rfl, ⟨hfail, ?_⟩, hfiles, hdone⟩
    simp only [hupload, hfiles, hopen, Files.step, hcurrent, Option.isSome_some]

theorem close_follows (h : StreamWorks env) {m : Machine ε} (hok : StreamOk fileOf d m) :
    ∃ r m', (uploadFileData env []).exec m = some (r, m') ∧ Follows fileOf d .closes m m' := by
  rw [uploadFileData, exec_get_bind]
  cases hcurrent : (m.files fileOf d).current with
  | none =>
    have hclosed : m.upload.is_open = false := by rw [hok.is_open, hcurrent]; rfl
    rw [hclosed, Bool.not_false, if_pos rfl]
    refine ⟨_, m, rfl, hok, ?_, rfl⟩
    rw [Files.step, ← hcurrent]
  | some f =>
    have hopen : m.upload.is_open = true := by rw [hok.is_open, hcurrent]; rfl
    obtain ⟨m', hclose, hupload, hfiles, hdone⟩ := ofsClose_exec fileOf d h m
    have hfail : m'.upload.fail = false := by rw [hupload]; exact hok.fail
    have hshut : m'.upload.is_open = (m'.files fileOf d).current.isSome := by
      rw [hupload, hfiles]
      rfl
    rw [hopen, Bool.not_true, if_neg Bool.false_ne_true, List.isEmpty_nil, if_pos rfl,
      exec_bind_ok hclose, exec_bind_ok (throwIfFailed_exec _ hfail), exec_get_bind]
    by_cases hupdate : m'.upload.filename = updateFileName
    · -- the update is one more call, and none of the stream
      have hupdated : (m'.called env (.runUpdate updateFileName)).files fileOf d =
          m'.files fileOf d := by
        show d.run fileOf (List.filterMap SysCall.streamOp (m'.sys.calls ++ [_])) = _
        rw [List.filterMap_append]
        exact congrArg (d.run fileOf) (List.append_nil _)
      rw [if_pos hupdate]
      refine ⟨_, _, rfl, ⟨hfail, ?_⟩, hupdated.trans hfiles, hdone⟩
      rw [← hupdated] at hshut
      exact hshut
    · rw [if_neg hupdate]
      exact ⟨_, m', rfl, ⟨hfail, hshut⟩, hfiles, hdone⟩

/-- One item of an upload. -/
theorem goItem_follows (pf : Platform) (h : StreamWorks env) {m : Machine ε}
    (hok : StreamOk fileOf d m) {op : StreamOp TBytes UInt8} (hop : op ≠ .writes []) : ∃ m',
    goItem pf env (uploadItem op) m = some ((.ok (), uploadItem op), m') ∧
      Follows fileOf d op m m' := by
  cases op with
  | opens path =>
    obtain ⟨m', hrun, hfollows⟩ := name_follows h hok path
    exact ⟨m', by rw [goItem_name, hrun]; rfl, hfollows⟩
  | writes data =>
    have hdata : data ≠ [] := fun hnil => hop (congrArg StreamOp.writes hnil)
    obtain ⟨r, m', hrun, hfollows⟩ := write_follows h hok hdata
    exact ⟨m', by rw [uploadItem, goItem_data, hrun]; rfl, hfollows⟩
  | closes =>
    obtain ⟨r, m', hrun, hfollows⟩ := close_follows h hok
    exact ⟨m', by rw [uploadItem, goItem_data, hrun]; rfl, hfollows⟩

theorem goItems_follow (pf : Platform) (h : StreamWorks env) {ops : List (StreamOp TBytes UInt8)}
    (hops : ∀ op ∈ ops, op ≠ .writes []) {m : Machine ε} (hok : StreamOk fileOf d m) : ∃ m',
    goItems pf env (ops.map uploadItem) m = some (ops.map fun op => (.ok (), uploadItem op), m') ∧
      StreamOk fileOf d m' ∧ m'.files fileOf d = (m.files fileOf d).run fileOf ops ∧
      m'.done = m.done := by
  induction ops generalizing m with
  | nil => exact ⟨m, rfl, hok, rfl, rfl⟩
  | cons op ops ih =>
    obtain ⟨hop, hrest⟩ := List.forall_mem_cons.mp hops
    obtain ⟨m₁, hrun₁, hok₁, hfiles₁, hdone₁⟩ := goItem_follows pf h hok hop
    obtain ⟨m', hrun, hok', hfiles, hdone⟩ := ih hrest hok₁
    refine ⟨m', ?_, hok', ?_, hdone.trans hdone₁⟩
    · rw [List.map_cons, goItems, hrun₁, Option.bind_some, hrun]
      rfl
    · rw [hfiles, hfiles₁, Files.run_cons]

/-- The items of an upload are sent back as they are. -/
theorem replyItems_uploads (i : Nat) (ops : List (StreamOp TBytes UInt8)) :
    replyItems i (ops.map fun op => (.ok (), uploadItem op)) = ops.map uploadItem := by
  refine List.ext_getElem? fun k => ?_
  rw [getElem?_replyItems, List.getElem?_map, List.getElem?_map, Option.map_map]
  congr 1
  funext op
  cases op <;> rfl

theorem respond_follows (pf : Platform) (h : StreamWorks env) {ops : List (StreamOp TBytes UInt8)}
    (hops : ∀ op ∈ ops, op ≠ .writes []) {m : Machine ε} (hok : StreamOk fileOf d m)
    {mid : TMessageId} (hrequest : isRequest mid = true) : ∃ bytes m',
    respond pf env { Id := mid, DataItems := ops.map uploadItem } m = some (bytes, m') ∧
      StreamOk fileOf d m' ∧ m'.files fileOf d = (m.files fileOf d).run fileOf ops ∧
      m'.done = m.done := by
  obtain ⟨m', hrun, hfollows⟩ := goItems_follow pf h hops hok
  have hpayload : ∀ item ∈ (replyTo (ops.map fun op => (.ok (), uploadItem op))).DataItems,
      calcPayload m'.Config true item.toTItemBody = some item.Data := by
    intro item hitem
    have hmem : item ∈ ops.map uploadItem := replyItems_uploads 0 ops ▸ hitem
    obtain ⟨op, -, rfl⟩ := List.mem_map.mp hmem
    cases op <;> rfl
  obtain ⟨bytes, hbytes⟩ : ∃ bytes, (replyTo (ops.map fun op =>
      (.ok (), uploadItem op))).AsBytes m'.Config true = some bytes := ⟨_, AsBytes_eq _ hpayload⟩
  refine ⟨bytes, m', ?_, hfollows⟩
  rw [respond, if_pos hrequest, hrun, Option.bind_some, hbytes]
  rfl

end UploadLemmas

/-! ## 3. The threads -/

/-- A message on the queue that asks for these operations. -/
structure Asks (item : TActionQueueItem) (ops : List (StreamOp TBytes UInt8)) : Prop where
  message : ∃ mid, isRequest mid = true ∧
    item.theMessage = .heap { Id := mid, DataItems := ops.map uploadItem }
  proper : ∀ op ∈ ops, op ≠ .writes []

/-- The daemon has uploads to do only, and when they are done the files will be `s`. -/
structure Uploading (fileOf : TBytes → φ) (d s : Files φ UInt8) (w : World ε) : Prop where
  ok : StreamOk fileOf d w.machine
  going : w.machine.done = false
  queue : ∃ opss, List.Forall₂ Asks w.ActionQueue opss ∧
    (w.machine.files fileOf d).run fileOf opss.flatten = s

variable {d s : Files φ UInt8} {w w' : World ε}

/-- A receiver adds to what is to be done. -/
theorem Uploading.produce (h : Uploading fileOf d s w) (aSocket : Int) (r : UploadRequest pf) :
    ∃ w', threadStep pf env w (.produce (aSocket, r.frame)) = some w' ∧
      Uploading fileOf d (s.run fileOf r.ops) w' := by
  obtain ⟨opss, hopss, hfiles⟩ := h.queue
  refine ⟨{ w with ActionQueue := w.ActionQueue ++
    [⟨aSocket, .heap { Id := r.frame.MId, DataItems := r.ops.map uploadItem }⟩] }, ?_, h.ok,
    h.going, opss ++ [r.ops], ?_, ?_⟩
  · rw [threadStep, Prog.after, enqueueFrame_exec, gotMessage_upload]
    rfl
  · exact List.rel_append hopss (.cons ⟨⟨_, r.request, rfl⟩, proper_of_uploads r.uploads⟩ .nil)
  · rw [List.flatten_append, Files.run_append, List.flatten_singleton]
    exact congrArg (fun s => s.run fileOf r.ops) hfiles

/-- The action thread does what is first on the queue. -/
theorem Uploading.consume (henv : StreamWorks env) (h : Uploading fileOf d s w)
    (hqueue : w.ActionQueue ≠ []) : ∃ w', threadStep pf env w .consume = some w' ∧
      w'.ActionQueue = w.ActionQueue.tail ∧ Uploading fileOf d s w' := by
  obtain ⟨opss, hopss, hfiles⟩ := h.queue
  obtain ⟨item, rest, hitems⟩ := List.exists_cons_of_ne_nil hqueue
  rw [hitems] at hopss
  cases hopss with
  | @cons _ ops _ opss hasks hrest =>
    obtain ⟨aSocket, message⟩ := item
    obtain ⟨⟨mid, hrequest, rfl⟩, hproper⟩ := hasks
    obtain ⟨bytes, m', hrun, hok, hfiles', hdone⟩ :=
      respond_follows pf henv hproper h.ok hrequest
    refine ⟨{ w with
      machine := m', ActionQueue := rest, sent := w.sent ++ [(aSocket, bytes)] }, ?_, ?_, hok,
      hdone.trans h.going, opss, hrest, ?_⟩
    · have hgoing : ¬(w.machine.done ∨ w.ActionQueue = []) := by
        rw [h.going]
        exact not_or.mpr ⟨Bool.false_ne_true, hqueue⟩
      rw [threadStep, if_neg hgoing, Prog.after, actionStep_heap pf _ hitems,
        handleMessage_daemon, hrun]
      rfl
    · rw [hitems, List.tail_cons]
    · rw [hfiles', ← Files.run_append, ← List.flatten_cons]
      exact hfiles

/-- A run adds what its requests ask for, whenever the action thread gets to them. -/
theorem Uploading.run (henv : StreamWorks env) {es : List (Event (Int × Frame))}
    (hrun : ThreadRun pf env (fun _ _ => True) w es w') {q : List (Int × UploadRequest pf)}
    (hinputs : inputs es = q.map fun i => (i.1, i.2.frame)) (h : Uploading fileOf d s w) :
    Uploading fileOf d (s.run fileOf (q.flatMap fun i => i.2.ops)) w' := by
  induction hrun generalizing q s with
  | nil =>
    cases q with
    | nil => exact h
    | cons i q => cases hinputs
  | @cons w w₁ w₂ e es hstep _ _ ih =>
    cases e with
    | consume =>
      have hqueue : w.ActionQueue ≠ [] := by
        intro hnil
        rw [threadStep, if_pos (.inr hnil)] at hstep
        cases hstep
      obtain ⟨w', hconsume, -, hw'⟩ := h.consume henv hqueue
      cases hconsume.symm.trans hstep
      exact ih hinputs hw'
    | produce i =>
      cases q with
      | nil => cases hinputs
      | cons i' q =>
        obtain ⟨hhead, htail⟩ := List.cons.inj hinputs
        cases hhead
        obtain ⟨w', hproduce, hw'⟩ := h.produce i'.1 i'.2
        cases hproduce.symm.trans hstep
        rw [List.flatMap_cons, Files.run_append]
        exact ih htail hw'

/-- The action thread gets to the end of the queue. -/
theorem Uploading.finish (pf : Platform) (henv : StreamWorks env) (h : Uploading fileOf d s w) :
    ∃ w', ThreadRun pf env (fun _ _ => True) w (List.replicate w.ActionQueue.length .consume) w' ∧
      w'.ActionQueue = [] ∧ w'.machine.files fileOf d = s := by
  induction hn : w.ActionQueue.length generalizing w with
  | zero =>
    have hnil : w.ActionQueue = [] := List.eq_nil_of_length_eq_zero hn
    obtain ⟨opss, hopss, hfiles⟩ := h.queue
    rw [hnil] at hopss
    cases hopss
    exact ⟨w, .nil, hnil, hfiles⟩
  | succ n ih =>
    have hqueue : w.ActionQueue ≠ [] := List.length_pos_iff.mp (by omega)
    have hconsume : ∃ w₁, threadStep pf env w .consume = some w₁ ∧
        w₁.ActionQueue = w.ActionQueue.tail ∧ Uploading fileOf d s w₁ := h.consume henv hqueue
    obtain ⟨w₁, hstep, htail, h₁⟩ := hconsume
    obtain ⟨w', hrun, hend⟩ := ih h₁ (by rw [htail, List.length_tail]; omega)
    exact ⟨w', .cons hstep (fun _ _ he => by cases he) hrun, hend⟩

/-- Two clients upload to two files, and the daemon works off all their requests. Both files
are whole exactly when the items of the queue come in turn. -/
theorem uploads_whole_iff (henv : StreamWorks env) (hok : StreamOk fileOf d w.machine)
    (hgoing : w.machine.done = false) (hqueue : w.ActionQueue = []) {a b : Job TBytes UInt8}
    (hfiles : fileOf a.name ≠ fileOf b.name) {ra rb : List (UploadRequest pf)}
    (ha : ra.flatMap UploadRequest.ops = a.ops) (hb : rb.flatMap UploadRequest.ops = b.ops)
    {sa sb : Int} {q : List (Int × UploadRequest pf)}
    (hall : Interleaves (ra.map (sa, ·)) (rb.map (sb, ·)) q) {es : List (Event (Int × Frame))}
    (hinputs : inputs es = q.map fun i => (i.1, i.2.frame))
    (hrun : ThreadRun pf env (fun _ _ => True) w es w') :
    ∃ n w'', ThreadRun pf env (fun _ _ => True) w' (List.replicate n .consume) w'' ∧
      w''.ActionQueue = [] ∧
      ((w''.machine.files fileOf d).Whole fileOf a b ↔
        InTurn a b (q.flatMap fun i => i.2.ops) ∨ InTurn b a (q.flatMap fun i => i.2.ops)) := by
  have hstart : Uploading fileOf d (w.machine.files fileOf d) w :=
    ⟨hok, hgoing, [], hqueue ▸ .nil, rfl⟩
  have hend := hstart.run henv hrun hinputs
  obtain ⟨w'', hrest, hempty, hw''⟩ := hend.finish pf henv
  have hops := hall.flatMap fun i => i.2.ops
  rw [List.flatMap_map, List.flatMap_map] at hops
  have hjobs : Interleaves a.ops b.ops (q.flatMap fun i => i.2.ops) := ha ▸ hb ▸ hops
  refine ⟨_, w'', hrest, hempty, ?_⟩
  rw [hw'']
  exact Files.interleaved_iff _ hfiles hjobs

/-! ## 4. Two clients -/

def exName (path : String) (h : (text path).length < 2 ^ 16) : WireItem :=
  ⟨DataItemIds.SYS_UploadFileName, text path, h⟩

/-- A chunk of one byte, or the empty one at the end. -/
def exData (chunk : Option UInt8) : WireItem where
  DId := DataItemIds.SYS_UploadFileData
  data := chunk.toList
  fits := Nat.lt_of_le_of_lt Option.length_toList_le (by decide)

/-- The command with these items. -/
def exCommand (items : List WireItem) (h : (itemFormat.encodeAll items).length ≤ maxPayloadLength) :
    Frame where
  MId := 0x43
  payload := itemFormat.encodeAll items
  checksum := -byteSum (0x43 :: toLe 4 (itemFormat.encodeAll items).length ++
    itemFormat.encodeAll items)
  fits := h

/-- The first client begins its upload of two chunks. -/
def exBegin : UploadRequest exPlatform where
  frame := exCommand [exName "/home/acces/a" (by decide), exData (some 1)] (by decide)
  items := _
  ops := [.opens (text "/home/acces/a"), .writes [1]]
  request := rfl
  payload := rfl
  sum := byteSum_seal _
  uploads := .cons (.name rfl (by decide) rfl) (.cons (.data rfl (by decide) (by decide)) .nil)

/-- It comes to the end of it. -/
def exEnd : UploadRequest exPlatform where
  frame := exCommand [exData (some 2), exData none] (by decide)
  items := _
  ops := [.writes [2], .closes]
  request := rfl
  payload := rfl
  sum := byteSum_seal _
  uploads := .cons (.data rfl (by decide) (by decide)) (.cons (.last rfl rfl) .nil)

/-- The other client uploads a file with one request. -/
def exOther : UploadRequest exPlatform where
  frame := exCommand [exName "/home/acces/b" (by decide), exData (some 3), exData none]
    (by decide)
  items := _
  ops := [.opens (text "/home/acces/b"), .writes [3], .closes]
  request := rfl
  payload := rfl
  sum := byteSum_seal _
  uploads := .cons (.name rfl (by decide) rfl)
    (.cons (.data rfl (by decide) (by decide)) (.cons (.last rfl rfl) .nil))

def exJob : Job TBytes UInt8 := ⟨text "/home/acces/a", [[1], [2]], by decide⟩
def exOtherJob : Job TBytes UInt8 := ⟨text "/home/acces/b", [[3]], by decide⟩

/-- A disk without files, whose files are named by their paths. -/
def exFiles : Files TBytes UInt8 := ⟨none, fun _ => []⟩

/-- The requests of `q` come in, and the action thread handles them. -/
def exEvents (q : List (Int × UploadRequest exPlatform)) : List (Event (Int × Frame)) :=
  q.map (fun i => .produce (i.1, i.2.frame)) ++ List.replicate q.length .consume

/-- One client after the other: both files are whole. -/
theorem uploads_in_turn : ∃ w' n w'',
    ThreadRun exPlatform exEnv (fun _ _ => True) (exWorld [])
      (exEvents [(4, exBegin), (4, exEnd), (5, exOther)]) w' ∧
    ThreadRun exPlatform exEnv (fun _ _ => True) w' (List.replicate n .consume) w'' ∧
    w''.ActionQueue = [] ∧ (w''.machine.files id exFiles).Whole id exJob exOtherJob := by
  have hsteps : (threadSteps exPlatform exEnv (exEvents [(4, exBegin), (4, exEnd), (5, exOther)])
      (exWorld [])).isSome = true := by decide +kernel
  obtain ⟨w', hw'⟩ := Option.isSome_iff_exists.mp hsteps
  have henv : StreamWorks exEnv := ⟨fun _ _ => rfl, fun _ _ => rfl, fun _ => rfl⟩
  have hall : Interleaves ([exBegin, exEnd].map (4, ·)) ([exOther].map (5, ·))
      [((4 : Int), exBegin), (4, exEnd), (5, exOther)] := .left (.left (.right .nil))
  have hok : StreamOk id exFiles (exWorld []).machine := ⟨rfl, rfl⟩
  have hfiles : id exJob.name ≠ id exOtherJob.name := by decide
  obtain ⟨n, w'', hrun, hempty, hwhole⟩ :=
    uploads_whole_iff henv hok rfl rfl hfiles rfl rfl hall rfl (.of_steps hw')
  exact ⟨w', n, w'', .of_steps hw', hrun, hempty, hwhole.mpr (.inl (.inl rfl))⟩

/-- The other client's upload comes in between: the end of the first one is lost. -/
theorem interrupted_upload_cut :
    Interleaves ([exBegin, exEnd].map (4, ·)) ([exOther].map (5, ·))
      [((4 : Int), exBegin), (5, exOther), (4, exEnd)] ∧
    ∃ w', ThreadRun exPlatform exEnv (fun _ _ => True) (exWorld [])
        (exEvents [(4, exBegin), (5, exOther), (4, exEnd)]) w' ∧
      w'.ActionQueue = [] ∧ ¬(w'.machine.files id exFiles).Whole id exJob exOtherJob := by
  let seen (w : World Unit) : List TActionQueueItem × TBytes :=
    (w.ActionQueue, (w.machine.files id exFiles).content (text "/home/acces/a"))
  have hsteps : (threadSteps exPlatform exEnv (exEvents [(4, exBegin), (5, exOther), (4, exEnd)])
      (exWorld [])).map seen = some ([], [1]) := by decide +kernel
  obtain ⟨w', hw', hseen⟩ := Option.map_eq_some_iff.mp hsteps
  obtain ⟨hempty, hcontent⟩ := Prod.mk.inj hseen
  refine ⟨.left (.right (.left .nil)), w', .of_steps hw', hempty, fun hwhole => ?_⟩
  have hsame : ([1] : TBytes) = [1, 2] := hcontent.symm.trans hwhole.1
  exact absurd hsame (by decide)

end EnetTcp
