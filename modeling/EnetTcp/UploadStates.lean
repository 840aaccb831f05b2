import EnetTcp.Reencoding
import EnetTcp.Uploads

/-!
# Uploads when files fail (SYS_.cpp, UploadFilesByDataItem)

The stream, its error state and the name persist from one item to the next, and every exception
ends in the log. Opening, writing and closing may fail at any time.

* `Outcome`: what an item does to the file that the stream has open.
* `goItem_leaves`: every item has one of these outcomes.
* `chunks_go_to_named_file`: no chunk goes anywhere but to the file that was named last.
-/

namespace EnetTcp

open Prog

variable {ε φ : Type} [DecidableEq φ]

/-! ## 1. The stream -/

/-- What a call does to the stream and the files. A write that fails may have written a part of
its data; the files are told of runs only in which none fails. -/
def Env.streamStep (env : Env ε) (fileOf : TBytes → φ) (c : SysCall) (e : ε)
    (s : Files φ UInt8) : Files φ UInt8 :=
  match c with
  | .ofstream_open path =>
    bif ((env.answer (.ofstream_open path) e).1 : Bool) then s.step fileOf (.opens path)
    else s.step fileOf (.closes : StreamOp TBytes UInt8)
  | .ofstream_write bytes =>
    bif ((env.answer (.ofstream_write bytes) e).1 : Bool) then s.step fileOf (.writes bytes) else s
  | .ofstream_close => s.step fileOf (.closes : StreamOp TBytes UInt8)
  | _ => s

/-- One call, and what is left behind by it. -/
def Env.perform (env : Env ε) (fileOf : TBytes → φ) (q : ε × Files φ UInt8) (c : SysCall) :
    ε × Files φ UInt8 :=
  ((env.answer c q.1).2, env.streamStep fileOf c q.1 q.2)

/-- `s` is the state of the stream and the files in a run that has begun with `d`. -/
def StreamAt (env : Env ε) (fileOf : TBytes → φ) (d : Files φ UInt8) (start now : Sys ε)
    (s : Files φ UInt8) : Prop :=
  ∃ calls, now.calls = start.calls ++ calls ∧
    calls.foldl (env.perform fileOf) (start.env, d) = (now.env, s)

/-- Every operation succeeds, but for opening a file without a name. -/
structure StreamSucceeds (env : Env ε) : Prop where
  opens : ∀ path ≠ [], ∀ e, (env.answer (.ofstream_open path) e).1 = true
  writes : ∀ bytes e, (env.answer (.ofstream_write bytes) e).1 = true
  closes : ∀ e, (env.answer .ofstream_close e).1 = true

/-- There is no file without a name. -/
def NamelessFails (env : Env ε) : Prop := ∀ e, (env.answer (.ofstream_open []) e).1 = false

/-! ## 2. Upload items -/

/-- A name, `none` when it is rejected, or a chunk. -/
inductive UploadStep
  | name (path : Option TBytes)
  | chunk (data : TBytes)

namespace UploadStep

/-- A rejected name is an empty one. -/
def item : UploadStep → TDataItem
  | .name path => uploadItem (.opens (path.getD []))
  | .chunk data => uploadDataItem data

/-- The name is what the check of the path makes of some data. -/
def Sent (pf : Platform) : UploadStep → Prop
  | .name path => ∃ buf,
    (sanitizePath pf.currentPath buf : Prog Exn Globals (Option TBytes)) = pure path
  | .chunk _ => True

/-- What the item asks of the stream. -/
def op : UploadStep → StreamOp TBytes UInt8
  | .name (some path) => .opens path
  | .name none | .chunk [] => .closes
  | .chunk (b :: data) => .writes (b :: data)

end UploadStep

/-- The chunks up to the next name or the empty chunk. -/
def chunksSince : List UploadStep → List TBytes
  | .chunk (b :: data) :: rest => (b :: data) :: chunksSince rest
  | _ => []

/-- What an item does to the file that the stream has open, and the calls it makes. -/
inductive Outcome (fileOf : TBytes → φ) :
    UploadStep → (before after : Option φ) → List SysCall → Prop
  | opened {path : TBytes} {file : Option φ} {calls : List SysCall} :
      (∀ bytes, .ofstream_write bytes ∉ calls) →
      Outcome fileOf (.name (some path)) file (some (fileOf path)) calls
  | unopened {path : Option TBytes} {file : Option φ} {calls : List SysCall} :
      (∀ bytes, .ofstream_write bytes ∉ calls) → Outcome fileOf (.name path) file none calls
  | closed {file : Option φ} {calls : List SysCall} :
      (∀ bytes, .ofstream_write bytes ∉ calls) → Outcome fileOf (.chunk []) file none calls
  | dropped {data : TBytes} {file : Option φ} :
      data ≠ [] → Outcome fileOf (.chunk data) file file []
  | written {data : TBytes} {file : φ} :
      data ≠ [] →
      Outcome fileOf (.chunk data) (some file) (some file) [.ofstream_write data]

namespace UploadStateLemmas

variable {env : Env ε} {fileOf : TBytes → φ} {pf : Platform}

/-- An accepted path begins with `/home/acces/`. -/
theorem accepted_ne_nil {path : TBytes} (h : UploadStep.Sent pf (.name (some path))) :
    path ≠ [] := by
  obtain ⟨buf, hbuf⟩ := h
  have hrun := congrArg (fun p => p.exec exGlobals) hbuf
  by_cases hempty : buf = []
  · rw [hempty] at hrun
    cases hrun
  · rw [ReencodeLemmas.sanitizePath_eq _ hempty] at hrun
    simp only [exec_pure, Option.some.injEq, Prod.mk.injEq, Except.ok.injEq, and_true] at hrun
    split at hrun
    · rename_i hboth
      obtain ⟨s, hs⟩ := hboth.2
      rw [← Option.some.inj hrun, ← hs]
      exact List.append_ne_nil_of_left_ne_nil (by decide) s
    · cases hrun

theorem throwIfFailed_cases (what : String) (m : Machine ε) : ∃ r,
    (throwIfFailed what).exec m = some (r, m) ∧
      (r = .ok () ∧ m.upload.fail = false ∨ (∃ x, r = .error x) ∧ m.upload.fail = true) := by
  rw [throwIfFailed, exec_get_bind]
  cases hfail : m.upload.fail with
  | false => exact ⟨_, rfl, .inl ⟨rfl, rfl⟩⟩
  | true => exact ⟨_, rfl, .inr ⟨⟨_, rfl⟩, rfl⟩⟩

/-- The part of a name item behind the close of the previous file. -/
def openNamed (env : Env ε) (path : TBytes) : Prog Exn (Machine ε) Unit := do
  modify fun m => { m with upload := { m.upload with filename := path } }
  ofsOpen env path
  throwIfFailed "File Upload process cannot open file "

theorem openNamed_exec (env : Env ε) (path : TBytes) (m : Machine ε) : ∃ r m',
    (openNamed env path).exec m = some (r, m') ∧
      m'.sys = (m.called env (.ofstream_open path)).sys ∧
      m'.upload.is_open = (env.answer (.ofstream_open path) m.sys.env).1 ∧
      m'.upload.fail = !(env.answer (.ofstream_open path) m.sys.env).1 := by
  obtain ⟨r, hthrow, -⟩ := throwIfFailed_cases "File Upload process cannot open file "
    { m.called env (.ofstream_open path) with upload :=
      { is_open := (env.answer (.ofstream_open path) m.sys.env).1
        fail := !(env.answer (.ofstream_open path) m.sys.env).1
        filename := path } }
  exact ⟨r, _, hthrow, rfl, rfl, rfl⟩

/-- What is left of an item: the state it ends in, the calls it has made, and what they have done
to the stream. -/
structure Leaves (env : Env ε) (fileOf : TBytes → φ) (u : UploadStep) (m : Machine ε)
    (s : Files φ UInt8) (m' : Machine ε) (s' : Files φ UInt8) (calls : List SysCall) : Prop where
  made : m'.sys.calls = m.sys.calls ++ calls
  stream : calls.foldl (env.perform fileOf) (m.sys.env, s) = (m'.sys.env, s')
  is_open : m'.upload.is_open = s'.current.isSome
  outcome : Outcome fileOf u s.current s'.current calls
  /-- Without failures the item does what it asks for. -/
  asked : StreamSucceeds env → (m.upload.is_open = true → m.upload.fail = false) →
    s' = s.step fileOf u.op ∧ (m'.upload.is_open = true → m'.upload.fail = false)

theorem opens_leaves (hnameless : NamelessFails env) {path : Option TBytes}
    (hsent : UploadStep.Sent pf (.name path)) (m : Machine ε) (s : Files φ UInt8) :
    ∃ r m' s', (openNamed env (path.getD [])).exec m = some (r, m') ∧
      Leaves env fileOf (.name path) m s m' s' [.ofstream_open (path.getD [])] := by
  obtain ⟨r, m', hrun, hsys, hopen, hfail⟩ := openNamed_exec env (path.getD []) m
  have hwrites : ∀ bytes, SysCall.ofstream_write bytes ∉ [.ofstream_open (path.getD [])] := by
    intro bytes h
    cases List.mem_singleton.mp h
  refine ⟨r, m', env.streamStep fileOf (.ofstream_open (path.getD [])) m.sys.env s, hrun,
    by rw [hsys]; rfl, by rw [hsys]; rfl, ?_, ?_, ?_⟩
  · rw [hopen, Env.streamStep]
    cases (env.answer (.ofstream_open (path.getD [])) m.sys.env).1 <;> rfl
  · rw [Env.streamStep]
    cases path with
    | none =>
      rw [Option.getD_none, hnameless]
      exact .unopened hwrites
    | some path =>
      cases hanswer : (env.answer (.ofstream_open path) m.sys.env).1 with
      | true =>
        simp only [Option.getD_some, hanswer, cond_true]
        exact .opened hwrites
      | false =>
        simp only [Option.getD_some, hanswer, cond_false]
        exact .unopened hwrites
  · intro hworks _
    refine ⟨?_, fun h => by rw [hfail, ← hopen, h]; rfl⟩
    rw [Env.streamStep]
    cases path with
    | none =>
      rw [Option.getD_none, hnameless]
      rfl
    | some path =>
      rw [Option.getD_some, hworks.opens path (accepted_ne_nil hsent)]
      rfl

/-- The machine behind `ofs.close()`. -/
def closed (env : Env ε) (m : Machine ε) : Machine ε :=
  { m.called env .ofstream_close with
    upload :=
      { m.upload with
        is_open := false
        fail := m.upload.fail || !((env.answer .ofstream_close m.sys.env).1 : Bool) } }

theorem closed_exec (env : Env ε) (m : Machine ε) :
    (ofsClose env).exec m = some (.ok (), closed env m) := rfl

/-- A close that works leaves no error behind. -/
theorem closed_fail (hworks : StreamSucceeds env) {m : Machine ε} (hfail : m.upload.fail = false) :
    (closed env m).upload.fail = false := by
  show (m.upload.fail || !((env.answer .ofstream_close m.sys.env).1 : Bool)) = false
  rw [hworks.closes, hfail]
  rfl

omit [DecidableEq φ] in
/-- What was open before a name has no part in its outcome. -/
theorem name_outcome {path : Option TBytes} {before before' after : Option φ}
    {calls calls' : List SysCall} (h : Outcome fileOf (.name path) before after calls)
    (hwrites : ∀ bytes, .ofstream_write bytes ∉ calls') :
    Outcome fileOf (.name path) before' after calls' := by
  cases h with
  | opened => exact .opened hwrites
  | unopened => exact .unopened hwrites

theorem name_leaves (hnameless : NamelessFails env) {path : Option TBytes}
    (hsent : UploadStep.Sent pf (.name path)) (m : Machine ε) (s : Files φ UInt8) :
    ∃ r m' s' calls, (uploadFileName env (path.getD [])).exec m = some (r, m') ∧
      Leaves env fileOf (.name path) m s m' s' calls := by
  rw [uploadFileName, exec_get_bind]
  by_cases hopen : m.upload.is_open = true
  · obtain ⟨r, hthrow, hcases⟩ :=
      throwIfFailed_cases "File Upload process failed to close file " (closed env m)
    rw [if_pos hopen, exec_bind_ok (closed_exec _ _), exec_bind, hthrow, Option.bind_some]
    rcases hcases with ⟨rfl, -⟩ | ⟨⟨x, rfl⟩, hfail⟩
    · obtain ⟨r, m', s', hrun, hleaves⟩ :=
        @opens_leaves ε φ _ env fileOf pf hnameless _ hsent (closed env m)
          (s.step fileOf (.closes : StreamOp TBytes UInt8))
      refine ⟨r, m', s', [.ofstream_close, .ofstream_open (path.getD [])], hrun, ?_, hleaves.stream,
        hleaves.is_open, name_outcome hleaves.outcome (by simp), ?_⟩
      · rw [hleaves.made]
        exact List.append_assoc _ [SysCall.ofstream_close] _
      · intro hworks _
        obtain ⟨hs', hfail'⟩ := hleaves.asked hworks fun h => absurd h Bool.false_ne_true
        refine ⟨hs'.trans ?_, hfail'⟩
        cases path <;> rfl
    · refine ⟨_, closed env m, s.step fileOf (.closes : StreamOp TBytes UInt8), [.ofstream_close],
        rfl, rfl, rfl, rfl, .unopened (by simp), ?_⟩
      intro hworks hbefore
      rw [closed_fail hworks (hbefore hopen)] at hfail
      cases hfail
  · rw [if_neg hopen]
    obtain ⟨r, m', s', hrun, hleaves⟩ := opens_leaves hnameless hsent m s
    exact ⟨r, m', s', _, hrun, hleaves⟩

/-- A chunk that comes when no file is open. -/
theorem unopened_leaves (data : TBytes) {m : Machine ε} {s : Files φ UInt8}
    (hsync : m.upload.is_open = s.current.isSome) (hopen : m.upload.is_open = false) :
    ∃ r, (uploadFileData env data).exec m = some (r, m) ∧
      ∃ calls, Leaves env fileOf (.chunk data) m s m s calls := by
  have hnone : s.current = none := by
    rw [hopen] at hsync
    exact Option.isSome_eq_false_iff.mp hsync.symm |> Option.isNone_iff_eq_none.mp
  rw [uploadFileData, exec_get_bind, hopen, Bool.not_false, if_pos rfl]
  refine ⟨_, rfl, [], (List.append_nil _).symm, rfl, hsync, ?_, fun _ hfail => ⟨?_, hfail⟩⟩
  · cases data with
    | nil =>
      rw [hnone]
      exact .closed (by simp)
    | cons b data => exact .dropped (List.cons_ne_nil b data)
  · obtain ⟨current, content⟩ := s
    cases hnone
    cases data <;> rfl

/-- The empty chunk, when a file is open. -/
theorem last_leaves {m : Machine ε} (s : Files φ UInt8) (hopen : m.upload.is_open = true) :
    ∃ r m' s' calls, (uploadFileData env []).exec m = some (r, m') ∧
      Leaves env fileOf (.chunk []) m s m' s' calls := by
  obtain ⟨r, hthrow, hcases⟩ :=
    throwIfFailed_cases "File Upload process failed to close file " (closed env m)
  rw [uploadFileData, exec_get_bind, hopen, Bool.not_true, if_neg Bool.false_ne_true,
    List.isEmpty_nil, if_pos rfl, exec_bind_ok (closed_exec _ _), exec_bind, hthrow,
    Option.bind_some]
  rcases hcases with ⟨rfl, hok⟩ | ⟨⟨x, rfl⟩, hfail⟩
  · rw [resume_ok, exec_get_bind]
    by_cases hupdate : (closed env m).upload.filename = updateFileName
    · rw [if_pos hupdate]
      refine ⟨_, _, s.step fileOf (.closes : StreamOp TBytes UInt8),
        [.ofstream_close, .runUpdate updateFileName], rfl, ?_, rfl, rfl, .closed (by simp),
        fun _ _ => ⟨rfl, fun h => absurd h Bool.false_ne_true⟩⟩
      exact List.append_assoc _ [SysCall.ofstream_close] _
    · rw [if_neg hupdate]
      exact ⟨_, _, s.step fileOf (.closes : StreamOp TBytes UInt8), [.ofstream_close], rfl, rfl,
        rfl, rfl, .closed (by simp), fun _ _ => ⟨rfl, fun h => absurd h Bool.false_ne_true⟩⟩
  · refine ⟨_, _, s.step fileOf (.closes : StreamOp TBytes UInt8), [.ofstream_close], rfl, rfl, rfl,
      rfl, .closed (by simp), ?_⟩
    intro hworks hbefore
    rw [closed_fail hworks (hbefore hopen)] at hfail
    cases hfail

/-- A chunk that comes when a file is open. It is dropped while the error state is set. -/
theorem chunk_leaves {data : TBytes} (hdata : data ≠ []) {m : Machine ε} {s : Files φ UInt8}
    (hsync : m.upload.is_open = s.current.isSome) (hopen : m.upload.is_open = true) :
    ∃ r m' s' calls, (uploadFileData env data).exec m = some (r, m') ∧
      Leaves env fileOf (.chunk data) m s m' s' calls := by
  obtain ⟨b, data, rfl⟩ := List.exists_cons_of_ne_nil hdata
  have hempty : (b :: data).isEmpty = false := rfl
  rw [uploadFileData, exec_get_bind, hopen, Bool.not_true, if_neg Bool.false_ne_true, hempty,
    if_neg Bool.false_ne_true, exec_bind, ofsWrite, exec_get_bind]
  cases hfail : m.upload.fail with
  | true =>
    obtain ⟨r, hthrow, -⟩ :=
      throwIfFailed_cases "File Upload process failed to write to file " m
    rw [Bool.not_true, if_neg Bool.false_ne_true]
    refine ⟨r, m, s, [], hthrow, (List.append_nil _).symm, rfl, hsync, .dropped hdata, ?_⟩
    intro _ hok
    rw [hok hopen] at hfail
    cases hfail
  | false =>
    obtain ⟨file, hfile⟩ := Option.isSome_iff_exists.mp (hsync.symm.trans hopen)
    let written : Machine ε := { m.called env (.ofstream_write (b :: data)) with
      upload := { m.upload with
        fail := !((env.answer (.ofstream_write (b :: data)) m.sys.env).1 : Bool) } }
    obtain ⟨r, hthrow, -⟩ :=
      throwIfFailed_cases "File Upload process failed to write to file " written
    have hcurrent : (env.streamStep fileOf (.ofstream_write (b :: data)) m.sys.env s).current =
        s.current := by
      rw [Env.streamStep, Files.step, hfile]
      cases (env.answer (.ofstream_write (b :: data)) m.sys.env).1
      · exact hfile
      · rfl
    refine ⟨r, written, env.streamStep fileOf (.ofstream_write (b :: data)) m.sys.env s,
      [.ofstream_write (b :: data)], hthrow, rfl, rfl, ?_, ?_, fun hworks _ => ⟨?_, fun _ => ?_⟩⟩
    · rw [hcurrent]
      exact hsync
    · rw [hcurrent, hfile]
      exact .written hdata
    · rw [Env.streamStep, hworks.writes]
      rfl
    · show (!((env.answer (.ofstream_write (b :: data)) m.sys.env).1 : Bool)) = false
      rw [hworks.writes]
      rfl

/-- What an upload item does, whatever fails. -/
theorem goItem_leaves (hnameless : NamelessFails env) {u : UploadStep} (hsent : u.Sent pf)
    {m : Machine ε} {s : Files φ UInt8} (hsync : m.upload.is_open = s.current.isSome) :
    ∃ m' s' calls, goItem pf env u.item m = some ((.ok (), u.item), m') ∧
      Leaves env fileOf u m s m' s' calls := by
  cases u with
  | name path =>
    obtain ⟨r, m', s', calls, hrun, hleaves⟩ := name_leaves hnameless hsent m s
    exact ⟨m', s', calls, by rw [UploadStep.item, UploadLemmas.goItem_name, hrun]; rfl, hleaves⟩
  | chunk data =>
    have hgo {r : Except Exn Unit} {m' : Machine ε}
        (hrun : (uploadFileData env data).exec m = some (r, m')) :
        goItem pf env (UploadStep.chunk data).item m =
          some ((.ok (), (UploadStep.chunk data).item), m') := by
      rw [UploadStep.item, UploadLemmas.goItem_data, hrun]
      rfl
    cases hopen : m.upload.is_open with
    | false =>
      obtain ⟨r, hrun, calls, hleaves⟩ := @unopened_leaves ε φ _ env fileOf data _ _ hsync hopen
      exact ⟨m, s, calls, hgo hrun, hleaves⟩
    | true =>
      by_cases hdata : data = []
      · subst hdata
        obtain ⟨r, m', s', calls, hrun, hleaves⟩ := last_leaves s hopen
        exact ⟨m', s', calls, hgo hrun, hleaves⟩
      · obtain ⟨r, m', s', calls, hrun, hleaves⟩ := chunk_leaves hdata hsync hopen
        exact ⟨m', s', calls, hgo hrun, hleaves⟩

end UploadStateLemmas

open UploadStateLemmas

variable {env : Env ε} {fileOf : TBytes → φ} {pf : Platform}

/-- The items that the factory makes of uploads are these. -/
theorem construct_upload {cls : ItemClass}
    (hcls : cls = .TSYS_UploadFileName ∨ cls = .TSYS_UploadFileData) {data : TBytes}
    {g g' : Globals} {body : TItemBody}
    (h : (construct pf cls data).exec g = some (.ok body, g')) :
    ∃ u : UploadStep, u.Sent pf ∧ body = u.item.toTItemBody := by
  rcases hcls with rfl | rfl
  · by_cases hempty : data = []
    · rw [hempty] at h
      cases h
    · obtain ⟨Data, g₁, hctor, hbody⟩ := bind_exec_ok h
      rw [TSYS_UploadFileName.ctor, ReencodeLemmas.sanitizePath_eq _ hempty] at hctor
      cases hctor
      cases hbody
      exact ⟨.name _, ⟨data, ReencodeLemmas.sanitizePath_eq _ hempty⟩, rfl⟩
  · cases h
    exact ⟨.chunk data, trivial, rfl⟩

/-! ## 3. Runs -/

/-- The name that came last was accepted and leads to `file`, and no empty chunk has come
since. -/
def NamedLast (fileOf : TBytes → φ) (done : List UploadStep) (file : φ) : Prop :=
  ∃ before path, ∃ chunks : List TBytes,
    done = before ++ .name (some path) :: chunks.map .chunk ∧ [] ∉ chunks ∧ file = fileOf path

/-- Each file that is named has the chunks that came behind its name. -/
def Concatenated (fileOf : TBytes → φ) (done : List UploadStep) (s : Files φ UInt8) : Prop :=
  ∀ before path after, done = before ++ .name (some path) :: after →
    (∀ path', .name (some path') ∈ after → fileOf path' ≠ fileOf path) →
    s.content (fileOf path) = (chunksSince after).flatten

namespace UploadStateLemmas

variable {d : Files φ UInt8} {start : Sys ε}

/-- What is true of the stream when these items have been run. -/
structure Tracked (env : Env ε) (fileOf : TBytes → φ) (d : Files φ UInt8) (start : Sys ε)
    (done : List UploadStep) (m : Machine ε) (s : Files φ UInt8) : Prop where
  stream : StreamAt env fileOf d start m.sys s
  is_open : m.upload.is_open = s.current.isSome
  named : ∀ file, s.current = some file → NamedLast fileOf done file
  asked : StreamSucceeds env → s = d.run fileOf (done.map UploadStep.op) ∧
    (m.upload.is_open = true → m.upload.fail = false)

omit [DecidableEq φ] in
theorem named_append {done : List UploadStep} {u : UploadStep} {before after : Option φ}
    {calls : List SysCall} (h : Outcome fileOf u before after calls)
    (hnamed : ∀ file, before = some file → NamedLast fileOf done file) :
    ∀ file, after = some file → NamedLast fileOf (done ++ [u]) file := by
  have hchunk {data : TBytes} (hdata : data ≠ []) {file : φ} (hfile : NamedLast fileOf done file) :
      NamedLast fileOf (done ++ [.chunk data]) file := by
    obtain ⟨before, path, chunks, rfl, hchunks, hpath⟩ := hfile
    refine ⟨before, path, chunks ++ [data], ?_, ?_, hpath⟩
    · rw [List.append_assoc, List.map_append]
      rfl
    · rw [List.mem_append, List.mem_singleton]
      exact not_or_intro hchunks hdata.symm
  intro file hfile
  cases h with
  | @opened path =>
    exact ⟨done, path, [], rfl, List.not_mem_nil, (Option.some.inj hfile).symm⟩
  | unopened | closed => cases hfile
  | dropped hdata => exact hchunk hdata (hnamed file hfile)
  | written hdata => exact hchunk hdata (hnamed file hfile)

theorem Tracked.step (hnameless : NamelessFails env) {done : List UploadStep} {m : Machine ε}
    {s : Files φ UInt8} (h : Tracked env fileOf d start done m s) {u : UploadStep}
    (hsent : u.Sent pf) : ∃ m' s' calls, goItem pf env u.item m = some ((.ok (), u.item), m') ∧
      Leaves env fileOf u m s m' s' calls ∧ Tracked env fileOf d start (done ++ [u]) m' s' := by
  obtain ⟨m', s', calls, hgo, hleaves⟩ := goItem_leaves hnameless hsent h.is_open
  obtain ⟨earlier, hcalls, hfold⟩ := h.stream
  refine ⟨m', s', calls, hgo, hleaves, ⟨earlier ++ calls, ?_, ?_⟩, hleaves.is_open,
    named_append hleaves.outcome h.named, fun hworks => ?_⟩
  · rw [hleaves.made, hcalls, List.append_assoc]
  · rw [List.foldl_append, hfold, hleaves.stream]
  · obtain ⟨hs, hfail⟩ := h.asked hworks
    obtain ⟨hs', hfail'⟩ := hleaves.asked hworks hfail
    refine ⟨?_, hfail'⟩
    rw [hs', hs, List.map_append, Files.run_append]
    rfl

theorem Tracked.run (hnameless : NamelessFails env) {done items : List UploadStep}
    (hsent : ∀ u ∈ items, u.Sent pf) {m : Machine ε} {s : Files φ UInt8}
    (h : Tracked env fileOf d start done m s) : ∃ qs m' s',
      goItems pf env (items.map UploadStep.item) m = some (qs, m') ∧
        Tracked env fileOf d start (done ++ items) m' s' := by
  induction items generalizing done m s with
  | nil => exact ⟨[], m, s, rfl, (List.append_nil done).symm ▸ h⟩
  | cons u items ih =>
    obtain ⟨hu, hitems⟩ := List.forall_mem_cons.mp hsent
    obtain ⟨m₁, s₁, calls, hgo, -, h₁⟩ := h.step hnameless hu
    obtain ⟨qs, m', s', hrun, h'⟩ := ih hitems h₁
    refine ⟨(.ok (), u.item) :: qs, m', s', ?_, by rwa [List.append_assoc] at h'⟩
    rw [List.map_cons, goItems, hgo, Option.bind_some, hrun]
    rfl

/-- The chunks that are written to an open file, when it is not opened again. -/
theorem run_chunksSince {s : Files φ UInt8} {file : φ} (hfile : s.current = some file)
    {after : List UploadStep} (hafter : ∀ path, .name (some path) ∈ after → fileOf path ≠ file) :
    (s.run fileOf (after.map UploadStep.op)).content file =
      s.content file ++ (chunksSince after).flatten := by
  have hopens {items : List UploadStep}
      (hitems : ∀ path, .name (some path) ∈ items → fileOf path ≠ file) :
      ∀ path, .opens path ∈ items.map UploadStep.op → fileOf path ≠ file := by
    intro path hmem
    obtain ⟨u, hu, hop⟩ := List.mem_map.mp hmem
    rcases u with (_ | path') | (_ | ⟨b, data⟩)
    · cases hop
    · cases hop
      exact hitems path hu
    · cases hop
    · cases hop
  induction after generalizing s with
  | nil => exact (List.append_nil _).symm
  | cons u after ih =>
    have hrest : ∀ path, .name (some path) ∈ after → fileOf path ≠ file :=
      fun path h => hafter path (List.mem_cons_of_mem u h)
    have hshut (s' : Files φ UInt8) (hcurrent : s'.current ≠ some file)
        (hcontent : s'.content file = s.content file) :
        (s'.run fileOf (after.map UploadStep.op)).content file = s.content file ++ [] := by
      rw [List.append_nil, Files.run_content_of_ne hcurrent (hopens hrest), hcontent]
    rw [List.map_cons, Files.run_cons]
    rcases u with (_ | path) | (_ | ⟨b, data⟩)
    · exact hshut (s.step fileOf .closes) nofun rfl
    · have hne := hafter path List.mem_cons_self
      refine hshut (s.step fileOf (.opens path)) (fun h => hne (Option.some.inj h)) ?_
      exact Function.update_of_ne hne.symm _ _
    · exact hshut (s.step fileOf .closes) nofun rfl
    · have hstep : s.step fileOf (.writes (b :: data)) =
          { s with content := Function.update s.content file (s.content file ++ b :: data) } := by
        rw [Files.step, hfile]
      rw [UploadStep.op, hstep]
      refine (@ih ⟨s.current, Function.update s.content file _⟩ hfile hrest).trans ?_
      rw [chunksSince, List.flatten_cons, ← List.append_assoc]
      exact congrArg (· ++ _) (Function.update_self ..)

theorem concatenated_run (d : Files φ UInt8) (done : List UploadStep) :
    Concatenated fileOf done (d.run fileOf (done.map UploadStep.op)) := by
  rintro before path after rfl hafter
  rw [List.map_append, List.map_cons, Files.run_append, Files.run_cons]
  refine (run_chunksSince rfl hafter).trans ?_
  exact congrArg (· ++ _) (Function.update_self ..)

end UploadStateLemmas

/-- Upload items in any order, with files that fail at any time: what an item writes is its own
chunk, and it goes to the file that was named last, accepted and opened. Without failures each
file has the chunks that came behind its name. -/
theorem chunks_go_to_named_file (hnameless : NamelessFails env) {d : Files φ UInt8}
    (hd : d.current = none) {m : Machine ε} (hclosed : m.upload.is_open = false)
    {done : List UploadStep} (hdone : ∀ v ∈ done, v.Sent pf) {u : UploadStep} (hu : u.Sent pf) :
    ∃ qs m₁ s q m₂ calls, goItems pf env (done.map UploadStep.item) m = some (qs, m₁) ∧
      StreamAt env fileOf d m.sys m₁.sys s ∧ goItem pf env u.item m₁ = some (q, m₂) ∧
      m₂.sys.calls = m₁.sys.calls ++ calls ∧
      (∀ bytes, .ofstream_write bytes ∈ calls → calls = [.ofstream_write bytes] ∧
        u = .chunk bytes ∧ ∃ file, s.current = some file ∧ NamedLast fileOf done file) ∧
      (StreamSucceeds env → Concatenated fileOf done s) := by
  have hstart : Tracked env fileOf d m.sys [] m d :=
    ⟨⟨[], (List.append_nil _).symm, rfl⟩, by rw [hclosed, hd]; rfl,
      fun file hfile => (by rw [hd] at hfile; cases hfile),
      fun _ => ⟨rfl, fun hopen => (by rw [hclosed] at hopen; cases hopen)⟩⟩
  obtain ⟨qs, m₁, s, hrun, htracked⟩ := hstart.run hnameless hdone
  rw [List.nil_append] at htracked
  obtain ⟨m₂, s', calls, hgo, hleaves, -⟩ := htracked.step hnameless hu
  refine ⟨qs, m₁, s, _, m₂, calls, hrun, htracked.stream, hgo, hleaves.made, ?_, ?_⟩
  · intro bytes hmem
    have houtcome := hleaves.outcome
    generalize hbefore : s.current = before at houtcome
    generalize s'.current = after at houtcome
    cases houtcome with
    | opened hwrites | unopened hwrites | closed hwrites => exact absurd hmem (hwrites bytes)
    | dropped => cases hmem
    | written =>
      cases List.mem_singleton.mp hmem
      exact ⟨rfl, rfl, _, rfl, htracked.named _ hbefore⟩
  · intro hworks
    rw [(htracked.asked hworks).1]
    exact concatenated_run d done

/-- A disk on which everything works. -/
def exUploadEnv : Env Unit where
  answer c e :=
    match c with
    | .ofstream_open path => (!path.isEmpty, e)
    | c => exEnv.answer c e

/-- An upload of two chunks. -/
def exUpload : List UploadStep :=
  [.name (some (text "/home/acces/a")), .chunk [1], .chunk [2]]

theorem two_chunks_concatenated : ∃ qs m₁ s,
    goItems exPlatform exUploadEnv (exUpload.map UploadStep.item) (exWorld []).machine =
      some (qs, m₁) ∧
    StreamAt exUploadEnv id exFiles (exWorld []).machine.sys m₁.sys s ∧
    s.content (text "/home/acces/a") = [1, 2] := by
  have hsent : ∀ v ∈ exUpload, v.Sent exPlatform := by
    simp only [exUpload, List.forall_mem_cons]
    exact ⟨⟨text "/home/acces/a", rfl⟩, trivial, trivial, nofun⟩
  have hlast : (UploadStep.chunk []).Sent exPlatform := trivial
  obtain ⟨qs, m₁, s, -, -, -, hrun, hstream, -, -, -, hwhole⟩ :=
    @chunks_go_to_named_file Unit TBytes _ exUploadEnv id exPlatform (fun _ => rfl) exFiles rfl
      (exWorld []).machine rfl exUpload hsent (.chunk []) hlast
  have hworks : StreamSucceeds exUploadEnv :=
    { opens := fun path hpath _ => by
        cases path with
        | nil => exact absurd rfl hpath
        | cons => rfl
      writes := fun _ _ => rfl
      closes := fun _ => rfl }
  refine ⟨qs, m₁, s, hrun, hstream, ?_⟩
  exact hwhole hworks [] _ [.chunk [1], .chunk [2]] rfl (by simp)

end EnetTcp
