import EnetTcp.Delivery

/-!
# Closing a connection (aioenetd.cpp, threadReceiver)

A receiver thread closes its socket behind its loop. An end of stream closes it in
the loop already, and so does an oversize header inside `ProcessMessages`, so the
descriptor is used again after it has been given back.

`closesOnce_iff`: the socket is closed once, and last, in the runs that meet neither.
-/

namespace EnetTcp

open Prog

/-! ## 1. The thread and its socket -/

/-- The calls on the descriptor of a connection, without those that send. -/
inductive SocketCall
  | recv
  | close
  deriving Repr, DecidableEq

/-- A receiver and the record of its calls, oldest first. -/
structure ReceiverRun (ε : Type) where
  receiver : Receiver ε
  calls : List SocketCall := []

/-- What a round of the loop of `threadReceiver` meets. -/
inductive LoopEvent
  /-- The daemon is `done` when the loop condition is read. -/
  | done
  /-- `recv` gives a negative number. -/
  | failed
  /-- Other threads leave these globals behind, then `recv` gives these bytes. It
  gives none at the end of the stream. -/
  | received (g : Globals) (chunk : TBytes)
  deriving DecidableEq

section Thread

variable {ε α : Type} (pf : Platform) (controlSocket : Int)

def socketCall (c : SocketCall) : Prog Exn (ReceiverRun ε) Unit :=
  modify fun t => { t with calls := t.calls ++ [c] }

/-- `Disconnect` logs the peer and closes the socket. -/
def Disconnect : Prog Exn (ReceiverRun ε) Unit := socketCall .close

def onReceiver (p : Prog Exn (Receiver ε) α) : Prog Exn (ReceiverRun ε) α :=
  p.zoom ReceiverRun.receiver fun r t => { t with receiver := r }

/-- `ProcessMessages` on what the thread has got. The flag says whether it has come
to `Disconnect`, which is the last thing it does. -/
def processReceived : Prog Exn (ReceiverRun ε) Unit := do
  onReceiver (modify fun r => { r with closed := false })
  onReceiver (ProcessMessages pf controlSocket)
  if (← get).receiver.closed then Disconnect

/-- The loop of `threadReceiver`: is it left? A thread that has met all events waits
in `recv`. -/
def receiverLoop : List LoopEvent → Prog Exn (ReceiverRun ε) Bool
  | [] => do
    socketCall .recv
    return false
  | .done :: _ => return true
  | .failed :: _ => do
    socketCall .recv
    return true
  | .received g chunk :: events => do
    socketCall .recv
    onReceiver (onWorld (modify (World.setGlobals g)))
    onReceiver (modify fun r => { r with buffer := r.buffer ++ chunk })
    if chunk.length = 0 then
      Disconnect
      return true
    match ← (processReceived pf controlSocket).attempt with
    | .ok () => receiverLoop events
    | .error (.logicError _) => receiverLoop events
    | .error e => throw e

/-- `threadReceiver` behind the greeting: has it returned? -/
def threadReceiver (events : List LoopEvent) : Prog Exn (ReceiverRun ε) Bool := do
  let returned ← receiverLoop pf controlSocket events
  if returned then Disconnect
  return returned

end Thread

/-- Nothing is called on a descriptor that has been closed. -/
def NothingAfterClose (calls : List SocketCall) : Prop :=
  ∀ earlier later, calls = earlier ++ .close :: later → later = []

/-- The run makes no call on its socket after closing it, and it has closed it once when it
returns. An exception that gets out of the thread ends the daemon. -/
def ClosedInOrder {ε : Type} : Option (Except Exn Bool × ReceiverRun ε) → Prop
  | none => False
  | some (.ok returned, t) =>
    NothingAfterClose t.calls ∧ (returned = true → t.calls.count .close = 1)
  | some (.error _, t) => NothingAfterClose t.calls

def ClosesOnce {ε : Type} (pf : Platform) (controlSocket : Int) (w : World ε)
    (events : List LoopEvent) : Prop :=
  ClosedInOrder ((threadReceiver pf controlSocket events).exec { receiver := { world := w } })

/-! ## 2. Runs that close in order -/

/-- The frames become messages, one after the other. -/
def takeFrames (pf : Platform) : List Frame → Prog Exn Globals Unit
  | [] => return ()
  | f :: frames => do
    let _ ← GotMessage pf f.bytes
    takeFrames pf frames

/-- With `buffer` left over from earlier: the stream does not end while the thread
reads, and no header behind the complete frames announces too much. What follows a
frame that ends the daemon does not matter. -/
def Orderly (pf : Platform) : (buffer : TBytes) → List LoopEvent → Prop
  | _, [] | _, .done :: _ | _, .failed :: _ => True
  | buffer, .received g chunk :: events =>
    chunk ≠ [] ∧ ∀ frames rest, frameFormat.Splits (buffer ++ chunk) frames rest →
      match (takeFrames pf frames).exec g with
      | none => False
      | some (.ok _, _) => ¬Oversize rest ∧ Orderly pf rest events
      | some (.error _, _) => True

variable {pf : Platform} {controlSocket : Int} {ε : Type}

/-- The thread with a chunk behind its buffer. -/
def ReceiverRun.fed (t : ReceiverRun ε) (g : Globals) (chunk : TBytes) :
    ReceiverRun ε where
  receiver :=
    { t.receiver with
      buffer := t.receiver.buffer ++ chunk
      world  := t.receiver.world.setGlobals g }
  calls := t.calls ++ [.recv]

namespace ClosingLemmas

theorem takeFrames_cons (pf : Platform) (f : Frame) (frames : List Frame) (g : Globals) :
    (takeFrames pf (f :: frames)).exec g = ((GotMessage pf f.bytes).exec g).bind fun q =>
      match q with
      | (.ok _, g') => (takeFrames pf frames).exec g'
      | (.error x, g') => some (.error x, g') := by
  rw [takeFrames, exec_bind]
  cases (GotMessage pf f.bytes).exec g with
  | none => rfl
  | some q =>
    obtain ⟨q, g'⟩ := q
    cases q <;> rfl

/-- The loop of `ProcessMessages` ends as its frames do, and then with what they leave over. -/
theorem processLoop_takes (pf : Platform) (aSocket : Int) {frames : List Frame} {rest : TBytes}
    {r : Receiver ε} (hopen : r.closed = false) (h : frameFormat.Splits r.buffer frames rest)
    {fuel : Nat} (hfuel : r.buffer.length < fuel) :
    match (takeFrames pf frames).exec r.world.globals with
    | none => (processLoop pf aSocket fuel).exec r = none
    | some (.ok _, _) => ∃ r', (processLoop pf aSocket fuel).exec r = some (.ok (), r') ∧
        r'.closed = decide (Oversize rest) ∧ r'.buffer = if Oversize rest then [] else rest
    | some (.error x, _) => ∃ r', (processLoop pf aSocket fuel).exec r = some (.error x, r') := by
  induction frames generalizing r fuel with
  | nil =>
    obtain ⟨fuel, rfl⟩ : ∃ k, fuel = k + 1 := ⟨fuel - 1, by omega⟩
    obtain ⟨heq, hstop⟩ := h
    rw [RecordFormat.encodeAll_nil, List.nil_append] at heq
    rw [← heq] at hstop ⊢
    obtain ⟨r', hrun, hcuts⟩ := FramingLemmas.processLoop_stops pf aSocket hopen hstop fuel
    exact ⟨r', hrun, hcuts.closed, hcuts.buffer⟩
  | cons f frames ih =>
    obtain ⟨fuel, rfl⟩ : ∃ k, fuel = k + 1 := ⟨fuel - 1, by omega⟩
    obtain ⟨heq, hstop⟩ := h
    rw [RecordFormat.encodeAll_cons, List.append_assoc] at heq
    have hround := processRound_frame pf aSocket heq
    have hlen : r.buffer.length =
        f.bytes.length + (frameFormat.encodeAll frames ++ rest).length := by
      rw [heq, List.length_append]
      rfl
    have hpos : 0 < f.bytes.length := frameFormat.length_encode_pos f
    rw [takeFrames_cons]
    cases hgot : (GotMessage pf f.bytes).exec r.world.globals with
    | none =>
      rw [hgot] at hround
      show (processLoop pf aSocket (fuel + 1)).exec r = none
      rw [processLoop, exec_bind, hround]
      rfl
    | some q =>
      obtain ⟨q, g'⟩ := q
      rw [hgot] at hround
      cases q with
      | error x =>
        refine ⟨r.failed f g', ?_⟩
        rw [processLoop, exec_bind, hround]
        rfl
      | ok m =>
        have hrest : (processLoop pf aSocket (fuel + 1)).exec r = (processLoop pf aSocket fuel).exec
            (r.took aSocket f (frameFormat.encodeAll frames ++ rest) g' m) := by
          rw [processLoop, exec_bind, hround]
          rfl
        rw [hrest]
        exact ih (r := r.took aSocket f (frameFormat.encodeAll frames ++ rest) g' m) hopen
          ⟨rfl, hstop⟩ (by show (frameFormat.encodeAll frames ++ rest).length < fuel; omega)

/-- No text gets out of the frames. -/
theorem takeFrames_not_logicError {frames : List Frame} {g g' : Globals} {what : TBytes} :
    (takeFrames pf frames).exec g ≠ some (.error (.logicError what), g') := by
  intro h
  induction frames generalizing g with
  | nil => cases h
  | cons f frames ih =>
    rw [takeFrames_cons] at h
    cases hgot : (GotMessage pf f.bytes).exec g with
    | none =>
      rw [hgot] at h
      cases h
    | some q =>
      obtain ⟨q, g₁⟩ := q
      rw [hgot] at h
      cases q with
      | ok m => exact ih h
      | error x =>
        cases h
        exact DeliveryLemmas.GotMessage_not_logicError hgot

theorem orderly_received {buffer chunk : TBytes} {g : Globals} {events : List LoopEvent}
    (hchunk : chunk ≠ []) {frames : List Frame} {rest : TBytes}
    (h : frameFormat.Splits (buffer ++ chunk) frames rest) :
    Orderly pf buffer (.received g chunk :: events) ↔
      match (takeFrames pf frames).exec g with
      | none => False
      | some (.ok _, _) => ¬Oversize rest ∧ Orderly pf rest events
      | some (.error _, _) => True := by
  rw [Orderly, and_iff_right hchunk]
  refine ⟨fun hall => hall frames rest h, fun hthis frames' rest' h' => ?_⟩
  obtain ⟨rfl, rfl⟩ := frameFormat.splits_unique h h'
  exact hthis

/-! ### The record of calls -/

theorem not_nothingAfterClose {calls later : List SocketCall} {c : SocketCall}
    (h : .close ∈ calls) (hlater : calls ++ [c] <+: later) : ¬NothingAfterClose later := by
  intro hlast
  obtain ⟨pre, post, rfl⟩ := List.append_of_mem h
  obtain ⟨more, rfl⟩ := hlater
  have hempty := hlast pre (post ++ [c] ++ more)
    (by simp only [List.append_assoc, List.cons_append])
  rw [List.append_assoc, List.append_eq_nil_iff] at hempty
  cases hempty.2

theorem nothingAfterClose_of_not_mem {calls : List SocketCall} (h : .close ∉ calls) :
    NothingAfterClose calls := by
  rintro earlier later rfl
  exact absurd (List.mem_append_right _ List.mem_cons_self) h

theorem not_mem_recv {calls : List SocketCall} (h : .close ∉ calls) :
    .close ∉ calls ++ [.recv] := by
  rw [List.mem_append, List.mem_singleton]
  rintro (hclose | hclose)
  · exact h hclose
  · cases hclose

/-- The one close comes last. -/
theorem nothingAfterClose_concat {calls : List SocketCall} (h : SocketCall.close ∉ calls) :
    NothingAfterClose (calls ++ [.close]) ∧ (calls ++ [SocketCall.close]).count .close = 1 := by
  constructor
  · intro earlier later heq
    rcases List.eq_nil_or_concat later with rfl | ⟨later, c, rfl⟩
    · rfl
    · rw [List.concat_eq_append, ← List.cons_append, ← List.append_assoc] at heq
      obtain ⟨rfl, -⟩ := List.append_inj' heq rfl
      exact absurd (List.mem_append_right _ List.mem_cons_self) h
  · rw [List.count_append, List.count_eq_zero_of_not_mem h]
    rfl

/-- The record only grows. -/
abbrev Extends (t t' : ReceiverRun ε) : Prop := t.calls <+: t'.calls

instance : Std.Refl (Extends (ε := ε)) := ⟨fun _ => List.prefix_rfl⟩

instance : IsTrans (ReceiverRun ε) Extends := ⟨fun _ _ _ => List.IsPrefix.trans⟩

theorem extends_socketCall (c : SocketCall) : Moves Extends (socketCall (ε := ε) c) :=
  moves_modify fun t => List.prefix_append t.calls [c]

theorem extends_onReceiver {α : Type} (p : Prog Exn (Receiver ε) α) :
    Moves Extends (onReceiver p) :=
  moves_zoom (S := fun _ _ => True) (fun _ _ _ _ => trivial) fun _ _ _ => List.prefix_rfl

theorem extends_processReceived : Moves Extends (processReceived (ε := ε) pf controlSocket) := by
  unfold processReceived
  refine moves_bind (extends_onReceiver _) fun _ => moves_bind (extends_onReceiver _) fun _ => ?_
  refine moves_bind moves_get fun t => moves_ite (fun _ => extends_socketCall _) fun _ => ?_
  exact moves_pure _

theorem extends_receiverLoop (events : List LoopEvent) :
    Moves Extends (receiverLoop (ε := ε) pf controlSocket events) := by
  induction events with
  | nil => exact moves_bind (extends_socketCall _) fun _ => moves_pure _
  | cons e events ih =>
    cases e with
    | done => exact moves_pure _
    | failed => exact moves_bind (extends_socketCall _) fun _ => moves_pure _
    | received g chunk =>
      refine moves_bind (extends_socketCall _) fun _ => moves_bind (extends_onReceiver _) fun _ =>
        moves_bind (extends_onReceiver _) fun _ => ?_
      refine moves_ite (fun _ => moves_bind (extends_socketCall _) fun _ => moves_pure _)
        fun _ => ?_
      refine moves_bind (moves_attempt extends_processReceived) fun r => ?_
      cases r with
      | ok => exact ih
      | error x =>
        cases x with
        | logicError => exact ih
        | stdException => exact moves_throw _
        | unknown => exact moves_throw _

/-! ### One event -/

theorem threadReceiver_waiting (t : ReceiverRun ε) :
    (threadReceiver pf controlSocket []).exec t =
      some (.ok false, { t with calls := t.calls ++ [.recv] }) := rfl

theorem threadReceiver_done (events : List LoopEvent) (t : ReceiverRun ε) :
    (threadReceiver pf controlSocket (.done :: events)).exec t =
      some (.ok true, { t with calls := t.calls ++ [.close] }) := rfl

theorem threadReceiver_failed (events : List LoopEvent) (t : ReceiverRun ε) :
    (threadReceiver pf controlSocket (.failed :: events)).exec t =
      some (.ok true, { t with calls := t.calls ++ [.recv] ++ [.close] }) := rfl

/-- The end of the stream. -/
theorem threadReceiver_ended (g : Globals) (events : List LoopEvent) (t : ReceiverRun ε) :
    (threadReceiver pf controlSocket (.received g [] :: events)).exec t =
      some (.ok true, { t.fed g [] with calls := t.calls ++ [.recv] ++ [.close] ++ [.close] }) :=
  rfl

theorem threadReceiver_received {g : Globals} {chunk : TBytes} (hchunk : chunk ≠ [])
    (events : List LoopEvent) (t : ReceiverRun ε) :
    (threadReceiver pf controlSocket (.received g chunk :: events)).exec t =
      ((processReceived pf controlSocket).exec (t.fed g chunk)).bind fun q =>
        match q with
        | (.ok (), t') | (.error (.logicError _), t') =>
          (threadReceiver pf controlSocket events).exec t'
        | (.error x, t') => some (.error x, t') := by
  have hlen : ¬chunk.length = 0 := fun h => hchunk (List.eq_nil_of_length_eq_zero h)
  rw [threadReceiver, exec_bind, receiverLoop, exec_bind, socketCall, exec_modify,
    Option.bind_some, resume_ok, exec_bind, onReceiver, exec_zoom, onWorld, exec_zoom, exec_modify,
    Option.map_some, Option.map_some, Option.bind_some, resume_ok, exec_bind, onReceiver, exec_zoom,
    exec_modify, Option.map_some, Option.bind_some, resume_ok, if_neg hlen, exec_bind, exec_attempt]
  show Option.bind (Option.bind (Option.map _ ((processReceived pf controlSocket).exec
    (t.fed g chunk))) _) _ = _
  cases (processReceived pf controlSocket).exec (t.fed g chunk) with
  | none => rfl
  | some q =>
    obtain ⟨q, t'⟩ := q
    cases q with
    | ok => exact (exec_bind ..).symm
    | error x =>
      cases x with
      | logicError => exact (exec_bind ..).symm
      | stdException => rfl
      | unknown => rfl

theorem processReceived_exec (t : ReceiverRun ε) :
    (processReceived pf controlSocket).exec t =
      ((processLoop pf controlSocket (t.receiver.buffer.length + 1)).exec
        { t.receiver with closed := false }).bind fun q =>
        match q with
        | (.ok (), r) => some (.ok (), ⟨r, t.calls ++ if r.closed then [.close] else []⟩)
        | (.error x, r) => some (.error x, { t with receiver := r }) := by
  rw [processReceived, exec_bind, onReceiver, exec_zoom, exec_modify, Option.map_some,
    Option.bind_some, resume_ok, exec_bind, onReceiver, exec_zoom, ProcessMessages, exec_get_bind]
  cases (processLoop pf controlSocket (t.receiver.buffer.length + 1)).exec
    { t.receiver with closed := false } with
  | none => rfl
  | some q =>
    obtain ⟨q, r⟩ := q
    cases q with
    | error x => rfl
    | ok =>
      obtain ⟨buffer, closed, handed, w⟩ := r
      cases closed with
      | true => rfl
      | false =>
        show some (_, ReceiverRun.mk _ t.calls) = some (_, ReceiverRun.mk _ (t.calls ++ []))
        rw [List.append_nil]

/-- What a chunk leads to, by its frames and what they leave over. -/
theorem processReceived_takes (pf : Platform) (controlSocket : Int) {t : ReceiverRun ε}
    {frames : List Frame} {rest : TBytes}
    (h : frameFormat.Splits t.receiver.buffer frames rest) :
    match (takeFrames pf frames).exec t.receiver.world.globals with
    | none => (processReceived pf controlSocket).exec t = none
    | some (.ok _, _) => ∃ r, (processReceived pf controlSocket).exec t =
        some (.ok (), ⟨r, t.calls ++ if Oversize rest then [.close] else []⟩) ∧
        r.buffer = if Oversize rest then [] else rest
    | some (.error x, _) => ∃ r, (processReceived pf controlSocket).exec t =
        some (.error x, { t with receiver := r }) := by
  have hrun := processLoop_takes pf controlSocket (r := { t.receiver with closed := false }) rfl h
    (Nat.lt_succ_self _)
  rw [processReceived_exec]
  cases htake : (takeFrames pf frames).exec t.receiver.world.globals with
  | none =>
    simp only [htake] at hrun
    show Option.bind _ _ = none
    rw [hrun, Option.bind_none]
  | some q =>
    obtain ⟨q, g'⟩ := q
    simp only [htake] at hrun
    cases q with
    | error x =>
      obtain ⟨r, hr⟩ := hrun
      exact ⟨r, by rw [hr]; rfl⟩
    | ok =>
      obtain ⟨r, hr, hclosed, hbuffer⟩ := hrun
      refine ⟨r, ?_, hbuffer⟩
      rw [hr, Option.bind_some]
      simp only [hclosed, decide_eq_true_eq]

theorem extends_threadReceiver (events : List LoopEvent) :
    Moves Extends (threadReceiver (ε := ε) pf controlSocket events) := by
  refine moves_bind (extends_receiverLoop events) fun returned => ?_
  exact moves_ite (fun _ => moves_bind (extends_socketCall _) fun _ => moves_pure _) fun _ =>
    moves_pure _

/-- The thread does not end, or wait, without a call. -/
theorem threadReceiver_calls {events : List LoopEvent} {t t' : ReceiverRun ε}
    {r : Except Exn Bool} (h : (threadReceiver pf controlSocket events).exec t = some (r, t')) :
    ∃ c, t.calls ++ [c] <+: t'.calls := by
  cases events with
  | nil =>
    cases h
    exact ⟨.recv, List.prefix_rfl⟩
  | cons e events =>
    cases e with
    | done =>
      cases h
      exact ⟨.close, List.prefix_rfl⟩
    | failed =>
      cases h
      exact ⟨.recv, List.prefix_append _ _⟩
    | received g chunk =>
      refine ⟨.recv, ?_⟩
      by_cases hchunk : chunk = []
      · subst hchunk
        cases h
        exact (List.prefix_append _ _).trans (List.prefix_append _ _)
      · rw [threadReceiver_received hchunk, Option.bind_eq_some_iff] at h
        obtain ⟨⟨q, t₁⟩, hprocess, hrest⟩ := h
        have hfirst : (t.fed g chunk).calls <+: t₁.calls := extends_processReceived _ _ _ hprocess
        refine hfirst.trans ?_
        cases q with
        | ok => exact extends_threadReceiver _ _ _ _ hrest
        | error x =>
          cases x with
          | logicError => exact extends_threadReceiver _ _ _ _ hrest
          | stdException =>
            cases hrest
            exact List.prefix_rfl
          | unknown =>
            cases hrest
            exact List.prefix_rfl

/-- A thread that has closed its socket does not leave it alone. -/
theorem not_closedInOrder (events : List LoopEvent) {t : ReceiverRun ε}
    (h : .close ∈ t.calls) : ¬ClosedInOrder ((threadReceiver pf controlSocket events).exec t) := by
  cases hrun : (threadReceiver pf controlSocket events).exec t with
  | none => exact not_false
  | some q =>
    obtain ⟨q, t'⟩ := q
    obtain ⟨c, hc⟩ := threadReceiver_calls hrun
    have hlast := not_nothingAfterClose h hc
    cases q with
    | error x => exact hlast
    | ok returned => exact fun horder => hlast horder.1

/-- From a thread that has not closed its socket yet. -/
theorem closedInOrder_iff (events : List LoopEvent) {t : ReceiverRun ε} (h : .close ∉ t.calls) :
    ClosedInOrder ((threadReceiver pf controlSocket events).exec t) ↔
      Orderly pf t.receiver.buffer events := by
  induction events generalizing t with
  | nil =>
    rw [threadReceiver_waiting]
    exact iff_of_true ⟨nothingAfterClose_of_not_mem (not_mem_recv h), fun h => by cases h⟩
      trivial
  | cons e events ih =>
    cases e with
    | done =>
      obtain ⟨hlast, hcount⟩ := nothingAfterClose_concat h
      rw [threadReceiver_done]
      exact iff_of_true ⟨hlast, fun _ => hcount⟩ trivial
    | failed =>
      obtain ⟨hlast, hcount⟩ := nothingAfterClose_concat (not_mem_recv h)
      rw [threadReceiver_failed]
      exact iff_of_true ⟨hlast, fun _ => hcount⟩ trivial
    | received g chunk =>
      by_cases hchunk : chunk = []
      · subst hchunk
        rw [threadReceiver_ended]
        refine iff_of_false (fun horder => ?_) fun horder => horder.1 rfl
        exact not_nothingAfterClose (List.mem_append_right (t.calls ++ [.recv])
          (List.mem_singleton.mpr rfl)) List.prefix_rfl horder.1
      · obtain ⟨frames, rest, hsplits⟩ := frameFormat.exists_splits (t.receiver.buffer ++ chunk)
        have htakes := processReceived_takes pf controlSocket (t := t.fed g chunk) hsplits
        rw [threadReceiver_received hchunk, orderly_received hchunk hsplits]
        rw [show (t.fed g chunk).receiver.world.globals = g from rfl] at htakes
        cases htake : (takeFrames pf frames).exec g with
        | none =>
          simp only [htake] at htakes
          rw [htakes]
          exact Iff.rfl
        | some q =>
          obtain ⟨q, g'⟩ := q
          simp only [htake] at htakes
          cases q with
          | error x =>
            obtain ⟨r, hr⟩ := htakes
            rw [hr]
            have hnone := nothingAfterClose_of_not_mem (not_mem_recv h)
            cases x with
            | logicError => exact absurd htake takeFrames_not_logicError
            | stdException => exact iff_of_true hnone trivial
            | unknown => exact iff_of_true hnone trivial
          | ok =>
            obtain ⟨r, hr, hbuffer⟩ := htakes
            rw [hr, Option.bind_some]
            by_cases hover : Oversize rest
            · rw [if_pos hover]
              refine iff_of_false (not_closedInOrder events ?_) fun horder => horder.1 hover
              exact List.mem_append_right _ (List.mem_singleton.mpr rfl)
            · rw [if_neg hover] at hbuffer ⊢
              rw [List.append_nil]
              have hnext := ih (t := ⟨r, (t.fed g chunk).calls⟩) (not_mem_recv h)
              rw [hbuffer] at hnext
              exact hnext.trans (and_iff_right hover).symm

end ClosingLemmas

open ClosingLemmas

/-- The thread closes its socket once, and last, in the runs that meet neither the end of
the stream nor a header that announces too much. -/
theorem closesOnce_iff {w : World ε} {events : List LoopEvent} :
    ClosesOnce pf controlSocket w events ↔ Orderly pf [] events :=
  closedInOrder_iff events List.not_mem_nil

/-- A client that hangs up has its socket closed twice. -/
theorem hangup_closes_twice :
    ¬ClosesOnce exPlatform 4 (exWorld []) [.received exGlobals []] :=
  fun h => ((closedInOrder_iff _ List.not_mem_nil).mp h).1 rfl

end EnetTcp
