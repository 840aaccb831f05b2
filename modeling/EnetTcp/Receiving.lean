import EnetTcp.ErrorItems

/-!
# What a receiver thread does

Specs of the functions from a frame in the buffer to a message on the queue.
-/

namespace EnetTcp

open Prog

variable {pf : Platform}

/-! ## 1. From a frame to a message -/

/-- The message that `GotMessage` makes of an outcome of `FromBytes`. The report
on a thrown text never gets its item. -/
def gotMessage : Except Exn (TMessage × TError) → Except Exn TMessage
  | .ok (m, _) => .ok m
  | .error (.logicError _) => .ok { Id := 88, DataItems := [] }
  | .error e => .error e

theorem GotMessage_exec (pf : Platform) (buf : TBytes) (g : Globals) :
    (GotMessage pf buf).exec g =
      ((FromBytes pf buf).exec g).map fun q => (gotMessage q.1, q.2) := by
  rw [GotMessage, exec_bind, exec_attempt]
  cases hrun : (FromBytes pf buf).exec g with
  | none => rfl
  | some q =>
    obtain ⟨q, g'⟩ := q
    match q with
    | .ok (m, code) => rfl
    | .error (.stdException what) => rfl
    | .error .unknown => rfl
    | .error (.logicError what) =>
      obtain ⟨hpos, hshort⟩ := FromBytes_throws pf buf g _ g' hrun
      have hnone (errIndex info : UInt32) := BuildSysError_text hpos
        (Nat.lt_trans hshort (by decide)) pf .Parse errIndex info g'
      simp only [Option.map_some, Option.bind_some, resume_ok, exec_bind,
        new_of_mem (by decide : (88 : TMessageId) ∈ ValidMessageIDs), exec_pure, hnone]
      rfl

/-- The one header check that a frame can fail. -/
theorem headerOk_frame (f : Frame) : HeaderOk pf f.bytes ↔ isValidMessageID pf f.MId = true := by
  have hlen := f.length_bytes
  have hsize := f.payloadSize_bytes
  refine ⟨fun h => h.id, fun h => ⟨by omega, h, ?_⟩⟩
  exact Nat.le_trans (Nat.mod_le ..) (by omega)

/-- A parse of a frame's payload. -/
theorem FromBytes_frame {f : Frame} (h : isValidMessageID pf f.MId = true) {g g' : Globals}
    {r : Except Exn (TMessage × TError)} :
    (FromBytes pf f.bytes).exec g = some (r, g') ↔
      ∃ ws items c, Parses pf g (f.payload ++ [f.checksum]) f.payload.length ws items c g' ∧
        r = finish f.bytes items c := by
  rw [FromBytes_iff ((headerOk_frame f).mpr h), f.drop_bytes, f.payloadSize_bytes]

/-- The parser of the frame gets as far as the constructor of `w`: all items in
front of it are built. -/
def Frame.Constructs (pf : Platform) (g : Globals) (f : Frame) (w : WireItem) : Prop :=
  isValidMessageID pf f.MId = true ∧
    ∃ ws items g' rest, f.payload = itemFormat.encodeAll ws ++ (w.bytes ++ rest) ∧
      Built pf g ws items g'

/-- Building a message leaves the configuration alone. -/
theorem GotMessage_config {buf : TBytes} {g g' : Globals} {r : Except Exn TMessage}
    (h : (GotMessage pf buf).exec g = some (r, g')) : g'.Config = g.Config := by
  rw [GotMessage_exec, Option.map_eq_some_iff] at h
  obtain ⟨⟨q, g₁⟩, hq, hr⟩ := h
  simp only [Prod.mk.injEq] at hr
  obtain ⟨-, rfl⟩ := hr
  by_cases hheader : HeaderOk pf buf
  · obtain ⟨ws, items, c, ⟨_, _, -, -, hbuilt, -⟩, -⟩ := (FromBytes_iff hheader).mp hq
    exact hbuilt.config
  · obtain ⟨_, -, -, hrun⟩ := FromBytes_of_not_headerOk hheader
    rw [hrun] at hq
    cases hq
    rfl

/-! ## 2. One round of the loop -/

section Round

variable {ε : Type}

theorem enqueueFrame_exec (pf : Platform) (aSocket : Int) (frame : TBytes) (w : World ε) :
    (enqueueFrame pf aSocket frame).exec w =
      ((GotMessage pf frame).exec w.globals).map fun q =>
        match q.1 with
        | .ok m => (.ok (), { w.setGlobals q.2 with
            ActionQueue := w.ActionQueue ++ [⟨aSocket, .heap m⟩] })
        | .error e => (.error e, w.setGlobals q.2) := by
  rw [enqueueFrame, exec_bind, World.onGlobals, exec_zoom]
  cases (GotMessage pf frame).exec w.globals with
  | none => rfl
  | some q =>
    obtain ⟨q, g'⟩ := q
    cases q <;> rfl

/-- The receiver after a frame has become a message. -/
def Receiver.took (r : Receiver ε) (aSocket : Int) (f : Frame) (rest : TBytes) (g' : Globals)
    (m : TMessage) : Receiver ε where
  buffer := rest
  closed := r.closed
  handed := r.handed ++ [f.bytes]
  world :=
    { r.world.setGlobals g' with ActionQueue := r.world.ActionQueue ++ [⟨aSocket, .heap m⟩] }

/-- The receiver when an exception has come out of `GotMessage`. -/
def Receiver.failed (r : Receiver ε) (f : Frame) (g' : Globals) : Receiver ε :=
  { r with handed := r.handed ++ [f.bytes], world := r.world.setGlobals g' }

/-- A complete frame at the front of the buffer. -/
theorem processRound_frame (pf : Platform) (aSocket : Int) {r : Receiver ε} {f : Frame}
    {rest : TBytes} (h : r.buffer = f.bytes ++ rest) :
    (processRound pf aSocket).exec r =
      ((GotMessage pf f.bytes).exec r.world.globals).map fun q =>
        match q.1 with
        | .ok m => (.ok true, r.took aSocket f rest q.2 m)
        | .error e => (.error e, r.failed f q.2) := by
  have hlen := f.length_bytes
  have hbuf : r.buffer.length = f.bytes.length + rest.length := by rw [h, List.length_append]
  have hsize : payloadSize r.buffer = f.payload.length := by rw [h, f.payloadSize_append]
  have hframe : sizeofTMessageHeader + f.payload.length + 1 = f.bytes.length := by
    rw [hlen, sizeofTMessageHeader]
    omega
  have htake : r.buffer.take f.bytes.length = f.bytes := by rw [h, List.take_left]
  have hdrop : r.buffer.drop f.bytes.length = rest := by rw [h, List.drop_left]
  rw [processRound, exec_get_bind,
    if_neg (Nat.not_lt_of_le (by rw [hbuf, sizeofTMessageHeader]; omega)), hsize,
    if_neg (Nat.not_lt_of_le f.fits), hframe,
    if_neg (Nat.not_lt_of_le (by rw [hbuf]; exact Nat.le_add_right ..)), takeFrame]
  simp only [exec_bind, exec_get, Option.bind_some, resume_ok, exec_modify, htake, onWorld,
    exec_zoom, enqueueFrame_exec]
  cases (GotMessage pf f.bytes).exec r.world.globals with
  | none => rfl
  | some q =>
    obtain ⟨q, g'⟩ := q
    cases q with
    | error e => rfl
    | ok m =>
      simp only [Option.map_some, Option.bind_some, resume_ok, exec_modify, hdrop]
      rfl

/-- A header that announces too much. -/
theorem processRound_oversize (pf : Platform) (aSocket : Int) {r : Receiver ε}
    (hlen : 5 ≤ r.buffer.length) (hover : maxPayloadLength < payloadSize r.buffer) :
    (processRound pf aSocket).exec r = some (.ok false,
      { r with
        buffer := []
        closed := true
        world := { r.world with ActionQueue := r.world.ActionQueue ++
          [⟨aSocket, .dangling { Id := 88, DataItems := [] }⟩] } }) := by
  have hnone (info : UInt32) := BuildSysError_text
    (by decide : 0 < (text "Payload length exceeds maxPayloadLength").length) (by decide) pf .Parse
    (ErrIndex ERR_MSG_LEN_MISMATCH) info r.world.globals
  rw [processRound, exec_get_bind, if_neg (Nat.not_lt_of_le hlen), if_pos hover, reportOversize]
  simp only [exec_bind, new_of_mem (by decide : (88 : TMessageId) ∈ ValidMessageIDs), exec_pure,
    Option.bind_some, resume_ok, onWorld, World.onGlobals, exec_zoom, hnone, Option.map_some]
  rfl

end Round

end EnetTcp
