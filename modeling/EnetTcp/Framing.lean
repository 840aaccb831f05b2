import EnetTcp.Crashes

/-!
# Cutting a stream into frames

A receiver gets a stream in chunks. What it hands to `GotMessage` is the run of
frames that the stream splits into, however it is cut, and its buffer holds what
is left over: the beginning of a frame, or nothing behind a header that announces
too much.

`chunkingInvariant_iff`: that is so for the streams whose frames do not crash, and
`nothingEscapes_iff`: so is that no exception but a text gets out.
-/

namespace EnetTcp

open Prog

variable {pf : Platform} {ε : Type}

/-! ## 1. Where no frame starts -/

/-- The string starts with a header that announces too much. -/
def Oversize (xs : TBytes) : Prop := 5 ≤ xs.length ∧ maxPayloadLength < payloadSize xs

instance (xs : TBytes) : Decidable (Oversize xs) := inferInstanceAs (Decidable (_ ∧ _))

/-- The string is the beginning of a frame, and its end is still to come. -/
def Waiting (xs : TBytes) : Prop :=
  xs.length < 5 ∨ (payloadSize xs ≤ maxPayloadLength ∧ xs.length < 5 + payloadSize xs + 1)

theorem oversize_or_waiting {xs : TBytes} (h : frameFormat.peel xs = none) :
    Oversize xs ∨ Waiting xs := by
  match xs, h with
  | mid :: l0 :: l1 :: l2 :: l3 :: xs, h =>
    have hsize : payloadSize (mid :: l0 :: l1 :: l2 :: l3 :: xs) =
        Bytes.ofLe [l0, l1, l2, l3] := rfl
    by_cases hfits : Bytes.ofLe [l0, l1, l2, l3] ≤ maxPayloadLength
    · refine .inr (.inr ⟨hfits, ?_⟩)
      have h : Frame.peel (mid :: l0 :: l1 :: l2 :: l3 :: xs) = none := h
      rw [Frame.peel, dif_pos hfits] at h
      cases hdrop : xs.drop (Bytes.ofLe [l0, l1, l2, l3]) with
      | nil =>
        have hlen := List.drop_eq_nil_iff.mp hdrop
        simp only [hsize, List.length_cons]
        omega
      | cons c ys =>
        rw [hdrop] at h
        cases h
    · refine .inl ⟨?_, Nat.lt_of_not_le hfits⟩
      simp only [List.length_cons]
      omega
  | [], _ | [_], _ | [_, _], _ | [_, _, _], _ | [_, _, _, _], _ => exact .inr (.inl (by simp))

/-- No frame starts at such a header, and later bytes do not change that. -/
theorem Oversize.peel_append {xs : TBytes} (h : Oversize xs) (ys : TBytes) :
    Oversize (xs ++ ys) ∧ frameFormat.peel (xs ++ ys) = none := by
  obtain ⟨hlen, hover⟩ := h
  have hsize : payloadSize (xs ++ ys) = payloadSize xs := by
    rw [payloadSize, payloadSize, List.drop_append_of_le_length (by omega),
      List.take_append_of_le_length (by rw [List.length_drop]; omega)]
  refine ⟨⟨?_, hsize ▸ hover⟩, ?_⟩
  · rw [List.length_append]
    omega
  · cases hpeel : frameFormat.peel (xs ++ ys) with
    | none => rfl
    | some p =>
      obtain ⟨f, zs⟩ := p
      have hfits : payloadSize (xs ++ ys) ≤ maxPayloadLength := by
        rw [frameFormat.eq_of_peel hpeel]
        exact (f.payloadSize_append zs).symm ▸ f.fits
      exact absurd (hsize ▸ hfits) (Nat.not_le_of_lt hover)

/-! ## 2. One chunk -/

/-- The receiver has cut `frames` off what it had, each has become one message on
the queue, and `rest` is left. An oversize header gives one report. -/
structure Cuts (aSocket : Int) (r : Receiver ε) (frames : List Frame) (rest : TBytes)
    (r' : Receiver ε) : Prop where
  handed : r'.handed = r.handed ++ frames.map Frame.bytes
  buffer : r'.buffer = if Oversize rest then [] else rest
  waits : ¬Oversize rest → Waiting rest
  closed : r'.closed = decide (Oversize rest)
  queue : ∃ messages : List TMessage, messages.length = frames.length ∧
    r'.world.ActionQueue = r.world.ActionQueue ++ messages.map (⟨aSocket, .heap ·⟩) ++
      if Oversize rest then [⟨aSocket, .dangling { Id := 88, DataItems := [] }⟩] else []

namespace FramingLemmas

/-- Too few bytes for a frame. -/
theorem processRound_waiting (pf : Platform) (aSocket : Int) {r : Receiver ε}
    (h : Waiting r.buffer) : (processRound pf aSocket).exec r = some (.ok false, r) := by
  rw [processRound, exec_get_bind]
  simp only
  by_cases hheader : r.buffer.length < 5
  · rw [if_pos hheader]
    rfl
  · obtain ⟨hfits, hshort⟩ := h.resolve_left hheader
    rw [if_neg hheader, if_neg (Nat.not_lt_of_le hfits), if_pos hshort]
    rfl

/-- The loop ends in front of what is no frame. -/
theorem processLoop_stops (pf : Platform) (aSocket : Int) {r : Receiver ε}
    (hopen : r.closed = false) (h : frameFormat.peel r.buffer = none) (fuel : Nat) :
    ∃ r', (processLoop pf aSocket (fuel + 1)).exec r = some (.ok (), r') ∧
      Cuts aSocket r [] r.buffer r' := by
  have hround {r' : Receiver ε} (h : (processRound pf aSocket).exec r = some (.ok false, r')) :
      (processLoop pf aSocket (fuel + 1)).exec r = some (.ok (), r') := by
    rw [processLoop, exec_bind, h]
    rfl
  by_cases hover : Oversize r.buffer
  · refine ⟨_, hround (processRound_oversize pf aSocket hover.1 hover.2),
      (List.append_nil _).symm, ?_, fun h => absurd hover h, ?_, [], rfl, ?_⟩
    · rw [if_pos hover]
    · rw [decide_eq_true hover]
    · rw [if_pos hover, List.map_nil, List.append_nil]
  · have hwait : Waiting r.buffer := (oversize_or_waiting h).resolve_left hover
    refine ⟨r, hround (processRound_waiting pf aSocket hwait),
      (List.append_nil _).symm, ?_, fun _ => hwait, ?_, [], rfl, ?_⟩
    · rw [if_neg hover]
    · rw [decide_eq_false hover, hopen]
    · rw [if_neg hover, List.map_nil, List.append_nil, List.append_nil]

/-- Cutting goes on from a receiver that has the same record and the same queue. -/
theorem cuts_trans {aSocket : Int} {r r₁ r₁' r₂ : Receiver ε} {frames frames' : List Frame}
    {rest rest' : TBytes} (h : Cuts aSocket r frames rest r₁) (hrest : ¬Oversize rest)
    (hhanded : r₁'.handed = r₁.handed) (hqueue : r₁'.world.ActionQueue = r₁.world.ActionQueue)
    (h' : Cuts aSocket r₁' frames' rest' r₂) : Cuts aSocket r (frames ++ frames') rest' r₂ := by
  obtain ⟨ms, hms, hq⟩ := h.queue
  obtain ⟨ms', hms', hq'⟩ := h'.queue
  refine ⟨?_, h'.buffer, h'.waits, h'.closed, ms ++ ms', ?_, ?_⟩
  · rw [h'.handed, hhanded, h.handed, List.map_append, List.append_assoc]
  · rw [List.length_append, List.length_append, hms, hms']
  · rw [hq', hqueue, hq, if_neg hrest, List.append_nil, List.map_append]
    simp only [List.append_assoc]

end FramingLemmas

open FramingLemmas

/-- The loop hands over the frames that the buffer splits into, and ends. -/
theorem processLoop_run (pf : Platform) (aSocket : Int) {frames : List Frame} {rest : TBytes}
    {r : Receiver ε} (hopen : r.closed = false) (h : frameFormat.Splits r.buffer frames rest)
    (hlive : ∀ f ∈ frames, ∀ g, g.Config = r.world.machine.Config → ¬Crashes pf g f)
    {fuel : Nat} (hfuel : r.buffer.length < fuel) :
    ∃ r', (processLoop pf aSocket fuel).exec r = some (.ok (), r') ∧
      Cuts aSocket r frames rest r' := by
  induction frames generalizing r fuel with
  | nil =>
    obtain ⟨fuel, rfl⟩ : ∃ k, fuel = k + 1 := ⟨fuel - 1, by omega⟩
    obtain ⟨heq, hstop⟩ := h
    rw [RecordFormat.encodeAll_nil, List.nil_append] at heq
    rw [← heq] at hstop ⊢
    exact processLoop_stops pf aSocket hopen hstop fuel
  | cons f frames ih =>
    obtain ⟨fuel, rfl⟩ : ∃ k, fuel = k + 1 := ⟨fuel - 1, by omega⟩
    obtain ⟨heq, hstop⟩ := h
    rw [RecordFormat.encodeAll_cons, List.append_assoc] at heq
    obtain ⟨hf, hframes⟩ := List.forall_mem_cons.mp hlive
    obtain ⟨m, g', hm⟩ := GotMessage_returns_iff.mpr (hf r.world.globals rfl)
    have hround := processRound_frame pf aSocket heq
    rw [hm, Option.map_some] at hround
    have hlen : r.buffer.length =
        f.bytes.length + (frameFormat.encodeAll frames ++ rest).length := by
      rw [heq, List.length_append]
      rfl
    have hpos := frameFormat.length_encode_pos f
    have hshorter : (frameFormat.encodeAll frames ++ rest).length < fuel := by
      have hbytes : (frameFormat.encode f).length = f.bytes.length := rfl
      omega
    obtain ⟨r', hrun, hcuts⟩ := ih
      (r := r.took aSocket f (frameFormat.encodeAll frames ++ rest) g' m) hopen ⟨rfl, hstop⟩
      (fun f' hf' g hg => hframes f' hf' g (hg.trans (GotMessage_config hm))) hshorter
    refine ⟨r', ?_, ?_⟩
    · rw [processLoop, exec_bind, hround]
      exact hrun
    · obtain ⟨ms, hms, hq⟩ := hcuts.queue
      refine ⟨?_, hcuts.buffer, hcuts.waits, hcuts.closed, m :: ms, ?_, ?_⟩
      · rw [hcuts.handed, List.map_cons, ← List.singleton_append, ← List.append_assoc]
        rfl
      · rw [List.length_cons, List.length_cons, hms]
      · rw [hq, List.map_cons, List.append_cons r.world.ActionQueue]
        rfl

/-! ## 3. The stream -/

namespace FramingLemmas

section

variable {aSocket : Int} {r : Receiver ε} {g : Globals} {chunk : TBytes}

/-- The receiver in front of its loop. -/
def fed (r : Receiver ε) (g : Globals) (chunk : TBytes) : Receiver ε :=
  { r with buffer := r.buffer ++ chunk, world := r.world.setGlobals g }

/-- A step on an open socket runs the loop. -/
theorem receiveStep_exec (hopen : r.closed = false) :
    (receiveStep pf aSocket (g, chunk)).exec r =
      ((processLoop pf aSocket ((r.buffer ++ chunk).length + 1)).exec (fed r g chunk)).map fun q =>
        match q.1 with
        | .error (.logicError _) => (.ok (), q.2)
        | _ => q := by
  obtain ⟨buffer, closed, handed, w⟩ := r
  obtain rfl : closed = false := hopen
  rw [receiveStep, exec_bind, onWorld, exec_zoom, exec_modify, Option.map_some, Option.bind_some,
    resume_ok, receiveChunk, exec_get_bind]
  simp only [Bool.false_eq_true, if_false]
  rw [exec_bind, exec_modify, Option.bind_some, resume_ok, exec_bind, exec_attempt, ProcessMessages,
    exec_get_bind]
  show Option.bind (Option.map _ ((processLoop pf aSocket ((buffer ++ chunk).length + 1)).exec
    (fed ⟨buffer, false, handed, w⟩ g chunk))) _ = _
  cases (processLoop pf aSocket ((buffer ++ chunk).length + 1)).exec
    (fed ⟨buffer, false, handed, w⟩ g chunk) with
  | none => rfl
  | some q =>
    obtain ⟨q, r'⟩ := q
    cases q with
    | ok => rfl
    | error e => cases e <;> rfl

theorem receiveStep_closed (hclosed : r.closed = true) :
    (receiveStep pf aSocket (g, chunk)).exec r =
      some (.ok (), { r with world := r.world.setGlobals g }) := by
  obtain ⟨buffer, closed, handed, w⟩ := r
  obtain rfl : closed = true := hclosed
  rfl

end

theorem receiveSteps_cons (pf : Platform) (aSocket : Int) (step : Globals × TBytes)
    (steps : List (Globals × TBytes)) (r : Receiver ε) :
    (receiveSteps pf aSocket (step :: steps)).exec r =
      ((receiveStep pf aSocket step).exec r).bind
        (resume fun _ => receiveSteps pf aSocket steps) := by
  rw [← exec_bind]
  rfl

theorem receiveSteps_append (pf : Platform) (aSocket : Int) (steps more : List (Globals × TBytes))
    (r : Receiver ε) :
    (receiveSteps pf aSocket (steps ++ more)).exec r =
      ((receiveSteps pf aSocket steps).exec r).bind
        (resume fun _ => receiveSteps pf aSocket more) := by
  induction steps generalizing r with
  | nil => rfl
  | cons step steps ih =>
    rw [List.cons_append, receiveSteps_cons, receiveSteps_cons, Option.bind_assoc]
    congr 1
    funext ⟨q, r'⟩
    cases q with
    | error e => rfl
    | ok => exact ih r'

/-- Behind an oversize header nothing is taken in any more. -/
theorem receiveSteps_closed (pf : Platform) (aSocket : Int) (steps : List (Globals × TBytes))
    {r : Receiver ε} (hclosed : r.closed = true) :
    ∃ r', (receiveSteps pf aSocket steps).exec r = some (.ok ⟨⟩, r') ∧ r'.handed = r.handed ∧
      r'.buffer = r.buffer ∧ r'.closed = true ∧ r'.world.ActionQueue = r.world.ActionQueue := by
  induction steps generalizing r with
  | nil => exact ⟨r, rfl, rfl, rfl, hclosed, rfl⟩
  | cons step steps ih =>
    obtain ⟨g, chunk⟩ := step
    obtain ⟨r', hrun, hhanded, hbuffer, hclosed', hqueue⟩ :=
      ih (r := { r with world := r.world.setGlobals g }) hclosed
    refine ⟨r', ?_, hhanded, hbuffer, hclosed', hqueue⟩
    rw [receiveSteps_cons, receiveStep_closed hclosed]
    exact hrun

end FramingLemmas

/-- Chunk after chunk, the receiver cuts what it has got so far. -/
theorem receiveSteps_run (pf : Platform) (aSocket : Int) {steps : List (Globals × TBytes)}
    {frames : List Frame} {rest : TBytes} {r : Receiver ε} (hopen : r.closed = false)
    (hstop : frameFormat.peel r.buffer = none) (hbuffer : ¬Oversize r.buffer)
    (h : frameFormat.Splits (r.buffer ++ steps.flatMap Prod.snd) frames rest)
    (hlive : ∀ f ∈ frames, ∀ s ∈ steps, ∀ g : Globals, g.Config = s.1.Config → ¬Crashes pf g f) :
    ∃ r', (receiveSteps pf aSocket steps).exec r = some (.ok ⟨⟩, r') ∧
      Cuts aSocket r frames rest r' := by
  induction steps generalizing r frames with
  | nil =>
    rw [List.flatMap_nil, List.append_nil] at h
    obtain ⟨rfl, rfl⟩ := frameFormat.splits_unique h (frameFormat.splits_of_stop hstop)
    refine ⟨r, rfl, (List.append_nil _).symm, by rw [if_neg hbuffer],
      fun _ => (oversize_or_waiting hstop).resolve_left hbuffer, ?_, [], rfl, ?_⟩
    · rw [decide_eq_false hbuffer, hopen]
    · rw [if_neg hbuffer, List.map_nil, List.append_nil, List.append_nil]
  | cons step steps ih =>
    obtain ⟨g, chunk⟩ := step
    obtain ⟨frames₁, rest₁, h₁⟩ := frameFormat.exists_splits (r.buffer ++ chunk)
    obtain ⟨frames₂, rest₂, h₂⟩ := frameFormat.exists_splits (rest₁ ++ steps.flatMap Prod.snd)
    have hboth := frameFormat.splits_append h₁ h₂
    rw [List.append_assoc] at hboth
    obtain ⟨rfl, rfl⟩ := frameFormat.splits_unique h hboth
    obtain ⟨r₁, hrun₁, hcuts₁⟩ := processLoop_run pf aSocket (r := fed r g chunk) hopen h₁
      (fun f hf g' hg' => hlive f (List.mem_append_left _ hf) _ List.mem_cons_self g' hg')
      (Nat.lt_succ_self _)
    have hstep : (receiveStep pf aSocket (g, chunk)).exec r = some (.ok (), r₁) := by
      rw [receiveStep_exec hopen]
      show Option.map _ ((processLoop pf aSocket ((fed r g chunk).buffer.length + 1)).exec _) = _
      rw [hrun₁]
      rfl
    rw [receiveSteps_cons, hstep, Option.bind_some, resume_ok]
    have hcuts : Cuts aSocket r frames₁ rest₁ r₁ := ⟨hcuts₁.handed, hcuts₁.buffer, hcuts₁.waits,
      hcuts₁.closed, hcuts₁.queue⟩
    by_cases hover : Oversize rest₁
    · obtain ⟨hover', hpeel⟩ := hover.peel_append (steps.flatMap Prod.snd)
      obtain ⟨rfl, rfl⟩ := frameFormat.splits_unique h₂ (frameFormat.splits_of_stop hpeel)
      obtain ⟨r', hrun, hhanded, hbuf, hclosed, hqueue⟩ := receiveSteps_closed pf aSocket
        steps (hcuts.closed.trans (decide_eq_true hover))
      refine ⟨r', hrun, ?_, ?_, fun h => absurd hover' h, ?_, ?_⟩
      · rw [hhanded, hcuts.handed, List.append_nil]
      · rw [hbuf, hcuts.buffer, if_pos hover, if_pos hover']
      · rw [hclosed, decide_eq_true hover']
      · rw [hqueue, List.append_nil, if_pos hover']
        have hq := hcuts.queue
        rwa [if_pos hover] at hq
    · have hbuf : r₁.buffer = rest₁ := hcuts.buffer.trans (if_neg hover)
      obtain ⟨r₂, hrun₂, hcuts₂⟩ := ih (r := r₁) (hcuts.closed.trans (decide_eq_false hover))
        (hbuf.symm ▸ h₁.stop) (hbuf.symm ▸ hover) (hbuf.symm ▸ h₂)
        (fun f hf s hs => hlive f (List.mem_append_right _ hf) s (List.mem_cons_of_mem _ hs))
      exact ⟨r₂, hrun₂, cuts_trans hcuts hover rfl rfl hcuts₂⟩

/-- However a stream is cut into chunks, and whatever configurations other threads
leave behind in between: what has come in is split into frames, and all of them and
nothing else are handed over. -/
def ChunkingInvariant (pf : Platform) (Configs : TConfig → Prop) (aSocket : Int) (w : World ε)
    (stream : TBytes) : Prop :=
  ∀ steps : List (Globals × TBytes), (∀ s ∈ steps, Configs s.1.Config ∧ s.2 ≠ []) →
    steps.flatMap Prod.snd <+: stream →
      ∃ frames rest r, frameFormat.Splits (steps.flatMap Prod.snd) frames rest ∧
        (receiveSteps pf aSocket steps).exec { world := w } = some (.ok ⟨⟩, r) ∧
        Cuts aSocket { world := w } frames rest r

namespace FramingLemmas

/-- A step that ends well has not met a frame that crashes. -/
theorem not_crashes_of_step {aSocket : Int} {r r' : Receiver ε} {g : Globals} {f : Frame}
    (hopen : r.closed = false) (hbuffer : r.buffer = [])
    (h : (receiveStep pf aSocket (g, f.bytes)).exec r = some (.ok (), r')) : ¬Crashes pf g f := by
  have hround := processRound_frame pf aSocket (r := fed r g f.bytes)
    (show r.buffer ++ f.bytes = f.bytes ++ [] by rw [hbuffer, List.nil_append, List.append_nil])
  rw [receiveStep_exec hopen, processLoop, exec_bind, hround] at h
  refine GotMessage_returns_iff.mp ?_
  cases hm : (GotMessage pf f.bytes).exec g with
  | none =>
    rw [show (fed r g f.bytes).world.globals = g from rfl, hm] at h
    cases h
  | some q =>
    obtain ⟨q, g'⟩ := q
    match q with
    | .ok m => exact ⟨m, g', rfl⟩
    | .error x =>
      rw [show (fed r g f.bytes).world.globals = g from rfl, hm] at h
      rw [GotMessage_exec, Option.map_eq_some_iff] at hm
      obtain ⟨⟨q, g₁⟩, hparse, hq⟩ := hm
      have hx := congrArg Prod.fst hq
      match q, x with
      | .error (.stdException _), .stdException _ => cases h
      | .error .unknown, .unknown => cases h

end FramingLemmas

/-- Framing does not depend on the chunks, for the streams whose frames do not crash. -/
theorem chunkingInvariant_iff {Configs : TConfig → Prop} {aSocket : Int} {w : World ε}
    {stream : TBytes} :
    ChunkingInvariant pf Configs aSocket w stream ↔
      ∀ frames rest, frameFormat.Splits stream frames rest →
        ∀ f ∈ frames, ∀ g : Globals, Configs g.Config → ¬Crashes pf g f := by
  have hnil : frameFormat.peel [] = none := rfl
  have hshort : ¬Oversize [] := by decide
  constructor
  · intro h frames rest hsplits f hf g hg
    obtain ⟨pre, post, rfl⟩ := List.append_of_mem hf
    -- one chunk for each frame, up to the one that is asked for
    let before := pre.map fun f' => (g, f'.bytes)
    have hbefore : before.flatMap Prod.snd = frameFormat.encodeAll pre := by
      rw [List.flatMap_map]
      rfl
    have hchunks : ∀ s ∈ before ++ [(g, f.bytes)], Configs s.1.Config ∧ s.2 ≠ [] := by
      intro s hs
      rcases List.mem_append.mp hs with hs | hs
      · obtain ⟨f', -, rfl⟩ := List.mem_map.mp hs
        exact ⟨hg, frameFormat.encode_ne_nil f'⟩
      · obtain rfl := List.mem_singleton.mp hs
        exact ⟨hg, frameFormat.encode_ne_nil f⟩
    have hprefix : (before ++ [(g, f.bytes)]).flatMap Prod.snd <+: stream := by
      refine ⟨frameFormat.encodeAll post ++ rest, ?_⟩
      rw [List.flatMap_append, hbefore, hsplits.eq, RecordFormat.encodeAll_append,
        RecordFormat.encodeAll_cons]
      simp only [List.flatMap_cons, List.flatMap_nil, List.append_nil, List.append_assoc]
      rfl
    obtain ⟨frames₁, rest₁, r₁, hsplits₁, hrun₁, hcuts₁⟩ :=
      h before (fun s hs => hchunks s (List.mem_append_left _ hs))
        (List.IsPrefix.trans (by rw [List.flatMap_append]; exact List.prefix_append _ _) hprefix)
    obtain ⟨_, _, r₂, -, hrun₂, -⟩ := h _ hchunks hprefix
    have hrest : rest₁ = [] := by
      rw [hbefore] at hsplits₁
      exact (frameFormat.splits_unique hsplits₁
        ⟨(List.append_nil (frameFormat.encodeAll pre)).symm, hnil⟩).2
    subst hrest
    rw [receiveSteps_append, hrun₁, Option.bind_some, resume_ok, receiveSteps_cons,
      Option.bind_eq_some_iff] at hrun₂
    obtain ⟨⟨q, r'⟩, hstep, hend⟩ := hrun₂
    cases q with
    | error x => cases hend
    | ok =>
      exact not_crashes_of_step (hcuts₁.closed.trans (decide_eq_false hshort))
        (hcuts₁.buffer.trans (if_neg hshort)) hstep
  · intro h steps hsteps hprefix
    obtain ⟨more, rfl⟩ := hprefix
    obtain ⟨frames₁, rest₁, h₁⟩ := frameFormat.exists_splits (steps.flatMap Prod.snd)
    obtain ⟨frames₂, rest₂, h₂⟩ := frameFormat.exists_splits (rest₁ ++ more)
    have hlive := h _ _ (frameFormat.splits_append h₁ h₂)
    obtain ⟨r, hrun, hcuts⟩ := receiveSteps_run pf aSocket (r := { world := w }) rfl hnil
      hshort h₁ fun f hf s hs g hg =>
        hlive f (List.mem_append_left _ hf) g (hg ▸ (hsteps s hs).1)
    exact ⟨frames₁, rest₁, r, h₁, hrun, hcuts⟩

/-- A command with a `SYS_UploadFileName` that has no data, then an empty query. -/
def exNameless : TBytes :=
  [0x43, 4, 0, 0, 0, 0x01, 0xEF, 0, 0, 0xC9, 0x51, 0, 0, 0, 0, 0xAF]

/-- The first frame ends the daemon, and the second one is never handed over. -/
theorem nameless_upload_crashes :
    ¬ChunkingInvariant exPlatform (fun c => c = InitConfig) 0 (exWorld []) exNameless := by
  intro h
  obtain ⟨frames, rest, r, -, hrun, -⟩ := h [(exGlobals, exNameless)]
    (fun s hs => by
      obtain rfl := List.mem_singleton.mp hs
      exact ⟨rfl, List.cons_ne_nil _ _⟩)
    ⟨[], rfl⟩
  have hcrash : ((receiveSteps exPlatform 0 [(exGlobals, exNameless)]).exec
      { world := exWorld [] }).map (fun q => q.1.toBool) = some false := by rfl
  rw [hrun] at hcrash
  cases hcrash

/-! ## 4. What gets out -/

/-- Wherever a frame may start in the stream: no exception but a text gets out of
`ProcessMessages` on what follows there, and `GotMessage` returns on the frame. -/
def NothingEscapes (ε : Type) (pf : Platform) (Configs : TConfig → Prop) (stream : TBytes) : Prop :=
  ∀ taken : List Frame,
    (∀ buffer more, stream = frameFormat.encodeAll taken ++ (buffer ++ more) →
      ∀ (aSocket : Int) (r r' : Receiver ε) (x : Exn), r.buffer = buffer → r.closed = false →
        Configs r.world.machine.Config →
        (ProcessMessages pf aSocket).exec r = some (.error x, r') → IsText x) ∧
    (∀ f more, stream = frameFormat.encodeAll taken ++ (Frame.bytes f ++ more) →
      ∀ g : Globals, Configs g.Config → ∃ m g', (GotMessage pf f.bytes).exec g = some (.ok m, g'))

/-- Nothing escapes from the streams whose frames do not crash. -/
theorem nothingEscapes_iff {Configs : TConfig → Prop} {stream : TBytes} :
    NothingEscapes ε pf Configs stream ↔
      ∀ frames rest, frameFormat.Splits stream frames rest →
        ∀ f ∈ frames, ∀ g : Globals, Configs g.Config → ¬Crashes pf g f := by
  constructor
  · intro h frames rest hsplits f hf g hg
    obtain ⟨pre, post, rfl⟩ := List.append_of_mem hf
    refine GotMessage_returns_iff.mp ((h pre).2 f (frameFormat.encodeAll post ++ rest) ?_ g hg)
    rw [hsplits.eq, RecordFormat.encodeAll_append, RecordFormat.encodeAll_cons, List.append_assoc,
      List.append_assoc]
    rfl
  · intro h taken
    -- the frames of a later part of the stream are frames of the stream
    have hlive (xs : TBytes) (hxs : stream = frameFormat.encodeAll taken ++ xs)
        (frames : List Frame) (rest : TBytes) (hsplits : frameFormat.Splits xs frames rest) :
        ∀ f ∈ frames, ∀ g : Globals, Configs g.Config → ¬Crashes pf g f := by
      have hall : frameFormat.Splits stream (taken ++ frames) rest := by
        refine ⟨?_, hsplits.stop⟩
        rw [hxs, hsplits.eq, RecordFormat.encodeAll_append, List.append_assoc]
      exact fun f hf => h _ _ hall f (List.mem_append_right taken hf)
    constructor
    · rintro buffer more hstream aSocket r r' x rfl hopen hconfig hrun
      obtain ⟨frames, rest, hsplits⟩ := frameFormat.exists_splits r.buffer
      obtain ⟨frames', rest', hmore⟩ := frameFormat.exists_splits (rest ++ more)
      have hframes := hlive _ hstream _ _ (frameFormat.splits_append hsplits hmore)
      obtain ⟨r₁, hrun₁, -⟩ := processLoop_run pf aSocket hopen hsplits
        (fun f hf g hg => hframes f (List.mem_append_left _ hf) g (hg ▸ hconfig))
        (Nat.lt_succ_self _)
      rw [ProcessMessages, exec_get_bind, hrun₁] at hrun
      cases hrun
    · intro f more hstream g hg
      obtain ⟨frames, rest, hsplits⟩ := frameFormat.exists_splits more
      refine GotMessage_returns_iff.mpr (hlive _ hstream (f :: frames) rest ?_ f
        List.mem_cons_self g hg)
      exact ⟨by rw [hsplits.eq, RecordFormat.encodeAll_cons, List.append_assoc]; rfl, hsplits.stop⟩

/-- The exception of the file name without data is no text. -/
theorem nameless_upload_escapes :
    ¬NothingEscapes Unit exPlatform (fun c => c = InitConfig) exNameless := by
  intro h
  have hthrow : ((ProcessMessages exPlatform 0).exec
      { buffer := exNameless, world := exWorld [] }).map (fun q => q.1) =
        some (.error (.stdException
          (text "filesystem error: cannot make absolute path: Invalid argument []"))) := by
    rfl
  obtain ⟨⟨q, r'⟩, hrun, rfl⟩ := Option.map_eq_some_iff.mp hthrow
  obtain ⟨what, hwhat⟩ := (h []).1 exNameless [] rfl 0 _ r' _ rfl rfl rfl hrun
  cases hwhat

end EnetTcp
