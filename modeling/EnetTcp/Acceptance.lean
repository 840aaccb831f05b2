import EnetTcp.Parsing

/-!
# Which buffers are accepted

`WellFormed` is the message format of the documentation, and `LooseReading` is what
the parser accepts in full (`FromBytes_succeeds_iff`). Every well-formed buffer has such
a reading (`looseReading_of_wellFormed`), and some others have one too:
`acceptsExactly_iff` names them.

The second part is about the buffers that are not accepted. Their items are
built all the same before the error is found, and one of them may claim the ADC
stream (`keepsGlobals_iff`).

The third part is about corruption: an accepted buffer with one byte changed is
rejected (`corrupted_rejected`).
-/

namespace EnetTcp

open Prog

variable {pf : Platform}

/-! ## 1. Well-formed messages -/

/-- The buffer is a message of the data items `ws`, and they are built as `items`. -/
structure WellFormed (pf : Platform) (g : Globals) (buf : TBytes) (ws : List WireItem)
    (items : List TDataItem) (g' : Globals) : Prop where
  id : buf.headD 0 ∈ ValidMessageIDs
  size : buf.length = payloadSize buf + 6
  payload : (buf.drop 5).take (payloadSize buf) = itemFormat.encodeAll ws
  built : Built pf g ws items g'
  sum : calculateChecksum buf = 0

/-- `FromBytes` succeeds on well-formed messages only, and gives their items. -/
def AcceptsExactly (pf : Platform) (g : Globals) (buf : TBytes) : Prop :=
  ∀ m g', (FromBytes pf buf).exec g = some (.ok (m, ERR_SUCCESS), g') ↔
    ∃ ws items, WellFormed pf g buf ws items g' ∧ m = { Id := buf.headD 0, DataItems := items }

/-- What `FromBytes` asks of a buffer. The search for the id runs past the table,
the length is compared modulo `2 ^ 32` and may be less than what the buffer has,
and up to three bytes of the payload may be left over. -/
structure LooseReading (pf : Platform) (g : Globals) (buf : TBytes) (ws : List WireItem)
    (items : List TDataItem) (g' : Globals) (leftover : Nat) : Prop where
  header : HeaderOk pf buf
  payload : ∃ rest, buf.drop 5 = itemFormat.encodeAll ws ++ rest
  size : payloadSize buf = (itemFormat.encodeAll ws).length + leftover
  leftover_lt : leftover < 4
  built : Built pf g ws items g'
  sum : calculateChecksum buf = 0

/-- The reading is one that the format does not have. -/
def LooseReading.Wrong (buf : TBytes) (leftover : Nat) : Prop :=
  buf.headD 0 ∉ ValidMessageIDs ∨ buf.length ≠ payloadSize buf + 6 ∨ leftover ≠ 0

namespace AcceptanceLemmas

/-- A loop that ends without an error has at most three bytes left over. -/
theorem stops_success {g : Globals} {bytes : TBytes} {n : Nat}
    (h : Stops pf g bytes n (.ok ERR_SUCCESS)) : n < 4 := by
  cases h
  assumption

end AcceptanceLemmas

open AcceptanceLemmas

/-- The buffers that are accepted, and what is made of them. -/
theorem FromBytes_succeeds_iff {buf : TBytes} {g g' : Globals} {m : TMessage} :
    (FromBytes pf buf).exec g = some (.ok (m, ERR_SUCCESS), g') ↔
      ∃ ws items leftover, LooseReading pf g buf ws items g' leftover ∧
        m = { Id := buf.headD 0, DataItems := items } := by
  by_cases hheader : HeaderOk pf buf
  · rw [FromBytes_iff hheader]
    constructor
    · rintro ⟨ws, items, c, ⟨rest, k, hbytes, hsize, hbuilt, hstops⟩, hr⟩
      match c, hr with
      | .ok code, hr =>
        simp only [finish, Except.map, Except.ok.injEq] at hr
        split at hr
        · cases hr
        · rename_i hsum
          simp only [Prod.mk.injEq] at hr
          obtain ⟨rfl, rfl⟩ := hr
          exact ⟨ws, items, k, ⟨hheader, ⟨rest, hbytes⟩, hsize, stops_success hstops, hbuilt,
            Decidable.not_not.mp hsum⟩, rfl⟩
    · rintro ⟨ws, items, k, ⟨-, ⟨rest, hbytes⟩, hsize, hk, hbuilt, hsum⟩, rfl⟩
      refine ⟨ws, items, .ok ERR_SUCCESS, ⟨rest, k, hbytes, hsize, hbuilt, .leftover hk⟩, ?_⟩
      simp only [finish, Except.map, hsum, ne_eq, not_true_eq_false, if_false]
  · obtain ⟨r, hr, -, hrun⟩ := FromBytes_of_not_headerOk hheader
    constructor
    · intro h
      rw [hrun] at h
      cases h
      exact absurd rfl (hr m _ rfl).2
    · rintro ⟨ws, items, k, hloose, rfl⟩
      exact absurd hloose.header hheader

namespace AcceptanceLemmas

theorem looseReading_of_wellFormed {g g' : Globals} {buf : TBytes} {ws : List WireItem}
    {items : List TDataItem} (h : WellFormed pf g buf ws items g') :
    LooseReading pf g buf ws items g' 0 := by
  have hlen := h.size
  have hsplit := List.take_append_drop (payloadSize buf) (buf.drop 5)
  have hpayload := congrArg List.length h.payload
  rw [List.length_take, List.length_drop] at hpayload
  refine ⟨⟨by omega, isValidMessageID_of_mem h.id, ?_⟩, ⟨_, (h.payload ▸ hsplit).symm⟩, by omega,
    by decide, h.built, h.sum⟩
  exact Nat.le_trans (Nat.mod_le ..) (by omega)

/-- A frame around the bytes of items reads as these items. -/
theorem looseReading_frameBytes {g g' : Globals} {mid : TMessageId}
    (hid : isValidMessageID pf mid = true) {parts : List TBytes} {ws : List WireItem}
    (hparts : parts.flatten = itemFormat.encodeAll ws)
    (hsize : (itemFormat.encodeAll ws).length < 2 ^ 32) {items : List TDataItem}
    (hbuilt : Built pf g ws items g') : LooseReading pf g (frameBytes mid parts) ws items g' 0 := by
  have hlen : (frameBytes mid parts).length = _ + 6 := length_frameBytes
  have hpayload : payloadSize (frameBytes mid parts) = (itemFormat.encodeAll ws).length := by
    rw [payloadSize_frameBytes, hparts, Nat.mod_eq_of_lt hsize]
  rw [hparts] at hlen
  obtain ⟨sum, hsum⟩ : ∃ sum, (frameBytes mid parts).drop 5 = parts.flatten ++ [sum] :=
    drop_frameBytes
  refine ⟨⟨by omega, hid, Nat.le_trans (Nat.mod_le ..) (by omega)⟩, ⟨[sum], ?_⟩, hpayload,
    by decide, hbuilt, checksum_frameBytes⟩
  rw [hsum, hparts]

/-- A reading without a fault is well-formed. -/
theorem wellFormed_of_looseReading {g g' : Globals} {buf : TBytes} {ws : List WireItem}
    {items : List TDataItem} {leftover : Nat}
    (h : LooseReading pf g buf ws items g' leftover) (hright : ¬LooseReading.Wrong buf leftover) :
    WellFormed pf g buf ws items g' := by
  simp only [LooseReading.Wrong, not_or, Decidable.not_not] at hright
  obtain ⟨hid, hlen, rfl⟩ := hright
  obtain ⟨rest, hrest⟩ := h.payload
  refine ⟨hid, hlen, ?_, h.built, h.sum⟩
  rw [hrest, h.size, Nat.add_zero, List.take_left]

/-- A payload of complete items is read as these items. -/
theorem looseReading_items {g g' : Globals} {buf : TBytes} {ws ws' : List WireItem}
    {items : List TDataItem} {leftover : Nat} (h : LooseReading pf g buf ws' items g' leftover)
    (hbuf : (buf.drop 5).take (payloadSize buf) = itemFormat.encodeAll ws) : ws' = ws := by
  obtain ⟨rest, hrest⟩ := h.payload
  have hpayload : itemFormat.encodeAll ws' ++ rest.take leftover = itemFormat.encodeAll ws := by
    rw [← hbuf, hrest, h.size, List.take_length_add_append]
  -- the leftover bytes are too short to be the header of an item
  have hstop : itemFormat.peel (rest.take leftover) = none :=
    WireItem.peel_of_short (Nat.lt_of_le_of_lt (List.length_take_le ..) h.leftover_lt)
  have hsplits : itemFormat.Splits (itemFormat.encodeAll ws) ws' (rest.take leftover) :=
    ⟨hpayload.symm, hstop⟩
  have hnil : itemFormat.Splits (itemFormat.encodeAll ws) ws [] :=
    ⟨(List.append_nil _).symm, rfl⟩
  exact (itemFormat.splits_unique hsplits hnil).1

/-- A well-formed buffer has no reading with a fault. -/
theorem not_wrong_of_wellFormed {g g₁ g₂ : Globals} {buf : TBytes} {ws ws' : List WireItem}
    {items items' : List TDataItem} {leftover : Nat} (h : WellFormed pf g buf ws items g₁)
    (h' : LooseReading pf g buf ws' items' g₂ leftover) : ¬LooseReading.Wrong buf leftover := by
  have hlen := h.size
  have hsize := congrArg List.length h.payload
  rw [List.length_take, List.length_drop] at hsize
  obtain rfl := looseReading_items h' h.payload
  have hleftover := h'.size
  rintro (hid | hwrong | hwrong)
  · exact hid h.id
  · exact hwrong hlen
  · omega

end AcceptanceLemmas

/-- The documented format is exactly what is accepted, for the buffers without a
loose reading that the format does not have. -/
theorem acceptsExactly_iff {g : Globals} {buf : TBytes} :
    AcceptsExactly pf g buf ↔ ∀ ws items g' leftover,
      LooseReading pf g buf ws items g' leftover → ¬LooseReading.Wrong buf leftover := by
  constructor
  · intro h ws items g' leftover hloose
    obtain ⟨ws', items', hwell, -⟩ :=
      (h _ g').mp (FromBytes_succeeds_iff.mpr ⟨ws, items, leftover, hloose, rfl⟩)
    exact not_wrong_of_wellFormed hwell hloose
  · intro h m g'
    rw [FromBytes_succeeds_iff]
    constructor
    · rintro ⟨ws, items, leftover, hloose, rfl⟩
      exact ⟨ws, items, wellFormed_of_looseReading hloose (h ws items g' leftover hloose), rfl⟩
    · rintro ⟨ws, items, hwell, rfl⟩
      exact ⟨ws, items, 0, looseReading_of_wellFormed hwell, rfl⟩

/-- A query whose payload is one byte, too short for a data item. -/
def exLeftover : TBytes := [0x51, 1, 0, 0, 0, 0, 0xAE]

/-- The query is accepted, although its payload is no run of data items. -/
theorem leftover_accepted : ¬AcceptsExactly exPlatform exGlobals exLeftover := by
  have hloose : LooseReading exPlatform exGlobals exLeftover [] [] exGlobals 1 :=
    { header := ⟨by decide, by decide, by decide⟩
      payload := ⟨[0, 0xAE], rfl⟩
      size := by decide
      leftover_lt := by decide
      built := .nil
      sum := by decide }
  intro h
  obtain ⟨ws, items, hwell, -⟩ :=
    (h _ _).mp (FromBytes_succeeds_iff.mpr ⟨[], [], 1, hloose, rfl⟩)
  exact not_wrong_of_wellFormed hwell hloose (.inr (.inr (by decide)))

/-! ## 2. Rejected buffers -/

/-- `FromBytes` throws or leaves an error in the result code. -/
def Rejects (r : Except Exn (TMessage × TError)) : Prop := ∀ m, r ≠ .ok (m, ERR_SUCCESS)

/-- A rejected buffer leaves no trace in the globals. -/
def KeepsGlobals (pf : Platform) (g : Globals) (buf : TBytes) : Prop :=
  ∀ r g', (FromBytes pf buf).exec g = some (r, g') → Rejects r → g' = g

/-- The header passes its checks, a later item or the checksum does not, and a
claim on the ADC stream is among the items built by then. It is built only while
no connection has the stream. -/
structure LeaksClaim (pf : Platform) (g : Globals) (buf : TBytes) (ws : List WireItem) : Prop where
  header : HeaderOk pf buf
  parses : ∃ items c g', Parses pf g (buf.drop 5) (payloadSize buf) ws items c g' ∧
    (c ≠ .ok ERR_SUCCESS ∨ calculateChecksum buf ≠ 0)
  claim : ∃ w ∈ ws, w.ClaimsStream

namespace AcceptanceLemmas

theorem rejects_finish {buf : TBytes} {items : List TDataItem} {c : Except Exn TError} :
    Rejects (finish buf items c) ↔ c ≠ .ok ERR_SUCCESS ∨ calculateChecksum buf ≠ 0 := by
  cases c with
  | error e => exact ⟨fun _ => .inl nofun, fun _ _ => nofun⟩
  | ok code =>
    by_cases hsum : calculateChecksum buf = 0
    · simp only [finish, Except.map, hsum, ne_eq, not_true_eq_false, if_false, or_false,
        Except.ok.injEq]
      constructor
      · rintro h rfl
        exact h _ rfl
      · intro hne m hm
        simp only [Except.ok.injEq, Prod.mk.injEq] at hm
        exact hne hm.2
    · simp only [finish, Except.map, ne_eq, hsum, not_false_eq_true, if_true, or_true, iff_true]
      intro m hm
      cases hm

end AcceptanceLemmas

/-- A rejected buffer leaves no trace, unless it leaks a claim on the ADC stream. -/
theorem keepsGlobals_iff {g : Globals} {buf : TBytes} :
    KeepsGlobals pf g buf ↔ ∀ ws, ¬LeaksClaim pf g buf ws := by
  constructor
  · rintro h ws ⟨hheader, ⟨items, c, g', hparses, hbad⟩, w, hw, hclaims⟩
    obtain ⟨-, -, -, -, hbuilt, -⟩ := id hparses
    have hkeeps : g' = g :=
      h _ g' ((FromBytes_iff hheader).mpr ⟨ws, items, c, hparses, rfl⟩) (rejects_finish.mpr hbad)
    rcases hbuilt.globals with ⟨hnone, -⟩ | ⟨-, hfree, htaken⟩
    · exact hnone w hw hclaims
    · exact htaken (hkeeps ▸ hfree)
  · intro h r g' hrun hrejects
    by_cases hheader : HeaderOk pf buf
    · obtain ⟨ws, items, c, hparses, rfl⟩ := (FromBytes_iff hheader).mp hrun
      obtain ⟨-, -, -, -, hbuilt, -⟩ := id hparses
      rcases hbuilt.globals with ⟨-, hsame⟩ | ⟨hclaim, -⟩
      · exact hsame
      · exact absurd ⟨hheader, ⟨items, c, g', hparses, rejects_finish.mp hrejects⟩, hclaim⟩ (h ws)
    · obtain ⟨r', -, -, hkeeps⟩ := FromBytes_of_not_headerOk hheader
      rw [hkeeps] at hrun
      exact (congrArg Prod.snd (Option.some.inj hrun)).symm

/-- `ADC_StreamStart` for connection 5, with a wrong checksum. -/
def exLeak : TBytes := [0x51, 8, 0, 0, 0, 0x01, 0x11, 4, 0, 5, 0, 0, 0, 0]

/-- The message is rejected, and connection 5 has the stream all the same. -/
theorem leak_changes_globals : ¬KeepsGlobals exPlatform exGlobals exLeak := by
  have hrun : (FromBytes exPlatform exLeak).exec exGlobals =
      some (.ok (TMessage.empty, ERR_MSG_CHECKSUM),
        { exGlobals with AdcStreamingConnection := 5 }) := by rfl
  intro h
  have hkeeps := h _ _ hrun fun m hm => by cases hm
  exact absurd (congrArg Globals.AdcStreamingConnection hkeeps) (by decide)

/-! ## 3. Corruption -/

/-- Whatever the parser makes of the changed byte, no way through it ends with
success when the bytes do not sum to zero. -/
theorem corrupted_rejected {buf : TBytes} {g g' : Globals} {m : TMessage}
    (haccepted : (FromBytes pf buf).exec g = some (.ok (m, ERR_SUCCESS), g'))
    {i : Nat} (hi : i < buf.length) {b : UInt8} (hb : b ≠ buf[i])
    (g₁ g₂ : Globals) (r : Except Exn (TMessage × TError))
    (hrun : (FromBytes pf (buf.set i b)).exec g₁ = some (r, g₂)) : Rejects r := by
  rintro m' rfl
  obtain ⟨_, _, _, hbefore, -⟩ := FromBytes_succeeds_iff.mp haccepted
  obtain ⟨_, _, _, hafter, -⟩ := FromBytes_succeeds_iff.mp hrun
  exact Bytes.byteSum_set_ne hi hb (hafter.sum.trans hbefore.sum.symm)

/-- A query that reads a register and sets the number of submuxes. -/
def exTwoItems : TBytes :=
  frameBytes 0x51
    [itemBytes DataItemIds.REG_Read1 [0x30], itemBytes DataItemIds.BRD_NumberOfSubmuxes [2]]

/-- The same with two for the length of its first item: the walk goes on at other bytes. -/
theorem corrupted_rejected_length :
    ∃ r g, (FromBytes exPlatform (exTwoItems.set 7 2)).exec exGlobals = some (r, g) ∧
      Rejects r := by
  have hquery : (FromBytes exPlatform exTwoItems).exec exGlobals = some (.ok
      ({ Id := 0x51, DataItems := [
          { params := .TREG_Read1 (TREG_Read1.ctor [0x30]), rawBytes := [0x30],
            DId := DataItemIds.REG_Read1 },
          { params := .TBRD_NumberOfSubmuxes 2, rawBytes := [2],
            DId := DataItemIds.BRD_NumberOfSubmuxes }] }, ERR_SUCCESS), exGlobals) := by rfl
  have hruns : ((FromBytes exPlatform (exTwoItems.set 7 2)).exec exGlobals).isSome := by rfl
  obtain ⟨⟨r, g⟩, hrun⟩ := Option.isSome_iff_exists.mp hruns
  exact ⟨r, g, hrun, corrupted_rejected hquery (i := 7) (by decide) (by decide) exGlobals g r hrun⟩

end EnetTcp
