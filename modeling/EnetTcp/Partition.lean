import EnetTcp.Accepted
import EnetTcp.Bounds
import EnetTcp.Crashes

/-!
# How a payload is cut up

`TMessage::parsePayload` takes slices off the front of the payload and counts down
the bytes that are left. Each slice goes to the factory, which reads its header once
more. `parsePayload_partition` is what comes of it, for any payload of which no more
bytes are asked for than it has:

* the loop reads inside the payload, and comes to an end in every state whose range
  codes have an index;
* the items are built from slices that abut, from the first byte on;
* behind the last slice there are fewer than four bytes, or there is the first slice
  whose length is wrong.
-/

namespace EnetTcp

open Prog

variable {pf : Platform}

/-! ## 1. Slices -/

/-- A header and as much data as it announces. -/
def IsSlice (slice : TBytes) : Prop :=
  ∃ dataLength, readU16 slice 2 = some dataLength ∧
    slice.length = sizeofTDataItemHeader + dataLength.toNat

/-- The item in front of `rest`, which is what the payload has left, states a length
that exceeds it, or the length of its data, not zero, is one that its id does not have. -/
inductive BadSlice (rest : TBytes) : Prop
  | overlong {dataLength : UInt16} : readU16 rest 2 = some dataLength →
      rest.length < sizeofTDataItemHeader + dataLength.toNat → BadSlice rest
  | bounds {id : DataItemIds} {dataLength : UInt16} {e : TDIdDictEntry} :
      readU16 rest 0 = some id → DIdDict.find id = some e → readU16 rest 2 = some dataLength →
      dataLength ≠ 0 → ¬(e.minLen ≤ dataLength.toNat ∧ dataLength.toNat ≤ e.maxLen) → BadSlice rest

/-- The factory makes an item of each slice, one after the other. -/
inductive SlicesBuilt (pf : Platform) :
    Globals → List TBytes → List TDataItem → Globals → Prop
  | nil {g : Globals} : SlicesBuilt pf g [] [] g
  | cons {g g₁ g₂ : Globals} {slice : TBytes} {slices : List TBytes} {item : TDataItem}
      {items : List TDataItem} :
      IsSlice slice → Accepts pf g slice item g₁ → SlicesBuilt pf g₁ slices items g₂ →
      SlicesBuilt pf g (slice :: slices) (item :: items) g₂

/-- The payload is the slices of the items, and `rest` behind them. -/
structure Partition (pf : Platform) (g : Globals) (payload : TBytes) (slices : List TBytes)
    (rest : TBytes) (items : List TDataItem) (code : TError) (g' : Globals) : Prop where
  abut : payload = slices.flatten ++ rest
  built : SlicesBuilt pf g slices items g'
  first : ∀ before slice behind, slices = before ++ slice :: behind →
    ¬BadSlice (slice ++ (behind.flatten ++ rest))
  success : code = ERR_SUCCESS → rest.length < sizeofTDataItemHeader
  failure : code ≠ ERR_SUCCESS → BadSlice rest

/-- Behind slices that are built there is one with volts for a channel of the DAC whose
range code has no index. -/
def MissesRange (pf : Platform) (g : Globals) (payload : TBytes) : Prop :=
  ∃ slices items g' w rest, payload = slices.flatten ++ (WireItem.bytes w ++ rest) ∧
    SlicesBuilt pf g slices items g' ∧
    (w.DId = DataItemIds.DAC_Output1 ∨ w.DId = DataItemIds.DAC_Output1V) ∧
    NoRangeIndex g'.Config w.data

/-- The vector is copied as a whole and read by the loop. -/
def parsePayload.reads (pf : Platform) (Payload : TBytes) (payload_length : Nat) (g : Globals) :
    List Read :=
  if payload_length = 0 then []
  else readRange .payload Payload.length 0 Payload.length ++
    parseItems.reads pf (payload_length + 1) Payload payload_length g

namespace SliceLemmas

/-! ## 2. Items and slices -/

theorem isSlice_bytes (w : WireItem) : IsSlice w.bytes := by
  have hread := w.readU16_length []
  rw [List.append_nil] at hread
  refine ⟨_, hread, ?_⟩
  rw [w.toNat_lengthField, w.length_bytes]

/-- What is built is no slice to stop at, whatever comes behind it. -/
theorem not_badSlice {w : WireItem} {g g' : Globals} {item : TDataItem}
    (h : w.Builds pf g item g') (xs : TBytes) : ¬BadSlice (w.bytes ++ xs) := by
  obtain ⟨⟨e, he, hadmits, -⟩, -⟩ := h
  intro hbad
  cases hbad with
  | overlong hl hover =>
    cases (w.readU16_length xs).symm.trans hl
    rw [w.toNat_lengthField, List.length_append, w.length_bytes] at hover
    exact absurd hover (Nat.not_lt_of_le (Nat.le_add_right ..))
  | bounds hid he' hl hne hbounds =>
    cases (w.readU16_id xs).symm.trans hid
    cases he.symm.trans he'
    cases (w.readU16_length xs).symm.trans hl
    rw [w.toNat_lengthField] at hbounds
    rcases hadmits with hnil | hlen
    · refine hne ?_
      apply UInt16.toNat_inj.mp
      rw [w.toNat_lengthField, hnil]
      rfl
    · exact hbounds hlen

theorem slicesBuilt_of_built {g g' : Globals} {ws : List WireItem} {items : List TDataItem}
    (h : Built pf g ws items g') : SlicesBuilt pf g (ws.map WireItem.bytes) items g' := by
  induction h with
  | nil => exact .nil
  | @cons _ _ _ w _ _ _ hw _ ih =>
    have haccepts := (@accepts_item pf _ _ w _ []).mpr hw
    rw [List.append_nil] at haccepts
    exact .cons (isSlice_bytes w) haccepts ih

theorem flatten_bytes (ws : List WireItem) :
    (ws.map WireItem.bytes).flatten = itemFormat.encodeAll ws := rfl

/-- No slice in front of the end is one to stop at. -/
theorem first_of_built {g g' : Globals} {ws : List WireItem} {items : List TDataItem}
    (h : Built pf g ws items g') {before : List TBytes} {slice : TBytes} {behind : List TBytes}
    (heq : ws.map WireItem.bytes = before ++ slice :: behind) (xs : TBytes) :
    ¬BadSlice (slice ++ xs) := by
  induction h generalizing before with
  | nil =>
    have hlen := congrArg List.length heq
    rw [List.map_nil, List.length_append, List.length_cons] at hlen
    cases hlen
  | cons hw _ ih =>
    cases before with
    | nil =>
      cases heq
      exact not_badSlice hw xs
    | cons _ before => exact ih (List.cons.inj heq).2

/-- An item with a wrong length, cut off behind the payload. -/
theorem badSlice_of_badLength {bytes : TBytes} {n : Nat} (h : BadLength bytes n)
    (hn : n ≤ bytes.length) : BadSlice (bytes.take n) := by
  have hlen : (bytes.take n).length = n := List.length_take_of_le hn
  cases h with
  | overlong h4 hl hover =>
    refine .overlong ?_ (hlen.symm ▸ hover)
    rw [readU16_take, if_pos (Nat.lt_of_succ_le h4)]
    exact hl
  | @bounds w e xs m he hadmits =>
    -- the item is all there, and what is cut off lies behind it
    have htake : (w.bytes ++ xs).take (w.bytes.length + m) = w.bytes ++ xs.take m :=
      List.take_length_add_append m
    rw [htake]
    refine .bounds (w.readU16_id _) he (w.readU16_length _) (fun hzero => hadmits (.inl ?_))
      fun hbounds => hadmits (.inr (w.toNat_lengthField ▸ hbounds))
    have hnat := congrArg UInt16.toNat hzero
    rw [w.toNat_lengthField] at hnat
    exact List.length_eq_zero_iff.mp hnat

/-- What the loop has taken off when it ends with a result. -/
theorem partition_of_parses {P : TBytes} {n : Nat} (hn : n ≤ P.length) {g g' : Globals}
    {ws : List WireItem} {items : List TDataItem} {code : TError}
    (h : Parses pf g P n ws items (.ok code) g') :
    ∃ slices rest, Partition pf g (P.take n) slices rest items code g' := by
  obtain ⟨tail, m, rfl, rfl, hbuilt, hstops⟩ := h
  have hm : m ≤ tail.length := by
    rw [List.length_append] at hn
    exact Nat.le_of_add_le_add_left hn
  refine ⟨ws.map WireItem.bytes, tail.take m, ?_, slicesBuilt_of_built hbuilt, ?_, ?_, ?_⟩
  · rw [List.take_length_add_append, flatten_bytes]
  · intro before slice behind heq
    exact first_of_built hbuilt heq _
  · rintro rfl
    rw [List.length_take_of_le hm]
    cases hstops with
    | leftover hshort => exact hshort
  · intro hcode
    cases hstops with
    | leftover _ => exact absurd rfl hcode
    | badLength hbad => exact badSlice_of_badLength hbad hm

/-! ## 3. The end of the loop -/

/-- A file without a name ends the loop with an exception. -/
theorem stops_noName {w : WireItem} (hid : w.DId = DataItemIds.SYS_UploadFileName)
    (hdata : w.data = []) (g : Globals) (xs : TBytes) (n : Nat) :
    ∃ x, Stops pf g (w.bytes ++ xs) (w.bytes.length + n) (.error x) := by
  obtain ⟨e, he, hcls⟩ : ∃ e, DIdDict.find w.DId = some e ∧ e.Construct = .TSYS_UploadFileName := by
    rw [hid]
    exact ⟨_, rfl, rfl⟩
  obtain ⟨x, hrun⟩ : ∃ x, (construct pf e.Construct w.data).exec g = some (.error x, g) := by
    rw [hcls, hdata]
    exact ⟨_, rfl⟩
  exact ⟨x, .refused he (.inl hdata) hrun⟩

/-- The run is over unless the table of ranges is missed. -/
theorem parsePayload_ends (payload tail : TBytes) (g : Globals) :
    (∃ r g', (parsePayload pf (payload ++ tail) payload.length).exec g = some (r, g')) ∨
      MissesRange pf g payload := by
  by_cases hcrash : ∃ ws items g' w rest,
      payload = itemFormat.encodeAll ws ++ (WireItem.bytes w ++ rest) ∧
        Built pf g ws items g' ∧ w.Crashing g'.Config
  case neg =>
    obtain ⟨ws, items, c, g', hparses, -⟩ := EndLemmas.parse_ends pf payload tail
      fun ws items g' w rest heq hbuilt hcrashing =>
        hcrash ⟨ws, items, g', w, rest, heq, hbuilt, hcrashing⟩
    exact .inl ⟨_, g', parsePayload_iff.mpr ⟨ws, items, c, hparses, rfl⟩⟩
  case pos =>
    obtain ⟨ws, items, g', w, rest, heq, hbuilt, hcrashing⟩ := hcrash
    cases hcrashing with
    | noName hid hdata =>
      -- the loop ends here with an exception, which is an outcome as well
      obtain ⟨x, hstops⟩ := stops_noName hid hdata g' (rest ++ tail) rest.length
      refine .inl ⟨_, g', parsePayload_iff.mpr ⟨ws, items, .error x, ⟨_, _, ?_, ?_, hbuilt,
        hstops⟩, rfl⟩⟩
      · rw [heq, List.append_assoc, List.append_assoc]
      · rw [heq, List.length_append, List.length_append]
    | noRange hid hrange =>
      exact .inr ⟨_, items, g', w, rest, heq, slicesBuilt_of_built hbuilt, hid, hrange⟩

theorem SlicesBuilt.config {slices : List TBytes} {items : List TDataItem} {g g' : Globals}
    (h : SlicesBuilt pf g slices items g') : g'.Config = g.Config := by
  induction h with
  | nil => rfl
  | cons _ haccepts _ ih =>
    obtain ⟨_, _, -, ⟨_, -, -, hrun⟩, -⟩ := accepts_iff.mp haccepts
    rw [ih, construct_config hrun]

/-- With an index for each range code the table is never missed. -/
theorem not_missesRange {g : Globals} (h : DacRangesValid g.Config) (payload : TBytes) :
    ¬MissesRange pf g payload := by
  rintro ⟨slices, items, g', w, rest, -, hbuilt, -, -, -, hindex⟩
  have hvalid := h (dacChannelOf w.data)
  rw [← SlicesBuilt.config hbuilt, hindex] at hvalid
  cases hvalid

/-- A payload that is all there is read inside. -/
theorem reads_inBounds {P : TBytes} {n : Nat} (hn : n ≤ P.length) (g : Globals) :
    AllInBounds (parsePayload.reads pf P n g) := by
  rw [parsePayload.reads]
  split
  · exact BoundLemmas.allInBounds_nil
  · refine BoundLemmas.allInBounds_append.mpr ⟨?_, ?_⟩
    · exact BoundLemmas.readRange_inBounds.mpr (.inr (Nat.le_of_eq (Nat.zero_add _)))
    · exact (parseItems_inBounds (Nat.lt_succ_self n)).mpr (BoundLemmas.not_overruns hn)

theorem ends_or_misses {P : TBytes} {n : Nat} (hn : n ≤ P.length) (g : Globals) :
    (∃ r g', (parsePayload pf P n).exec g = some (r, g')) ∨ MissesRange pf g (P.take n) := by
  have hends := @parsePayload_ends pf (P.take n) (P.drop n) g
  rw [List.take_append_drop, List.length_take_of_le hn] at hends
  exact hends

end SliceLemmas

open SliceLemmas

/-! ## 4. Results -/

/-- Asked for no more bytes than there are, the parser reads inside the payload, comes
to an end, and gives the items of the slices that the payload starts with. -/
theorem parsePayload_partition {P : TBytes} {n : Nat} (hn : n ≤ P.length) (g : Globals) :
    AllInBounds (parsePayload.reads pf P n g) ∧
      ((∃ r g', (parsePayload pf P n).exec g = some (r, g')) ∨ MissesRange pf g (P.take n)) ∧
      (DacRangesValid g.Config → ∃ r g', (parsePayload pf P n).exec g = some (r, g')) ∧
      ∀ items code g', (parsePayload pf P n).exec g = some (.ok (items, code), g') →
        ∃ slices rest, Partition pf g (P.take n) slices rest items code g' := by
  refine ⟨reads_inBounds hn g, ends_or_misses hn g, ?_, ?_⟩
  · intro hvalid
    exact (ends_or_misses hn g).resolve_right (not_missesRange hvalid _)
  · intro items code g' hrun
    obtain ⟨ws, items', c, hparses, hr⟩ := parsePayload_iff.mp hrun
    cases c with
    | error _ => cases hr
    | ok _ =>
      cases hr
      exact partition_of_parses hn hparses

/-- A write to the register at 0x12, then a read of a register with two bytes where one
is allowed, and a byte that is not asked for. -/
def exTwoSlices : TBytes := [0x05, 0x01, 2, 0, 0x12, 0, 0x01, 0x01, 2, 0, 0, 0, 0xFF]

/-- The write is built from the first six bytes, and the read is where the loop stops. -/
theorem partition_twoSlices :
    ∃ slices rest, Partition exPlatform exGlobals (exTwoSlices.take 12) slices rest
      [{ params := .TREG_Write1 [{ offset := 0x12, width := 8, value := 0 }],
         rawBytes := [0x12, 0], DId := DataItemIds.REG_Write1 }]
      ERR_MSG_PAYLOAD_DATAITEM_LEN_MISMATCH exGlobals := by
  have hlen : 12 ≤ exTwoSlices.length := by decide
  obtain ⟨-, -, -, hpartition⟩ := @parsePayload_partition exPlatform exTwoSlices 12 hlen exGlobals
  exact hpartition _ _ _ rfl

end EnetTcp
