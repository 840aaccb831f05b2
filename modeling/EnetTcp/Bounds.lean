import EnetTcp.Parsing

/-!
# What the parser reads

`FromBytes.reads` lists the elements that `TMessage::FromBytes` reads, in the order
of the source: of the buffer, of the copy that the payload is cut off from, and of
the table of message ids. The list ends where an exception is thrown and behind a
read whose outcome is undefined.

* `FromBytes_undefined`: behind a read outside the payload the parser is undefined.
* `reads_inBounds_iff`: the buffers whose reads all stay inside.
* `staysInBounds_iff`: these are the buffers with a header, with an id of the table
  and with a stated length that 32 bits can hold, unless the loop happens to stop early.
-/

namespace EnetTcp

open Prog

variable {pf : Platform}

/-! ## 1. Reads -/

/-- What the parser reads elements of. `payload` is the copy without the header,
which gets shorter from round to round. -/
inductive Memory
  | buf
  | payload
  | ValidMessageIDs
  deriving DecidableEq

/-- A read of one element, and the number of elements there are. -/
structure Read where
  memory : Memory
  index : Nat
  size : Nat
  deriving DecidableEq

def Read.InBounds (r : Read) : Prop := r.index < r.size

instance (r : Read) : Decidable r.InBounds := inferInstanceAs (Decidable (_ < _))

/-- Reads of `count` elements from `first` on. -/
def readRange (memory : Memory) (size first count : Nat) : List Read :=
  (List.range' first count).map fun index => { memory, index, size }

section

variable (pf : Platform)

/-- The search goes on until an entry is the id, over `left` more entries at most. -/
def isValidMessageID.reads (MessageId : TMessageId) : (left i : Nat) → List Read
  | 0, _ => []
  | left + 1, i =>
    { memory := .ValidMessageIDs, index := i, size := ValidMessageIDs.length } ::
      if messageIdAt pf i = MessageId then [] else reads MessageId left (i + 1)

/-- The reads of one call of `isValidMessageID`. -/
def lookupReads (MessageId : TMessageId) : List Read :=
  isValidMessageID.reads pf MessageId sizeofValidMessageIDs 0

/-- The header behind the first GUARD, and the data behind the second one. -/
def fromBytes.reads (bytes : TBytes) : List Read :=
  if bytes.length < sizeofTDataItemHeader then []
  else
    readRange .payload bytes.length 0 2 ++
      match readU16 bytes 0, readU16 bytes 2 with
      | some id, some DataSize =>
        if isValidDataItemID id then
          readRange .payload bytes.length 2 2 ++
            readRange .payload bytes.length sizeofTDataItemHeader DataSize.toNat
        else []
      | _, _ => []

def parseItems.reads : (fuel : Nat) → (DataItemBytes : TBytes) → (payload_length : Nat) →
    Globals → List Read
  | 0, _, _, _ => []
  | fuel + 1, DataItemBytes, payload_length, g =>
    if sizeofTDataItemHeader ≤ payload_length then
      readRange .payload DataItemBytes.length 2 2 ++
        match readU16 DataItemBytes 2 with
        | none => []
        | some dataLength =>
          let DataItemLength := sizeofTDataItemHeader + dataLength.toNat
          if payload_length < DataItemLength then []
          else
            fromBytes.reads DataItemBytes ++
              match (fromBytes pf DataItemBytes).exec g with
              | some (.ok (_, result), g') =>
                if result ≠ ERR_SUCCESS then []
                else reads fuel (DataItemBytes.drop DataItemLength)
                  (payload_length - DataItemLength) g'
              | _ => []
    else []

/-- The whole buffer is read twice: for the copy, and for the checksum. -/
def FromBytes.reads (buf : TBytes) (g : Globals) : List Read :=
  if buf.length < minimumMessageLength then lookupReads pf 0xFF
  else
    readRange .buf buf.length 0 1 ++ lookupReads pf (buf.headD 0) ++
      if !isValidMessageID pf (buf.headD 0) then []
      else
        readRange .buf buf.length 1 4 ++
          if buf.length < (minimumMessageLength + payloadSize buf) % 2 ^ 32 then []
          else
            (if payloadSize buf = 0 then []
              else readRange .buf buf.length 0 buf.length ++
                parseItems.reads pf (payloadSize buf + 1) (buf.drop sizeofTMessageHeader)
                  (payloadSize buf) g) ++
              match (parsePayload pf (buf.drop sizeofTMessageHeader) (payloadSize buf)).exec g with
              | some (.ok _, _) =>
                readRange .buf buf.length 0 buf.length ++
                  if calculateChecksum buf ≠ 0 then [] else lookupReads pf (buf.headD 0)
              | _ => []

end

/-- All of the reads stay inside. -/
def AllInBounds (reads : List Read) : Prop := ∀ r ∈ reads, r.InBounds

instance (reads : List Read) : Decidable (AllInBounds reads) :=
  inferInstanceAs (Decidable (∀ r ∈ reads, r.InBounds))

namespace BoundLemmas

theorem allInBounds_nil : AllInBounds [] := fun _ h => absurd h List.not_mem_nil

theorem allInBounds_append {rs ss : List Read} :
    AllInBounds (rs ++ ss) ↔ AllInBounds rs ∧ AllInBounds ss := List.forall_mem_append

theorem readRange_inBounds {memory : Memory} {size first count : Nat} :
    AllInBounds (readRange memory size first count) ↔ count = 0 ∨ first + count ≤ size := by
  have hrange : AllInBounds (readRange memory size first count) ↔
      ∀ i, first ≤ i → i < first + count → i < size := by
    simp only [AllInBounds, readRange, List.forall_mem_map, List.mem_range'_1, and_imp]
    rfl
  rw [hrange]
  constructor
  · intro h
    cases count with
    | zero => exact .inl rfl
    | succ n => exact .inr (h (first + n) (Nat.le_add_right ..) (Nat.lt_succ_self _))
  · rintro (rfl | h) i hfirst hlast
    · exact absurd hlast (Nat.not_lt_of_le hfirst)
    · exact Nat.lt_of_lt_of_le hlast h

/-- The search stays inside when it meets the id before it reaches the end. -/
theorem search_inBounds (id : TMessageId) {left i : Nat} (hi : i ≤ ValidMessageIDs.length)
    (hleft : ValidMessageIDs.length < i + left) :
    AllInBounds (isValidMessageID.reads pf id left i) ↔
      ∃ k, i ≤ k ∧ ∃ h : k < ValidMessageIDs.length, ValidMessageIDs[k] = id := by
  induction left generalizing i with
  | zero => exact absurd hleft (Nat.not_lt_of_le hi)
  | succ left ih =>
    rw [isValidMessageID.reads, AllInBounds, List.forall_mem_cons]
    rcases Nat.lt_or_eq_of_le hi with hlt | rfl
    · have hat : messageIdAt pf i = ValidMessageIDs[i] := dif_pos hlt
      rw [hat]
      by_cases hid : ValidMessageIDs[i] = id
      · rw [if_pos hid]
        exact ⟨fun _ => ⟨i, Nat.le_refl i, hlt, hid⟩, fun _ => ⟨hlt, allInBounds_nil⟩⟩
      · rw [if_neg hid]
        refine (and_iff_right hlt).trans ((ih hlt (by omega)).trans ?_)
        constructor
        · rintro ⟨k, hk, hfound⟩
          exact ⟨k, Nat.le_of_succ_le hk, hfound⟩
        · rintro ⟨k, hk, hklt, hfound⟩
          rcases Nat.lt_or_eq_of_le hk with hik | rfl
          · exact ⟨k, hik, hklt, hfound⟩
          · exact absurd hfound hid
    · constructor
      · rintro ⟨hout, -⟩
        exact absurd hout (Nat.lt_irrefl _)
      · rintro ⟨k, hk, hklt, -⟩
        exact absurd hklt (Nat.not_lt_of_le hk)

end BoundLemmas

open BoundLemmas

/-- The search for an id stays inside the table exactly for the ids of the table. -/
theorem lookupReads_inBounds (pf : Platform) (id : TMessageId) :
    AllInBounds (lookupReads pf id) ↔ id ∈ ValidMessageIDs := by
  refine (search_inBounds id (Nat.zero_le _) (by decide)).trans ?_
  rw [List.mem_iff_getElem]
  constructor
  · rintro ⟨k, -, h⟩
    exact ⟨k, h⟩
  · rintro ⟨k, h⟩
    exact ⟨k, Nat.zero_le k, h⟩

/-! ## 2. The loop -/

/-- The loop in front of `bytes`, with `n` bytes of payload to go, gets to an item
that is not all there: its header is cut off, or the data of a known item. -/
inductive Overruns (pf : Platform) : Globals → TBytes → Nat → Prop
  | header {g : Globals} {bytes : TBytes} {n : Nat} :
      4 ≤ n → bytes.length < 4 → Overruns pf g bytes n
  | data {g : Globals} {bytes : TBytes} {n : Nat} {id l : UInt16} :
      readU16 bytes 0 = some id → readU16 bytes 2 = some l → isValidDataItemID id = true →
      4 + l.toNat ≤ n → bytes.length < 4 + l.toNat → Overruns pf g bytes n
  | behind {g g' : Globals} {w : WireItem} {item : TDataItem} {xs : TBytes} {n : Nat} :
      w.Builds pf g item g' → Overruns pf g' xs n →
      Overruns pf g (w.bytes ++ xs) (w.bytes.length + n)

namespace BoundLemmas

/-- A payload that is all there is never left. -/
theorem not_overruns {g : Globals} {bytes : TBytes} {n : Nat} (h : n ≤ bytes.length) :
    ¬Overruns pf g bytes n := by
  intro hover
  induction hover with
  | header hn hcut => exact absurd (Nat.le_trans hn h) (Nat.not_le_of_lt hcut)
  | data _ _ _ hn hcut => exact absurd (Nat.le_trans hn h) (Nat.not_le_of_lt hcut)
  | behind _ _ ih =>
    rw [List.length_append] at h
    exact ih (Nat.le_of_add_le_add_left h)

/-- What comes in front of a complete item. -/
theorem overruns_item {g : Globals} {w : WireItem} {xs : TBytes} {n : Nat} :
    Overruns pf g (w.bytes ++ xs) (w.bytes.length + n) ↔
      ∃ item g', w.Builds pf g item g' ∧ Overruns pf g' xs n := by
  constructor
  · intro h
    have hlen : (w.bytes ++ xs).length = 4 + w.data.length + xs.length := by
      rw [List.length_append, w.length_bytes]
    generalize hbytes : w.bytes ++ xs = bytes at h hlen
    generalize hn : w.bytes.length + n = m at h
    cases h with
    | header _ hcut => omega
    | data _ hl _ _ hcut =>
      rw [← hbytes, w.readU16_length] at hl
      cases hl
      rw [w.toNat_lengthField] at hcut
      omega
    | behind hbuilds hover =>
      obtain ⟨rfl, rfl⟩ := itemFormat.encode_append_inj hbytes
      obtain rfl := Nat.add_left_cancel hn
      exact ⟨_, _, hbuilds, hover⟩
  · rintro ⟨item, g', hbuilds, hover⟩
    exact .behind hbuilds hover

/-- There is no room for an item. -/
theorem not_overruns_small {g : Globals} {bytes : TBytes} {n : Nat}
    (hn : ¬sizeofTDataItemHeader ≤ n) : ¬Overruns pf g bytes n := by
  intro hover
  cases hover with
  | header h => exact hn h
  | data _ _ _ h => exact hn (Nat.le_trans (Nat.le_add_right ..) h)
  | @behind _ _ w _ _ m =>
    refine hn ?_
    rw [w.length_bytes, Nat.add_assoc]
    exact Nat.le_add_right ..

/-- What the constructor has given when an item is built. -/
theorem construct_of_builds {g g' : Globals} {w : WireItem} {item : TDataItem} {e : TDIdDictEntry}
    (he : DIdDict.find w.DId = some e) (h : w.Builds pf g item g') : e.Admits w.data ∧
      (construct pf e.Construct w.data).exec g = some (.ok item.toTItemBody, g') := by
  obtain ⟨⟨e', he', hadmits, hrun⟩, -⟩ := h
  rw [he] at he'
  cases he'
  exact ⟨hadmits, hrun⟩

/-- Behind an item that has been built the loop goes on. -/
theorem overruns_built {g g₁ : Globals} {w : WireItem} {e : TDIdDictEntry} {body : TItemBody}
    {xs : TBytes} {n : Nat} (he : DIdDict.find w.DId = some e) (hadmits : e.Admits w.data)
    (hrun : (construct pf e.Construct w.data).exec g = some (.ok body, g₁)) :
    (∃ item g', w.Builds pf g item g' ∧ Overruns pf g' xs n) ↔ Overruns pf g₁ xs n := by
  constructor
  · rintro ⟨item, g', hbuilds, hover⟩
    cases hrun.symm.trans (construct_of_builds he hbuilds).2
    exact hover
  · intro hover
    exact ⟨{ body with DId := w.DId }, g₁, ⟨⟨e, he, hadmits, hrun⟩, rfl⟩, hover⟩

/-- The length field is cut off. -/
theorem length_lt_of_readU16 {bytes : TBytes} (h : readU16 bytes 2 = none) : bytes.length < 4 := by
  refine Nat.lt_of_not_le fun hlen => ?_
  rw [readU16, List.getElem?_eq_getElem (by omega), List.getElem?_eq_getElem (by omega)] at h
  cases h

/-- A complete header must announce a known item that the stated payload has room for. -/
theorem overruns_header {g : Globals} {bytes : TBytes} {n : Nat} {id l : UInt16}
    (hlen : 4 ≤ bytes.length) (hid : readU16 bytes 0 = some id) (hl : readU16 bytes 2 = some l)
    (h : Overruns pf g bytes n) : 4 + l.toNat ≤ n ∧ isValidDataItemID id = true := by
  cases h with
  | header _ hcut => exact absurd hlen (Nat.not_le_of_lt hcut)
  | data hid' hl' hvalid hn _ =>
    rw [hid] at hid'
    rw [hl] at hl'
    cases hid'
    cases hl'
    exact ⟨hn, hvalid⟩
  | @behind _ _ w _ _ m hbuilds _ =>
    obtain ⟨⟨e, he, -⟩, -⟩ := hbuilds
    rw [w.readU16_id] at hid
    rw [w.readU16_length] at hl
    cases hid
    cases hl
    refine ⟨?_, by rw [isValidDataItemID, he]; rfl⟩
    rw [w.toNat_lengthField, w.length_bytes]
    exact Nat.le_add_right ..

/-- The factory stays inside when the data of a known item is all there. -/
theorem fromBytes_inBounds {bytes : TBytes} {id l : UInt16} (hlen : 4 ≤ bytes.length)
    (hid : readU16 bytes 0 = some id) (hl : readU16 bytes 2 = some l) :
    AllInBounds (fromBytes.reads bytes) ↔
      (isValidDataItemID id = true → 4 + l.toNat ≤ bytes.length) := by
  rw [fromBytes.reads, if_neg (Nat.not_lt_of_le hlen), hid, hl, allInBounds_append,
    readRange_inBounds]
  simp only
  by_cases hvalid : isValidDataItemID id = true
  · rw [if_pos hvalid, allInBounds_append, readRange_inBounds, readRange_inBounds]
    constructor
    · rintro ⟨-, -, hempty | hdata⟩ -
      · omega
      · exact hdata
    · intro h
      exact ⟨.inr (by omega), .inr hlen, .inr (h hvalid)⟩
  · rw [if_neg hvalid]
    exact ⟨fun _ h => absurd h hvalid, fun _ => ⟨.inr (by omega), allInBounds_nil⟩⟩

end BoundLemmas

/-- The loop stays inside unless it gets to an item that is not all there. -/
theorem parseItems_inBounds {fuel : Nat} {bytes : TBytes} {n : Nat} {g : Globals}
    (hfuel : n < fuel) :
    AllInBounds (parseItems.reads pf fuel bytes n g) ↔ ¬Overruns pf g bytes n := by
  induction fuel generalizing bytes n g with
  | zero => cases hfuel
  | succ fuel ih =>
    rw [parseItems.reads]
    by_cases hn : sizeofTDataItemHeader ≤ n
    case neg =>
      rw [if_neg hn]
      exact ⟨fun _ => not_overruns_small hn, fun _ => allInBounds_nil⟩
    rw [if_pos hn, allInBounds_append, readRange_inBounds]
    cases hl : readU16 bytes 2 with
    | none =>
      have hcut := length_lt_of_readU16 hl
      exact ⟨fun h => absurd h.1 (by omega), fun h => absurd (.header hn hcut) h⟩
    | some l =>
      obtain ⟨hlen, id, hid, hrest⟩ := header_cases hl
      refine (and_iff_right (.inr hlen)).trans ?_
      simp only
      by_cases hfit : n < sizeofTDataItemHeader + l.toNat
      · -- the item announces more than the stated payload has
        rw [if_pos hfit]
        refine ⟨fun _ hover => ?_, fun _ => allInBounds_nil⟩
        exact absurd (overruns_header hlen hid hl hover).1 (Nat.not_le_of_lt hfit)
      rw [if_neg hfit, allInBounds_append, fromBytes_inBounds hlen hid hl]
      cases hvalid : isValidDataItemID id with
      | false =>
        have hfind : DIdDict.find id = none := by
          rw [isValidDataItemID, Option.isSome_eq_false_iff, Option.isNone_iff_eq_none] at hvalid
          exact hvalid
        rw [fromBytes_unknown hlen hid hfind]
        refine ⟨fun _ hover => ?_, fun _ => ⟨fun hknown => ?_, allInBounds_nil⟩⟩
        · cases hvalid.symm.trans (overruns_header hlen hid hl hover).2
        · cases hknown
      | true =>
        rcases hrest with hcut | ⟨w, xs, rfl, hwid, hwlen⟩
        · refine ⟨fun h => absurd (h.1 rfl) (Nat.not_le_of_lt hcut), fun h => ?_⟩
          exact absurd (.data hid hl hvalid (Nat.le_of_not_lt hfit) hcut) h
        have hwhole : 4 + l.toNat ≤ (w.bytes ++ xs).length := by
          rw [List.length_append, w.length_bytes]
          omega
        have hsize : sizeofTDataItemHeader + l.toNat = w.bytes.length := by
          rw [w.length_bytes, hwlen]
        obtain ⟨m, rfl⟩ : ∃ m, n = w.bytes.length + m := ⟨n - w.bytes.length, by omega⟩
        have hknown : isValidDataItemID w.DId = true := hwid ▸ hvalid
        obtain ⟨e, he⟩ := Option.isSome_iff_exists.mp hknown
        refine (and_iff_right fun _ => hwhole).trans ?_
        rw [overruns_item, fromBytes_item he, hsize, List.drop_left, Nat.add_sub_cancel_left]
        -- the rest is read when the item has been built
        have hstop (h : ∀ item g', ¬w.Builds pf g item g') :
            AllInBounds [] ↔ ¬∃ item g', w.Builds pf g item g' ∧ Overruns pf g' xs m := by
          refine ⟨fun _ => ?_, fun _ => allInBounds_nil⟩
          rintro ⟨item, g', hbuilds, -⟩
          exact h item g' hbuilds
        by_cases hadmits : e.Admits w.data
        case neg =>
          rw [if_neg hadmits]
          exact hstop fun item g' h => hadmits (construct_of_builds he h).1
        rw [if_pos hadmits, exec_bind]
        cases hrun : (construct pf e.Construct w.data).exec g with
        | none => exact hstop fun item g' h => by cases hrun.symm.trans (construct_of_builds he h).2
        | some q =>
          obtain ⟨q, g₁⟩ := q
          cases q with
          | error x =>
            exact hstop fun item g' h => by cases hrun.symm.trans (construct_of_builds he h).2
          | ok body =>
            have hpos := w.length_bytes
            exact (ih (by omega)).trans (not_congr (overruns_built he hadmits hrun).symm)

/-! ## 3. The buffer -/

/-- Which buffers are read inside their bounds: the id is one of the table, and a
payload that gets past the length check leads to no item that is cut off. -/
theorem reads_inBounds_iff {buf : TBytes} {g : Globals} :
    AllInBounds (FromBytes.reads pf buf g) ↔
      6 ≤ buf.length ∧ buf.headD 0 ∈ ValidMessageIDs ∧
        ((6 + payloadSize buf) % 2 ^ 32 ≤ buf.length →
          ¬Overruns pf g (buf.drop 5) (payloadSize buf)) := by
  rw [FromBytes.reads]
  by_cases hlong : buf.length < minimumMessageLength
  · rw [if_pos hlong, lookupReads_inBounds]
    refine ⟨fun h => absurd h (by decide), fun h => ?_⟩
    exact absurd h.1 (Nat.not_le_of_lt hlong)
  rw [if_neg hlong]
  have hlen : 6 ≤ buf.length := Nat.le_of_not_lt hlong
  rw [allInBounds_append, allInBounds_append, readRange_inBounds, lookupReads_inBounds]
  by_cases hmem : buf.headD 0 ∈ ValidMessageIDs
  case neg =>
    refine ⟨fun h => absurd h.1.2 hmem, fun h => absurd h.2.1 hmem⟩
  refine (and_iff_right ⟨.inr (by omega), hmem⟩).trans (Iff.trans ?_
    ((and_iff_right hlen).trans (and_iff_right hmem)).symm)
  simp only [isValidMessageID_of_mem hmem, Bool.not_true, Bool.false_eq_true, if_false]
  rw [allInBounds_append, readRange_inBounds]
  refine (and_iff_right (.inr (by omega))).trans ?_
  by_cases hstated : buf.length < (minimumMessageLength + payloadSize buf) % 2 ^ 32
  · rw [if_pos hstated]
    exact ⟨fun _ h => absurd h (Nat.not_le_of_lt hstated), fun _ => allInBounds_nil⟩
  rw [if_neg hstated, allInBounds_append]
  have hwhole : AllInBounds (readRange .buf buf.length 0 buf.length) :=
    readRange_inBounds.mpr (.inr (Nat.le_of_eq (Nat.zero_add _)))
  -- the checksum and the id of the message are looked at inside, whatever was parsed
  have hrest : AllInBounds (match (parsePayload pf (buf.drop sizeofTMessageHeader)
      (payloadSize buf)).exec g with
    | some (.ok _, _) => readRange .buf buf.length 0 buf.length ++
        if calculateChecksum buf ≠ 0 then [] else lookupReads pf (buf.headD 0)
    | _ => []) := by
    split
    · refine allInBounds_append.mpr ⟨hwhole, ?_⟩
      split
      · exact allInBounds_nil
      · exact (lookupReads_inBounds pf _).mpr hmem
    · exact allInBounds_nil
  refine (and_iff_left hrest).trans (Iff.trans ?_
    (imp_iff_right (Nat.le_of_not_lt hstated)).symm)
  by_cases hempty : payloadSize buf = 0
  · rw [if_pos hempty, hempty]
    exact ⟨fun _ => not_overruns (Nat.zero_le _), fun _ => allInBounds_nil⟩
  · rw [if_neg hempty, allInBounds_append]
    exact (and_iff_right hwhole).trans (parseItems_inBounds (Nat.lt_succ_self _))

namespace BoundLemmas

theorem parseItems_undefined {fuel : Nat} {bytes : TBytes} {n : Nat} {g : Globals}
    {acc : List TDataItem} (hover : Overruns pf g bytes n) (hfuel : n < fuel) :
    (parseItems pf fuel bytes n acc).exec g = none := by
  induction hover generalizing fuel acc with
  | @header g bytes n hn hcut =>
    obtain ⟨fuel, rfl⟩ : ∃ f, fuel = f + 1 := ⟨fuel - 1, by omega⟩
    have hl : readU16 bytes 2 = none := by
      rw [readU16, List.getElem?_eq_none (i := 2 + 1) (by omega)]
      cases bytes[2]? <;> rfl
    rw [parseItems, if_pos hn, hl]
    rfl
  | @data g bytes n id l hid hl hvalid hfit hcut =>
    obtain ⟨fuel, rfl⟩ : ∃ f, fuel = f + 1 := ⟨fuel - 1, by omega⟩
    obtain ⟨e, he⟩ := Option.isSome_iff_exists.mp hvalid
    obtain ⟨hlen, -⟩ := header_cases hl
    rw [ParseLemmas.parseItems_round (Nat.le_trans (Nat.le_add_right ..) hfit) hl hfit, exec_bind,
      fromBytes_cut hlen hid hl he hcut]
    rfl
  | @behind g g' w item xs n hbuilds _ ih =>
    have hlen := w.length_bytes
    obtain ⟨fuel, rfl⟩ : ∃ f, fuel = f + 1 := ⟨fuel - 1, by omega⟩
    rw [ParseLemmas.parseItems_builds hbuilds]
    exact ih (by omega)

theorem memory_of_readRange {memory : Memory} {size first count : Nat} {r : Read}
    (h : r ∈ readRange memory size first count) : r.memory = memory := by
  obtain ⟨index, -, rfl⟩ := List.mem_map.mp h
  rfl

theorem memory_of_search {id : TMessageId} {left i : Nat} {r : Read}
    (h : r ∈ isValidMessageID.reads pf id left i) : r.memory = .ValidMessageIDs := by
  induction left generalizing i with
  | zero => cases h
  | succ left ih =>
    rw [isValidMessageID.reads] at h
    rcases List.mem_cons.mp h with rfl | h
    · rfl
    · split at h
      · cases h
      · exact ih h

/-- The payload is only read by the loop. -/
theorem payload_read {buf : TBytes} {g : Globals} {r : Read} (hr : r ∈ FromBytes.reads pf buf g)
    (hmemory : r.memory = .payload) : HeaderOk pf buf ∧
      r ∈ parseItems.reads pf (payloadSize buf + 1) (buf.drop 5) (payloadSize buf) g := by
  have hbuf {first count : Nat} : r ∉ readRange .buf buf.length first count := fun h =>
    nomatch hmemory.symm.trans (memory_of_readRange h)
  have htable {id : TMessageId} : r ∉ lookupReads pf id := fun h =>
    nomatch hmemory.symm.trans (memory_of_search h)
  rw [FromBytes.reads] at hr
  split at hr
  · exact absurd hr htable
  case isFalse hlong =>
  rw [List.mem_append, List.mem_append] at hr
  have hr := (hr.resolve_left fun h => h.elim hbuf htable)
  split at hr
  · cases hr
  case isFalse hid =>
  have hr := (List.mem_append.mp hr).resolve_left hbuf
  split at hr
  · cases hr
  case isFalse hstated =>
  refine ⟨⟨Nat.le_of_not_lt hlong, by simpa using hid, Nat.le_of_not_lt hstated⟩, ?_⟩
  rcases List.mem_append.mp hr with hr | hr
  · split at hr
    · cases hr
    · exact (List.mem_append.mp hr).resolve_left hbuf
  · split at hr
    · have hr := (List.mem_append.mp hr).resolve_left hbuf
      split at hr
      · cases hr
      · exact absurd hr htable
    · cases hr

end BoundLemmas

/-- Where the payload is left, the parser is undefined. -/
theorem FromBytes_undefined {buf : TBytes} {g : Globals} {r : Read}
    (hr : r ∈ FromBytes.reads pf buf g) (hmemory : r.memory = .payload) (hout : ¬r.InBounds) :
    (FromBytes pf buf).exec g = none := by
  obtain ⟨hheader, hread⟩ := payload_read hr hmemory
  have hover : Overruns pf g (buf.drop 5) (payloadSize buf) := by
    refine Classical.not_not.mp fun hover => hout ?_
    exact (parseItems_inBounds (Nat.lt_succ_self _)).mpr hover r hread
  have hpayload : payloadSize buf ≠ 0 := fun hempty =>
    not_overruns (hempty ▸ Nat.zero_le _) hover
  rw [FromBytes_exec hheader, parsePayload, if_neg hpayload,
    parseItems_undefined hover (Nat.lt_succ_self _)]
  rfl

/-- Every element that is read exists, and a stated length that 32 bits cannot hold
does not get past the length check. -/
structure StaysInBounds (pf : Platform) (g : Globals) (buf : TBytes) : Prop where
  reads : AllInBounds (FromBytes.reads pf buf g)
  stated : HeaderOk pf buf → minimumMessageLength + payloadSize buf < 2 ^ 32

/-- The buffers for which that is so. -/
theorem staysInBounds_iff {buf : TBytes} {g : Globals} :
    StaysInBounds pf g buf ↔
      6 ≤ buf.length ∧ buf.headD 0 ∈ ValidMessageIDs ∧ payloadSize buf < 2 ^ 32 - 6 := by
  constructor
  · rintro ⟨hreads, hstated⟩
    obtain ⟨hlen, hmem, -⟩ := reads_inBounds_iff.mp hreads
    refine ⟨hlen, hmem, Nat.lt_of_not_le fun hwrap => ?_⟩
    -- the sum of a long payload and the minimum is at most five, for four bytes hold its length
    have hsize : payloadSize buf < 256 ^ 4 :=
      Nat.lt_of_lt_of_le (Bytes.ofLe_lt _)
        (Nat.pow_le_pow_right (by decide) (List.length_take_le ..))
    have hsmall : (6 + payloadSize buf) % 2 ^ 32 ≤ buf.length := by omega
    have hlt : 6 + payloadSize buf < 2 ^ 32 :=
      hstated ⟨hlen, isValidMessageID_of_mem hmem, hsmall⟩
    omega
  · rintro ⟨hlen, hmem, hsize⟩
    have hlt : 6 + payloadSize buf < 2 ^ 32 := by omega
    refine ⟨reads_inBounds_iff.mpr ⟨hlen, hmem, fun hstated => not_overruns ?_⟩, fun _ => hlt⟩
    rw [Nat.mod_eq_of_lt hlt] at hstated
    rw [List.length_drop]
    omega

/-- A query that states `2 ^ 32 - 6` bytes of payload and has none. -/
def exWrapped : TBytes := [0x51, 0xFA, 0xFF, 0xFF, 0xFF, 0]

/-- A message with an id that the table does not have. -/
def exNoSuchId : TBytes := [0x41, 0, 0, 0, 0, 0xBF]

/-- The payload of the first one is looked for behind its end, and the id of the
second one behind the end of the table. -/
theorem reads_leave_bounds :
    ¬StaysInBounds exPlatform exGlobals exWrapped ∧
      ¬StaysInBounds exPlatform exGlobals exNoSuchId ∧
      { memory := .payload, index := 2, size := 1 } ∈
        FromBytes.reads exPlatform exWrapped exGlobals ∧
      { memory := .ValidMessageIDs, index := 7, size := 7 } ∈
        FromBytes.reads exPlatform exNoSuchId exGlobals := by
  have hpayload : { memory := .payload, index := 2, size := 1 } ∈
      FromBytes.reads exPlatform exWrapped exGlobals := by decide +kernel
  have htable : { memory := .ValidMessageIDs, index := 7, size := 7 } ∈
      FromBytes.reads exPlatform exNoSuchId exGlobals := by decide +kernel
  refine ⟨fun h => ?_, fun h => ?_, hpayload, htable⟩
  · exact absurd (h.reads _ hpayload) (by decide)
  · exact absurd (h.reads _ htable) (by decide)

end EnetTcp
