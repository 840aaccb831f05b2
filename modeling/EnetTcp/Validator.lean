import EnetTcp.Acceptance

/-!
# The validator (TMessage.cpp, validateMessage)

`validateMessage` checks a message without building its items. It makes the checks of
`FromBytes`, but it goes by the end of the buffer and not by the stated length, and it
looks at each item together with the byte that follows it.

* `validateMessage_iff`: what the validator accepts.
* `validator_agrees_iff`: it agrees with the parser on the messages that are none of the
  three kinds of `Disagrees`.
-/

namespace EnetTcp

open Prog

variable {pf : Platform}

abbrev ERR_MSG_DATAITEM_ID_UNKNOWN : TError := -8

/-! ## 1. The validator -/

/-- `slicing(v, 0, End)` with the element at `End`; there is none behind the vector. -/
def slicing (v : TBytes) (End : Nat) : Option TBytes :=
  if End < v.length then some (v.take (End + 1)) else none

/-- `TDataItemBase::validateDataItem` on an item of a known id, or not. -/
def validateDataItem (bytes : TBytes) : Option TError := do
  if bytes.length < sizeofTDataItemHeader then return ERR_MSG_DATAITEM_TOO_SHORT
  let Id ← readU16 bytes 0
  let DataItemSize ← readU16 bytes 2
  match DIdDict.find Id with
  | none => return ERR_MSG_DATAITEM_ID_UNKNOWN
  | some e =>
    if DataItemSize = 0 then return ERR_SUCCESS
    else return validateDataItemPayload e (bytes.drop sizeofTDataItemHeader)

/-- `validatePayload` gets the payload with the checksum behind it. Each call takes at
least four bytes off, so fuel beyond the length is never used up. -/
def validatePayload : (fuel : Nat) → TBytes → Option TError
  | 0, _ => none
  | fuel + 1, Payload =>
    if Payload.length = 1 then some ERR_SUCCESS
    else if Payload.length = 0 then some ERR_MSG_DATAITEM_TOO_SHORT
    else if Payload.length < sizeofTDataItemHeader then some ERR_MSG_DATAITEM_TOO_SHORT
    else do
      let DataItemSize := sizeofTDataItemHeader + (← readU16 Payload 2).toNat
      if Payload.length < DataItemSize then return ERR_MSG_PAYLOAD_DATAITEM_LEN_MISMATCH
      let DataItem ← slicing Payload DataItemSize
      let result ← validateDataItem DataItem
      if result ≠ ERR_SUCCESS then return result
      let Payload := Payload.drop DataItemSize
      if 0 < Payload.length then validatePayload fuel Payload else return result

def validateMessage (pf : Platform) (buf : TBytes) : Option TError :=
  if buf.length < minimumMessageLength then some ERR_MSG_TOO_SHORT
  else if !isValidMessageID pf (buf.headD 0) then some ERR_MSG_ID_UNKNOWN
  else if buf.length < (minimumMessageLength + payloadSize buf) % 2 ^ 32 then
    some ERR_MSG_LEN_MISMATCH
  else if calculateChecksum buf ≠ 0 then some ERR_MSG_CHECKSUM
  else
    let payload := buf.drop sizeofTMessageHeader
    validatePayload (payload.length + 1) payload

/-! ## 2. What it accepts -/

/-- The item is empty, or as long as its entry wants it when one more byte is counted. -/
def WireItem.Validated (w : WireItem) : Prop :=
  ∃ e, DIdDict.find w.DId = some e ∧ (w.data = [] ∨
    (e.minLen ≤ (w.data.length + 1) % 65536 ∧ (w.data.length + 1) % 65536 ≤ e.maxLen))

/-- The item is one that the factory admits. -/
def WireItem.Admitted (w : WireItem) : Prop :=
  ∃ e, DIdDict.find w.DId = some e ∧ e.Admits w.data

/-- Validated items up to one last byte. -/
def ValidTo (payload : TBytes) : Prop :=
  ∃ ws c, payload = itemFormat.encodeAll ws ++ [c] ∧ ∀ w ∈ ws, WireItem.Validated w

namespace ValidatorLemmas

theorem peel_singleton (c : UInt8) : itemFormat.peel [c] = none := rfl

theorem not_validTo_nil : ¬ValidTo [] := by
  rintro ⟨ws, c, heq, -⟩
  exact List.append_ne_nil_of_right_ne_nil _ (List.cons_ne_nil c []) heq.symm

/-- Validated items behind a complete item are validated items, if it is one too. -/
theorem validTo_item {w : WireItem} {xs : TBytes} :
    ValidTo (w.bytes ++ xs) ↔ w.Validated ∧ ValidTo xs := by
  constructor
  · rintro ⟨ws, c, heq, hall⟩
    have hsplits : itemFormat.Splits (w.bytes ++ xs) ws [c] := ⟨heq, peel_singleton c⟩
    cases ws with
    | nil =>
      have hlen := congrArg List.length heq
      simp only [List.length_append, w.length_bytes, RecordFormat.encodeAll_nil, List.nil_append,
        List.length_singleton] at hlen
      omega
    | cons v ws =>
      rw [RecordFormat.encodeAll_cons, List.append_assoc] at heq
      obtain ⟨rfl, hxs⟩ := itemFormat.encode_append_inj heq
      obtain ⟨hw, hws⟩ := List.forall_mem_cons.mp hall
      exact ⟨hw, ws, c, hxs, hws⟩
  · rintro ⟨hw, ws, c, rfl, hall⟩
    exact ⟨w :: ws, c, by rw [RecordFormat.encodeAll_cons, List.append_assoc]; rfl,
      List.forall_mem_cons.mpr ⟨hw, hall⟩⟩

theorem drop_header (w : WireItem) (xs : TBytes) : (w.bytes ++ xs).drop 4 = w.data ++ xs := by
  rw [w.bytes_eq, List.append_assoc, List.append_assoc]
  rfl

/-- What the validator makes of an item and the byte behind it. -/
theorem validateDataItem_item (w : WireItem) (c : UInt8) :
    validateDataItem (w.bytes ++ [c]) = some ERR_SUCCESS ↔ w.Validated := by
  have hlong : ¬(w.bytes ++ [c]).length < 4 := by
    rw [List.length_append, w.length_bytes]
    omega
  have hnil : UInt16.ofNat w.data.length = 0 ↔ w.data = [] := by
    rw [← UInt16.toNat_inj, w.toNat_lengthField]
    exact List.length_eq_zero_iff
  have hlen : (w.data ++ [c]).length = w.data.length + 1 := by
    rw [List.length_append, List.length_singleton]
  rw [validateDataItem, if_neg hlong, w.readU16_id, w.readU16_length]
  simp only [Option.bind_eq_bind, Option.bind_some, WireItem.Validated]
  cases DIdDict.find w.DId with
  | none =>
    refine iff_of_false (fun h => ?_) fun ⟨e, he, _⟩ => by cases he
    exact absurd (Option.some.inj h) (by decide)
  | some e =>
    simp only [Option.some.injEq, exists_eq_left', ← hnil]
    show (if UInt16.ofNat w.data.length = 0 then some ERR_SUCCESS
      else some (validateDataItemPayload e ((w.bytes ++ [c]).drop 4))) = _ ↔ _
    by_cases hdata : UInt16.ofNat w.data.length = 0
    · rw [if_pos hdata]
      exact iff_of_true rfl (.inl hdata)
    · rw [if_neg hdata, or_iff_right hdata, drop_header, validateDataItemPayload, hlen,
        Option.some.injEq]
      split
      case isTrue h => exact iff_of_true rfl h
      case isFalse h => exact iff_of_false (by decide) h

/-- No item begins here. -/
theorem validatePayload_stops {payload : TBytes} (h : itemFormat.peel payload = none) (fuel : Nat) :
    validatePayload (fuel + 1) payload = some ERR_SUCCESS ↔ ValidTo payload := by
  have hvalid : ValidTo payload ↔ payload.length = 1 := by
    constructor
    · rintro ⟨ws, c, rfl, -⟩
      cases ws with
      | nil => rfl
      | cons w ws =>
        rw [RecordFormat.encodeAll_cons, List.append_assoc, itemFormat.peel_encode] at h
        cases h
    · intro hlen
      obtain ⟨c, rfl⟩ := List.length_eq_one_iff.mp hlen
      exact ⟨[], c, rfl, fun w hw => absurd hw List.not_mem_nil⟩
  rw [hvalid, validatePayload]
  by_cases h1 : payload.length = 1
  · rw [if_pos h1]
    exact iff_of_true rfl h1
  refine iff_of_false (fun hrun => ?_) h1
  rw [if_neg h1] at hrun
  by_cases h0 : payload.length = 0
  · rw [if_pos h0] at hrun
    exact absurd (Option.some.inj hrun) (by decide)
  rw [if_neg h0] at hrun
  by_cases h4 : payload.length < 4
  · rw [if_pos h4] at hrun
    exact absurd (Option.some.inj hrun) (by decide)
  rw [if_neg h4] at hrun
  cases hl : readU16 payload 2 with
  | none =>
    rw [hl] at hrun
    cases hrun
  | some l =>
    obtain ⟨-, id, -, hcut | ⟨w, xs, rfl, -, -⟩⟩ := header_cases hl
    · rw [hl] at hrun
      have hlong : payload.length < sizeofTDataItemHeader + l.toNat := hcut
      simp only [Option.bind_eq_bind, Option.bind_some, if_pos hlong] at hrun
      exact absurd (Option.some.inj hrun) (by decide)
    · rw [show itemFormat.peel (w.bytes ++ xs) = some (w, xs) from itemFormat.peel_encode w xs] at h
      cases h

/-- A complete item at the front. -/
theorem validatePayload_item {w : WireItem} {x : UInt8} {xs : TBytes} (fuel : Nat) :
    validatePayload (fuel + 1) (w.bytes ++ x :: xs) = some ERR_SUCCESS ↔
      w.Validated ∧ validatePayload fuel (x :: xs) = some ERR_SUCCESS := by
  have hlen : (w.bytes ++ x :: xs).length = 4 + w.data.length + (xs.length + 1) := by
    rw [List.length_append, w.length_bytes, List.length_cons]
  have hslice : slicing (w.bytes ++ x :: xs) (4 + w.data.length) = some (w.bytes ++ [x]) := by
    rw [slicing, if_pos (by omega), ← w.length_bytes, List.take_length_add_append]
    rfl
  have hdrop : (w.bytes ++ x :: xs).drop (4 + w.data.length) = x :: xs := by
    rw [← w.length_bytes, List.drop_left]
  rw [validatePayload, if_neg (by omega), if_neg (by omega),
    if_neg (show ¬_ < 4 by omega), w.readU16_length]
  simp only [Option.bind_eq_bind, Option.bind_some, w.toNat_lengthField, sizeofTDataItemHeader]
  rw [if_neg (by omega), hslice, Option.bind_some]
  cases hitem : validateDataItem (w.bytes ++ [x]) with
  | none =>
    refine iff_of_false (fun h => by cases h) fun h => ?_
    rw [(validateDataItem_item w x).mpr h.1] at hitem
    cases hitem
  | some r =>
    rw [Option.bind_some]
    by_cases hr : r = ERR_SUCCESS
    · subst hr
      rw [if_neg (not_not.mpr rfl), hdrop, if_pos (by rw [List.length_cons]; omega),
        and_iff_right ((validateDataItem_item w x).mp hitem)]
    · rw [if_pos hr]
      refine iff_of_false (fun h => hr (Option.some.inj h)) fun h => ?_
      rw [(validateDataItem_item w x).mpr h.1] at hitem
      exact hr (Option.some.inj hitem).symm

/-- An item that ends with the buffer: the byte behind it is read all the same. -/
theorem validatePayload_last (w : WireItem) (fuel : Nat) :
    validatePayload (fuel + 1) w.bytes ≠ some ERR_SUCCESS := by
  have hlen := w.length_bytes
  have hread := w.readU16_length []
  rw [List.append_nil] at hread
  rw [validatePayload, if_neg (by omega), if_neg (by omega), if_neg (show ¬_ < 4 by omega), hread]
  simp only [Option.bind_eq_bind, Option.bind_some, w.toNat_lengthField, sizeofTDataItemHeader]
  rw [if_neg (by omega), slicing, if_neg (by omega)]
  exact fun h => by cases h

theorem validatePayload_iff {payload : TBytes} {fuel : Nat} (hfuel : payload.length < fuel) :
    validatePayload fuel payload = some ERR_SUCCESS ↔ ValidTo payload := by
  induction payload using itemFormat.peel_induction generalizing fuel with
  | hstop xs h =>
    obtain ⟨fuel, rfl⟩ : ∃ k, fuel = k + 1 := ⟨fuel - 1, by omega⟩
    exact validatePayload_stops h fuel
  | hrecord w xs ih =>
    obtain ⟨fuel, rfl⟩ : ∃ k, fuel = k + 1 := ⟨fuel - 1, by omega⟩
    have hbytes : itemFormat.encode w = w.bytes := rfl
    have hpos := itemFormat.length_encode_pos w
    rw [List.length_append] at hfuel
    rw [hbytes, validTo_item]
    cases xs with
    | nil =>
      rw [List.append_nil]
      refine iff_of_false (validatePayload_last w fuel) fun h => ?_
      exact not_validTo_nil h.2
    | cons x xs => rw [validatePayload_item, ih (by omega)]

end ValidatorLemmas

open ValidatorLemmas

/-- The validator accepts a message whose header and checksum are right and whose items are
validated up to its last byte. -/
theorem validateMessage_iff {buf : TBytes} :
    validateMessage pf buf = some ERR_SUCCESS ↔
      HeaderOk pf buf ∧ calculateChecksum buf = 0 ∧ ValidTo (buf.drop 5) := by
  unfold validateMessage
  by_cases hlong : buf.length < 6
  · rw [if_pos hlong]
    exact iff_of_false (by decide) fun h => absurd h.1.long (Nat.not_le_of_lt hlong)
  rw [if_neg hlong]
  cases hid : isValidMessageID pf (buf.headD 0)
  · refine iff_of_false (by simp) fun h => ?_
    rw [h.1.id] at hid
    cases hid
  rw [if_neg (by decide)]
  by_cases hstated : buf.length < (6 + payloadSize buf) % 2 ^ 32
  · rw [if_pos hstated]
    exact iff_of_false (by decide) fun h => absurd h.1.stated (Nat.not_le_of_lt hstated)
  rw [if_neg hstated]
  have hheader : HeaderOk pf buf := ⟨Nat.le_of_not_lt hlong, hid, Nat.le_of_not_lt hstated⟩
  rw [and_iff_right hheader]
  by_cases hsum : calculateChecksum buf = 0
  · rw [if_neg (not_not.mpr hsum), and_iff_right hsum]
    exact validatePayload_iff (Nat.lt_succ_self _)
  · rw [if_pos hsum]
    exact iff_of_false (by decide) fun h => hsum h.1

/-! ## 3. What the parser accepts -/

/-- Admitted items, and less than a header up to `size`. -/
def ReadTo (payload : TBytes) (size : Nat) : Prop :=
  ∃ ws rest n, payload = itemFormat.encodeAll ws ++ rest ∧
    size = (itemFormat.encodeAll ws).length + n ∧ n < 4 ∧ ∀ w ∈ ws, WireItem.Admitted w

/-- The constructor of each item that the parser gets to takes its data. -/
def ConstructorsAccept (pf : Platform) (g : Globals) (payload : TBytes) (size : Nat) : Prop :=
  ∀ ws items g' w rest, payload = itemFormat.encodeAll ws ++ (WireItem.bytes w ++ rest) →
    (itemFormat.encodeAll ws).length + w.bytes.length ≤ size → Built pf g ws items g' →
      ∀ e, DIdDict.find w.DId = some e → e.Admits w.data →
        ∃ body g'', (construct pf e.Construct w.data).exec g' = some (.ok body, g'')

namespace ValidatorLemmas

theorem admitted_of_built {g g' : Globals} {ws : List WireItem} {items : List TDataItem}
    (h : Built pf g ws items g') : ∀ w ∈ ws, w.Admitted := by
  induction h with
  | nil => exact fun w hw => absurd hw List.not_mem_nil
  | cons hw _ ih =>
    obtain ⟨⟨e, he, hadmits, -⟩, -⟩ := hw
    exact List.forall_mem_cons.mpr ⟨⟨e, he, hadmits⟩, ih⟩

/-- Admitted items are built when the constructors take their data. -/
theorem built_of_admitted {ws : List WireItem} {g : Globals} {rest : TBytes} {size : Nat}
    (h : ConstructorsAccept pf g (itemFormat.encodeAll ws ++ rest) size)
    (hsize : (itemFormat.encodeAll ws).length ≤ size) (hall : ∀ w ∈ ws, w.Admitted) :
    ∃ items g', Built pf g ws items g' := by
  induction ws generalizing g size with
  | nil => exact ⟨[], g, .nil⟩
  | cons w ws ih =>
    obtain ⟨⟨e, he, hadmits⟩, hrest⟩ := List.forall_mem_cons.mp hall
    rw [RecordFormat.encodeAll_cons, List.length_append] at hsize
    have hbytes : itemFormat.encode w = w.bytes := rfl
    rw [hbytes] at hsize
    obtain ⟨body, g₁, hrun⟩ := h [] [] g w (itemFormat.encodeAll ws ++ rest)
      (List.append_assoc ..) (by simp only [RecordFormat.encodeAll_nil, List.length_nil]; omega)
      .nil e he hadmits
    have hbuilds : w.Builds pf g { body with DId := w.DId } g₁ := ⟨⟨e, he, hadmits, hrun⟩, rfl⟩
    have hnext : ConstructorsAccept pf g₁ (itemFormat.encodeAll ws ++ rest)
        (size - w.bytes.length) := by
      intro vs items g' v more heq hle hbuilt
      refine h (w :: vs) _ g' v more ?_ ?_ (.cons hbuilds hbuilt)
      · rw [RecordFormat.encodeAll_cons, RecordFormat.encodeAll_cons, List.append_assoc, heq,
          List.append_assoc]
      · rw [RecordFormat.encodeAll_cons, List.length_append, hbytes]
        omega
    obtain ⟨items, g', hbuilt⟩ := ih hnext (by omega) hrest
    exact ⟨_, g', .cons hbuilds hbuilt⟩

end ValidatorLemmas

/-- The parser accepts a message whose header and checksum are right and whose items are
admitted up to the stated length, if their constructors take their data. -/
theorem FromBytes_accepts_iff {buf : TBytes} {g : Globals}
    (h : ConstructorsAccept pf g (buf.drop 5) (payloadSize buf)) :
    (∃ m g', (FromBytes pf buf).exec g = some (.ok (m, ERR_SUCCESS), g')) ↔
      HeaderOk pf buf ∧ calculateChecksum buf = 0 ∧ ReadTo (buf.drop 5) (payloadSize buf) := by
  constructor
  · rintro ⟨m, g', hrun⟩
    obtain ⟨ws, items, n, ⟨hheader, ⟨rest, hpayload⟩, hsize, hn, hbuilt, hsum⟩, -⟩ :=
      FromBytes_succeeds_iff.mp hrun
    exact ⟨hheader, hsum, ws, rest, n, hpayload, hsize, hn, admitted_of_built hbuilt⟩
  · rintro ⟨hheader, hsum, ws, rest, n, hpayload, hsize, hn, hall⟩
    obtain ⟨items, g', hbuilt⟩ := built_of_admitted (hpayload ▸ h) (by omega) hall
    exact ⟨_, g', FromBytes_succeeds_iff.mpr ⟨ws, items, n,
      ⟨hheader, ⟨rest, hpayload⟩, hsize, hn, hbuilt, hsum⟩, rfl⟩⟩

/-! ## 4. Where they differ -/

/-- The validator and the parser do not agree on a message whose header and checksum are
right. -/
inductive Disagrees (payload : TBytes) (size : Nat) : Prop
  /-- All items are validated up to the last byte. The parser, behind items that it admits, has
  to read one more: it is not admitted, or the stated length cuts it, or there is none. -/
  | refused {ws more : List WireItem} {c : UInt8} :
      payload = itemFormat.encodeAll (ws ++ more) ++ [c] →
      (∀ w ∈ ws ++ more, WireItem.Validated w) → (∀ w ∈ ws, WireItem.Admitted w) →
      (itemFormat.encodeAll ws).length + 4 ≤ size →
      (∀ w, more.head? = some w → size < (itemFormat.encodeAll ws).length + w.bytes.length ∨
        ¬WireItem.Admitted w) →
      Disagrees payload size
  /-- The parser takes all items up to the stated length. One of them is not validated. -/
  | long {ws : List WireItem} {rest : TBytes} {n : Nat} {w : WireItem} :
      payload = itemFormat.encodeAll ws ++ rest → size = (itemFormat.encodeAll ws).length + n →
      n < 4 → (∀ w ∈ ws, WireItem.Admitted w) → w ∈ ws → ¬w.Validated → Disagrees payload size
  /-- The parser takes all items up to the stated length. What is behind them is not one byte, nor
  more validated items and one byte. -/
  | trailing {ws : List WireItem} {rest : TBytes} {n : Nat} :
      payload = itemFormat.encodeAll ws ++ rest → size = (itemFormat.encodeAll ws).length + n →
      n < 4 → (∀ w ∈ ws, WireItem.Admitted w) → ¬ValidTo rest → Disagrees payload size

namespace ValidatorLemmas

theorem validTo_items {ws : List WireItem} {rest : TBytes} :
    ValidTo (itemFormat.encodeAll ws ++ rest) ↔ (∀ w ∈ ws, w.Validated) ∧ ValidTo rest := by
  induction ws with
  | nil =>
    rw [RecordFormat.encodeAll_nil, List.nil_append]
    exact ⟨fun h => ⟨fun w hw => absurd hw List.not_mem_nil, h⟩, And.right⟩
  | cons w ws ih =>
    rw [RecordFormat.encodeAll_cons, List.append_assoc, List.forall_mem_cons, and_assoc, ← ih]
    exact validTo_item

theorem not_readTo_of_refused {ws more : List WireItem} {c : UInt8} {size : Nat}
    (hlen : (itemFormat.encodeAll ws).length + 4 ≤ size)
    (hmore : ∀ w, more.head? = some w → size < (itemFormat.encodeAll ws).length + w.bytes.length ∨
      ¬WireItem.Admitted w) : ¬ReadTo (itemFormat.encodeAll (ws ++ more) ++ [c]) size := by
  rintro ⟨vs, rest, n, hpayload, hsize, hn, hall⟩
  obtain ⟨us, hws, -⟩ := itemFormat.prefix_of_splits (peel_singleton c) hpayload.symm
  rcases List.append_eq_append_iff.mp hws with ⟨as, rfl, hmid⟩ | ⟨as, rfl, hmid⟩
  · -- the items that are read go beyond `ws`
    cases as with
    | nil =>
      rw [List.append_nil] at hsize
      omega
    | cons w as =>
      have hw : w.Admitted := hall w (List.mem_append_right _ List.mem_cons_self)
      have hcut := (hmore w (by rw [hmid]; rfl)).resolve_right (not_not.mpr hw)
      rw [RecordFormat.encodeAll_append, RecordFormat.encodeAll_cons, List.length_append,
        List.length_append] at hsize
      have hbytes : itemFormat.encode w = w.bytes := rfl
      rw [hbytes] at hsize
      omega
  · rw [RecordFormat.encodeAll_append, List.length_append] at hlen
    omega

/-- Behind some of the items the parser is done, or it meets one that it does not take. -/
theorem readTo_or_stops (ws : List WireItem) (c : UInt8) (size : Nat) :
    ReadTo (itemFormat.encodeAll ws ++ [c]) size ∨
      ∃ vs more, ws = vs ++ more ∧ (∀ w ∈ vs, WireItem.Admitted w) ∧
        (itemFormat.encodeAll vs).length + 4 ≤ size ∧
        ∀ w, more.head? = some w → size < (itemFormat.encodeAll vs).length + w.bytes.length ∨
          ¬WireItem.Admitted w := by
  have hnone : ∀ w ∈ ([] : List WireItem), w.Admitted := fun w hw => absurd hw List.not_mem_nil
  have hnil : (itemFormat.encodeAll []).length = 0 := rfl
  induction ws generalizing size with
  | nil =>
    by_cases hsize : size < 4
    · exact .inl ⟨[], [c], size, rfl, (Nat.zero_add _).symm, hsize, hnone⟩
    · refine .inr ⟨[], [], rfl, hnone, by omega, ?_⟩
      rintro w ⟨⟩
  | cons w ws ih =>
    by_cases hsize : size < 4
    · exact .inl ⟨[], _, size, rfl, (Nat.zero_add _).symm, hsize, hnone⟩
    by_cases htaken : w.bytes.length ≤ size ∧ w.Admitted
    · have hlen (vs : List WireItem) : (itemFormat.encodeAll (w :: vs)).length =
          w.bytes.length + (itemFormat.encodeAll vs).length := List.length_append
      rcases ih (size - w.bytes.length) with ⟨vs, rest, n, heq, hn, hlt, hall⟩ |
        ⟨vs, more, rfl, hall, hlong, hstop⟩
      · refine .inl ⟨w :: vs, rest, n, ?_, ?_, hlt, List.forall_mem_cons.mpr ⟨htaken.2, hall⟩⟩
        · rw [RecordFormat.encodeAll_cons, RecordFormat.encodeAll_cons, List.append_assoc, heq,
            List.append_assoc]
        · rw [hlen]
          omega
      · refine .inr ⟨w :: vs, more, rfl, List.forall_mem_cons.mpr ⟨htaken.2, hall⟩, ?_, ?_⟩
        · rw [hlen]
          omega
        · intro v hv
          rw [hlen]
          exact (hstop v hv).imp_left fun h => by omega
    · refine .inr ⟨[], w :: ws, rfl, hnone, by omega, ?_⟩
      rintro v ⟨⟩
      rw [hnil, Nat.zero_add, ← Nat.not_le, ← not_and_or]
      exact htaken

theorem disagrees_iff {payload : TBytes} {size : Nat} :
    Disagrees payload size ↔ ¬(ValidTo payload ↔ ReadTo payload size) := by
  constructor
  · intro h hsame
    cases h with
    | @refused ws more c heq hvalid hadmitted hlen hmore =>
      subst heq
      exact not_readTo_of_refused hlen hmore (hsame.mp ⟨_, c, rfl, hvalid⟩)
    | @long ws rest n w heq hsize hn hall hw hnot =>
      subst heq
      have hvalid := validTo_items.mp (hsame.mpr ⟨ws, rest, n, rfl, hsize, hn, hall⟩)
      exact hnot (hvalid.1 w hw)
    | @trailing ws rest n heq hsize hn hall hnot =>
      subst heq
      have hvalid := validTo_items.mp (hsame.mpr ⟨ws, rest, n, rfl, hsize, hn, hall⟩)
      exact hnot hvalid.2
  · intro hdiffer
    by_cases hvalid : ValidTo payload
    · obtain ⟨ws, c, rfl, hall⟩ := hvalid
      rcases readTo_or_stops ws c size with hread | ⟨vs, more, rfl, hadmitted, hlen, hmore⟩
      · exact absurd (iff_of_true ⟨ws, c, rfl, hall⟩ hread) hdiffer
      · exact .refused rfl hall hadmitted hlen hmore
    · have hread : ReadTo payload size := by
        by_contra hnot
        exact hdiffer (iff_of_false hvalid hnot)
      obtain ⟨ws, rest, n, rfl, hsize, hn, hall⟩ := hread
      by_cases hrest : ValidTo rest
      · have hitems : ¬∀ w ∈ ws, w.Validated := fun h => hvalid (validTo_items.mpr ⟨h, hrest⟩)
        obtain ⟨w, hw, hnot⟩ := by simpa only [not_forall] using hitems
        exact .long rfl hsize hn hall hw hnot
      · exact .trailing rfl hsize hn hall hrest

end ValidatorLemmas

/-- The items that the validator alone takes: one byte short of what the entry wants, or so
long that one more byte overflows the count. -/
theorem validated_not_admitted {w : WireItem} :
    w.Validated ∧ ¬w.Admitted ↔ ∃ e, DIdDict.find w.DId = some e ∧ w.data ≠ [] ∧
      (w.data.length + 1 = e.minLen ∨ w.data.length = 65535 ∧ e.minLen = 0) := by
  have hfits := w.fits
  simp only [WireItem.Validated, WireItem.Admitted, TDIdDictEntry.Admits]
  cases he : DIdDict.find w.DId with
  | none => simp only [reduceCtorEq, false_and, exists_false]
  | some e =>
    have hbounds := dict_bounds (find_some he).1
    simp only [Option.some.injEq, exists_eq_left', not_or, ne_eq]
    by_cases hnil : w.data = []
    · simp only [hnil, not_true_eq_false, and_false, false_and]
    · simp only [hnil, false_or, not_false_eq_true, true_and]
      omega

/-- The items that the parser alone takes: those as long as the entry allows. -/
theorem admitted_not_validated {w : WireItem} :
    w.Admitted ∧ ¬w.Validated ↔ ∃ e, DIdDict.find w.DId = some e ∧ w.data ≠ [] ∧
      w.data.length = e.maxLen := by
  have hfits := w.fits
  simp only [WireItem.Validated, WireItem.Admitted, TDIdDictEntry.Admits]
  cases he : DIdDict.find w.DId with
  | none => simp only [reduceCtorEq, false_and, exists_false]
  | some e =>
    have hbounds := dict_bounds (find_some he).1
    simp only [Option.some.injEq, exists_eq_left', not_or, ne_eq]
    by_cases hnil : w.data = []
    · simp only [hnil, true_or, not_true_eq_false, and_false, false_and]
    · simp only [hnil, false_or, not_false_eq_true, true_and]
      omega

/-- The validator agrees with the parser on the messages whose constructors take their data,
but for those that they disagree on. -/
theorem validator_agrees_iff {buf : TBytes} {g : Globals}
    (h : ConstructorsAccept pf g (buf.drop 5) (payloadSize buf)) :
    (validateMessage pf buf = some ERR_SUCCESS ↔
        ∃ m g', (FromBytes pf buf).exec g = some (.ok (m, ERR_SUCCESS), g')) ↔
      ¬(HeaderOk pf buf ∧ calculateChecksum buf = 0 ∧
        Disagrees (buf.drop 5) (payloadSize buf)) := by
  rw [validateMessage_iff, FromBytes_accepts_iff h, disagrees_iff]
  tauto

/-! ## 5. Items whose constructors always succeed -/

namespace ValidatorLemmas

/-- The parser gets to the items of the payload only. -/
theorem constructorsAccept_items (us : List WireItem) {c : UInt8}
    (h : ∀ w ∈ us, ∀ e, DIdDict.find w.DId = some e → ∀ g : Globals,
      ∃ body g', (construct pf e.Construct w.data).exec g = some (.ok body, g')) (g : Globals) :
    ConstructorsAccept pf g (itemFormat.encodeAll us ++ [c]) (itemFormat.encodeAll us).length := by
  intro ws items g' v rest heq hle _ e he _
  exact h v (itemFormat.mem_of_encodeAll_eq heq hle) e he g'

end ValidatorLemmas

def exDeviceID : WireItem := ⟨DataItemIds.BRD_DeviceID, [], Nat.succ_pos _⟩

def exSerialNumber : WireItem :=
  ⟨DataItemIds.BRD_SerialNumber, text "SN-123456789", Nat.lt_of_sub_pos (by decide)⟩

def exHostname : WireItem :=
  ⟨DataItemIds.CFG_Hostname, text "daq-7", Nat.lt_of_sub_pos (by decide)⟩

/-- A query for the device id, with a serial number and a name to set. -/
def exSettings : List WireItem := [exDeviceID, exSerialNumber, exHostname]

def exSettingsQuery : TBytes := frameBytes 0x51 (exSettings.map WireItem.bytes)

/-- The parser and the validator agree on it: both accept. -/
theorem agree_on_settings : validateMessage exPlatform exSettingsQuery = some ERR_SUCCESS ∧
    ∃ m g', (FromBytes exPlatform exSettingsQuery).exec exGlobals =
      some (.ok (m, ERR_SUCCESS), g') := by
  have haccept : ConstructorsAccept exPlatform exGlobals (exSettingsQuery.drop 5)
      (payloadSize exSettingsQuery) := by
    refine constructorsAccept_items exSettings (fun w hw e he g => ?_) exGlobals
    rcases hw with _ | ⟨_, _ | ⟨_, _ | ⟨_, ⟨⟩⟩⟩⟩
    all_goals
      obtain rfl := Option.some.inj he
      exact ⟨_, g, rfl⟩
  have hvalidates : validateMessage exPlatform exSettingsQuery = some ERR_SUCCESS := by decide
  refine ⟨hvalidates, ((validator_agrees_iff haccept).mpr ?_).mp hvalidates⟩
  have hadmitted : ∀ w ∈ exSettings, w.Admitted := by
    intro w hw
    rcases hw with _ | ⟨_, _ | ⟨_, _ | ⟨_, ⟨⟩⟩⟩⟩
    · exact ⟨_, rfl, .inl rfl⟩
    · exact ⟨_, rfl, .inr (by decide)⟩
    · exact ⟨_, rfl, .inr (by decide)⟩
  have hreads : ReadTo (exSettingsQuery.drop 5) (payloadSize exSettingsQuery) :=
    ⟨exSettings, _, 0, rfl, rfl, by decide, hadmitted⟩
  have hvalid := (validateMessage_iff.mp hvalidates).2.2
  exact fun h => disagrees_iff.mp h.2.2 (iff_of_true hvalid hreads)

def exSubmuxCount : WireItem :=
  ⟨DataItemIds.BRD_NumberOfSubmuxes, [2], Nat.lt_of_sub_pos (by decide)⟩

/-- A message that sets the number of submuxes to two. -/
def exSubmuxMessage : TBytes := frameBytes 0x51 [exSubmuxCount.bytes]

/-- The constructor takes the byte and the parser accepts the message. The validator counts two
bytes where one is allowed. -/
theorem validator_rejects_submuxCount :
    ConstructorsAccept exPlatform exGlobals (exSubmuxMessage.drop 5) (payloadSize exSubmuxMessage) ∧
      ¬(validateMessage exPlatform exSubmuxMessage = some ERR_SUCCESS ↔
        ∃ m g', (FromBytes exPlatform exSubmuxMessage).exec exGlobals =
          some (.ok (m, ERR_SUCCESS), g')) := by
  have haccept : ConstructorsAccept exPlatform exGlobals (exSubmuxMessage.drop 5)
      (payloadSize exSubmuxMessage) := by
    refine constructorsAccept_items [exSubmuxCount] (fun w hw e he g => ?_) exGlobals
    obtain rfl := List.mem_singleton.mp hw
    obtain rfl := Option.some.inj he
    exact ⟨_, g, rfl⟩
  have hparses : ∃ m g', (FromBytes exPlatform exSubmuxMessage).exec exGlobals =
      some (.ok (m, ERR_SUCCESS), g') :=
    ⟨_, exGlobals, rfl⟩
  refine ⟨haccept, fun h => ?_⟩
  exact absurd (h.mpr hparses) (by decide)

end EnetTcp
