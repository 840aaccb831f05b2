import EnetTcp.Message
import EnetTcp.Lib.Records

/-!
# The wire format

Messages and data items as the bytes they are on the wire, before any
constructor has seen them.

* `itemFormat`: items back to back, as they fill a payload.
* `frameFormat`: frames back to back, as they fill a stream.

The numbers in them are little-endian: `stuff16_eq` and `readU16_cons` link the
shifts of the source to the arithmetic of `toLe` and `ofLe`.
-/

namespace EnetTcp

open Bytes

/-! ## 1. Numbers -/

namespace WireLemmas

theorem shiftRight_toUInt8 (v k : UInt32) (h : k < 32) :
    (v >>> k).toUInt8 = UInt8.ofNat (v.toNat / 2 ^ k.toNat) := by
  have hk : k.toNat < 32 := h
  apply UInt8.toNat_inj.mp
  simp only [UInt32.toNat_toUInt8, UInt32.toNat_shiftRight, Nat.shiftRight_eq_div_pow,
    UInt8.toNat_ofNat', Nat.mod_eq_of_lt hk]

theorem toUInt32_shiftLeft (x : UInt8) (k : UInt32) (hk : k.toNat ≤ 24) :
    (x.toUInt32 <<< k).toNat = x.toNat <<< k.toNat := by
  have hx := x.toNat_lt
  have hpow : 2 ^ k.toNat ≤ 2 ^ 24 := Nat.pow_le_pow_right (by decide) hk
  have hmul : x.toNat * 2 ^ k.toNat ≤ 255 * 2 ^ 24 := Nat.mul_le_mul (by omega) hpow
  rw [UInt32.toNat_shiftLeft, UInt8.toNat_toUInt32, Nat.mod_eq_of_lt (by omega : k.toNat < 32),
    Nat.shiftLeft_eq, Nat.mod_eq_of_lt (by omega)]

theorem bytes16 (a b : UInt8) :
    a.toUInt16 ||| b.toUInt16 <<< 8 = UInt16.ofNat (ofLe [a, b]) := by
  have ha := a.toNat_lt
  have hb := b.toNat_lt
  apply UInt16.toNat_inj.mp
  calc (a.toUInt16 ||| b.toUInt16 <<< 8).toNat
      = a.toNat ||| b.toNat <<< 8 % 2 ^ 16 := by
        rw [UInt16.toNat_or, UInt16.toNat_shiftLeft, UInt8.toNat_toUInt16, UInt8.toNat_toUInt16]
        rfl
    _ = a.toNat ||| b.toNat <<< 8 := by rw [Nat.mod_eq_of_lt (by rw [Nat.shiftLeft_eq]; omega)]
    _ = a.toNat + 256 * b.toNat := or_shiftLeft ha b.toNat
    _ = (UInt16.ofNat (ofLe [a, b])).toNat := by
        rw [UInt16.toNat_ofNat', ofLe_cons, ofLe_cons, ofLe_nil]
        omega

theorem bytes32 (a b c d : UInt8) :
    a.toUInt32 ||| b.toUInt32 <<< 8 ||| c.toUInt32 <<< 16 ||| d.toUInt32 <<< 24 =
      UInt32.ofNat (ofLe [a, b, c, d]) := by
  have ha := a.toNat_lt
  have hb := b.toNat_lt
  have hc := c.toNat_lt
  have hd := d.toNat_lt
  have hab : a.toNat + 2 ^ 8 * b.toNat < 2 ^ 16 := by omega
  have habc : a.toNat + 2 ^ 8 * b.toNat + 2 ^ 16 * c.toNat < 2 ^ 24 := by omega
  apply UInt32.toNat_inj.mp
  calc (a.toUInt32 ||| b.toUInt32 <<< 8 ||| c.toUInt32 <<< 16 ||| d.toUInt32 <<< 24).toNat
      = a.toNat ||| b.toNat <<< 8 ||| c.toNat <<< 16 ||| d.toNat <<< 24 := by
        rw [UInt32.toNat_or, UInt32.toNat_or, UInt32.toNat_or, toUInt32_shiftLeft b 8 (by decide),
          toUInt32_shiftLeft c 16 (by decide), toUInt32_shiftLeft d 24 (by decide)]
        rfl
    _ = a.toNat + 2 ^ 8 * b.toNat + 2 ^ 16 * c.toNat + 2 ^ 24 * d.toNat := by
        rw [or_shiftLeft ha, or_shiftLeft hab, or_shiftLeft habc]
    _ = (UInt32.ofNat (ofLe [a, b, c, d])).toNat := by
        simp only [UInt32.toNat_ofNat', ofLe_cons, ofLe_nil]
        omega

theorem ofLe_pair_lt (a b : UInt8) : ofLe [a, b] < 2 ^ 16 := by
  have ha := a.toNat_lt
  have hb := b.toNat_lt
  rw [ofLe_cons, ofLe_cons, ofLe_nil]
  omega

end WireLemmas

open WireLemmas

/-- `stuff<__u16>` writes the little-endian bytes. -/
theorem stuff16_eq (v : UInt16) : stuff16 v = toLe 2 v.toNat := by
  have hlow : v.toUInt8 = UInt8.ofNat v.toNat := UInt8.toNat_inj.mp rfl
  have hhigh : (v >>> 8).toUInt8 = UInt8.ofNat (v.toNat / 256) := by
    apply UInt8.toNat_inj.mp
    simp only [UInt16.toNat_toUInt8, UInt16.toNat_shiftRight, Nat.shiftRight_eq_div_pow,
      UInt8.toNat_ofNat']
    rfl
  rw [stuff16, hlow, hhigh]
  rfl

/-- `stuff<__u32>` writes the little-endian bytes. -/
theorem stuff32_eq (v : UInt32) : stuff32 v = toLe 4 v.toNat := by
  have hlow : v.toUInt8 = UInt8.ofNat v.toNat := UInt8.toNat_inj.mp rfl
  rw [stuff32, shiftRight_toUInt8 v 8 (by decide), shiftRight_toUInt8 v 16 (by decide),
    shiftRight_toUInt8 v 24 (by decide), hlow]
  simp only [toLe, Nat.div_div_eq_div_mul]
  rfl

@[simp] theorem length_stuff16 (v : UInt16) : (stuff16 v).length = 2 := rfl

@[simp] theorem length_stuff32 (v : UInt32) : (stuff32 v).length = 4 := rfl

theorem stuff32_inj {u v : UInt32} (h : stuff32 u = stuff32 v) : u = v := by
  rw [stuff32_eq, stuff32_eq] at h
  exact UInt32.toNat_inj.mp (toLe_inj u.toNat_lt v.toNat_lt h)

/-- `readU16` reads the little-endian number. -/
theorem readU16_cons (a b : UInt8) (xs : TBytes) :
    readU16 (a :: b :: xs) 0 = some (UInt16.ofNat (ofLe [a, b])) := by
  rw [← bytes16]
  rfl

/-- Reading behind a string of known length reads what follows it. -/
theorem readU16_append (xs ys : TBytes) (i : Nat) :
    readU16 (xs ++ ys) (xs.length + i) = readU16 ys i := by
  unfold readU16
  rw [Nat.add_assoc, List.getElem?_append_right (Nat.le_add_right ..),
    List.getElem?_append_right (Nat.le_add_right ..), Nat.add_sub_cancel_left,
    Nat.add_sub_cancel_left]

theorem readU16_stuff16 (v : UInt16) (xs : TBytes) : readU16 (stuff16 v ++ xs) 0 = some v := by
  have hread : UInt16.ofNat (ofLe (stuff16 v)) = v := by
    rw [stuff16_eq, ofLe_toLe_of_lt v.toNat_lt, UInt16.ofNat_toNat]
  exact (readU16_cons _ _ xs).trans (congrArg some hread)

/-- A read of the front of a string. -/
theorem readU16_take (xs : TBytes) (n i : Nat) :
    readU16 (xs.take n) i = if i + 1 < n then readU16 xs i else none := by
  unfold readU16
  by_cases h : i + 1 < n
  · rw [if_pos h, List.getElem?_take_of_lt h, List.getElem?_take_of_lt (by omega)]
  · rw [if_neg h, List.getElem?_take_eq_none (Nat.le_of_not_lt h)]
    cases (xs.take n)[i]? <;> rfl

theorem stuff16_ofLe (a b : UInt8) : stuff16 (UInt16.ofNat (ofLe [a, b])) = [a, b] := by
  rw [stuff16_eq, UInt16.toNat_ofNat', Nat.mod_eq_of_lt (ofLe_pair_lt a b)]
  exact toLe_ofLe [a, b]

/-! ## 2. Data items -/

/-- A data item on the wire: any id, and data that the length field can count. -/
structure WireItem where
  DId : DataItemIds
  data : TBytes
  fits : data.length < 2 ^ 16
  deriving DecidableEq

namespace WireItem

def bytes (w : WireItem) : TBytes := itemBytes w.DId w.data

/-- The header and the data of the item at the front, when all of it is there. -/
def peel : TBytes → Option (WireItem × TBytes)
  | d0 :: d1 :: l0 :: l1 :: xs =>
    if ofLe [l0, l1] ≤ xs.length then
      some (⟨UInt16.ofNat (ofLe [d0, d1]), xs.take (ofLe [l0, l1]),
        Nat.lt_of_le_of_lt (List.length_take_le ..) (ofLe_pair_lt l0 l1)⟩, xs.drop (ofLe [l0, l1]))
    else none
  | _ => none

theorem bytes_eq (w : WireItem) :
    w.bytes = stuff16 w.DId ++ (stuff16 (UInt16.ofNat w.data.length) ++ w.data) := by
  rw [bytes, itemBytes, List.append_assoc]

@[simp] theorem length_bytes (w : WireItem) : w.bytes.length = 4 + w.data.length := by
  rw [bytes_eq, List.length_append, List.length_append, length_stuff16, length_stuff16]
  omega

theorem toNat_lengthField (w : WireItem) : (UInt16.ofNat w.data.length).toNat = w.data.length := by
  rw [UInt16.toNat_ofNat', Nat.mod_eq_of_lt w.fits]

theorem readU16_id (w : WireItem) (xs : TBytes) : readU16 (w.bytes ++ xs) 0 = some w.DId := by
  rw [bytes_eq, List.append_assoc, readU16_stuff16]

theorem readU16_length (w : WireItem) (xs : TBytes) :
    readU16 (w.bytes ++ xs) 2 = some (UInt16.ofNat w.data.length) := by
  rw [bytes_eq, List.append_assoc, List.append_assoc]
  exact (readU16_append (stuff16 w.DId) _ 0).trans (readU16_stuff16 _ _)

theorem peel_bytes (w : WireItem) (xs : TBytes) : peel (w.bytes ++ xs) = some (w, xs) := by
  obtain ⟨id, data, hfits⟩ := w
  have hlen : ofLe (stuff16 (UInt16.ofNat data.length)) = data.length := by
    rw [stuff16_eq, UInt16.toNat_ofNat', Nat.mod_eq_of_lt hfits, ofLe_toLe_of_lt hfits]
  have hid : UInt16.ofNat (ofLe (stuff16 id)) = id := by
    rw [stuff16_eq, ofLe_toLe_of_lt id.toNat_lt, UInt16.ofNat_toNat]
  rw [bytes_eq, List.append_assoc, List.append_assoc]
  simp only [stuff16] at hlen hid
  simp only [stuff16, List.cons_append, List.nil_append, peel, hlen, hid, List.length_append,
    Nat.le_add_right, if_true, List.take_left, List.drop_left]

theorem eq_of_peel {xs ys : TBytes} {w : WireItem} (h : peel xs = some (w, ys)) :
    xs = w.bytes ++ ys := by
  unfold peel at h
  split at h
  case h_1 d0 d1 l0 l1 xs =>
    split at h
    case isTrue hle =>
      simp only [Option.some.injEq, Prod.mk.injEq] at h
      obtain ⟨rfl, rfl⟩ := h
      rw [bytes_eq, List.length_take_of_le hle, stuff16_ofLe, stuff16_ofLe]
      simp only [List.cons_append, List.nil_append, List.take_append_drop]
    case isFalse => cases h
  case h_2 => cases h

/-- Less than a header is no item. -/
theorem peel_of_short {xs : TBytes} (h : xs.length < 4) : peel xs = none := by
  unfold peel
  split
  · simp only [List.length_cons] at h
    omega
  · rfl

end WireItem

/-- Data items back to back. -/
def itemFormat : RecordFormat UInt8 WireItem where
  encode := WireItem.bytes
  peel := WireItem.peel
  peel_encode := WireItem.peel_bytes
  eq_of_peel := WireItem.eq_of_peel
  encode_ne_nil _ := List.cons_ne_nil _ _

/-! ## 3. Frames -/

/-- A frame that `ProcessMessages` lets through. -/
structure Frame where
  MId : TMessageId
  payload : TBytes
  checksum : UInt8
  fits : payload.length ≤ maxPayloadLength
  deriving DecidableEq

namespace Frame

def bytes (f : Frame) : TBytes :=
  f.MId :: toLe 4 f.payload.length ++ f.payload ++ [f.checksum]

/-- The frame at the front, when all of it is there and its length is allowed. -/
def peel : TBytes → Option (Frame × TBytes)
  | mid :: l0 :: l1 :: l2 :: l3 :: xs =>
    if hfits : ofLe [l0, l1, l2, l3] ≤ maxPayloadLength then
      match xs.drop (ofLe [l0, l1, l2, l3]) with
      | [] => none
      | c :: ys =>
        some (⟨mid, xs.take (ofLe [l0, l1, l2, l3]), c,
          Nat.le_trans (List.length_take_le ..) hfits⟩, ys)
    else none
  | _ => none

theorem payload_lt (f : Frame) : f.payload.length < 2 ^ 32 := by
  have h : f.payload.length ≤ (4 + 65535) * 16 := f.fits
  omega

@[simp] theorem length_bytes (f : Frame) : f.bytes.length = f.payload.length + 6 := by
  simp only [bytes, List.length_append, List.length_cons, length_toLe, List.length_nil]
  omega

theorem peel_bytes (f : Frame) (xs : TBytes) : peel (f.bytes ++ xs) = some (f, xs) := by
  obtain ⟨mid, payload, c, hfits⟩ := f
  have hlt : payload.length < 256 ^ 4 := payload_lt ⟨mid, payload, c, hfits⟩
  have hlen := ofLe_toLe_of_lt hlt
  simp only [toLe] at hlen
  simp only [bytes, toLe, List.cons_append, List.nil_append, List.append_assoc, peel, hlen, hfits,
    dif_pos, List.drop_left, List.take_left]

theorem eq_of_peel {xs ys : TBytes} {f : Frame} (h : peel xs = some (f, ys)) :
    xs = f.bytes ++ ys := by
  unfold peel at h
  split at h
  case h_1 mid l0 l1 l2 l3 xs =>
    split at h
    case isTrue hfits =>
      split at h
      case h_1 => cases h
      case h_2 c zs hdrop =>
        simp only [Option.some.injEq, Prod.mk.injEq] at h
        obtain ⟨rfl, rfl⟩ := h
        have hlt : ofLe [l0, l1, l2, l3] < xs.length := by
          have hpos := congrArg List.length hdrop
          rw [List.length_drop, List.length_cons] at hpos
          omega
        have hlen : toLe 4 (ofLe [l0, l1, l2, l3]) = [l0, l1, l2, l3] := toLe_ofLe [l0, l1, l2, l3]
        have hxs := List.take_append_drop (ofLe [l0, l1, l2, l3]) xs
        rw [hdrop] at hxs
        rw [bytes, List.length_take_of_le (Nat.le_of_lt hlt), hlen]
        simp only [List.cons_append, List.nil_append, List.append_assoc, hxs]
    case isFalse => cases h
  case h_2 => cases h

end Frame

/-- Frames back to back. -/
def frameFormat : RecordFormat UInt8 Frame where
  encode := Frame.bytes
  peel := Frame.peel
  peel_encode := Frame.peel_bytes
  eq_of_peel := Frame.eq_of_peel
  encode_ne_nil _ := List.cons_ne_nil _ _

/-- The length field of a header. -/
theorem payloadSize_header (mid : TMessageId) {n : Nat} (h : n < 2 ^ 32) (xs : TBytes) :
    payloadSize (mid :: toLe 4 n ++ xs) = n := by
  have hlt : n < 256 ^ 4 := h
  show ofLe ((toLe 4 n ++ xs).take 4) = n
  rw [List.take_left' (length_toLe 4 n), ofLe_toLe_of_lt hlt]

namespace Frame

theorem payloadSize_append (f : Frame) (xs : TBytes) :
    payloadSize (f.bytes ++ xs) = f.payload.length := by
  rw [bytes, List.append_assoc, List.append_assoc]
  exact payloadSize_header f.MId f.payload_lt _

theorem payloadSize_bytes (f : Frame) : payloadSize f.bytes = f.payload.length := by
  rw [← f.payloadSize_append [], List.append_nil]

theorem drop_bytes (f : Frame) : f.bytes.drop 5 = f.payload ++ [f.checksum] := rfl

end Frame

/-! ## 4. Messages -/

/-- The running sum of the lengths is their sum modulo `2 ^ 32`. -/
theorem payloadLength_eq (items : List TBytes) :
    payloadLength items = items.flatten.length % 2 ^ 32 := by
  have hfold (n : Nat) : items.foldl (fun n itemBytes => (n + itemBytes.length) % 2 ^ 32)
      (n % 2 ^ 32) = (n + items.flatten.length) % 2 ^ 32 := by
    induction items generalizing n with
    | nil => rfl
    | cons item items ih =>
      rw [List.foldl_cons, Nat.mod_add_mod, ih, List.flatten_cons, List.length_append,
        Nat.add_assoc]
  have hzero := hfold 0
  rwa [Nat.zero_add] at hzero

section

variable {id : TMessageId} {items : List TBytes}

/-- Every serialized message sums to zero. -/
theorem checksum_frameBytes : calculateChecksum (frameBytes id items) = 0 :=
  byteSum_seal _

theorem headD_frameBytes : (frameBytes id items).headD 0 = id := rfl

/-- The payload and the checksum behind the header. -/
theorem drop_frameBytes : ∃ sum, (frameBytes id items).drop 5 = items.flatten ++ [sum] :=
  ⟨_, rfl⟩

theorem length_frameBytes : (frameBytes id items).length = items.flatten.length + 6 := by
  simp only [frameBytes, List.length_append, List.length_cons, length_toLe, List.length_nil]
  omega

/-- The length field counts the payload modulo `2 ^ 32`. -/
theorem payloadSize_frameBytes :
    payloadSize (frameBytes id items) = items.flatten.length % 2 ^ 32 := by
  rw [frameBytes, payloadLength_eq, List.append_assoc]
  exact payloadSize_header id (Nat.mod_lt _ (by decide)) _

/-- The payload of a message whose length 32 bits can count. -/
theorem payload_frameBytes (h : items.flatten.length < 2 ^ 32) :
    ((frameBytes id items).drop 5).take (payloadSize (frameBytes id items)) = items.flatten := by
  obtain ⟨sum, hsum⟩ : ∃ sum, (frameBytes id items).drop 5 = items.flatten ++ [sum] :=
    drop_frameBytes
  rw [hsum, payloadSize_frameBytes, Nat.mod_eq_of_lt h, List.take_left]

end

/-- A message whose items all have a payload is serialized item by item. -/
theorem AsBytesWith_eq (payload : TDataItem → Option TBytes) (p : TDataItem → TBytes)
    {m : TMessage} (h : ∀ item ∈ m.DataItems, payload item = some (p item)) :
    m.AsBytesWith payload =
      some (frameBytes m.Id (m.DataItems.map fun item => itemBytes item.DId (p item))) := by
  have hitems (items : List TDataItem) (h : ∀ item ∈ items, payload item = some (p item)) :
      (items.mapM fun item => (payload item).map (itemBytes item.DId)) =
        some (items.map fun item => itemBytes item.DId (p item)) := by
    induction items with
    | nil => rfl
    | cons item items ih =>
      obtain ⟨hitem, hrest⟩ := List.forall_mem_cons.mp h
      rw [List.mapM_cons, hitem, ih hrest]
      rfl
  rw [TMessage.AsBytesWith, hitems _ h]
  rfl

theorem AsBytes_eq {c : TConfig} {bAsReply : Bool} (p : TDataItem → TBytes)
    {m : TMessage} (h : ∀ item ∈ m.DataItems,
      calcPayload c bAsReply item.toTItemBody = some (p item)) :
    m.AsBytes c bAsReply =
      some (frameBytes m.Id (m.DataItems.map fun item => itemBytes item.DId (p item))) :=
  AsBytesWith_eq _ p h

end EnetTcp
