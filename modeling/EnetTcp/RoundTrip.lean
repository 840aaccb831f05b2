import EnetTcp.Acceptance

/-!
# Decode undoes encode

The classes that send back the payload they were built from: raw items, items
that are not implemented, and register writes. A message of such items survives
the way through `AsBytes` and `FromBytes` (`decode_encode`).
-/

namespace EnetTcp

open Prog Bytes GuardLemmas

variable {pf : Platform}

/-! ## 1. Classes that echo their payload -/

/-- The class sends the payload that its constructor was given. -/
def ItemClass.echoes : ItemClass → Bool
  | .TDataItemRaw | .TDataItemNYI | .TREG_Write1 => true
  | _ => false

/-- An item of an echoing class with a payload that the factory takes. -/
structure EchoItem (pf : Platform) where
  item : TDataItem
  payload : TBytes
  entry : TDIdDictEntry
  find : DIdDict.find item.DId = some entry
  echoes : entry.Construct.echoes = true
  admits : entry.Admits payload
  accepted : ∃ body, ∀ g, (construct pf entry.Construct payload).exec g = some (.ok body, g)
  calcPayload_eq : ∀ c, calcPayload c false item.toTItemBody = some payload

/-- The item as it is on the wire. -/
def EchoItem.wire (x : EchoItem pf) : WireItem where
  DId := x.item.DId
  data := x.payload
  fits := by
    have hbounds := dict_bounds (find_some x.find).1
    rcases x.admits with hnil | ⟨-, hmax⟩
    · rw [hnil]
      decide
    · omega

namespace RoundTripLemmas

theorem widthFromOffset_cases (ofs : Nat) :
    widthFromOffset ofs = 0 ∨ widthFromOffset ofs = 8 ∨ widthFromOffset ofs = 32 := by
  unfold widthFromOffset
  split
  · exact .inr (.inl rfl)
  · split
    · exact .inr (.inr rfl)
    · exact .inl rfl

theorem stuff32_ofLe (a b c d : UInt8) :
    stuff32 (UInt32.ofNat (ofLe [a, b, c, d])) = [a, b, c, d] := by
  have hlt : ofLe [a, b, c, d] < 2 ^ 32 := by
    have ha := a.toNat_lt
    have hb := b.toNat_lt
    have hc := c.toNat_lt
    have hd := d.toNat_lt
    simp only [ofLe_cons, ofLe_nil]
    omega
  rw [stuff32_eq, UInt32.toNat_ofNat', Nat.mod_eq_of_lt hlt]
  exact toLe_ofLe [a, b, c, d]

/-- A register write keeps its offset and a value as wide as its register, which
is all of its payload. -/
theorem write1_echoes {σ : Type} {data : TBytes} {s s' : σ} {Writes : List REG_Write}
    (h : (TREG_Write1.ctor data).exec s = some (.ok Writes, s')) :
    TREG_Write1.calcPayload Writes = data := by
  rw [TREG_Write1.ctor] at h
  obtain ⟨-, h⟩ := guard_bind_ok h
  obtain ⟨ofs, hofs, h⟩ := ofOption_bind_some h
  obtain ⟨hwidth, h⟩ := guard_bind_ok h
  obtain ⟨hsize, h⟩ := guard_bind_ok h
  obtain ⟨value, hvalue, h⟩ := ofOption_bind_some h
  cases h
  rcases widthFromOffset_cases ofs.toNat with hw | hw | hw
  · simp [hw] at hwidth
  · simp only [hw, if_true, decide_eq_true_eq] at hsize hvalue
    obtain ⟨b0, b1, rfl⟩ := List.length_eq_two.mp hsize
    cases hofs
    cases hvalue
    simp [TREG_Write1.calcPayload, hw, stuff32]
  · have hne : (32 : Nat) ≠ 8 := by decide
    simp only [hw, if_neg hne, decide_eq_true_eq] at hsize hvalue
    cases data with
    | nil => cases hofs
    | cons b bytes =>
      obtain ⟨b0, b1, b2, b3, rfl⟩ := List.length_eq_four.mp (Nat.succ.inj hsize)
      cases hofs
      obtain rfl : UInt32.ofNat (ofLe [b0, b1, b2, b3]) = value :=
        (WireLemmas.bytes32 b0 b1 b2 b3).symm.trans (Option.some.inj hvalue)
      simp only [TREG_Write1.calcPayload, hw, stuff32_ofLe]
      rfl

/-- An echoing class sends what it was built from. -/
theorem construct_echoes {cls : ItemClass} (hcls : cls.echoes = true) {data : TBytes}
    {g g' : Globals} {body : TItemBody} (h : (construct pf cls data).exec g = some (.ok body, g'))
    (c : TConfig) (bAsReply : Bool) : calcPayload c bAsReply body = some data := by
  cases cls
  case TDataItemRaw | TDataItemNYI =>
    cases h
    rfl
  case TREG_Write1 =>
    have hbind : (construct pf .TREG_Write1 data).exec g =
        ((TREG_Write1.ctor data).exec g).bind (resume fun Writes =>
          return { params := .TREG_Write1 Writes, rawBytes := data }) := exec_bind ..
    rw [hbind, Option.bind_eq_some_iff] at h
    obtain ⟨⟨q, t⟩, hq, hbody⟩ := h
    cases q with
    | error e => cases hbody
    | ok Writes =>
      cases hbody
      exact congrArg some (write1_echoes hq)
  all_goals cases hcls

theorem built_echo (xs : List (EchoItem pf)) (g : Globals) :
    ∃ items, Built pf g (xs.map EchoItem.wire) items g ∧ ∀ c,
      items.map (fun item => (item.DId, calcPayload c false item.toTItemBody)) =
        xs.map fun x => (x.item.DId, some x.payload) := by
  induction xs with
  | nil => exact ⟨[], .nil, fun _ => rfl⟩
  | cons x xs ih =>
    obtain ⟨items, hbuilt, hitems⟩ := ih
    obtain ⟨body, hbody⟩ := x.accepted
    refine ⟨{ body with DId := x.item.DId } :: items,
      .cons ⟨⟨x.entry, x.find, x.admits, hbody g⟩, rfl⟩ hbuilt, fun c => ?_⟩
    rw [List.map_cons, List.map_cons, hitems, construct_echoes x.echoes (hbody g)]

theorem flatten_wire (xs : List (EchoItem pf)) :
    (xs.map fun x => itemBytes x.item.DId x.payload).flatten =
      itemFormat.encodeAll (xs.map EchoItem.wire) := by
  induction xs with
  | nil => rfl
  | cons x xs ih =>
    rw [List.map_cons, List.flatten_cons, ih, List.map_cons, RecordFormat.encodeAll_cons]
    rfl

theorem length_encodeAll_wire (xs : List (EchoItem pf)) :
    (itemFormat.encodeAll (xs.map EchoItem.wire)).length =
      (xs.map fun x => 4 + x.payload.length).sum := by
  induction xs with
  | nil => rfl
  | cons x xs ih =>
    have hhead : (itemFormat.encode x.wire).length = 4 + x.payload.length := x.wire.length_bytes
    rw [List.map_cons, RecordFormat.encodeAll_cons, List.length_append, ih, hhead, List.map_cons,
      List.sum_cons]

end RoundTripLemmas

open AcceptanceLemmas RoundTripLemmas

/-! ## 2. The round trip -/

/-- Encoding a message of echoing items and decoding it gives back the id and, for
each item, its id and its payload. The bytes sum to zero, and the length field
counts the bytes of the payload. -/
theorem decode_encode {mid : TMessageId} (hmid : mid ∈ ValidMessageIDs) (xs : List (EchoItem pf))
    (hsize : (xs.map fun x => 4 + x.payload.length).sum < 2 ^ 32 - 6) (c : TConfig) (g : Globals) :
    ∃ bytes items,
      ({ Id := mid, DataItems := xs.map EchoItem.item } : TMessage).AsBytes c false =
        some bytes ∧
      (FromBytes pf bytes).exec g =
        some (.ok ({ Id := mid, DataItems := items }, ERR_SUCCESS), g) ∧
      items.map (fun item => (item.DId, calcPayload c false item.toTItemBody)) =
        xs.map (fun x => (x.item.DId, some x.payload)) ∧
      byteSum bytes = 0 ∧ payloadSize bytes + 6 = bytes.length := by
  let p (item : TDataItem) : TBytes := (calcPayload c false item.toTItemBody).getD []
  have hp : ∀ item ∈ xs.map EchoItem.item,
      calcPayload c false item.toTItemBody = some (p item) := by
    intro item hitem
    obtain ⟨x, -, rfl⟩ := List.mem_map.mp hitem
    simp only [p, x.calcPayload_eq c, Option.getD_some]
  have hflat : ((xs.map EchoItem.item).map fun item => itemBytes item.DId (p item)).flatten =
      itemFormat.encodeAll (xs.map EchoItem.wire) := by
    rw [← flatten_wire, List.map_map]
    congr 2
    funext x
    simp only [Function.comp_apply, p, x.calcPayload_eq c, Option.getD_some]
  have hn := length_encodeAll_wire xs
  let bytes := frameBytes mid ((xs.map EchoItem.item).map fun item => itemBytes item.DId (p item))
  have hlen : bytes.length = (itemFormat.encodeAll (xs.map EchoItem.wire)).length + 6 := by
    rw [← hflat]
    exact length_frameBytes
  have hpayload : payloadSize bytes = (itemFormat.encodeAll (xs.map EchoItem.wire)).length := by
    have hmod : payloadSize bytes = _ % 2 ^ 32 := payloadSize_frameBytes
    rw [hmod, hflat, Nat.mod_eq_of_lt (by omega)]
  obtain ⟨items, hbuilt, hitems⟩ := built_echo xs g
  have hreading : LooseReading pf g bytes (xs.map EchoItem.wire) items g 0 :=
    looseReading_frameBytes (isValidMessageID_of_mem hmid) hflat (by omega) hbuilt
  exact ⟨bytes, items, AsBytes_eq p hp,
    FromBytes_succeeds_iff.mpr ⟨_, items, 0, hreading, rfl⟩, hitems c, checksum_frameBytes,
    by omega⟩

/-- A write of 1 to the register at 0x12. -/
def exWrite : EchoItem exPlatform where
  item := { params := .TREG_Write1 [{ offset := 0x12, width := 8, value := 1 }],
            rawBytes := [0x12, 1], DId := DataItemIds.REG_Write1 }
  payload := [0x12, 1]
  entry := ⟨DataItemIds.REG_Write1, 2, 5, .TREG_Write1, "REG_Write1(u8 ofs, [u8|u32] data)", none⟩
  find := rfl
  echoes := rfl
  admits := by decide
  accepted := ⟨_, fun _ => rfl⟩
  calcPayload_eq _ := rfl

theorem decode_encode_write :
    ∃ bytes items,
      ({ Id := 0x43, DataItems := [exWrite.item, exWrite.item] } : TMessage).AsBytes
        InitConfig false = some bytes ∧
      (FromBytes exPlatform bytes).exec exGlobals =
        some (.ok ({ Id := 0x43, DataItems := items }, ERR_SUCCESS), exGlobals) ∧
      items.map (fun item => (item.DId, calcPayload InitConfig false item.toTItemBody)) =
        [(DataItemIds.REG_Write1, some [0x12, 1]), (DataItemIds.REG_Write1, some [0x12, 1])] ∧
      byteSum bytes = 0 ∧ payloadSize bytes + 6 = bytes.length :=
  decode_encode (by decide) [exWrite, exWrite] (by decide) InitConfig exGlobals

end EnetTcp
