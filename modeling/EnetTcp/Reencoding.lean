import EnetTcp.Accepted
import EnetTcp.Paths
import EnetTcp.RoundTrip
import Mathlib.Data.List.TakeWhile

/-!
# Encoding again what was decoded (TDataItem.cpp, fromBytes and AsBytes)

An item that was built from a request and has not run is encoded again. For most classes the
bytes are accepted and give the same bytes once more. Others send what `Go` would have read,
more data than their entry admits, a string of `Config`, or counts that were scaled.

* `sends`: what a class sends of the data that it is built from.
* `reencodes_iff`: the items that can be encoded again, class by class.
-/

namespace EnetTcp

open Prog ConstructLemmas WireLemmas RoundTripLemmas PathLemmas

variable {pf : Platform}

/-! ## 1. Encoding again -/

/-- The bytes of the item are accepted, and the new item has the same bytes. -/
def Reencodes (pf : Platform) (g : Globals) (item : TDataItem) : Prop :=
  ∃ bytes item' g', item.AsBytes g.Config false = some bytes ∧
    Accepts pf g bytes item' g' ∧ item'.DId = item.DId ∧
    item'.AsBytes g.Config false = some bytes

/-- The data that the length field counts. -/
def wireData (payload : TBytes) : TBytes := payload.take (payload.length % 65536)

/-- The payload that an item has which a class builds from the data. -/
def sends (pf : Platform) (g : Globals) (cls : ItemClass) (data : TBytes) : Option TBytes :=
  ((construct pf cls data).exec g).bind fun r => r.1.toOption.bind (calcPayload g.Config false)

/-- What a class sends is admitted and sent once more. -/
def Repeats (pf : Platform) (g : Globals) (e : TDIdDictEntry) (data : TBytes) : Prop :=
  ∃ p, sends pf g e.Construct data = some p ∧ e.Admits (wireData p) ∧
    sends pf g e.Construct (wireData p) = some p

namespace ReencodeLemmas

theorem wireData_of_lt {p : TBytes} (h : p.length < 65536) : wireData p = p := by
  rw [wireData, Nat.mod_eq_of_lt h, List.take_length]

theorem length_wireData (p : TBytes) : (wireData p).length = p.length % 65536 := by
  rw [wireData, List.length_take_of_le (Nat.mod_le _ _)]

/-- An encoded item is an item on the wire, and what its length field does not count. -/
theorem itemBytes_eq (id : DataItemIds) (p : TBytes) : ∃ w : WireItem,
    w.DId = id ∧ w.data = wireData p ∧ itemBytes id p = w.bytes ++ p.drop (p.length % 65536) := by
  have hfits : (wireData p).length < 2 ^ 16 := by
    rw [length_wireData]
    exact Nat.mod_lt _ (by decide)
  refine ⟨⟨id, wireData p, hfits⟩, rfl, rfl, ?_⟩
  have hlen : UInt16.ofNat p.length = UInt16.ofNat (wireData p).length := by
    rw [length_wireData]
    exact UInt16.toNat_inj.mp (by rw [UInt16.toNat_ofNat', UInt16.toNat_ofNat']; omega)
  show itemBytes id p = itemBytes id (wireData p) ++ _
  rw [itemBytes, itemBytes, ← hlen, List.append_assoc _ (wireData p)]
  exact congrArg _ (List.take_append_drop _ _).symm

/-- Two encodings of one item are the same when the payloads are. -/
theorem itemBytes_inj {id : DataItemIds} {p q : TBytes} (h : itemBytes id p = itemBytes id q) :
    p = q := by
  have hlen := congrArg List.length h
  simp only [itemBytes, List.length_append, length_stuff16] at hlen
  exact (List.append_inj' h (by omega)).2

/-- The settings are the only globals that a constructor of a class reads, but for a claim on the
stream. -/
theorem construct_same {cls : ItemClass} (hcls : cls ≠ .TADC_StreamStart) {data : TBytes}
    {g₀ g₁ g : Globals} {body : TItemBody} (hc : g.Config = g₀.Config)
    (h : (construct pf cls data).exec g₀ = some (.ok body, g₁)) :
    (construct pf cls data).exec g = some (.ok body, g) := by
  by_cases huses : cls.usesGlobals = false
  · exact ((construct_stateless huses data).exec_eq h).2 g
  · have hdac : cls = .TDAC_Output ∨ cls = .TDAC_OutputV := by
      cases cls
      case TDAC_Output => exact .inl rfl
      case TDAC_OutputV => exact .inr rfl
      case TADC_StreamStart => exact absurd rfl hcls
      all_goals exact absurd rfl huses
    obtain ⟨f, hf⟩ := dacItem_exec hdac pf data
    rw [hf, Option.map_eq_some_iff] at h
    obtain ⟨r, hr, heq⟩ := h
    cases heq
    rw [hf, hc, hr]
    rfl

theorem sends_of_exec {cls : ItemClass} {data : TBytes} {g g' : Globals} {body : TItemBody}
    (h : (construct pf cls data).exec g = some (.ok body, g')) :
    sends pf g cls data = calcPayload g.Config false body := by
  rw [sends, h]
  rfl

theorem sends_eq_some {cls : ItemClass} {data p : TBytes} {g : Globals}
    (h : sends pf g cls data = some p) :
    ∃ body g', (construct pf cls data).exec g = some (.ok body, g') ∧
      calcPayload g.Config false body = some p := by
  obtain ⟨⟨r, g'⟩, hrun, hr⟩ := Option.bind_eq_some_iff.mp h
  cases r with
  | error x => cases hr
  | ok body => exact ⟨body, g', hrun, hr⟩

/-- An item can be encoded again when its payload is admitted and sent once more. -/
theorem reencodes_payload {g : Globals} {item : TDataItem} {e : TDIdDictEntry}
    (he : DIdDict.find item.DId = some e) :
    Reencodes pf g item ↔ ∃ p, calcPayload g.Config false item.toTItemBody = some p ∧
      e.Admits (wireData p) ∧ sends pf g e.Construct (wireData p) = some p := by
  constructor
  · rintro ⟨bytes, item', g', hbytes, haccepts, hid, hbytes'⟩
    obtain ⟨p, hp, rfl⟩ := Option.map_eq_some_iff.mp hbytes
    obtain ⟨p', hp', heq⟩ := Option.map_eq_some_iff.mp hbytes'
    obtain ⟨w, hwid, hwdata, hw⟩ := itemBytes_eq item.DId p
    rw [hw] at haccepts
    obtain ⟨⟨e', he', hadmits, hrun⟩, -⟩ := accepts_item.mp haccepts
    cases he.symm.trans (hwid ▸ he')
    rw [hwdata] at hadmits hrun
    rw [hid] at heq
    cases itemBytes_inj heq
    exact ⟨p, hp, hadmits, (sends_of_exec hrun).trans hp'⟩
  · rintro ⟨p, hp, hadmits, hsends⟩
    obtain ⟨body, g', hrun, hp'⟩ := sends_eq_some hsends
    obtain ⟨w, hwid, hwdata, hw⟩ := itemBytes_eq item.DId p
    have hbuilds : w.Builds pf g { body with DId := item.DId } g' :=
      ⟨⟨e, hwid ▸ he, hwdata ▸ hadmits, hwdata ▸ hrun⟩, hwid.symm⟩
    refine ⟨itemBytes item.DId p, { body with DId := item.DId }, g', ?_, ?_, rfl, ?_⟩
    · exact Option.map_eq_some_iff.mpr ⟨p, hp, rfl⟩
    · rw [hw]
      exact accepts_item.mpr hbuilds
    · exact Option.map_eq_some_iff.mpr ⟨p, hp', rfl⟩

/-- But for a claim on the stream, what was built tells what is sent. -/
theorem reencodes_repeats {w : WireItem} {g₀ g₁ g : Globals} {item : TDataItem} {e : TDIdDictEntry}
    (he : DIdDict.find w.DId = some e) (hcls : e.Construct ≠ .TADC_StreamStart)
    (hc : g.Config = g₀.Config) (h : w.Builds pf g₀ item g₁) :
    Reencodes pf g item ↔ Repeats pf g e w.data := by
  obtain ⟨⟨e', he', -, hrun⟩, hid⟩ := h
  cases he.symm.trans he'
  rw [reencodes_payload (hid ▸ he), Repeats, sends_of_exec (construct_same hcls hc hrun)]

end ReencodeLemmas

/-! ## 2. What the classes send -/

namespace ReencodeLemmas

theorem stuff16_bytes (a b : UInt8) : stuff16 (a.toUInt16 ||| b.toUInt16 <<< 8) = [a, b] := by
  rw [bytes16, stuff16_ofLe]

theorem stuff32_bytes (a b c d : UInt8) :
    stuff32 (a.toUInt32 ||| b.toUInt32 <<< 8 ||| c.toUInt32 <<< 16 ||| d.toUInt32 <<< 24) =
      [a, b, c, d] := by
  rw [bytes32, stuff32_ofLe]

theorem stuff32_byte (v : UInt8) : stuff32 v.toUInt32 = [v, 0, 0, 0] := by
  have h := stuff32_bytes v 0 0 0
  simpa using h

/-- A read looks at the bytes of its number only. -/
theorem readU32_window (data : TBytes) {i j n : Nat} (hn : j + 4 ≤ n) :
    readU32 ((data.drop i).take n) j = readU32 data (i + j) := by
  have hget (k : Nat) (hk : k < n) : ((data.drop i).take n)[k]? = data[i + k]? := by
    rw [List.getElem?_take_of_lt hk, List.getElem?_drop]
  unfold readU32
  rw [hget j (by omega), hget (j + 1) (by omega), hget (j + 2) (by omega), hget (j + 3) (by omega)]
  rfl

/-- Data that is read in chunks of one size, each of which is sent as it was read. -/
theorem chunks_echo {β : Type} {k : Nat} {read : TBytes → Option β} {write : β → TBytes}
    (h : ∀ chunk, chunk.length = k → ∃ b, read chunk = some b ∧ write b = chunk) (n : Nat)
    {data : TBytes} (hlen : data.length = k * n) :
    ∃ bs, ((List.range n).mapM fun i => read ((data.drop (k * i)).take k)) = some bs ∧
      bs.flatMap write = data := by
  induction n generalizing data with
  | zero => exact ⟨[], rfl, (List.length_eq_zero_iff.mp hlen).symm⟩
  | succ n ih =>
    have hchunk : (data.take k).length = k := by
      rw [List.length_take_of_le (by rw [hlen]; exact Nat.le_mul_of_pos_right k (by omega))]
    obtain ⟨b, hread, hwrite⟩ := h _ hchunk
    have hrest : (data.drop k).length = k * n := by
      rw [List.length_drop, hlen, Nat.mul_succ, Nat.add_sub_cancel]
    obtain ⟨bs, hbs, hflat⟩ := ih hrest
    refine ⟨b :: bs, ?_, ?_⟩
    · have hrest : (fun i => read ((data.drop (k * i)).take k)) ∘ Nat.succ =
          fun i => read (((data.drop k).drop (k * i)).take k) := by
        funext i
        rw [Function.comp_apply, List.drop_drop, Nat.mul_succ, Nat.add_comm]
      rw [List.range_succ_eq_map, List.mapM_cons, Nat.mul_zero, List.drop_zero, hread,
        List.mapM_map, hrest, hbs]
      rfl
    · rw [List.flatMap_cons, hwrite, hflat, List.take_append_drop]

theorem floatsAt_echo {n : Nat} {data : TBytes} (hlen : data.length = 4 * n) :
    (floatsAt n data).map floatBytes = some data := by
  have hchunk (chunk : TBytes) (h : chunk.length = 4) :
      ∃ v, readU32 chunk 0 = some v ∧ stuff32 v = chunk := by
    obtain ⟨a, b, c, d, rfl⟩ := List.length_eq_four.mp h
    exact ⟨_, rfl, stuff32_bytes a b c d⟩
  obtain ⟨vs, hvs, hflat⟩ := chunks_echo hchunk n hlen
  have hread : (fun i => readU32 ((data.drop (4 * i)).take 4) 0) = fun i => readU32 data (4 * i) :=
    funext fun i => readU32_window data (Nat.le_refl _)
  rw [hread] at hvs
  rw [floatsAt, hvs]
  exact congrArg some hflat

theorem bytesAt_echo {n : Nat} {data : TBytes} (hlen : data.length = n) :
    bytesAt n data = some data := by
  have hchunk (chunk : TBytes) (h : chunk.length = 1) :
      ∃ b : UInt8, chunk[0]? = some b ∧ [b] = chunk := by
    obtain ⟨b, rfl⟩ := List.length_eq_one_iff.mp h
    exact ⟨b, rfl, rfl⟩
  obtain ⟨bs, hbs, hflat⟩ := chunks_echo hchunk n (by rw [hlen, Nat.one_mul])
  have hread : (fun i => ((data.drop (1 * i)).take 1)[0]?) = fun i => data[i]? := by
    funext i
    rw [List.getElem?_take_of_lt (by decide), List.getElem?_drop, Nat.one_mul]
    rfl
  rw [hread] at hbs
  rw [bytesAt, hbs, ← hflat, List.flatMap_singleton']

theorem length_eq_eight {data : TBytes} (h : data.length = 8) :
    ∃ a b c d a' b' c' d', data = [a, b, c, d, a', b', c', d'] := by
  obtain ⟨a, b, c, d, hfront⟩ :=
    List.length_eq_four.mp (show (data.take 4).length = 4 by rw [List.length_take_of_le]; omega)
  obtain ⟨a', b', c', d', hback⟩ :=
    List.length_eq_four.mp (show (data.drop 4).length = 4 by rw [List.length_drop]; omega)
  refine ⟨a, b, c, d, a', b', c', d', ?_⟩
  rw [← List.take_append_drop 4 data, hfront, hback]
  rfl

theorem calibrationAll_echo {data : TBytes} (hlen : data.length = 64) :
    (TADC_CalibrationAll.ctor data).map TADC_CalibrationAll.calcPayload = some data := by
  have hchunk (chunk : TBytes) (h : chunk.length = 8) : ∃ p : FloatBits × FloatBits,
      ((readU32 chunk 0).bind fun scale => (readU32 chunk 4).bind fun offset =>
        some (scale, offset)) = some p ∧ stuff32 p.1 ++ stuff32 p.2 = chunk := by
    obtain ⟨a, b, c, d, a', b', c', d', rfl⟩ := length_eq_eight h
    exact ⟨_, rfl, congrArg₂ _ (stuff32_bytes a b c d) (stuff32_bytes a' b' c' d')⟩
  obtain ⟨ps, hps, hflat⟩ := chunks_echo hchunk 8 hlen
  have hread : (fun i => (readU32 ((data.drop (8 * i)).take 8) 0).bind fun scale =>
      (readU32 ((data.drop (8 * i)).take 8) 4).bind fun offset => some (scale, offset)) =
      fun i => (readU32 data (8 * i)).bind fun scale =>
        (readU32 data (8 * i + 4)).bind fun offset => some (scale, offset) := by
    funext i
    rw [readU32_window data (by decide), readU32_window data (by decide), Nat.add_zero]
  rw [hread] at hps
  exact (congrArg (Option.map _) hps).trans (congrArg some hflat)

end ReencodeLemmas

/-- The bounds that the dictionary has for a class. Raw items have their own. -/
def ItemClass.bounds : ItemClass → Nat × Nat
  | .TBRD_Features | .TBRD_FpgaId | .TADC_BaseClock => (0, 4)
  | .TBRD_Model => (12, 40)
  | .TBRD_SerialNumber => (12, 14)
  | .TBRD_NumberOfSubmuxes | .TREG_Read1 | .TDIO_InputBit | .TDIO_ClearBit | .TDIO_SetBit
  | .TDIO_ToggleBit => (1, 1)
  | .TBRD_SubmuxScale | .TBRD_SubmuxOffset => (6, 6)
  | .TBRD_GetSubmuxScale | .TBRD_GetSubmuxOffset | .TREG_ReadBit | .TREG_ClearBit | .TREG_SetBit
  | .TREG_ToggleBit | .TDIO_Configure | .TDIO_Output | .TDIO_ConfigureBit | .TDIO_OutputBit
  | .TADC_Differential1 | .TADC_Range1 => (2, 2)
  | .TREG_Write1 => (2, 5)
  | .TREG_WriteBit => (3, 3)
  | .TDAC_Output | .TDAC_OutputV => (3, 5)
  | .TDAC_Range1 | .TADC_Scale1 | .TADC_Offset1 => (5, 5)
  | .TADC_DifferentialAll | .TADC_RangeAll => (8, 8)
  | .TADC_ScaleAll | .TADC_OffsetAll => (32, 32)
  | .TADC_Calibration1 => (9, 9)
  | .TADC_CalibrationAll => (64, 64)
  | .TADC_StreamStart => (4, 4)
  | .TCFG_Hostname => (1, 253)
  | .TSYS_UploadFileName => (1, 255)
  | .TSYS_UploadFileData => (1, 65534)
  | .TSYS_Error | .TSYS_ItemError => (0, 12)
  | _ => (0, 0)

theorem entry_bounds {e : TDIdDictEntry} (he : e ∈ DIdDict) (hcls : e.Construct ≠ .TDataItemRaw) :
    (e.minLen, e.maxLen) = e.Construct.bounds := by
  revert e
  decide +kernel

/-- The classes that leave their parameters unset when there is no data. -/
def ItemClass.needsData : ItemClass → Bool
  | .TBRD_GetSubmuxScale | .TBRD_GetSubmuxOffset | .TREG_ReadBit | .TREG_WriteBit
  | .TREG_ClearBit | .TREG_SetBit | .TREG_ToggleBit | .TDIO_Configure | .TDIO_Output
  | .TDIO_ConfigureBit | .TDIO_InputBit | .TDIO_OutputBit | .TDIO_ClearBit | .TDIO_SetBit
  | .TDIO_ToggleBit | .TADC_Differential1 | .TADC_DifferentialAll | .TADC_Range1 | .TADC_RangeAll
  | .TADC_Scale1 | .TADC_ScaleAll | .TADC_Offset1 | .TADC_OffsetAll | .TADC_Calibration1
  | .TADC_CalibrationAll => true
  | _ => false

namespace ReencodeLemmas

/-- Without data they have nothing to send, and with data they send it. -/
theorem sends_needsData (pf : Platform) {cls : ItemClass} (h : cls.needsData = true)
    (g : Globals) :
    sends pf g cls [] = none ∧
      ∀ data, data.length = cls.bounds.1 → sends pf g cls data = some data := by
  cases cls
  case TDIO_InputBit | TDIO_ClearBit | TDIO_SetBit | TDIO_ToggleBit =>
    refine ⟨rfl, fun data hdata => ?_⟩
    obtain ⟨a, rfl⟩ := List.length_eq_one_iff.mp hdata
    rfl
  case TBRD_GetSubmuxScale | TBRD_GetSubmuxOffset | TREG_ReadBit | TREG_ClearBit | TREG_SetBit
      | TREG_ToggleBit | TDIO_ConfigureBit | TDIO_OutputBit | TADC_Differential1 | TADC_Range1 =>
    refine ⟨rfl, fun data hdata => ?_⟩
    obtain ⟨a, b, rfl⟩ := List.length_eq_two.mp hdata
    rfl
  case TDIO_Configure | TDIO_Output =>
    refine ⟨rfl, fun data hdata => ?_⟩
    obtain ⟨a, b, rfl⟩ := List.length_eq_two.mp hdata
    exact congrArg some (stuff16_bytes a b)
  case TREG_WriteBit =>
    refine ⟨rfl, fun data hdata => ?_⟩
    obtain ⟨a, b, c, rfl⟩ := List.length_eq_three.mp hdata
    rfl
  case TADC_Scale1 | TADC_Offset1 =>
    refine ⟨rfl, fun data hdata => ?_⟩
    obtain ⟨i, data, rfl⟩ := List.exists_cons_of_length_eq_add_one hdata
    obtain ⟨a, b, c, d, rfl⟩ := List.length_eq_four.mp (Nat.succ.inj hdata)
    exact congrArg (fun v => some (i :: v)) (stuff32_bytes a b c d)
  case TADC_DifferentialAll | TADC_RangeAll => exact ⟨rfl, fun data => bytesAt_echo⟩
  case TADC_ScaleAll | TADC_OffsetAll => exact ⟨rfl, fun data => floatsAt_echo (n := 8)⟩
  case TADC_Calibration1 =>
    refine ⟨rfl, fun data hdata => ?_⟩
    obtain ⟨i, data, rfl⟩ := List.exists_cons_of_length_eq_add_one hdata
    obtain ⟨a, b, c, d, a', b', c', d', rfl⟩ := length_eq_eight (Nat.succ.inj hdata)
    exact congrArg₂ (fun u v => some (i :: (u ++ v))) (stuff32_bytes a b c d)
      (stuff32_bytes a' b' c' d')
  case TADC_CalibrationAll => exact ⟨rfl, fun data => calibrationAll_echo⟩
  all_goals cases h

variable {g : Globals} {e : TDIdDictEntry} {data p : TBytes}

theorem length_of_admits (he : e ∈ DIdDict) (hadmits : e.Admits p) : p.length < 65536 := by
  have hmax := (dict_bounds he).2
  rcases hadmits with rfl | ⟨-, hle⟩
  · decide
  · omega

theorem repeats_of (he : e ∈ DIdDict) (hsends : sends pf g e.Construct data = some p)
    (hadmits : e.Admits p) (hagain : sends pf g e.Construct p = some p) : Repeats pf g e data := by
  have hwire := wireData_of_lt (length_of_admits he hadmits)
  exact ⟨p, hsends, by rwa [hwire], by rwa [hwire]⟩

/-- Data that is sent as it was taken. -/
theorem repeats_echo (he : e ∈ DIdDict) (hadmits : e.Admits data)
    (hsends : sends pf g e.Construct data = some data) : Repeats pf g e data :=
  repeats_of he hsends hadmits hsends

theorem admits_bounds (he : e ∈ DIdDict) (hraw : e.Construct ≠ .TDataItemRaw) :
    e.Admits p ↔ p = [] ∨ (e.Construct.bounds.1 ≤ p.length ∧ p.length ≤ e.Construct.bounds.2) := by
  have hmin : e.minLen = e.Construct.bounds.1 := congrArg Prod.fst (entry_bounds he hraw)
  have hmax : e.maxLen = e.Construct.bounds.2 := congrArg Prod.snd (entry_bounds he hraw)
  rw [TDIdDictEntry.Admits, hmin, hmax]

/-- What a class sends within its bounds, and sends again. -/
theorem repeats_within {cls : ItemClass} (he : e ∈ DIdDict) (hcls : e.Construct = cls)
    (hraw : cls ≠ .TDataItemRaw) (hsends : sends pf g cls data = some p)
    (hmin : cls.bounds.1 ≤ p.length) (hmax : p.length ≤ cls.bounds.2)
    (hagain : sends pf g cls p = some p) : Repeats pf g e data := by
  subst hcls
  exact repeats_of he hsends ((admits_bounds he hraw).mpr (.inr ⟨hmin, hmax⟩)) hagain

theorem not_repeats (h : sends pf g e.Construct data = none) : ¬Repeats pf g e data := by
  rintro ⟨p, hp, -⟩
  cases h.symm.trans hp

/-- A class that always sends the same. -/
theorem repeats_const {s : TBytes} (h : ∀ data, sends pf g e.Construct data = some s) :
    Repeats pf g e data ↔ e.Admits (wireData s) := by
  constructor
  · rintro ⟨p, hp, hadmits, -⟩
    cases (h data).symm.trans hp
    exact hadmits
  · exact fun hadmits => ⟨s, h data, hadmits, h _⟩

theorem bounds_needsData {cls : ItemClass} (h : cls.needsData = true) :
    cls.bounds.1 = cls.bounds.2 := by
  cases cls <;> first | rfl | cases h

theorem repeats_needsData (he : e ∈ DIdDict) (hcls : e.Construct.needsData = true)
    (hadmits : e.Admits data) : Repeats pf g e data ↔ data ≠ [] := by
  obtain ⟨hnil, hecho⟩ := sends_needsData pf hcls g
  constructor
  · rintro h rfl
    exact not_repeats hnil h
  · intro hne
    have hraw : e.Construct ≠ .TDataItemRaw := fun hraw => by
      rw [hraw] at hcls
      cases hcls
    have hbounds := bounds_needsData hcls
    obtain ⟨hmin, hmax⟩ := ((admits_bounds he hraw).mp hadmits).resolve_left hne
    exact repeats_echo he hadmits (hecho data (by omega))

theorem bytes16_stuff16 (v : UInt16) :
    v.toUInt8.toUInt16 ||| (v >>> 8).toUInt8.toUInt16 <<< 8 = v := by
  rw [bytes16]
  show UInt16.ofNat (Bytes.ofLe (stuff16 v)) = v
  rw [stuff16_eq, Bytes.ofLe_toLe_of_lt v.toNat_lt, UInt16.ofNat_toNat]

theorem bytes32_stuff32 (v : UInt32) :
    v.toUInt8.toUInt32 ||| (v >>> 8).toUInt8.toUInt32 <<< 8 |||
      (v >>> 16).toUInt8.toUInt32 <<< 16 ||| (v >>> 24).toUInt8.toUInt32 <<< 24 = v := by
  rw [bytes32]
  show UInt32.ofNat (Bytes.ofLe (stuff32 v)) = v
  rw [stuff32_eq, Bytes.ofLe_toLe_of_lt v.toNat_lt, UInt32.ofNat_toNat]

/-- Twelve bytes of numbers are read as they were written. -/
theorem sysError_again (p : SYS_ErrorParams) : TSYS_Error.ctor (TSYS_Error.calcPayload p) = p :=
  congr (congr (congrArg SYS_ErrorParams.mk (bytes32_stuff32 p.Stage))
    (bytes32_stuff32 p.ErrorCode)) (bytes32_stuff32 p.Info)

theorem sysItemError_again (p : SYS_ItemErrorParams) :
    TSYS_ItemError.ctor (TSYS_ItemError.calcPayload p) = p :=
  congr (congr (congr (congrArg SYS_ItemErrorParams.mk (bytes16_stuff16 p.ItemIndex))
    (bytes16_stuff16 p.DId)) (bytes32_stuff32 p.ErrorCode)) (bytes32_stuff32 p.Info)

end ReencodeLemmas

/-! ## 3. Outputs of the DAC -/

/-- The counts for a channel, scaled. -/
def outputScale (pf : Platform) (c : TConfig) (data : TBytes) (counts : UInt16) : UInt16 :=
  scaleCounts pf counts (c.dacScaleCoefficients.get (dacChannelOf data))
    (c.dacOffsetCoefficients.get (dacChannelOf data))

/-- The scaled counts of the data: three bytes have counts, five have volts. -/
def outputCounts (pf : Platform) (c : TConfig) (data : TBytes) : Option UInt16 :=
  (if data.length = 3 then readU16 data 1
    else (readU32 data 1).bind (DACVoltsToCounts pf c (dacChannelOf data))).map
    (outputScale pf c data)

namespace ReencodeLemmas

variable {g : Globals}

/-- A parsed output. -/
theorem parseBytes_eq (lineChannel lineSize : Nat) {data : TBytes} (hch : data.headD 0 < 4)
    (hlen : data.length = 3 ∨ data.length = 5) :
    (DAC_Output.parseBytes pf lineChannel lineSize data).exec g =
      (outputCounts pf g.Config data).map fun dacCounts =>
        (.ok ({ dacChannel := data.headD 0, dacCounts }, true), g) := by
  have hguard : (data.isEmpty || decide (data.headD 0 < 4)) = true := by
    rw [decide_eq_true hch, Bool.or_true]
  rw [DAC_Output.parseBytes, GuardLemmas.guard_pass hguard, pure_bind, exec_get_bind]
  unfold outputCounts
  rcases hlen with h3 | h5
  · rw [if_pos h3, if_pos h3]
    cases readU16 data 1 <;> rfl
  · have h3 : ¬data.length = 3 := by omega
    rw [if_neg h3, if_pos h5, if_neg h3]
    cases readU32 data 1 with
    | none => rfl
    | some volts =>
      show (Prog.ofOption (DACVoltsToCounts pf g.Config (dacChannelOf data) volts) >>= _).exec g =
        ((DACVoltsToCounts pf g.Config (dacChannelOf data) volts).map _).map _
      cases DACVoltsToCounts pf g.Config (dacChannelOf data) volts <;> rfl

theorem parseBytes_ok {lineChannel lineSize : Nat} {data : TBytes} {r : DAC_OutputParams × Bool}
    {g' : Globals} (hlen : data = [] ∨ 3 ≤ data.length)
    (h : (DAC_Output.parseBytes pf lineChannel lineSize data).exec g = some (.ok r, g')) :
    data.headD 0 < 4 ∧ (data.length = 3 ∨ data.length = 5) := by
  rw [DAC_Output.parseBytes] at h
  obtain ⟨hguard, h⟩ := GuardLemmas.guard_bind_ok h
  rw [exec_get_bind] at h
  have hsize : data.length = 3 ∨ data.length = 5 := by
    by_contra hother
    rw [not_or] at hother
    rw [if_neg hother.1, if_neg hother.2] at h
    have hone := of_decide_eq_true (GuardLemmas.guard_bind_ok h).1
    rcases hlen with rfl | hlen
    · cases hone
    · omega
  refine ⟨?_, hsize⟩
  have hne : data.isEmpty = false := by
    cases data with
    | nil => rcases hsize with hsize | hsize <;> cases hsize
    | cons b data => rfl
  rw [hne, Bool.false_or] at hguard
  exact of_decide_eq_true hguard

theorem sends_dacOutput {data : TBytes} (hch : data.headD 0 < 4)
    (hlen : data.length = 3 ∨ data.length = 5) :
    sends pf g .TDAC_Output data =
      (outputCounts pf g.Config data).map fun n => data.headD 0 :: stuff16 n := by
  show ((TDAC_Output.ctor pf data >>= _).exec g).bind _ = _
  rw [exec_bind, TDAC_Output.ctor, parseBytes_eq 56 93 hch hlen]
  cases outputCounts pf g.Config data <;> rfl

theorem sends_dacOutputV {data : TBytes} (hch : data.headD 0 < 4)
    (hlen : data.length = 3 ∨ data.length = 5) :
    sends pf g .TDAC_OutputV data =
      (outputCounts pf g.Config data).map fun n =>
        data.headD 0 :: stuff32 (countsToFloat n) := by
  show ((TDAC_OutputV.ctor pf data >>= _).exec g).bind _ = _
  rw [exec_bind, TDAC_OutputV.ctor, parseBytes_eq 137 174 hch hlen]
  cases outputCounts pf g.Config data <;> rfl

/-- Counts that are read again are scaled again. -/
theorem outputCounts_counts (c : TConfig) (data : TBytes) (n : UInt16) :
    outputCounts pf c (data.headD 0 :: stuff16 n) = some (outputScale pf c data n) := by
  have hread : readU16 (data.headD 0 :: stuff16 n) 1 = some n := congrArg some (bytes16_stuff16 n)
  rw [outputCounts, if_pos (show (data.headD 0 :: stuff16 n).length = 3 from rfl), hread]
  rfl

/-- A voltage that is read again is converted and scaled again. -/
theorem outputCounts_volts (c : TConfig) (data : TBytes) (volts : FloatBits) :
    outputCounts pf c (data.headD 0 :: stuff32 volts) =
      (DACVoltsToCounts pf c (dacChannelOf data) volts).map (outputScale pf c data) := by
  have hread : readU32 (data.headD 0 :: stuff32 volts) 1 = some volts :=
    congrArg some (bytes32_stuff32 volts)
  rw [outputCounts, if_neg (show ¬(data.headD 0 :: stuff32 volts).length = 3 by simp), hread]
  rfl

theorem stuff16_inj {u v : UInt16} (h : stuff16 u = stuff16 v) : u = v := by
  rw [← bytes16_stuff16 u, ← bytes16_stuff16 v]
  obtain ⟨hlow, hhigh⟩ := List.cons_eq_cons.mp h
  rw [hlow, (List.cons_eq_cons.mp hhigh).1]

section Outputs

variable {e : TDIdDictEntry} {data : TBytes} {n : UInt16} (he : e ∈ DIdDict)
  (hch : data.headD 0 < 4) (hlen : data.length = 3 ∨ data.length = 5)
  (hn : outputCounts pf g.Config data = some n)
include he hch hlen hn

theorem repeats_dacOutput (hcls : e.Construct = .TDAC_Output) :
    Repeats pf g e data ↔ outputScale pf g.Config data n = n := by
  have hfirst : sends pf g .TDAC_Output data = some (data.headD 0 :: stuff16 n) := by
    rw [sends_dacOutput hch hlen, hn]
    rfl
  have hagain : sends pf g .TDAC_Output (data.headD 0 :: stuff16 n) =
      some (data.headD 0 :: stuff16 (outputScale pf g.Config data n)) := by
    have hch' : (data.headD 0 :: stuff16 n).headD 0 < 4 := hch
    rw [sends_dacOutput hch' (.inl rfl), outputCounts_counts]
    rfl
  constructor
  · rintro ⟨p, hp, -, hp'⟩
    rw [hcls] at hp hp'
    cases hfirst.symm.trans hp
    rw [wireData_of_lt (by simp), hagain] at hp'
    exact stuff16_inj (List.cons_eq_cons.mp (Option.some.inj hp')).2
  · intro hscale
    exact repeats_within he hcls (by decide) hfirst (Nat.le_refl 3) (Nat.le_add_right 3 2)
      (by rw [hagain, hscale])

theorem repeats_dacOutputV (hcls : e.Construct = .TDAC_OutputV) :
    Repeats pf g e data ↔
      ∃ m, DACVoltsToCounts pf g.Config (dacChannelOf data) (countsToFloat n) = some m ∧
        countsToFloat (outputScale pf g.Config data m) = countsToFloat n := by
  have hfirst : sends pf g .TDAC_OutputV data =
      some (data.headD 0 :: stuff32 (countsToFloat n)) := by
    rw [sends_dacOutputV hch hlen, hn]
    rfl
  have hagain : sends pf g .TDAC_OutputV (data.headD 0 :: stuff32 (countsToFloat n)) =
      (DACVoltsToCounts pf g.Config (dacChannelOf data) (countsToFloat n)).map fun m =>
        data.headD 0 :: stuff32 (countsToFloat (outputScale pf g.Config data m)) := by
    have hch' : (data.headD 0 :: stuff32 (countsToFloat n)).headD 0 < 4 := hch
    rw [sends_dacOutputV hch' (.inr rfl), outputCounts_volts, Option.map_map]
    rfl
  constructor
  · rintro ⟨p, hp, -, hp'⟩
    rw [hcls] at hp hp'
    cases hfirst.symm.trans hp
    rw [wireData_of_lt (by simp), hagain] at hp'
    obtain ⟨m, hm, heq⟩ := Option.map_eq_some_iff.mp hp'
    exact ⟨m, hm, stuff32_inj (List.cons_eq_cons.mp heq).2⟩
  · rintro ⟨m, hm, hsame⟩
    exact repeats_within he hcls (by decide) hfirst (Nat.le_add_right 3 2) (Nat.le_refl 5)
      (by rw [hagain, hm, Option.map_some, hsame])

end Outputs

end ReencodeLemmas

/-! ## 4. Upload paths -/

/-- The path that an upload is built with is taken for the path of an upload again. -/
def PathRepeats (pf : Platform) (data : TBytes) : Prop :=
  let absPath := slashed pf.currentPath data
  0 ∉ absPath ∧ basePath <+: absPath ∧ absPath.length ≤ 255

namespace ReencodeLemmas

variable {g : Globals}

theorem sanitizePath_eq {σ : Type} (currentPath : TBytes) {path : TBytes} (h : path ≠ []) :
    (sanitizePath currentPath path : Prog Exn σ (Option TBytes)) =
      pure (if 0 ∉ path ∧ basePath <+: slashed currentPath path then
        some (slashed currentPath path) else none) := by
  obtain ⟨absPath, habs, hslashed⟩ := absolutePath_eq (σ := σ) currentPath h
  rw [sanitizePath, habs, pure_bind, ← hslashed]
  simp only [List.isPrefixOf_iff_prefix]
  by_cases hnul : 0 ∈ path
  · rw [if_pos hnul, if_neg fun hboth => hboth.1 hnul]
  · rw [if_neg hnul]
    by_cases hbase : basePath <+: slashed currentPath path
    · rw [if_pos hbase, if_pos ⟨hnul, hbase⟩]
    · rw [if_neg hbase, if_neg fun hboth => hbase hboth.2]

theorem sends_uploadFileName (pf : Platform) (g : Globals) {data : TBytes} (h : data ≠ []) :
    sends pf g .TSYS_UploadFileName data =
      some (if 0 ∉ data ∧ basePath <+: slashed pf.currentPath data then
        slashed pf.currentPath data else []) := by
  show ((TSYS_UploadFileName.ctor pf data >>= _).exec g).bind _ = _
  rw [TSYS_UploadFileName.ctor, sanitizePath_eq _ h]
  split <;> rfl

theorem sends_noPath : sends pf g .TSYS_UploadFileName [] = none := rfl

theorem slashed_of_slash (currentPath : TBytes) {path : TBytes} (h : path.head? = some 47) :
    slashed currentPath path = path.map fun b => if b = 92 then 47 else b := by
  rw [slashed, if_pos h]

theorem head_of_base {path : TBytes} (h : basePath <+: path) : path.head? = some 47 := by
  obtain ⟨s, rfl⟩ := h
  rfl

/-- A path that was taken has slashes only. -/
theorem slashed_slashed (currentPath path : TBytes)
    (h : basePath <+: slashed currentPath path) :
    slashed currentPath (slashed currentPath path) = slashed currentPath path := by
  rw [slashed_of_slash currentPath (head_of_base h), slashed, List.map_map]
  refine List.map_congr_left fun b _ => ?_
  rw [Function.comp_apply]
  by_cases hb : b = 92
  · rw [if_pos hb]
    rfl
  · rw [if_neg hb, if_neg hb]

theorem zero_mem_slashed {currentPath path : TBytes} (h : 0 ∈ path) :
    0 ∈ slashed currentPath path := by
  have hmap (absPath : TBytes) (h : 0 ∈ absPath) :
      0 ∈ absPath.map fun b => if b = 92 then 47 else b := List.mem_map.mpr ⟨0, h, rfl⟩
  unfold slashed
  refine hmap _ ?_
  split
  · exact h
  · split
    · exact List.mem_append_right _ h
    · exact List.mem_append_right _ h

/-- What is sent of a string that begins with a slash is no longer. -/
theorem length_sends_uploadFileName {data p : TBytes} (hhead : data.head? = some 47)
    (h : sends pf g .TSYS_UploadFileName data = some p) : p.length ≤ data.length := by
  have hne : data ≠ [] := fun hnil => by
    rw [hnil] at hhead
    cases hhead
  rw [sends_uploadFileName pf g hne, slashed_of_slash _ hhead] at h
  cases h
  split
  · exact Nat.le_of_eq (List.length_map _)
  · exact Nat.zero_le _

theorem repeats_uploadFileName {e : TDIdDictEntry} (he : e ∈ DIdDict)
    (hcls : e.Construct = .TSYS_UploadFileName) {data : TBytes} (hne : data ≠ []) :
    Repeats pf g e data ↔ PathRepeats pf data := by
  have hfirst := sends_uploadFileName pf g hne
  have hadmits_iff (p : TBytes) : e.Admits p ↔ p = [] ∨ (1 ≤ p.length ∧ p.length ≤ 255) := by
    rw [admits_bounds he (by rw [hcls]; decide), hcls]
    rfl
  rw [Repeats, hcls]
  simp only [hadmits_iff]
  by_cases htaken : 0 ∉ data ∧ basePath <+: slashed pf.currentPath data
  · rw [if_pos htaken] at hfirst
    have hhead := head_of_base htaken.2
    have hpos : slashed pf.currentPath data ≠ [] := fun hnil => by
      rw [hnil] at hhead
      cases hhead
    constructor
    · rintro ⟨p, hp, hadmits, hagain⟩
      cases hfirst.symm.trans hp
      have hwire : wireData (slashed pf.currentPath data) ≠ [] := fun hnil => by
        rw [hnil, sends_noPath] at hagain
        cases hagain
      have hhead' : (wireData (slashed pf.currentPath data)).head? = some 47 := by
        rw [wireData, List.head?_take, if_neg, hhead]
        exact fun hzero => hwire (by rw [wireData, hzero, List.take_zero])
      have hlen : (slashed pf.currentPath data).length ≤ 255 :=
        Nat.le_trans (length_sends_uploadFileName hhead' hagain) (hadmits.resolve_left hwire).2
      rw [wireData_of_lt (by omega), sends_uploadFileName pf g hpos,
        slashed_slashed _ _ htaken.2] at hagain
      refine ⟨fun hnul => ?_, htaken.2, hlen⟩
      rw [if_neg fun hboth => hboth.1 hnul] at hagain
      exact hpos (Option.some.inj hagain).symm
    · rintro ⟨hnul, hbase, hlen⟩
      refine ⟨_, hfirst, ?_, ?_⟩
      · rw [wireData_of_lt (by omega)]
        exact .inr ⟨List.length_pos_iff.mpr hpos, hlen⟩
      · rw [wireData_of_lt (by omega), sends_uploadFileName pf g hpos, slashed_slashed _ _ hbase,
          if_pos ⟨hnul, hbase⟩]
  · rw [if_neg htaken] at hfirst
    refine iff_of_false ?_ fun hpath => htaken ⟨fun h => hpath.1 (zero_mem_slashed h), hpath.2.1⟩
    rintro ⟨p, hp, -, hagain⟩
    cases hfirst.symm.trans hp
    cases hagain

end ReencodeLemmas

/-! ## 5. The items that can be encoded again -/

/-- What a class asks of the data that it was built from, and of the globals. -/
def Reencodable (pf : Platform) (g : Globals) (data : TBytes) : ItemClass → Prop
  | .TBRD_DeviceID | .TBRD_FpgaId | .TBRD_GetNumberOfAdcChannels | .TBRD_GetNumberOfSubmuxes =>
    False
  | .TBRD_Features => 2 ≤ data.length
  | .TBRD_Model =>
    let n := g.Config.Model.length % 65536
    n = 0 ∨ (12 ≤ n ∧ n ≤ 40)
  | .TBRD_SerialNumber =>
    let n := g.Config.SerialNumber.length % 65536
    n = 0 ∨ (12 ≤ n ∧ n ≤ 14)
  | .TBRD_GetModel => g.Config.Model.length % 65536 = 0
  | .TBRD_GetSerialNumber => g.Config.SerialNumber.length % 65536 = 0
  | .TDAC_Output => ∀ n, outputCounts pf g.Config data = some n → outputScale pf g.Config data n = n
  | .TDAC_OutputV => ∀ n, outputCounts pf g.Config data = some n →
    ∃ m, DACVoltsToCounts pf g.Config (dacChannelOf data) (countsToFloat n) = some m ∧
      countsToFloat (outputScale pf g.Config data m) = countsToFloat n
  | .TADC_StreamStart => data = [] ∨ g.AdcStreamingConnection = -1
  | .TSYS_UploadFileName => PathRepeats pf data
  | cls => cls.needsData = true → data ≠ []

namespace ReencodeLemmas

variable {g g' : Globals} {e : TDIdDictEntry} {data : TBytes} {body : TItemBody}

theorem reencodable_needsData {cls : ItemClass} (h : cls.needsData = true) :
    Reencodable pf g data cls ↔ data ≠ [] := by
  cases cls
  all_goals first
    | exact ⟨fun hr => hr rfl, fun hne _ => hne⟩
    | cases h

/-- What the entry admits, by the class. -/
theorem bounds_of_admits {cls : ItemClass} (he : e ∈ DIdDict) (hcls : e.Construct = cls)
    (hadmits : e.Admits data) (hraw : cls ≠ .TDataItemRaw) :
    data = [] ∨ (cls.bounds.1 ≤ data.length ∧ data.length ≤ cls.bounds.2) := by
  subst hcls
  exact (admits_bounds he hraw).mp hadmits

theorem nil_of_admits {cls : ItemClass} (he : e ∈ DIdDict) (hcls : e.Construct = cls)
    (hadmits : e.Admits data) (hraw : cls ≠ .TDataItemRaw) (hnone : cls.bounds = (0, 0)) :
    data = [] := by
  rcases bounds_of_admits he hcls hadmits hraw with rfl | ⟨-, hmax⟩
  · rfl
  · rw [hnone] at hmax
    exact List.length_eq_zero_iff.mp (Nat.le_zero.mp hmax)

theorem admits_wireData {cls : ItemClass} (he : e ∈ DIdDict) (hcls : e.Construct = cls)
    (hraw : cls ≠ .TDataItemRaw) {s : TBytes} : e.Admits (wireData s) ↔
      s.length % 65536 = 0 ∨
        (cls.bounds.1 ≤ s.length % 65536 ∧ s.length % 65536 ≤ cls.bounds.2) := by
  subst hcls
  rw [admits_bounds he hraw, ← List.length_eq_zero_iff, length_wireData]

theorem sends_submux {cls : ItemClass}
    (hcls : cls = .TBRD_SubmuxScale ∨ cls = .TBRD_SubmuxOffset) :
    sends pf g cls [] = some [0, 0, 0, 0, 0, 0] ∧
      ∀ data, data.length = 6 → sends pf g cls data = some data := by
  have hecho (data : TBytes) (hlen : data.length = 6) :
      (SubmuxParams.ctor data).calcPayload = data := by
    obtain ⟨i, data, rfl⟩ := List.exists_cons_of_length_eq_add_one hlen
    obtain ⟨j, data, rfl⟩ := List.exists_cons_of_length_eq_add_one (Nat.succ.inj hlen)
    obtain ⟨a, b, c, d, rfl⟩ := List.length_eq_four.mp (Nat.succ.inj (Nat.succ.inj hlen))
    exact congrArg (fun v => i :: j :: v) (stuff32_bytes a b c d)
  rcases hcls with rfl | rfl
  · exact ⟨rfl, fun data hlen => congrArg some (hecho data hlen)⟩
  · exact ⟨rfl, fun data hlen => congrArg some (hecho data hlen)⟩

/-- A class that sends data of one length as it was taken, and data of that length without any. -/
theorem repeats_default {cls : ItemClass} {n : Nat} {p : TBytes} (he : e ∈ DIdDict)
    (hcls : e.Construct = cls) (hadmits : e.Admits data) (hraw : cls ≠ .TDataItemRaw)
    (hbounds : cls.bounds = (n, n)) (hp : p.length = n)
    (hsends : sends pf g cls [] = some p ∧
      ∀ data, data.length = n → sends pf g cls data = some data) : Repeats pf g e data := by
  rcases bounds_of_admits he hcls hadmits hraw with rfl | hlen
  · refine repeats_within he hcls hraw hsends.1 ?_ ?_ (hsends.2 p hp)
    · rw [hbounds, hp]
    · rw [hbounds, hp]
  · rw [hbounds] at hlen
    refine repeats_echo he hadmits ?_
    rw [hcls]
    exact hsends.2 data (Nat.le_antisymm hlen.2 hlen.1)

theorem sends_read1 : sends pf g .TREG_Read1 [] = some [0] ∧
    ∀ data, data.length = 1 → sends pf g .TREG_Read1 data = some data := by
  refine ⟨rfl, fun data hlen => ?_⟩
  obtain ⟨ofs, rfl⟩ := List.length_eq_one_iff.mp hlen
  exact congrArg (fun b => some [b]) (UInt8.ofNat_toNat (x := ofs))

theorem sends_numberOfSubmuxes : sends pf g .TBRD_NumberOfSubmuxes [] = some [0] ∧
    ∀ data, data.length = 1 → sends pf g .TBRD_NumberOfSubmuxes data = some data := by
  refine ⟨rfl, fun data hlen => ?_⟩
  obtain ⟨value, rfl⟩ := List.length_eq_one_iff.mp hlen
  rfl

/-- What is sent of five bytes for a channel: a code that is not taken is sent as all ones. -/
theorem sends_dacRange1 (pf : Platform) (g : Globals) {ch : UInt8} (hch : ch < 4)
    (a b c d : UInt8) :
    sends pf g .TDAC_Range1 [ch, a, b, c, d] =
      some (if isDacRangeCode (UInt32.ofNat (Bytes.ofLe [a, b, c, d])) then [ch, a, b, c, d]
        else [ch, 255, 255, 255, 255]) := by
  have hctor : (TDAC_Range1.ctor [ch, a, b, c, d] : Prog Exn Globals (DAC_RangeParams × Bool)) =
      if isDacRangeCode (UInt32.ofNat (Bytes.ofLe [a, b, c, d])) then
        pure ({ dacChannel := ch, dacRange := UInt32.ofNat (Bytes.ofLe [a, b, c, d]) }, true)
      else pure ({ dacChannel := ch, dacRange := 0xFFFFFFFF }, false) := by
    rw [TDAC_Range1.ctor, GuardLemmas.guard_pass (decide_eq_true hch), pure_bind,
      if_pos (show [ch, a, b, c, d].length = 5 from rfl)]
    show (pure _ >>= _) = _
    rw [pure_bind, bytes32]
  show ((TDAC_Range1.ctor [ch, a, b, c, d] >>= _).exec g).bind _ = _
  rw [hctor]
  by_cases hcode : isDacRangeCode (UInt32.ofNat (Bytes.ofLe [a, b, c, d])) = true
  · rw [if_pos hcode, if_pos hcode]
    exact congrArg (fun v => some (ch :: v)) (stuff32_ofLe a b c d)
  · rw [if_neg hcode, if_neg hcode]
    have hones : stuff32 0xFFFFFFFF = [255, 255, 255, 255] := by decide
    exact congrArg (fun v => some (ch :: v)) hones

theorem repeats_dacRange1 (he : e ∈ DIdDict) (hcls : e.Construct = .TDAC_Range1)
    (hadmits : e.Admits data)
    (hrun : (construct pf .TDAC_Range1 data).exec g = some (.ok body, g')) :
    Repeats pf g e data := by
  rcases bounds_of_admits he hcls hadmits (by decide) with rfl | ⟨hmin, hmax⟩
  · refine repeats_within (p := [0, 0, 0, 0, 0]) he hcls (by decide) rfl (Nat.le_refl 5)
      (Nat.le_refl 5) ?_
    exact sends_dacRange1 pf g (by decide) 0 0 0 0
  · obtain ⟨ch, data, rfl⟩ := List.exists_cons_of_length_eq_add_one (Nat.le_antisymm hmax hmin)
    obtain ⟨a, b, c, d, rfl⟩ :=
      List.length_eq_four.mp (Nat.succ.inj (Nat.le_antisymm hmax hmin))
    have hch : ch < 4 := by
      obtain ⟨q, g₁, hctor, -⟩ := bind_exec_ok hrun
      exact of_decide_eq_true (GuardLemmas.guard_bind_ok hctor).1
    have hsends := sends_dacRange1 pf g hch a b c d
    by_cases hcode : isDacRangeCode (UInt32.ofNat (Bytes.ofLe [a, b, c, d])) = true
    · rw [if_pos hcode] at hsends
      exact repeats_within he hcls (by decide) hsends (Nat.le_refl 5) (Nat.le_refl 5) hsends
    · rw [if_neg hcode] at hsends
      exact repeats_within he hcls (by decide) hsends (Nat.le_refl 5) (Nat.le_refl 5)
        (sends_dacRange1 pf g hch 255 255 255 255)

theorem sends_baseClock : sends pf g .TADC_BaseClock [] = some (stuff32 25000000) ∧
    ∀ data, data.length = 4 → sends pf g .TADC_BaseClock data = some data := by
  refine ⟨rfl, fun data hlen => ?_⟩
  obtain ⟨a, b, c, d, rfl⟩ := List.length_eq_four.mp hlen
  exact congrArg some (stuff32_bytes a b c d)

theorem repeats_baseClock (he : e ∈ DIdDict) (hcls : e.Construct = .TADC_BaseClock)
    (hadmits : e.Admits data)
    (hrun : (construct pf .TADC_BaseClock data).exec g = some (.ok body, g')) :
    Repeats pf g e data := by
  obtain ⟨q, g₁, hctor, -⟩ := bind_exec_ok hrun
  have hlen := (GuardLemmas.guard_bind_ok hctor).1
  rw [Bool.or_eq_true, decide_eq_true_iff, decide_eq_true_iff] at hlen
  rcases hlen with hnil | hlen
  · cases List.length_eq_zero_iff.mp hnil
    exact repeats_within he hcls (by decide) sends_baseClock.1 (Nat.zero_le _) (Nat.le_refl 4)
      (sends_baseClock.2 _ rfl)
  · exact repeats_echo he hadmits (by rw [hcls, sends_baseClock.2 data hlen])

theorem c_str_c_str (s : TBytes) : c_str (c_str s) = c_str s :=
  List.takeWhile_idem

theorem length_c_str (s : TBytes) : (c_str s).length ≤ s.length :=
  (List.takeWhile_sublist _).length_le

theorem sends_hostname (data : TBytes) :
    sends pf g .TCFG_Hostname data = some (c_str (data.take 255)) := rfl

theorem repeats_hostname (he : e ∈ DIdDict) (hcls : e.Construct = .TCFG_Hostname)
    (hadmits : e.Admits data) : Repeats pf g e data := by
  have hdata : data.length ≤ 253 := by
    rcases bounds_of_admits he hcls hadmits (by decide) with rfl | ⟨-, hmax⟩
    · exact Nat.zero_le _
    · exact hmax
  have hlen : (c_str (data.take 255)).length ≤ 253 :=
    Nat.le_trans (length_c_str _) (Nat.le_trans (List.length_take_le' _ _) hdata)
  refine repeats_of he (by rw [hcls, sends_hostname]) ?_ ?_
  · rw [admits_bounds he (by rw [hcls]; decide), hcls]
    exact (Decidable.em _).imp_right fun hne => ⟨List.length_pos_iff.mpr hne, hlen⟩
  · rw [hcls, sends_hostname, List.take_of_length_le (Nat.le_trans hlen (by decide)), c_str_c_str]

theorem repeats_sysError (he : e ∈ DIdDict) (hcls : e.Construct = .TSYS_Error) :
    Repeats pf g e data :=
  repeats_within he hcls (by decide) rfl (Nat.zero_le _) (Nat.le_refl 12)
    (congrArg (fun p => some (TSYS_Error.calcPayload p)) (sysError_again (TSYS_Error.ctor data)))

theorem repeats_sysItemError (he : e ∈ DIdDict) (hcls : e.Construct = .TSYS_ItemError) :
    Repeats pf g e data :=
  repeats_within he hcls (by decide) rfl (Nat.zero_le _) (Nat.le_refl 12)
    (congrArg (fun p => some (TSYS_ItemError.calcPayload p))
      (sysItemError_again (TSYS_ItemError.ctor data)))

theorem repeats_features (he : e ∈ DIdDict) (hcls : e.Construct = .TBRD_Features) :
    Repeats pf g e data ↔ 2 ≤ data.length := by
  constructor
  · intro h
    by_contra hlen
    refine not_repeats ?_ h
    rw [hcls]
    show (if 2 ≤ data.length then data[0]? else none).map _ = none
    rw [if_neg hlen]
    rfl
  · intro hlen
    obtain ⟨v, data, rfl⟩ := List.exists_cons_of_length_pos (Nat.lt_of_lt_of_le Nat.two_pos hlen)
    have hsends (data : TBytes) (hlen : 2 ≤ (v :: data).length) :
        sends pf g .TBRD_Features (v :: data) = some [v, 0, 0, 0] := by
      show (if 2 ≤ (v :: data).length then (v :: data)[0]? else none).map
        (fun v => stuff32 v.toUInt32) = _
      rw [if_pos hlen]
      exact congrArg some (stuff32_byte v)
    exact repeats_within he hcls (by decide) (hsends data hlen) (Nat.zero_le _) (Nat.le_refl 4)
      (hsends _ (Nat.le_add_right 2 2))

/-- What an output was built from is a channel with its counts or its volts. -/
theorem counts_of_output {lineChannel lineSize : Nat} {r : DAC_OutputParams × Bool}
    (hlen : data = [] ∨ (3 ≤ data.length ∧ data.length ≤ 5))
    (h : (DAC_Output.parseBytes pf lineChannel lineSize data).exec g = some (.ok r, g')) :
    data.headD 0 < 4 ∧ (data.length = 3 ∨ data.length = 5) ∧
      ∃ n, outputCounts pf g.Config data = some n := by
  obtain ⟨hch, hsize⟩ := parseBytes_ok (hlen.imp_right And.left) h
  rw [parseBytes_eq lineChannel lineSize hch hsize] at h
  obtain ⟨n, hn, -⟩ := Option.map_eq_some_iff.mp h
  exact ⟨hch, hsize, n, hn⟩

/-- But for a claim on the stream, what was built can be encoded again as its class says. -/
theorem repeats_iff (he : e ∈ DIdDict) (hadmits : e.Admits data)
    (hrun : (construct pf e.Construct data).exec g = some (.ok body, g'))
    (hstream : e.Construct ≠ .TADC_StreamStart) :
    Repeats pf g e data ↔ Reencodable pf g data e.Construct := by
  by_cases hneeds : e.Construct.needsData = true
  · rw [reencodable_needsData hneeds]
    exact repeats_needsData he hneeds hadmits
  cases hcls : e.Construct
  case TDataItemRaw | TDataItemNYI | TREG_Write1 =>
    refine iff_of_true (repeats_echo he hadmits ?_) fun h => by cases h
    rw [sends_of_exec hrun]
    exact construct_echoes (by rw [hcls]; rfl) hrun g.Config false
  case TADC_RawAll | TADC_CountsAll | TADC_VoltsAll | TSYS_UploadFileData =>
    exact iff_of_true (repeats_echo he hadmits (by rw [hcls]; rfl)) fun h => by cases h
  case TDataItemDoc | TDataItemDocGet | TADC_StreamStop | TDIO_Input =>
    have hnone (data : TBytes) : sends pf g e.Construct data = some [] := by
      rw [hcls]
      rfl
    exact iff_of_true ((repeats_const hnone).mpr (.inl rfl)) fun h => by cases h
  case TBRD_NumberOfSubmuxes =>
    exact iff_of_true (repeats_default he hcls hadmits (by decide) rfl rfl sends_numberOfSubmuxes)
      fun h => by cases h
  case TBRD_SubmuxScale =>
    exact iff_of_true
      (repeats_default he hcls hadmits (by decide) rfl rfl (sends_submux (.inl rfl)))
      fun h => by cases h
  case TBRD_SubmuxOffset =>
    exact iff_of_true
      (repeats_default he hcls hadmits (by decide) rfl rfl (sends_submux (.inr rfl)))
      fun h => by cases h
  case TREG_Read1 =>
    exact iff_of_true (repeats_default he hcls hadmits (by decide) rfl rfl sends_read1)
      fun h => by cases h
  case TDAC_Range1 =>
    exact iff_of_true (repeats_dacRange1 he hcls hadmits (hcls ▸ hrun)) fun h => by cases h
  case TADC_BaseClock =>
    exact iff_of_true (repeats_baseClock he hcls hadmits (hcls ▸ hrun)) fun h => by cases h
  case TCFG_Hostname =>
    exact iff_of_true (repeats_hostname he hcls hadmits) fun h => by cases h
  case TSYS_Error => exact iff_of_true (repeats_sysError he hcls) fun h => by cases h
  case TSYS_ItemError => exact iff_of_true (repeats_sysItemError he hcls) fun h => by cases h
  case TBRD_DeviceID =>
    cases nil_of_admits he hcls hadmits (by decide) rfl
    exact iff_of_false (not_repeats (by rw [hcls]; rfl)) id
  case TBRD_GetNumberOfSubmuxes =>
    cases nil_of_admits he hcls hadmits (by decide) rfl
    exact iff_of_false (not_repeats (by rw [hcls]; rfl)) id
  case TBRD_FpgaId =>
    have hlen : ¬5 ≤ data.length := by
      rcases bounds_of_admits he hcls hadmits (by decide) with rfl | ⟨-, hmax⟩
      · exact Nat.not_succ_le_zero 4
      · exact Nat.not_le_of_lt (Nat.lt_succ_of_le hmax)
    refine iff_of_false (not_repeats ?_) id
    rw [hcls]
    show ((if 5 ≤ data.length then readU32 data 0 else none).map stuff32) = none
    rw [if_neg hlen]
    rfl
  case TBRD_GetNumberOfAdcChannels =>
    cases nil_of_admits he hcls hadmits (by decide) rfl
    refine iff_of_false ?_ id
    rintro ⟨p, hp, hagain, -⟩
    rw [hcls] at hp
    cases hp
    cases nil_of_admits he hcls hagain (by decide) rfl
  case TBRD_Features => exact repeats_features he hcls
  case TBRD_Model =>
    rw [repeats_const (s := g.Config.Model) fun data => by rw [hcls]; rfl,
      admits_wireData he hcls (by decide)]
    rfl
  case TBRD_SerialNumber =>
    rw [repeats_const (s := g.Config.SerialNumber) fun data => by rw [hcls]; rfl,
      admits_wireData he hcls (by decide)]
    rfl
  case TBRD_GetModel =>
    rw [repeats_const (s := g.Config.Model) fun data => by rw [hcls]; rfl,
      admits_wireData he hcls (by decide)]
    exact or_iff_left_of_imp fun h => Nat.le_zero.mp h.2
  case TBRD_GetSerialNumber =>
    rw [repeats_const (s := g.Config.SerialNumber) fun data => by rw [hcls]; rfl,
      admits_wireData he hcls (by decide)]
    exact or_iff_left_of_imp fun h => Nat.le_zero.mp h.2
  case TDAC_Output =>
    obtain ⟨q, g₁, hctor, -⟩ := bind_exec_ok (show _ from hcls ▸ hrun)
    obtain ⟨hch, hlen, n, hn⟩ :=
      counts_of_output (bounds_of_admits he hcls hadmits (by decide)) hctor
    rw [repeats_dacOutput he hch hlen hn hcls]
    show _ ↔ ∀ n', outputCounts pf g.Config data = some n' → _
    rw [hn]
    exact ⟨fun h n' hn' => Option.some.inj hn' ▸ h, fun h => h n rfl⟩
  case TDAC_OutputV =>
    obtain ⟨q, g₁, hctor, -⟩ := bind_exec_ok (show _ from hcls ▸ hrun)
    obtain ⟨hch, hlen, n, hn⟩ :=
      counts_of_output (bounds_of_admits he hcls hadmits (by decide)) hctor
    rw [repeats_dacOutputV he hch hlen hn hcls]
    show _ ↔ ∀ n', outputCounts pf g.Config data = some n' → _
    rw [hn]
    exact ⟨fun h n' hn' => Option.some.inj hn' ▸ h, fun h => h n rfl⟩
  case TSYS_UploadFileName =>
    have hne : data ≠ [] := fun hnil => by
      rw [hcls, hnil] at hrun
      cases hrun
    exact repeats_uploadFileName he hcls hne
  case TADC_StreamStart => exact absurd hcls hstream
  all_goals exact absurd (by rw [hcls]; rfl) hneeds

theorem sends_streamStart (data : TBytes) : sends pf g .TADC_StreamStart data =
    if data.length = 4 ∧ g.AdcStreamingConnection ≠ -1 then none else some data := by
  rw [sends, streamStart_exec]
  by_cases hbusy : data.length = 4 ∧ g.AdcStreamingConnection ≠ -1
  · rw [if_pos hbusy, if_pos hbusy]
    rfl
  · rw [if_neg hbusy, if_neg hbusy]
    rfl

/-- A claim on the stream can be sent again while the stream is free. -/
theorem reencodes_streamStart {w : WireItem} {g₀ g₁ : Globals} {item : TDataItem}
    (he : DIdDict.find w.DId = some e) (hcls : e.Construct = .TADC_StreamStart)
    (h : w.Builds pf g₀ item g₁) :
    Reencodes pf g item ↔ w.data = [] ∨ g.AdcStreamingConnection = -1 := by
  obtain ⟨⟨e', he', hadmits, hrun⟩, hid⟩ := h
  cases he.symm.trans he'
  have hmem := (find_some he).1
  have hsend : calcPayload g.Config false item.toTItemBody = some w.data := by
    rw [hcls, streamStart_exec] at hrun
    split at hrun
    · cases hrun
    · rw [← Except.ok.inj (congrArg Prod.fst (Option.some.inj hrun))]
      rfl
  have hlen : w.data = [] ∨ w.data.length = 4 :=
    (bounds_of_admits hmem hcls hadmits (by decide)).imp_right fun hlen =>
      Nat.le_antisymm hlen.2 hlen.1
  have hwire := wireData_of_lt (length_of_admits hmem hadmits)
  rw [reencodes_payload (hid ▸ he), hsend]
  constructor
  · rintro ⟨p, hp, -, hagain⟩
    cases hp
    rw [hwire, hcls, sends_streamStart] at hagain
    refine hlen.imp_right fun hfour => ?_
    by_contra hbusy
    rw [if_pos ⟨hfour, hbusy⟩] at hagain
    cases hagain
  · intro hfree
    refine ⟨w.data, rfl, by rwa [hwire], ?_⟩
    rw [hwire, hcls, sends_streamStart, if_neg]
    rintro ⟨hfour, hbusy⟩
    rcases hfree with hnil | hfree
    · rw [hnil] at hfour
      cases hfour
    · exact hbusy hfree

end ReencodeLemmas

open ReencodeLemmas

/-- An accepted item that has not run can be encoded again as `Reencodable` says. -/
theorem reencodes_iff {g₀ g₁ g : Globals} {w : WireItem} {xs : TBytes} {item : TDataItem}
    {e : TDIdDictEntry} (h : Accepts pf g₀ (w.bytes ++ xs) item g₁)
    (he : DIdDict.find w.DId = some e) (hc : g.Config = g₀.Config) :
    Reencodes pf g item ↔ Reencodable pf g w.data e.Construct := by
  have hbuilds := accepts_item.mp h
  by_cases hcls : e.Construct = .TADC_StreamStart
  · rw [reencodes_streamStart he hcls hbuilds, hcls]
    rfl
  · rw [reencodes_repeats he hcls hc hbuilds]
    obtain ⟨⟨e', he', hadmits, hrun⟩, -⟩ := hbuilds
    cases he.symm.trans he'
    exact repeats_iff (find_some he).1 hadmits (construct_same hcls hc hrun) hcls

/-- A channel count asked for without data. It is sent with one byte, which the entry does not
admit. -/
def exChannelCount : TDataItem :=
  { params := .TBRD_GetNumberOfAdcChannels 16, DId := DataItemIds.BRD_GetNumberOfAdcChannels }

theorem channel_count_not_reencoded :
    Accepts exPlatform exGlobals (itemBytes exChannelCount.DId []) exChannelCount exGlobals ∧
      ¬Reencodes exPlatform exGlobals exChannelCount := by
  refine ⟨rfl, ?_⟩
  rintro ⟨bytes, item', g', hbytes, haccepts, -⟩
  cases hbytes
  cases haccepts

/-- An output of the digital lines. -/
def exDioWire : WireItem := ⟨DataItemIds.DIO_Output, [0x34, 0x12], by decide⟩

def exDioOutput : TDataItem :=
  { params := .TDIO_Output (some 0x1234), rawBytes := [0x34, 0x12], DId := DataItemIds.DIO_Output }

theorem dio_output_reencoded : Reencodes exPlatform exGlobals exDioOutput :=
  have haccepts : Accepts exPlatform exGlobals (exDioWire.bytes ++ []) exDioOutput exGlobals := rfl
  (reencodes_iff haccepts rfl rfl).mpr fun _ => by decide

end EnetTcp
