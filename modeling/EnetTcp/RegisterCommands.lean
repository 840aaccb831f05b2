import EnetTcp.Batching
import EnetTcp.BitItems
import EnetTcp.Busy
import EnetTcp.Lib.Objects
import EnetTcp.Lib.Views
import EnetTcp.Reencoding

/-!
# Messages as programs on the registers (REG_.cpp, DIO_.cpp)

The items of the groups REG_ and DIO_ are commands to a memory of registers
(`RegisterCommand.carryOut`). A message of them is a program on that memory, and its reply lists
what each command has given.

1. `command_run`: each item does to the registers what its command does to the memory.
2. `request_run`: so does a message, with the reply that the memory gives.
-/

namespace EnetTcp

open Prog BitMemory GuardLemmas RegisterLemmas BitLemmas GreetingLemmas

variable {ε : Type}

/-! ## 1. Commands -/

/-- What is done with several bits of a register. -/
inductive BitsAction
  | clear
  | toggle
  | set
  deriving DecidableEq

namespace BitsAction

def DId : BitsAction → DataItemIds
  | clear => DataItemIds.REG_ClearBits
  | toggle => DataItemIds.REG_ToggleBits
  | set => DataItemIds.REG_SetBits

def mask : BitsAction → UInt32 → UInt32 → UInt32
  | clear => clearMask
  | toggle => toggleMask
  | set => setMask

/-- The same on a cell. -/
def onCell {n : Nat} : BitsAction → BitVec n → BitVec n → BitVec n
  | clear, x, bits => x &&& ~~~bits
  | toggle, x, bits => x ^^^ bits
  | set, x, bits => x ||| bits

end BitsAction

/-- A value as wide as the register. -/
abbrev CellValue (offset : UInt8) : Type := BitVec (widthFromOffset offset.toNat)

/-- The offset is that of a register. -/
def IsRegister (offset : UInt8) : Prop := widthFromOffset offset.toNat ≠ 0

instance (offset : UInt8) : Decidable (IsRegister offset) :=
  inferInstanceAs (Decidable (_ ≠ _))

/-- The items of the groups REG_ and DIO_. Each command names a register, and a bit of it where
it is about one. The register exists, the bit is below its width, and a value is as wide as the
register: other payloads are no commands. -/
inductive RegisterCommand
  | bit (c : BitCommand) (valid : c.Valid)
  | bits (action : BitsAction) (offset : UInt8) (value : CellValue offset)
      (valid : IsRegister offset)
  | REG_Read1 (offset : UInt8) (valid : IsRegister offset)
  | REG_Write1 (offset : UInt8) (value : CellValue offset) (valid : IsRegister offset)
  | REG_ReadBit (offset bitIndex : UInt8) (valid : bitIndex.toNat < widthFromOffset offset.toNat)
  | DIO_Configure (value : UInt16)
  | DIO_Output (value : UInt16)
  | DIO_Input
  | DIO_InputBit (bitNumber : UInt8) (valid : bitNumber.toNat < widthFromOffset ofsDioInputs)

/-- A cell as bytes, the lowest first. -/
def cellBytes {n : Nat} (x : BitVec n) : TBytes :=
  (stuff32 (UInt32.ofBitVec (x.setWidth 32))).take (n / 8)

theorem length_cellBytes {n : Nat} (x : BitVec n) : (cellBytes x).length ≤ 4 :=
  List.length_take_le' ..

namespace RegisterCommand

def DId : RegisterCommand → DataItemIds
  | bit c _ => c.DId
  | bits action .. => action.DId
  | REG_Read1 .. => DataItemIds.REG_Read1
  | REG_Write1 .. => DataItemIds.REG_Write1
  | REG_ReadBit .. => DataItemIds.REG_ReadBit
  | DIO_Configure _ => DataItemIds.DIO_Configure
  | DIO_Output _ => DataItemIds.DIO_Output
  | DIO_Input => DataItemIds.DIO_Input
  | DIO_InputBit .. => DataItemIds.DIO_InputBit

def data : RegisterCommand → TBytes
  | bit c _ => c.data
  | bits _ offset value _ | REG_Write1 offset value _ => offset :: cellBytes value
  | REG_Read1 offset _ => [offset]
  | REG_ReadBit offset bitIndex _ => [offset, bitIndex]
  | DIO_Configure value | DIO_Output value => stuff16 value
  | DIO_Input => []
  | DIO_InputBit bitNumber _ => [bitNumber]

theorem fits (c : RegisterCommand) : c.data.length < 2 ^ 16 := by
  cases c with
  | bit c => exact c.wire.fits
  | bits _ offset value | REG_Write1 offset value =>
    have hlen := length_cellBytes value
    simp only [data, List.length_cons]
    omega
  | REG_Read1 | REG_ReadBit | DIO_Configure | DIO_Output | DIO_Input | DIO_InputBit =>
    simp [data]

/-- The command as an item of a message. -/
def wire (c : RegisterCommand) : WireItem := ⟨c.DId, c.data, c.fits⟩

/-- The parameters of the item that is built. -/
def params : RegisterCommand → Params
  | bit c _ => c.params
  | bits .. => .TDataItemRaw
  | REG_Read1 offset _ =>
    .TREG_Read1 { offset := offset.toNat, width := widthFromOffset offset.toNat }
  | REG_Write1 offset value _ =>
    .TREG_Write1 [{ offset, width := widthFromOffset offset.toNat,
                    value := UInt32.ofBitVec (value.setWidth 32) }]
  | REG_ReadBit offset bitIndex _ => .TREG_ReadBit ⟨some ⟨offset, bitIndex⟩, none⟩
  | DIO_Configure value => .TDIO_Configure (some value)
  | DIO_Output value => .TDIO_Output (some value)
  | DIO_Input => .TDIO_Input none
  | DIO_InputBit bitNumber _ => .TDIO_InputBit ⟨some bitNumber, none⟩

def item (c : RegisterCommand) : TDataItem where
  params := c.params
  Data := if c.params = .TDataItemRaw then c.data else []
  rawBytes := c.data
  DId := c.DId

end RegisterCommand

/-! ## 2. What they mean -/

/-- A payload, or the report that the device behind the register has stayed busy. -/
inductive RegisterAnswer
  | payload (bytes : TBytes)
  | timedOut
  deriving DecidableEq

namespace RegisterAnswer

def isTimedOut : RegisterAnswer → Bool
  | payload _ => false
  | timedOut => true

/-- The item of the reply at position `i`, in answer to an item with this id. -/
def itemBytes (i : Nat) (did : DataItemIds) : RegisterAnswer → TBytes
  | payload bytes => EnetTcp.itemBytes did bytes
  | timedOut => EnetTcp.itemBytes DataItemIds.SYS_ItemError
      (stuff16 (UInt16.ofNat i) ++ stuff16 did ++ stuff32 (ErrIndex ETIMEDOUT_neg) ++ stuff32 0)

end RegisterAnswer

/-- A cell as `in` gives it. -/
def RegisterFile.word (r : RegisterFile) (offset : Nat) : UInt32 :=
  UInt32.ofBitVec ((r offset).setWidth 32)

/-- The device behind the register says that it is busy. -/
def RegisterFile.busy (r : RegisterFile) (offset : Nat) : Bool :=
  match deviceBusyBit offset with
  | some (busyOffset, mask) => decide (r.word busyOffset &&& mask ≠ 0)
  | none => false

def bitByte (b : Bool) : UInt8 := if b then 1 else 0

/-- The answer of a command, and the memory afterwards. A write that has waited for a busy device
in vain is made all the same. -/
def RegisterCommand.carryOut : RegisterCommand → RegisterFile → RegisterAnswer × RegisterFile
  | .bit c _, r => (.payload c.data, change r c.register.toNat c.bitIndex.toNat c.action.apply)
  | .bits action offset value _, r =>
    (.payload (offset :: cellBytes value),
      Function.update r offset.toNat (action.onCell (r offset.toNat) value))
  | .REG_Read1 offset _, r => (.payload (offset :: cellBytes (r offset.toNat)), r)
  | .REG_Write1 offset value _, r =>
    (if r.busy offset.toNat then .timedOut else .payload (offset :: cellBytes value),
      Function.update r offset.toNat value)
  | .REG_ReadBit offset bitIndex _, r =>
    (.payload [offset, bitIndex, bitByte (BitMemory.bit r offset.toNat bitIndex.toNat)], r)
  | .DIO_Configure value, r =>
    (.payload (stuff16 value),
      Function.update r ofsDioDirections (value.toUInt32.toBitVec.setWidth _))
  | .DIO_Output value, r =>
    (.payload (stuff16 value),
      Function.update r ofsDioOutputs (value.toUInt32.toBitVec.setWidth _))
  | .DIO_Input, r => (.payload (stuff16 (r.word ofsDioInputs).toUInt16), r)
  | .DIO_InputBit bitNumber _, r =>
    (.payload [bitNumber, bitByte (BitMemory.bit r ofsDioInputs bitNumber.toNat)], r)

/-- Registers as an object that commands work on. -/
def registerObject : SharedObject RegisterFile RegisterCommand RegisterAnswer where
  apply := RegisterCommand.carryOut

/-! ## 3. Items -/

namespace RegisterCommandLemmas

variable {pf : Platform} {env : Env ε} {regs : ε → RegisterFile}

theorem cellBytes_narrow {n : Nat} (hn : n = 8) (x : BitVec n) :
    cellBytes x = [(UInt32.ofBitVec (x.setWidth 32)).toUInt8] := by
  subst hn
  rfl

theorem cellBytes_wide {n : Nat} (hn : n = 32) (x : BitVec n) :
    cellBytes x = stuff32 (UInt32.ofBitVec (x.setWidth 32)) := by
  subst hn
  rfl

theorem toUInt8_narrow {n : Nat} (hn : n = 8) (x : BitVec n) :
    (UInt32.ofBitVec (x.setWidth 32)).toUInt8.toUInt32 = UInt32.ofBitVec (x.setWidth 32) := by
  subst hn
  refine UInt32.toNat_inj.mp ?_
  have hlt := x.isLt
  simp only [UInt8.toNat_toUInt32, UInt32.toNat_toUInt8, UInt32.toNat_ofBitVec,
    BitVec.toNat_setWidth]
  omega

/-- A value fills its cell. -/
theorem setWidth_cell {n : Nat} (hn : n ≤ 32) (x : BitVec n) :
    (UInt32.ofBitVec (x.setWidth 32)).toBitVec.setWidth n = x :=
  (BitVec.setWidth_setWidth_of_le x hn).trans (BitVec.setWidth_eq x)

/-- A value on the wire is read as it was. -/
theorem read_cellBytes {offset : UInt8} (valid : IsRegister offset) (value : CellValue offset) :
    regextract (cellBytes value) offset.toNat = some (UInt32.ofBitVec (value.setWidth 32)) := by
  unfold regextract
  rcases RoundTripLemmas.widthFromOffset_cases offset.toNat with hwidth | hwidth | hwidth
  · exact absurd hwidth valid
  · rw [if_pos hwidth, cellBytes_narrow hwidth]
    exact congrArg some (toUInt8_narrow hwidth value)
  · rw [if_neg (by omega), if_pos hwidth, cellBytes_wide hwidth]
    exact congrArg some (ReencodeLemmas.bytes32_stuff32 _)

theorem write1_ctor {σ : Type} {offset : UInt8} (valid : IsRegister offset)
    (value : CellValue offset) (s : σ) :
    (TREG_Write1.ctor (offset :: cellBytes value)).exec s =
      some (.ok [{ offset, width := widthFromOffset offset.toNat,
                   value := UInt32.ofBitVec (value.setWidth 32) }], s) := by
  have hread := read_cellBytes valid value
  have hlen : (if widthFromOffset offset.toNat = 8 then
      decide ((offset :: cellBytes value).length = 2)
      else decide ((offset :: cellBytes value).length = 5)) = true := by
    rcases RoundTripLemmas.widthFromOffset_cases offset.toNat with hwidth | hwidth | hwidth
    · exact absurd hwidth valid
    · rw [if_pos hwidth, cellBytes_narrow hwidth]
      rfl
    · rw [if_neg (by omega), cellBytes_wide hwidth]
      rfl
  have hvalue : (if widthFromOffset offset.toNat = 8 then
      ((offset :: cellBytes value)[1]?).map UInt8.toUInt32
      else readU32 (offset :: cellBytes value) 1) =
        some (UInt32.ofBitVec (value.setWidth 32)) := by
    rw [← hread]
    unfold regextract
    rcases RoundTripLemmas.widthFromOffset_cases offset.toNat with hwidth | hwidth | hwidth
    · exact absurd hwidth valid
    · rw [if_pos hwidth, if_pos hwidth]
      rfl
    · rw [if_neg (by omega), if_neg (by omega), if_pos hwidth]
      rfl
  rw [TREG_Write1.ctor, guard_pass (by simp)]
  show ((GUARD (decide (widthFromOffset offset.toNat ≠ 0)) _ _ _) >>= _).exec s = _
  rw [guard_pass (decide_eq_true (p := widthFromOffset offset.toNat ≠ 0) valid), hvalue]
  show ((GUARD _ _ _ _) >>= _).exec s = _
  rw [guard_pass hlen]
  rfl

theorem length_value {offset : UInt8} (valid : IsRegister offset) (value : CellValue offset) :
    2 ≤ (offset :: cellBytes value).length ∧ (offset :: cellBytes value).length ≤ 5 := by
  rcases RoundTripLemmas.widthFromOffset_cases offset.toNat with hwidth | hwidth | hwidth
  · exact absurd hwidth valid
  · rw [cellBytes_narrow hwidth]
    exact ⟨Nat.le_refl 2, by simp⟩
  · rw [cellBytes_wide hwidth]
    exact ⟨by simp, Nat.le_refl 5⟩

/-- Every command is built as its item, whatever the globals are. -/
theorem builds (c : RegisterCommand) (g : Globals) : c.wire.Builds pf g c.item g := by
  cases c with
  | bit c => cases c <;> exact ⟨⟨_, rfl, .inr ⟨Nat.le_refl _, Nat.le_refl _⟩, rfl⟩, rfl⟩
  | bits action offset value valid =>
    have hlen := length_value valid value
    cases action <;> exact ⟨⟨_, rfl, .inr hlen, rfl⟩, rfl⟩
  | REG_Write1 offset value valid =>
    have hctor : (construct pf .TREG_Write1 (offset :: cellBytes value)).exec g = _ :=
      exec_bind_ok (write1_ctor valid value g)
    exact ⟨⟨_, rfl, .inr (length_value valid value), hctor⟩, rfl⟩
  | REG_Read1 | REG_ReadBit | DIO_InputBit =>
    exact ⟨⟨_, rfl, .inr ⟨Nat.le_refl _, Nat.le_refl _⟩, rfl⟩, rfl⟩
  | DIO_Configure value | DIO_Output value =>
    have hread : readU16 (stuff16 value) 0 = some value :=
      congrArg some (ReencodeLemmas.bytes16_stuff16 value)
    refine ⟨⟨_, rfl, .inr ⟨Nat.le_refl _, Nat.le_refl _⟩, ?_⟩, rfl⟩
    show some (Except.ok (_ : TItemBody), g) = _
    rw [DIO_PortParams.ctor]
    simp only [RegisterCommand.wire, RegisterCommand.data, hread]
    rfl
  | DIO_Input => exact ⟨⟨_, rfl, .inl rfl, rfl⟩, rfl⟩

/-- So the command is performed when its item is run. -/
theorem performs_command {c : RegisterCommand} {m m' : Machine ε} {q : GoResult} :
    Performs pf env c.wire m q m' ↔ goItem pf env c.item m = some (q, m') := by
  constructor
  · rintro ⟨g, ⟨body, id⟩, g', ⟨⟨e, he, -, hrun⟩, hid⟩, hgo⟩
    obtain ⟨⟨e', he', -, hrun'⟩, hid'⟩ := @builds pf c g
    cases he.symm.trans he'
    cases hrun.symm.trans hrun'
    obtain rfl : id = c.item.DId := hid.trans hid'.symm
    exact hgo
  · exact fun hgo => ⟨exGlobals, c.item, exGlobals, builds c exGlobals, hgo⟩

end RegisterCommandLemmas

/-- What comes of an item, in terms of its command. Nothing of the machine is changed but what
is outside, and the reply depends on no setting. -/
structure CarriesOut (pf : Platform) (env : Env ε) (regs : ε → RegisterFile)
    (c : RegisterCommand) (m : Machine ε) (q : GoResult) (m' : Machine ε) : Prop where
  run : goItem pf env c.item m = some (q, m')
  rest : m' = { m with sys := m'.sys }
  memory : regs m'.sys.env = (c.carryOut (regs m.sys.env)).2
  failed : (failure q).isSome = (c.carryOut (regs m.sys.env)).1.isTimedOut
  reply : ∀ i config, (replyItem i q).AsBytes config true =
    some ((c.carryOut (regs m.sys.env)).1.itemBytes i c.DId)

namespace RegisterCommandLemmas

variable {pf : Platform} {env : Env ε} {regs : ε → RegisterFile}

/-- An item that has a payload for its answer. -/
theorem carriesOut_payload {c : RegisterCommand} {m : Machine ε} {sys : Sys ε} {body : TItemBody}
    {bytes : TBytes}
    (hgo : goItem pf env c.item m = some ((.ok (), { body with DId := c.DId }), { m with sys }))
    (hcode : body.resultCode = ERR_SUCCESS)
    (hpayload : ∀ config, calcPayload config true body = some bytes)
    (hmeaning : c.carryOut (regs m.sys.env) = (.payload bytes, regs sys.env)) :
    CarriesOut pf env regs c m (.ok (), { body with DId := c.DId }) { m with sys } := by
  have hnone : failure (.ok (), { body with DId := c.DId }) = none :=
    (ReplyLemmas.failure_isNone_iff _).mpr ⟨rfl, hcode⟩
  refine ⟨hgo, rfl, ?_, ?_, fun i config => ?_⟩
  · rw [hmeaning]
  · rw [hmeaning, hnone]
    rfl
  · rw [hmeaning, replyItem, hnone]
    show (calcPayload config true body).map _ = _
    rw [hpayload]
    rfl

/-- An item that asks a register for its parameters. -/
theorem goItem_asks {τ : Type} {item : TDataItem} {m : Machine ε} {sys : Sys ε} {a : τ}
    {p : Prog Exn (Sys ε) τ} (params : τ → Params)
    (hgo : (Go pf env item.DId).exec (item.toTItemBody, m) =
      (onSys p >>= fun a => setParams (params a)).exec (item.toTItemBody, m))
    (hp : p.exec m.sys = some (.ok a, sys)) :
    goItem pf env item m =
      some ((.ok (), { item with params := params a }), { m with sys }) := by
  refine goItem_register params hgo ?_
  rw [io, exec_zoom, hp]
  rfl

/-- An item that works on the registers and keeps its parameters. -/
theorem goItem_works {item : TDataItem} {m : Machine ε} {sys : Sys ε} {p : Prog Exn (Sys ε) Unit}
    (hgo : (Go pf env item.DId).exec (item.toTItemBody, m) =
      (onMachine (io p)).exec (item.toTItemBody, m))
    (hp : p.exec m.sys = some (.ok (), sys)) :
    goItem pf env item m = some ((.ok (), item), { m with sys }) := by
  rw [goItem_onMachine hgo, io, exec_zoom, hp]
  rfl

/-! ### Bits and masks -/

theorem bitOf_word (r : RegisterFile) {offset : Nat} {b : UInt8}
    (hb : b.toNat < widthFromOffset offset) :
    bitOf (r.word offset) b = some (bitByte (BitMemory.bit r offset b.toNat)) := by
  have hb32 : b.toNat < 32 := Nat.lt_of_lt_of_le hb (width_le offset)
  have hshift : (r.word offset >>> b.toUInt32).toBitVec.getLsbD 0 =
      (r offset).getLsbD b.toNat := by
    rw [UInt32.toBitVec_shiftRight, BitVec.ushiftRight_eq', shift_toNat (lt_of_width hb),
      BitVec.getLsbD_ushiftRight]
    simp [RegisterFile.word, hb32]
  have hbit : ((r.word offset >>> b.toUInt32) &&& 1).toUInt8 =
      bitByte (BitMemory.bit r offset b.toNat) := by
    refine UInt8.toBitVec_inj.mp ?_
    rw [UInt32.toBitVec_toUInt8, UInt32.toBitVec_and]
    show ((r.word offset >>> b.toUInt32).toBitVec &&& 1#32).setWidth 8 = _
    rw [BitVec.and_one_eq_setWidth_ofBool_getLsbD, hshift, BitMemory.bit]
    cases (r offset).getLsbD b.toNat <;> rfl
  rw [bitOf, if_pos (lt_of_width hb), hbit]

/-- A mask on the word of a cell is one on the cell. -/
theorem mask_cell (action : BitsAction) {n : Nat} (hn : n ≤ 32) (x bits : BitVec n) :
    (action.mask (UInt32.ofBitVec (x.setWidth 32))
      (UInt32.ofBitVec (bits.setWidth 32))).toBitVec.setWidth n = action.onCell x bits := by
  refine BitVec.eq_of_getLsbD_eq fun j hj => ?_
  have hj32 : j < 32 := Nat.lt_of_lt_of_le hj hn
  cases action with
  | clear => simp [BitsAction.mask, BitsAction.onCell, clearMask, hj, hj32]
  | toggle => simp [BitsAction.mask, BitsAction.onCell, toggleMask, hj, hj32]
  | set => simp [BitsAction.mask, BitsAction.onCell, setMask, hj, hj32]

/-! ### Registers -/

variable (hregs : RegisterCells env regs)
include hregs

/-- The registers as they are seen from the calls. -/
theorem shows_in {offset : Nat} (hoffset : widthFromOffset offset ≠ 0) (r : RegisterFile) :
    Shows (fun s : Sys ε => regs s.env) (in_ env offset) r (r.word offset) r := by
  rintro s rfl
  exact in_cells hregs hoffset s

theorem shows_out {offset : Nat} (hoffset : widthFromOffset offset ≠ 0) (value : UInt32)
    {α : Type} (a : α) (r : RegisterFile) :
    Shows (fun s : Sys ε => regs s.env) (out env offset value >>= fun _ => pure a) r a
      (Function.update r offset (value.toBitVec.setWidth (widthFromOffset offset))) := by
  rintro s rfl
  obtain ⟨rc, s', hrun, hcells⟩ := out_cells hregs hoffset value s
  exact ⟨s', exec_bind_ok hrun, hcells⟩

/-- A bit that nobody else changes stays as the first poll finds it. -/
theorem shows_wait {offset : Nat} (hoffset : widthFromOffset offset ≠ 0) (mask : UInt32)
    (r : RegisterFile) : Shows (fun s : Sys ε => regs s.env)
      (WaitUntilRegisterBitIsLow env offset mask) r
      (if r.word offset &&& mask ≠ 0 then ETIMEDOUT_neg else 0) r := by
  have hin := shows_in hregs hoffset r
  by_cases hbusy : r.word offset &&& mask ≠ 0
  · rw [if_pos hbusy]
    have hpolls (n : Nat) : Shows (fun s : Sys ε => regs s.env) (waitLow env offset mask n) r
        ETIMEDOUT_neg r := by
      induction n with
      | zero => exact shows_bind hin (shows_pure _)
      | succ n ih =>
        refine shows_bind hin ?_
        rw [if_pos hbusy]
        exact ih
    exact hpolls 100
  · rw [if_neg hbusy]
    refine shows_bind hin ?_
    rw [if_neg hbusy]
    exact shows_pure 0

/-- A write waits for its device, and is made in any case. -/
theorem shows_write (w : REG_Write) (hoffset : widthFromOffset w.offset.toNat ≠ 0)
    (r : RegisterFile) : Shows (fun s : Sys ε => regs s.env) (TREG_Writes.Go env [w]) r
      (if r.busy w.offset.toNat then ETIMEDOUT_neg else 0)
      (Function.update r w.offset.toNat (w.value.toBitVec.setWidth _)) := by
  have hone : TREG_Writes.Go env [w] = TREG_Writes.write env 0 w := by
    rw [TREG_Writes.Go, List.foldlM_cons]
    exact bind_pure _
  rw [hone]
  cases hdevice : deviceBusyBit w.offset.toNat with
  | none =>
    have hfree : r.busy w.offset.toNat = false := by rw [RegisterFile.busy, hdevice]
    have hnone := hdevice
    unfold deviceBusyBit at hnone
    split at hnone
    case isTrue => cases hnone
    case isFalse hdac =>
      split at hnone
      case isTrue => cases hnone
      case isFalse hdio =>
        rw [TREG_Writes.write, hfree]
        simp only [if_neg hdac, if_neg hdio]
        exact shows_bind (shows_pure 0) (shows_out hregs hoffset w.value 0 r)
  | some b =>
    have hbusy : r.busy w.offset.toNat = decide (r.word b.1 &&& b.2 ≠ 0) := by
      rw [RegisterFile.busy, hdevice]
    have hwidth := (BusyLemmas.deviceBusyBit_width hdevice).2
    rw [FailureLemmas.write_waits hdevice, hbusy]
    refine shows_bind (shows_wait hregs (by omega) b.2 r) ?_
    simp only [decide_eq_true_eq]
    exact shows_out hregs hoffset w.value _ r

/-! ### Commands -/

theorem bit_carriesOut (c : BitCommand) (valid : c.Valid) (m : Machine ε) :
    ∃ q m', CarriesOut pf env regs (.bit c valid) m q m' := by
  obtain ⟨sys, hrun, hcells⟩ := modifyBit_cells hregs c.action valid m.sys
  have hgo : goItem pf env (RegisterCommand.bit c valid).item m =
      some ((.ok (), c.item), { m with sys }) := by
    refine performs_command.mp ((performs_bit c).mpr ?_)
    rw [hrun]
    rfl
  have hpayload (config : TConfig) :
      calcPayload config true c.item.toTItemBody = some c.data := by
    cases c <;> rfl
  exact ⟨_, _, carriesOut_payload (c := .bit c valid) hgo rfl hpayload
    (congrArg (Prod.mk _) hcells.symm)⟩

theorem bits_carriesOut (action : BitsAction) {offset : UInt8} (value : CellValue offset)
    (valid : IsRegister offset) (m : Machine ε) :
    ∃ q m', CarriesOut pf env regs (.bits action offset value valid) m q m' := by
  let c : RegisterCommand := .bits action offset value valid
  have hshows : Shows (fun s : Sys ε => regs s.env)
      (REG_Bits.go env action.mask (offset :: cellBytes value)) (regs m.sys.env) ()
      (Function.update (regs m.sys.env) offset.toNat
        (action.onCell (regs m.sys.env offset.toNat) value)) := by
    rw [← mask_cell action (width_le offset.toNat)]
    unfold REG_Bits.go
    refine shows_bind (shows_pure offset) ?_
    simp only [List.drop_succ_cons, List.drop_zero]
    rw [read_cellBytes valid value]
    refine shows_bind (shows_pure (UInt32.ofBitVec (value.setWidth 32))) ?_
    refine shows_bind (shows_in hregs valid _) ?_
    exact shows_out hregs valid _ () _
  obtain ⟨sys, hrun, hcells⟩ := hshows m.sys rfl
  have hgo : goItem pf env c.item m = some ((.ok (), c.item), { m with sys }) := by
    refine goItem_works ?_ hrun
    cases action <;> rfl
  exact ⟨_, _, carriesOut_payload (c := c) hgo rfl (fun _ => rfl)
    (congrArg (Prod.mk _) hcells.symm)⟩

omit hregs in
/-- Commands that read and leave the memory alone. -/
theorem asks_carriesOut {τ : Type} {c : RegisterCommand} {m : Machine ε} {a : τ} {bytes : TBytes}
    {p : Prog Exn (Sys ε) τ} (params : τ → Params)
    (hgo : (Go pf env c.item.DId).exec (c.item.toTItemBody, m) =
      (onSys p >>= fun a => setParams (params a)).exec (c.item.toTItemBody, m))
    (hp : Shows (fun s : Sys ε => regs s.env) p (regs m.sys.env) a (regs m.sys.env))
    (hpayload : ∀ config,
      calcPayload config true { c.item.toTItemBody with params := params a } = some bytes)
    (hmeaning : c.carryOut (regs m.sys.env) = (.payload bytes, regs m.sys.env)) :
    ∃ q m', CarriesOut pf env regs c m q m' := by
  obtain ⟨sys, hrun, hcells⟩ := hp m.sys rfl
  exact ⟨_, _, carriesOut_payload (goItem_asks params hgo hrun) rfl hpayload
    (hmeaning.trans (congrArg (Prod.mk _) hcells.symm))⟩

theorem port_carriesOut {c : RegisterCommand} {offset : Nat} (hoffset : widthFromOffset offset ≠ 0)
    {value : UInt16} {m : Machine ε}
    (hgo : (Go pf env c.item.DId).exec (c.item.toTItemBody, m) =
      (onMachine (io (out env offset value.toUInt32 >>= fun _ => pure ()))).exec
        (c.item.toTItemBody, m))
    (hpayload : ∀ config, calcPayload config true c.item.toTItemBody = some (stuff16 value))
    (hmeaning : c.carryOut (regs m.sys.env) = (.payload (stuff16 value),
      Function.update (regs m.sys.env) offset (value.toUInt32.toBitVec.setWidth _))) :
    ∃ q m', CarriesOut pf env regs c m q m' := by
  obtain ⟨sys, hrun, hcells⟩ :=
    shows_out hregs hoffset value.toUInt32 () (regs m.sys.env) m.sys rfl
  exact ⟨_, _, carriesOut_payload (goItem_works hgo hrun) rfl hpayload
    (hmeaning.trans (congrArg (Prod.mk _) hcells.symm))⟩

omit hregs in
/-- The report on a wait that has timed out. -/
theorem report_timedOut (i : Nat) {item : TDataItem} (hcode : item.resultCode = ETIMEDOUT_neg)
    (config : TConfig) : (failure (.ok (), item)).isSome = true ∧
      (replyItem i (.ok (), item)).AsBytes config true =
        some (RegisterAnswer.itemBytes i item.DId .timedOut) := by
  have hfailure : failure (.ok (), item) = some (ErrIndex ETIMEDOUT_neg, 0, []) := by
    rw [failure, hcode]
    rfl
  refine ⟨by rw [hfailure]; rfl, ?_⟩
  let p : SYS_ItemErrorParams := ⟨UInt16.ofNat i, item.DId, ErrIndex ETIMEDOUT_neg, 0⟩
  have hreport : itemError (UInt16.ofNat i) item.DId (ErrIndex ETIMEDOUT_neg) 0 [] =
      some { params := .TSYS_ItemError (TSYS_ItemError.ctor (TSYS_ItemError.calcPayload p))
             rawBytes := TSYS_ItemError.calcPayload p
             DId := DataItemIds.SYS_ItemError } := rfl
  rw [replyItem, hfailure]
  simp only [hreport, Option.getD_some, ReencodeLemmas.sysItemError_again]
  rfl

theorem write1_carriesOut {offset : UInt8} (value : CellValue offset) (valid : IsRegister offset)
    (m : Machine ε) : ∃ q m', CarriesOut pf env regs (.REG_Write1 offset value valid) m q m' := by
  let c : RegisterCommand := .REG_Write1 offset value valid
  let w : REG_Write := { offset, width := widthFromOffset offset.toNat,
                         value := UInt32.ofBitVec (value.setWidth 32) }
  let rc : TError := if (regs m.sys.env).busy offset.toNat then ETIMEDOUT_neg else 0
  obtain ⟨sys, hrun, hcells⟩ := shows_write hregs w valid (regs m.sys.env) m.sys rfl
  have hgo : goItem pf env c.item m =
      some ((.ok (), { c.item with resultCode := rc }), { m with sys }) := by
    show Option.map _ ((onSys (TREG_Writes.Go env [w]) >>= fun resultCode =>
      updateItem fun this => { this with resultCode }).exec (c.item.toTItemBody, m)) = _
    rw [exec_bind, onSys, onMachine, exec_zoom, io, exec_zoom, hrun]
    rfl
  have hwritten : regs sys.env = Function.update (regs m.sys.env) offset.toNat value := by
    rw [← setWidth_cell (width_le offset.toNat) value]
    exact hcells
  suffices hanswered : (failure (.ok (), { c.item with resultCode := rc })).isSome =
      (c.carryOut (regs m.sys.env)).1.isTimedOut ∧ ∀ i config,
      (replyItem i (.ok (), { c.item with resultCode := rc })).AsBytes config true =
        some ((c.carryOut (regs m.sys.env)).1.itemBytes i c.DId) from
    ⟨_, _, hgo, rfl, hwritten, hanswered.1, hanswered.2⟩
  cases hbusy : (regs m.sys.env).busy offset.toNat with
  | false =>
    have hrc : rc = ERR_SUCCESS := by simp only [rc, hbusy, Bool.false_eq_true, if_false]
    have hanswer : (c.carryOut (regs m.sys.env)).1 = .payload (offset :: cellBytes value) := by
      simp only [c, RegisterCommand.carryOut, hbusy, Bool.false_eq_true, if_false]
    have hnone : failure (.ok (), { c.item with resultCode := rc }) = none :=
      (ReplyLemmas.failure_isNone_iff _).mpr ⟨rfl, hrc⟩
    refine ⟨?_, fun i config => ?_⟩
    · rw [hnone, hanswer]
      rfl
    · rw [replyItem, hnone, hanswer]
      rfl
  | true =>
    have hrc : rc = ETIMEDOUT_neg := by simp only [rc, hbusy, if_true]
    have hanswer : (c.carryOut (regs m.sys.env)).1 = .timedOut := by
      simp only [c, RegisterCommand.carryOut, hbusy, if_true]
    have hreport (i : Nat) (config : TConfig) :=
      @report_timedOut i { c.item with resultCode := rc } hrc config
    rw [hanswer]
    exact ⟨(hreport 0 m.Config).1, fun i config => (hreport i config).2⟩

end RegisterCommandLemmas

open RegisterCommandLemmas

/-- Every item of the groups REG_ and DIO_ carries out its command. -/
theorem command_run (pf : Platform) {env : Env ε} {regs : ε → RegisterFile}
    (hregs : RegisterCells env regs) (c : RegisterCommand) (m : Machine ε) :
    ∃ q m', CarriesOut pf env regs c m q m' := by
  cases c with
  | bit c valid => exact bit_carriesOut hregs c valid m
  | bits action offset value valid => exact bits_carriesOut hregs action value valid m
  | REG_Write1 offset value valid => exact write1_carriesOut hregs value valid m
  | REG_Read1 offset valid =>
    let r := regs m.sys.env
    have hread : Shows (fun s : Sys ε => regs s.env)
        (TREG_Read1.Go env { offset := offset.toNat, width := widthFromOffset offset.toNat }) r
        { offset := offset.toNat, width := widthFromOffset offset.toNat
          regVal := r.word offset.toNat } r :=
      shows_bind (shows_in hregs valid r) (shows_pure _)
    refine asks_carriesOut .TREG_Read1 rfl hread (fun _ => ?_) rfl
    show some (UInt8.ofNat offset.toNat :: if widthFromOffset offset.toNat = 8 then
      [(r.word offset.toNat).toUInt8] else stuff32 (r.word offset.toNat)) =
      some (offset :: cellBytes (r offset.toNat))
    rw [UInt8.ofNat_toNat]
    rcases RoundTripLemmas.widthFromOffset_cases offset.toNat with hwidth | hwidth | hwidth
    · exact absurd hwidth valid
    · rw [if_pos hwidth, cellBytes_narrow hwidth, RegisterFile.word]
    · rw [if_neg (by omega), cellBytes_wide hwidth, RegisterFile.word]
  | REG_ReadBit offset bitIndex valid =>
    let r := regs m.sys.env
    have hread : Shows (fun s : Sys ε => regs s.env)
        (TREG_ReadBit.Go env ⟨some ⟨offset, bitIndex⟩, none⟩) r
        ⟨some ⟨offset, bitIndex⟩, some (bitByte (BitMemory.bit r offset.toNat bitIndex.toNat))⟩
        r := by
      refine shows_bind (shows_pure (⟨offset, bitIndex⟩ : REG_BitParams)) ?_
      refine shows_bind (shows_in hregs (Nat.ne_of_gt (Nat.zero_lt_of_lt valid)) r) ?_
      rw [bitOf_word r valid]
      exact shows_bind (shows_pure _) (shows_pure _)
    exact asks_carriesOut .TREG_ReadBit rfl hread (fun _ => rfl) rfl
  | DIO_Configure value => exact port_carriesOut hregs (by decide) rfl (fun _ => rfl) rfl
  | DIO_Output value => exact port_carriesOut hregs (by decide) rfl (fun _ => rfl) rfl
  | DIO_Input =>
    let r := regs m.sys.env
    have hread : Shows (fun s : Sys ε => regs s.env) (TDIO_Input.Go env) r
        (some (r.word ofsDioInputs).toUInt16) r :=
      shows_bind (shows_in hregs (by decide) r) (shows_pure _)
    exact asks_carriesOut .TDIO_Input rfl hread (fun _ => rfl) rfl
  | DIO_InputBit bitNumber valid =>
    let r := regs m.sys.env
    have hread : Shows (fun s : Sys ε => regs s.env) (TDIO_InputBit.Go env ⟨some bitNumber, none⟩)
        r ⟨some bitNumber, some (bitByte (BitMemory.bit r ofsDioInputs bitNumber.toNat))⟩ r := by
      refine shows_bind (shows_in hregs (by decide) r) ?_
      refine shows_bind (shows_pure bitNumber) ?_
      rw [bitOf_word r valid]
      exact shows_bind (shows_pure _) (shows_pure _)
    exact asks_carriesOut .TDIO_InputBit rfl hread (fun _ => rfl) rfl

/-! ## 4. Messages -/

/-- A request of commands. -/
structure RegisterRequest where
  Id : TMessageId
  request : isRequest Id = true
  commands : List RegisterCommand
  fits : (itemFormat.encodeAll (commands.map RegisterCommand.wire)).length < 2 ^ 32

namespace RegisterRequest

def bytes (x : RegisterRequest) : TBytes := messageOf x.Id (x.commands.map RegisterCommand.wire)

/-- What is made of its bytes. -/
def message (x : RegisterRequest) : TMessage where
  Id := x.Id
  DataItems := x.commands.map RegisterCommand.item

end RegisterRequest

/-- The items of a reply from position `i` on. -/
def answerItems (i : Nat) (commands : List RegisterCommand) (answers : List RegisterAnswer) :
    List TBytes :=
  ((commands.zip answers).zipIdx i).map fun p => p.1.2.itemBytes p.2 p.1.1.DId

/-- The reply: a response, or an error when a command has timed out. -/
def answerBytes (commands : List RegisterCommand) (answers : List RegisterAnswer) : TBytes :=
  frameBytes (replyMId (answers.any RegisterAnswer.isTimedOut)) (answerItems 0 commands answers)

/-- Registers as an object that requests work on. -/
def requestObject : SharedObject RegisterFile RegisterRequest TBytes where
  apply x r := (answerBytes x.commands (registerObject.answers x.commands r),
    registerObject.final x.commands r)

namespace RegisterCommandLemmas

variable {pf : Platform} {env : Env ε} {regs : ε → RegisterFile}

theorem built_commands (cs : List RegisterCommand) (g : Globals) :
    Built pf g (cs.map RegisterCommand.wire) (cs.map RegisterCommand.item) g := by
  induction cs with
  | nil => exact .nil
  | cons c cs ih => exact .cons (builds c g) ih

/-- A request is read as its commands, and leaves the globals alone. -/
theorem FromBytes_request (x : RegisterRequest) (g : Globals) :
    (FromBytes pf x.bytes).exec g = some (.ok (x.message, ERR_SUCCESS), g) := by
  have hid : x.Id ∈ ValidMessageIDs := by
    have hrequest := x.request
    simp only [isRequest, Bool.or_eq_true, beq_iff_eq] at hrequest
    simp only [ValidMessageIDs, List.mem_cons]
    rcases hrequest with (h | h) | h <;> simp [h]
  exact (BatchingLemmas.FromBytes_messageOf x.fits).mpr
    ⟨isValidMessageID_of_mem hid, _, built_commands x.commands g, rfl⟩

theorem GotMessage_request (x : RegisterRequest) (g : Globals) :
    (GotMessage pf x.bytes).exec g = some (.ok x.message, g) := by
  rw [GotMessage_exec, FromBytes_request]
  rfl

/-- Items that carry out commands one after the other. -/
structure CarryOut (pf : Platform) (env : Env ε) (regs : ε → RegisterFile)
    (cs : List RegisterCommand) (m : Machine ε) (qs : List GoResult) (m' : Machine ε) : Prop where
  run : goItems pf env (cs.map RegisterCommand.item) m = some (qs, m')
  rest : m' = { m with sys := m'.sys }
  memory : regs m'.sys.env = registerObject.final cs (regs m.sys.env)
  failed : anyFailed qs =
    (registerObject.answers cs (regs m.sys.env)).any RegisterAnswer.isTimedOut
  reply : ∀ i config, (replyItems i qs).mapM (TDataItem.AsBytes config true) =
    some (answerItems i cs (registerObject.answers cs (regs m.sys.env)))

theorem commands_run (hregs : RegisterCells env regs) (cs : List RegisterCommand)
    (m : Machine ε) : ∃ qs m', CarryOut pf env regs cs m qs m' := by
  induction cs generalizing m with
  | nil => exact ⟨[], m, rfl, rfl, rfl, rfl, fun _ _ => rfl⟩
  | cons c cs ih =>
    obtain ⟨q, m₁, hfirst⟩ := command_run pf hregs c m
    obtain ⟨qs, m', hrest⟩ := ih m₁
    have hmemory : regs m₁.sys.env = (registerObject.apply c (regs m.sys.env)).2 := hfirst.memory
    have hanswers : registerObject.answers (c :: cs) (regs m.sys.env) =
        (c.carryOut (regs m.sys.env)).1 :: registerObject.answers cs (regs m₁.sys.env) := by
      rw [hmemory]
      rfl
    refine ⟨q :: qs, m', ?_, ?_, ?_, ?_, fun i config => ?_⟩
    · rw [List.map_cons, goItems, hfirst.run, Option.bind_some, hrest.run]
      rfl
    · rw [hrest.rest, hfirst.rest]
    · rw [hrest.memory, hmemory]
      rfl
    · rw [hanswers, List.any_cons, ← hfirst.failed, ← hrest.failed]
      rfl
    · rw [BatchingLemmas.replyItems_cons, List.mapM_cons, hfirst.reply, hrest.reply, hanswers]
      rfl

end RegisterCommandLemmas

/-- A request does to the registers what its commands do to the memory, and the reply says what
they have given. -/
theorem request_run (pf : Platform) {env : Env ε} {regs : ε → RegisterFile}
    (hregs : RegisterCells env regs) (x : RegisterRequest) (m : Machine ε) :
    ∃ m', respond pf env x.message m = some ((requestObject.apply x (regs m.sys.env)).1, m') ∧
      m' = { m with sys := m'.sys } ∧
      regs m'.sys.env = (requestObject.apply x (regs m.sys.env)).2 := by
  obtain ⟨qs, m', hcarry⟩ : ∃ qs m', CarryOut pf env regs x.commands m qs m' :=
    commands_run hregs x.commands m
  refine ⟨m', ?_, hcarry.rest, hcarry.memory⟩
  have hreply : (replyTo qs).AsBytes m'.Config true =
      some (requestObject.apply x (regs m.sys.env)).1 := by
    show ((replyItems 0 qs).mapM (TDataItem.AsBytes m'.Config true)).map
      (frameBytes (replyMId (anyFailed qs))) = _
    rw [hcarry.reply, hcarry.failed]
    rfl
  have hrequest : isRequest x.message.Id = true := x.request
  rw [respond, if_pos hrequest]
  show ((goItems pf env (x.commands.map RegisterCommand.item) m).bind _) = _
  rw [hcarry.run, Option.bind_some, hreply]
  rfl

/-- A message of commands that comes in as bytes: the reply and the registers are those of a
program on the memory, and nothing else of the daemon has changed. -/
theorem register_programs (pf : Platform) {env : Env ε} {regs : ε → RegisterFile}
    (hregs : RegisterCells env regs) (x : RegisterRequest) (w : World ε) :
    ∃ sys : Sys ε,
      (serve pf env x.bytes).exec w =
        some (.ok (answerItems 0 x.commands
            (registerObject.answers x.commands (regs w.machine.sys.env))),
          { w with machine := { w.machine with sys } }) ∧
      regs sys.env = registerObject.final x.commands (regs w.machine.sys.env) := by
  obtain ⟨qs, m', hcarry⟩ : ∃ qs m', CarryOut pf env regs x.commands w.machine qs m' :=
    commands_run hregs x.commands w.machine
  refine ⟨m'.sys, ?_, hcarry.memory⟩
  rw [BatchingLemmas.serve_exec (FromBytes_request x w.globals) rfl]
  show ((goItems pf env (x.commands.map RegisterCommand.item) w.machine).bind _) = _
  rw [hcarry.run, Option.bind_some, hcarry.reply, ← hcarry.rest]
  rfl

/-- Set a register, change a bit of it, and read it; then put out 5 and read that. -/
def exRegisterRequest : RegisterRequest where
  Id := 81
  request := rfl
  commands := [.REG_Write1 1 (0x0F : BitVec 8) (by decide),
    .bit (.REG_ToggleBit 1 7) (by unfold BitCommand.Valid; decide), .REG_Read1 1 (by decide),
    .DIO_Output 5, .bit (.DIO_SetBit 1) (by unfold BitCommand.Valid; decide),
    .REG_Read1 0x40 (by decide)]
  fits := by decide

def exRegisterWorld : World RegisterFile where
  machine := { Config := InitConfig, sys := { env := fun _ => 0, calls := [] } }
  AdcStreamingConnection := -1
  ActionQueue := []
  sent := []

theorem register_programs_example :
    registerObject.answers exRegisterRequest.commands (fun _ => 0) =
      [.payload [1, 0x0F], .payload [1, 7], .payload [1, 0x8F], .payload [5, 0], .payload [1],
        .payload [0x40, 7, 0, 0, 0]] ∧
    ∃ sys : Sys RegisterFile,
      (serve exPlatform exRegisterEnv exRegisterRequest.bytes).exec exRegisterWorld =
        some (.ok (answerItems 0 exRegisterRequest.commands
            (registerObject.answers exRegisterRequest.commands fun _ => 0)),
          { exRegisterWorld with machine := { exRegisterWorld.machine with sys } }) ∧
      sys.env = registerObject.final exRegisterRequest.commands fun _ => 0 :=
  ⟨by decide +kernel,
    register_programs exPlatform exRegister_cells exRegisterRequest exRegisterWorld⟩

end EnetTcp
