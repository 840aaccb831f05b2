import EnetTcp.State

/-!
# REG_ data items (REG_.h, REG_.cpp) and the REG_ lambdas of DIdDict

A parameter field that a constructor leaves unset is `none`: C++ leaves a read
of it undefined.
-/

namespace EnetTcp

variable {ε : Type} (env : Env ε)

/-! ## 1. REG_Read1 -/

structure REG_Read1Params where
  offset : Nat := 0
  width : Nat := 0
  regVal : UInt32 := 0
  deriving DecidableEq

def TREG_Read1.ctor (FromBytes : TBytes) : REG_Read1Params :=
  match FromBytes with
  | [] => {}
  | ofs :: _ => { offset := ofs.toNat, width := widthFromOffset ofs.toNat }

def TREG_Read1.Go (p : REG_Read1Params) : Prog Exn (Sys ε) REG_Read1Params := do
  let regVal ← in_ env p.offset
  return { p with regVal }

/-- Of an 8-bit register, `getResultValue` gives one byte. Four are read there, and the first
is kept. -/
def TREG_Read1.calcPayload (bAsReply : Bool) (p : REG_Read1Params) : TBytes :=
  UInt8.ofNat p.offset ::
    if bAsReply then
      if p.width = 8 then [p.regVal.toUInt8] else stuff32 p.regVal
    else []

/-! ## 2. REG_Write1 -/

structure REG_Write where
  offset : UInt8
  width : Nat
  value : UInt32
  deriving DecidableEq

def TREG_Write1.site (line : Nat) : GuardSite := ⟨"./DataItems/REG_.cpp", "TREG_Write1", line⟩

/-- The constructor: one register and a value exactly as wide as the register. -/
def TREG_Write1.ctor {σ : Type} (buf : TBytes) : Prog Exn σ (List REG_Write) := do
  GUARD (decide (0 < buf.length)) ERR_MSG_PAYLOAD_DATAITEM_LEN_MISMATCH 0 (site 255)
  let ofs ← Prog.ofOption buf[0]?
  let w := widthFromOffset ofs.toNat
  GUARD (decide (w ≠ 0)) ERR_DId_BAD_OFFSET ofs.toUInt32 (site 258)
  GUARD (if w = 8 then decide (buf.length = 2) else decide (buf.length = 5)) ERR_DId_BAD_PARAM
    (UInt32.ofNat buf.length) (site 259)
  let value ← Prog.ofOption
    (if w = 8 then (buf[1]?).map UInt8.toUInt32 else readU32 buf 1)
  return [{ offset := ofs, width := w, value }]

/-- One write of `TREG_Writes::Go`. A busy wait that times out sets the result
code and the write is issued all the same. -/
def TREG_Writes.write (resultCode : TError) (action : REG_Write) : Prog Exn (Sys ε) TError := do
  let ofs := action.offset.toNat
  let rc ←
    if ofs = ofsDac then WaitUntilRegisterBitIsLow env ofsDacSpiBusy bmDacSpiBusy
    else if ofs = ofsDioDirections ∨ ofs = ofsDioOutputs ∨ ofs = ofsDioInputs then
      WaitUntilRegisterBitIsLow env ofsDioSpiBusy bmDioSpiBusy
    else pure resultCode
  let _ ← out env ofs action.value
  return rc

/-- All writes in order, and the result code of the last busy wait. -/
def TREG_Writes.Go (Writes : List REG_Write) : Prog Exn (Sys ε) TError :=
  Writes.foldlM (TREG_Writes.write env) 0

def TREG_Write1.calcPayload (Writes : List REG_Write) : TBytes :=
  match Writes with
  | [] => []
  | w0 :: _ => w0.offset :: (stuff32 w0.value).take (w0.width / 8)

/-! ## 3. Single bits -/

/-- The bit commands name a register and a bit of it. -/
structure REG_BitParams where
  offset : UInt8
  bitIndex : UInt8
  deriving DecidableEq

def REG_BitParams.ctor (data : TBytes) : Option REG_BitParams :=
  match data with
  | offset :: bitIndex :: _ => some { offset, bitIndex }
  | _ => none

def REG_BitParams.calcPayload (p : Option REG_BitParams) : Option TBytes := do
  let p ← p
  return [p.offset, p.bitIndex]

/-- Read a register, change it with the mask of one bit, and write it back. -/
def modifyBit (offset : Nat) (bit : UInt8) (f : (regValue mask : UInt32) → UInt32) :
    Prog Exn (Sys ε) Unit := do
  let regValue ← in_ env offset
  let mask ← Prog.ofOption (shl1 bit)
  let _ ← out env offset (f regValue mask)

def clearMask (regValue mask : UInt32) : UInt32 := regValue &&& ~~~mask
def setMask (regValue mask : UInt32) : UInt32 := regValue ||| mask
def toggleMask (regValue mask : UInt32) : UInt32 := regValue ^^^ mask

/-- Clear the bit, then set it when the value is not zero. -/
def assignMask (value : UInt8) (regValue mask : UInt32) : UInt32 :=
  if value ≠ 0 then (regValue &&& ~~~mask) ||| mask else regValue &&& ~~~mask

structure REG_ReadBitParams where
  target : Option REG_BitParams
  bitValue : Option UInt8
  deriving DecidableEq

/-- Three bytes or more fill the whole parameter block, the result included. -/
def TREG_ReadBit.ctor (data : TBytes) : REG_ReadBitParams :=
  { target := REG_BitParams.ctor data, bitValue := data[2]? }

def TREG_ReadBit.Go (p : REG_ReadBitParams) : Prog Exn (Sys ε) REG_ReadBitParams := do
  let t ← Prog.ofOption p.target
  let regValue ← in_ env t.offset.toNat
  let bitValue ← Prog.ofOption (bitOf regValue t.bitIndex)
  return { p with bitValue := some bitValue }

def TREG_ReadBit.calcPayload (bAsReply : Bool) (p : REG_ReadBitParams) : Option TBytes := do
  let head ← REG_BitParams.calcPayload p.target
  if bAsReply then
    let v ← p.bitValue
    return head ++ [v]
  else return head

structure REG_WriteBitParams extends REG_BitParams where
  value : UInt8
  deriving DecidableEq

def TREG_WriteBit.ctor (data : TBytes) : Option REG_WriteBitParams :=
  match data with
  | offset :: bitIndex :: value :: _ => some { offset, bitIndex, value }
  | _ => none

def TREG_WriteBit.Go (p : Option REG_WriteBitParams) : Prog Exn (Sys ε) Unit := do
  let p ← Prog.ofOption p
  modifyBit env p.offset.toNat p.bitIndex (assignMask p.value)

def TREG_WriteBit.calcPayload (p : Option REG_WriteBitParams) : Option TBytes := do
  let p ← p
  return [p.offset, p.bitIndex, p.value]

/-- `Go` of the three commands that change a bit in place. -/
def REG_BitParams.Go (f : UInt32 → UInt32 → UInt32) (p : Option REG_BitParams) :
    Prog Exn (Sys ε) Unit := do
  let p ← Prog.ofOption p
  modifyBit env p.offset.toNat p.bitIndex f

def TREG_ClearBit.Go := REG_BitParams.Go env clearMask
def TREG_SetBit.Go := REG_BitParams.Go env setMask
def TREG_ToggleBit.Go := REG_BitParams.Go env toggleMask

/-! ## 4. The lambdas of REG_ClearBits, REG_ToggleBits and REG_SetBits -/

/-- Read the register that `buf` names, combine it with the bits that follow,
and write it back. -/
def REG_Bits.go (f : (regValue bits : UInt32) → UInt32) (buf : TBytes) :
    Prog Exn (Sys ε) Unit := do
  let ofs ← Prog.ofOption buf[0]?
  let bits ← Prog.ofOption (regextract (buf.drop 1) ofs.toNat)
  let regValue ← in_ env ofs.toNat
  let _ ← out env ofs.toNat (f regValue bits)

def REG_ClearBits.go := REG_Bits.go env clearMask
def REG_ToggleBits.go := REG_Bits.go env toggleMask
def REG_SetBits.go := REG_Bits.go env setMask

end EnetTcp
