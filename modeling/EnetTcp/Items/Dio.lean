import EnetTcp.Items.Reg

/-!
# DIO_ data items (DIO_.h, DIO_.cpp)

Digital I/O: the whole 16-bit port, or one bit of it. The bit commands are the
bit commands of REG_ on a fixed register.
-/

namespace EnetTcp

variable {ε : Type} (env : Env ε)

/-! ## 1. The whole port -/

/-- `DIO_Configure` and `DIO_Output`: two bytes, or nothing set. -/
def DIO_PortParams.ctor (data : TBytes) : Option UInt16 := readU16 data 0

def DIO_PortParams.calcPayload (value : Option UInt16) : Option TBytes := value.map stuff16

/-- Write the port to a register. -/
def DIO_PortParams.Go (offset : Nat) (value : Option UInt16) : Prog Exn (Sys ε) Unit := do
  let value ← Prog.ofOption value
  let _ ← out env offset value.toUInt32

def TDIO_Configure.Go := DIO_PortParams.Go env ofsDioDirections
def TDIO_Output.Go := DIO_PortParams.Go env ofsDioOutputs

/-- Two bytes or more fill the parameter block before `Go` does. -/
def TDIO_Input.ctor (data : TBytes) : Option UInt16 := readU16 data 0

def TDIO_Input.Go : Prog Exn (Sys ε) (Option UInt16) := do
  let regValue ← in_ env ofsDioInputs
  return some regValue.toUInt16

def TDIO_Input.calcPayload (bAsReply : Bool) (value : Option UInt16) : Option TBytes :=
  if bAsReply then value.map stuff16 else some []

/-! ## 2. Single bits -/

/-- A bit and a value for it: the direction of `DIO_ConfigureBit`, the level of
`DIO_OutputBit`. -/
structure DIO_BitParams where
  bitNumber : UInt8
  value : UInt8
  deriving DecidableEq

def DIO_BitParams.ctor (data : TBytes) : Option DIO_BitParams :=
  match data with
  | bitNumber :: value :: _ => some { bitNumber, value }
  | _ => none

def DIO_BitParams.calcPayload (p : Option DIO_BitParams) : Option TBytes := do
  let p ← p
  return [p.bitNumber, p.value]

def DIO_BitParams.Go (offset : Nat) (p : Option DIO_BitParams) : Prog Exn (Sys ε) Unit := do
  let p ← Prog.ofOption p
  modifyBit env offset p.bitNumber (assignMask p.value)

def TDIO_ConfigureBit.Go := DIO_BitParams.Go env ofsDioDirections
def TDIO_OutputBit.Go := DIO_BitParams.Go env ofsDioOutputs

/-- `DIO_ClearBit`, `DIO_SetBit` and `DIO_ToggleBit`: just a bit number. -/
def DIO_BitNumber.ctor (data : TBytes) : Option UInt8 := data[0]?

def DIO_BitNumber.calcPayload (bitNumber : Option UInt8) : Option TBytes :=
  bitNumber.map fun b => [b]

def DIO_BitNumber.Go (f : UInt32 → UInt32 → UInt32) (bitNumber : Option UInt8) :
    Prog Exn (Sys ε) Unit := do
  let bitNumber ← Prog.ofOption bitNumber
  modifyBit env ofsDioOutputs bitNumber f

def TDIO_ClearBit.Go := DIO_BitNumber.Go env clearMask
def TDIO_SetBit.Go := DIO_BitNumber.Go env setMask
def TDIO_ToggleBit.Go := DIO_BitNumber.Go env toggleMask

structure DIO_InputBitParams where
  bitNumber : Option UInt8
  bitValue : Option UInt8
  deriving DecidableEq

def TDIO_InputBit.ctor (data : TBytes) : DIO_InputBitParams :=
  { bitNumber := data[0]?, bitValue := data[1]? }

def TDIO_InputBit.Go (p : DIO_InputBitParams) : Prog Exn (Sys ε) DIO_InputBitParams := do
  let regValue ← in_ env ofsDioInputs
  let bitNumber ← Prog.ofOption p.bitNumber
  let bitValue ← Prog.ofOption (bitOf regValue bitNumber)
  return { p with bitValue := some bitValue }

def TDIO_InputBit.calcPayload (bAsReply : Bool) (p : DIO_InputBitParams) : Option TBytes := do
  let bitNumber ← p.bitNumber
  if bAsReply then
    let v ← p.bitValue
    return [bitNumber, v]
  else return [bitNumber]

end EnetTcp
