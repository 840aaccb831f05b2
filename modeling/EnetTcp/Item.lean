import EnetTcp.Items.Dict
import EnetTcp.Items.Reg
import EnetTcp.Items.Dio
import EnetTcp.Items.Dac
import EnetTcp.Items.Adc
import EnetTcp.Items.AdcScan
import EnetTcp.Items.Brd
import EnetTcp.Items.Cfg
import EnetTcp.Items.Sys

/-!
# Data items (TDataItemBase.h, TDataItem.h, TDataItem.cpp)

A data item is an id that never changes and a body: the parameter block of its
class and the fields that all classes share. The three virtual functions are
`construct`, `Go` and `calcPayload`, one case for each class. `fromBytes` is the
factory and `AsBytes` the serializer.
-/

namespace EnetTcp

/-- The class of an item together with its parameter block. -/
inductive Params
  | TDataItemRaw | TDataItemNYI | TDataItemDoc | TDataItemDocGet
  | TBRD_DeviceID (p : ReadOnlyConfigParams UInt16)
  | TBRD_Features (p : ReadOnlyConfigParams UInt8)
  | TBRD_FpgaId (p : ReadOnlyConfigParams UInt32)
  | TBRD_Model | TBRD_GetModel | TBRD_SerialNumber | TBRD_GetSerialNumber
  | TBRD_GetNumberOfAdcChannels (numAdcChan : UInt8)
  | TBRD_NumberOfSubmuxes (value : UInt8)
  | TBRD_GetNumberOfSubmuxes (value : Option UInt8)
  | TBRD_SubmuxScale (p : SubmuxParams) | TBRD_SubmuxOffset (p : SubmuxParams)
  | TBRD_GetSubmuxScale (p : GetSubmuxParams) | TBRD_GetSubmuxOffset (p : GetSubmuxParams)
  | TREG_Read1 (p : REG_Read1Params)
  | TREG_Write1 (Writes : List REG_Write)
  | TREG_ReadBit (p : REG_ReadBitParams)
  | TREG_WriteBit (p : Option REG_WriteBitParams)
  | TREG_ClearBit (p : Option REG_BitParams)
  | TREG_SetBit (p : Option REG_BitParams)
  | TREG_ToggleBit (p : Option REG_BitParams)
  | TDAC_Output (p : DAC_OutputParams) | TDAC_OutputV (p : DAC_OutputParams)
  | TDAC_Range1 (p : DAC_RangeParams)
  | TDIO_Configure (value : Option UInt16)
  | TDIO_Input (value : Option UInt16)
  | TDIO_Output (value : Option UInt16)
  | TDIO_ConfigureBit (p : Option DIO_BitParams)
  | TDIO_InputBit (p : DIO_InputBitParams)
  | TDIO_OutputBit (p : Option DIO_BitParams)
  | TDIO_ClearBit (bitNumber : Option UInt8)
  | TDIO_SetBit (bitNumber : Option UInt8)
  | TDIO_ToggleBit (bitNumber : Option UInt8)
  | TADC_BaseClock (baseClock : UInt32)
  | TADC_Differential1 (p : Option ADC_GroupParams)
  | TADC_DifferentialAll (settings : Option TBytes)
  | TADC_Range1 (p : Option ADC_GroupParams) | TADC_RangeAll (ranges : Option TBytes)
  | TADC_Scale1 (p : Option ADC_CalParams) | TADC_ScaleAll (scales : Option (List FloatBits))
  | TADC_Offset1 (p : Option ADC_CalParams) | TADC_OffsetAll (offsets : Option (List FloatBits))
  | TADC_Calibration1 (p : Option ADC_Calibration1Params)
  | TADC_CalibrationAll (pairs : Option (List (FloatBits × FloatBits)))
  | TADC_RawAll | TADC_CountsAll | TADC_VoltsAll | TADC_StreamStart | TADC_StreamStop
  | TCFG_Hostname (hostname : TBytes)
  | TSYS_UploadFileName | TSYS_UploadFileData
  | TSYS_Error (p : SYS_ErrorParams) | TSYS_ItemError (p : SYS_ItemErrorParams)
  deriving DecidableEq

/-- Everything of an item but its id. -/
structure TItemBody where
  params : Params
  Data : TBytes := []
  rawBytes : TBytes := []
  resultCode : TError := ERR_SUCCESS
  bWrite : Bool := false
  deriving DecidableEq

structure TDataItem extends TItemBody where
  DId : DataItemIds
  deriving DecidableEq

/-! ## 1. Constructors -/

section Parse

variable (pf : Platform)

/-- The constructor of each class on the data of an item. -/
def construct (cls : ItemClass) (FromBytes : TBytes) : Prog Exn Globals TItemBody :=
  let item (params : Params) : Prog Exn Globals TItemBody :=
    return { params, rawBytes := FromBytes }
  match cls with
  | .TDataItemRaw =>
    return { params := .TDataItemRaw, Data := FromBytes, rawBytes := FromBytes }
  | .TDataItemNYI => item .TDataItemNYI
  | .TDataItemDoc => item .TDataItemDoc
  | .TDataItemDocGet => item .TDataItemDocGet
  | .TBRD_DeviceID => item (.TBRD_DeviceID (TBRD_DeviceID.ctor FromBytes))
  | .TBRD_Features => item (.TBRD_Features (TBRD_Features.ctor FromBytes))
  | .TBRD_FpgaId => item (.TBRD_FpgaId (TBRD_FpgaId.ctor FromBytes))
  | .TBRD_Model => item .TBRD_Model
  | .TBRD_GetModel => item .TBRD_GetModel
  | .TBRD_SerialNumber => item .TBRD_SerialNumber
  | .TBRD_GetSerialNumber => item .TBRD_GetSerialNumber
  | .TBRD_GetNumberOfAdcChannels => do
    item (.TBRD_GetNumberOfAdcChannels (← TBRD_GetNumberOfAdcChannels.ctor FromBytes))
  | .TBRD_NumberOfSubmuxes => item (.TBRD_NumberOfSubmuxes (FromBytes.headD 0))
  | .TBRD_GetNumberOfSubmuxes => item (.TBRD_GetNumberOfSubmuxes FromBytes[0]?)
  | .TBRD_SubmuxScale => item (.TBRD_SubmuxScale (SubmuxParams.ctor FromBytes))
  | .TBRD_SubmuxOffset => item (.TBRD_SubmuxOffset (SubmuxParams.ctor FromBytes))
  | .TBRD_GetSubmuxScale => item (.TBRD_GetSubmuxScale (GetSubmuxParams.ctor FromBytes))
  | .TBRD_GetSubmuxOffset => item (.TBRD_GetSubmuxOffset (GetSubmuxParams.ctor FromBytes))
  | .TREG_Read1 => item (.TREG_Read1 (TREG_Read1.ctor FromBytes))
  | .TREG_Write1 => do item (.TREG_Write1 (← TREG_Write1.ctor FromBytes))
  | .TREG_ReadBit => item (.TREG_ReadBit (TREG_ReadBit.ctor FromBytes))
  | .TREG_WriteBit => item (.TREG_WriteBit (TREG_WriteBit.ctor FromBytes))
  | .TREG_ClearBit => item (.TREG_ClearBit (REG_BitParams.ctor FromBytes))
  | .TREG_SetBit => item (.TREG_SetBit (REG_BitParams.ctor FromBytes))
  | .TREG_ToggleBit => item (.TREG_ToggleBit (REG_BitParams.ctor FromBytes))
  | .TDAC_Output => do
    let (p, bWrite) ← TDAC_Output.ctor pf FromBytes
    return { params := .TDAC_Output p, rawBytes := FromBytes, bWrite }
  | .TDAC_OutputV => do
    let (p, bWrite) ← TDAC_OutputV.ctor pf FromBytes
    return { params := .TDAC_OutputV p, rawBytes := FromBytes, bWrite }
  | .TDAC_Range1 => do
    let (p, bWrite) ← TDAC_Range1.ctor FromBytes
    return { params := .TDAC_Range1 p, rawBytes := FromBytes, bWrite }
  | .TDIO_Configure => item (.TDIO_Configure (DIO_PortParams.ctor FromBytes))
  | .TDIO_Input => item (.TDIO_Input (TDIO_Input.ctor FromBytes))
  | .TDIO_Output => item (.TDIO_Output (DIO_PortParams.ctor FromBytes))
  | .TDIO_ConfigureBit => item (.TDIO_ConfigureBit (DIO_BitParams.ctor FromBytes))
  | .TDIO_InputBit => item (.TDIO_InputBit (TDIO_InputBit.ctor FromBytes))
  | .TDIO_OutputBit => item (.TDIO_OutputBit (DIO_BitParams.ctor FromBytes))
  | .TDIO_ClearBit => item (.TDIO_ClearBit (DIO_BitNumber.ctor FromBytes))
  | .TDIO_SetBit => item (.TDIO_SetBit (DIO_BitNumber.ctor FromBytes))
  | .TDIO_ToggleBit => item (.TDIO_ToggleBit (DIO_BitNumber.ctor FromBytes))
  | .TADC_BaseClock => do item (.TADC_BaseClock (← TADC_BaseClock.ctor FromBytes))
  | .TADC_Differential1 => item (.TADC_Differential1 (ADC_GroupParams.ctor FromBytes))
  | .TADC_DifferentialAll => item (.TADC_DifferentialAll (bytesAt 8 FromBytes))
  | .TADC_Range1 => item (.TADC_Range1 (ADC_GroupParams.ctor FromBytes))
  | .TADC_RangeAll => item (.TADC_RangeAll (bytesAt 8 FromBytes))
  | .TADC_Scale1 => item (.TADC_Scale1 (ADC_CalParams.ctor FromBytes))
  | .TADC_ScaleAll => item (.TADC_ScaleAll (floatsAt 8 FromBytes))
  | .TADC_Offset1 => item (.TADC_Offset1 (ADC_CalParams.ctor FromBytes))
  | .TADC_OffsetAll => item (.TADC_OffsetAll (floatsAt 8 FromBytes))
  | .TADC_Calibration1 => item (.TADC_Calibration1 (TADC_Calibration1.ctor FromBytes))
  | .TADC_CalibrationAll => item (.TADC_CalibrationAll (TADC_CalibrationAll.ctor FromBytes))
  | .TADC_RawAll => item .TADC_RawAll
  | .TADC_CountsAll => item .TADC_CountsAll
  | .TADC_VoltsAll => item .TADC_VoltsAll
  | .TADC_StreamStart => do
    TADC_StreamStart.ctor FromBytes
    item .TADC_StreamStart
  | .TADC_StreamStop => return { params := .TADC_StreamStop }
  | .TCFG_Hostname => item (.TCFG_Hostname (TCFG_Hostname.ctor FromBytes))
  | .TSYS_UploadFileName => do
    let Data ← TSYS_UploadFileName.ctor pf FromBytes
    return { params := .TSYS_UploadFileName, Data }
  | .TSYS_UploadFileData => return { params := .TSYS_UploadFileData, Data := FromBytes }
  | .TSYS_Error => item (.TSYS_Error (TSYS_Error.ctor FromBytes))
  | .TSYS_ItemError => item (.TSYS_ItemError (TSYS_ItemError.ctor FromBytes))

/-! ## 2. The factory -/

def isValidDataItemID (id : DataItemIds) : Bool := (DIdDict.find id).isSome

/-- Is a non-empty payload as long as the entry of the id wants it? -/
def validateDataItemPayload (e : TDIdDictEntry) (bytes : TBytes) : TError :=
  let len := bytes.length % 65536
  if e.minLen ≤ len ∧ len ≤ e.maxLen then ERR_SUCCESS
  else ERR_MSG_PAYLOAD_DATAITEM_LEN_MISMATCH

def fromBytesSite (line : Nat) : GuardSite := ⟨"./DataItems/TDataItem.cpp", "fromBytes", line⟩

/-- Build the item at the start of `bytes`. The result code says whether the
item can be used. The bytes behind the item are not looked at; a header that
announces more data than there is makes the copy read outside the vector. -/
def fromBytes (bytes : TBytes) : Prog Exn Globals (TDataItem × TError) := do
  GUARD (decide (sizeofTDataItemHeader ≤ bytes.length)) ERR_MSG_DATAITEM_TOO_SHORT
    (UInt32.ofNat bytes.length) (fromBytesSite 542)
  let id ← Prog.ofOption (readU16 bytes 0)
  GUARD (isValidDataItemID id) ERR_DId_INVALID id.toUInt32 (fromBytesSite 545)
  let e ← Prog.ofOption (DIdDict.find id)
  let DataSize := (← Prog.ofOption (readU16 bytes 2)).toNat
  if bytes.length < sizeofTDataItemHeader + DataSize then Prog.undefined
  let data := (bytes.drop sizeofTDataItemHeader).take DataSize
  let result := if DataSize = 0 then ERR_SUCCESS else validateDataItemPayload e data
  if result ≠ ERR_SUCCESS then
    return ({ params := .TDataItemNYI, DId := DataItemIds.INVALID }, result)
  let body ← construct pf e.Construct data
  return ({ body with DId := e.DId }, ERR_SUCCESS)

end Parse

/-! ## 3. Serialization -/

/-- The payload of an item, for the reply or for a request. -/
def calcPayload (c : TConfig) (bAsReply : Bool) (this : TItemBody) :
    Option TBytes :=
  match this.params with
  | .TDataItemRaw | .TDataItemNYI => some this.rawBytes
  | .TDataItemDoc | .TDataItemDocGet => some this.Data
  | .TBRD_DeviceID p => TBRD_DeviceID.calcPayload p
  | .TBRD_Features p => TBRD_Features.calcPayload p
  | .TBRD_FpgaId p => TBRD_FpgaId.calcPayload p
  | .TBRD_Model | .TBRD_GetModel => some c.Model
  | .TBRD_SerialNumber | .TBRD_GetSerialNumber => some c.SerialNumber
  | .TBRD_GetNumberOfAdcChannels n => some [n]
  | .TBRD_NumberOfSubmuxes value => some [value]
  | .TBRD_GetNumberOfSubmuxes value => value.map fun v => [v]
  | .TBRD_SubmuxScale p | .TBRD_SubmuxOffset p => some (SubmuxParams.calcPayload p)
  | .TBRD_GetSubmuxScale p | .TBRD_GetSubmuxOffset p => GetSubmuxParams.calcPayload bAsReply p
  | .TREG_Read1 p => some (TREG_Read1.calcPayload bAsReply p)
  | .TREG_Write1 Writes => some (TREG_Write1.calcPayload Writes)
  | .TREG_ReadBit p => TREG_ReadBit.calcPayload bAsReply p
  | .TREG_WriteBit p => TREG_WriteBit.calcPayload p
  | .TREG_ClearBit p | .TREG_SetBit p | .TREG_ToggleBit p => REG_BitParams.calcPayload p
  | .TDAC_Output p => some (TDAC_Output.calcPayload p)
  | .TDAC_OutputV p => some (TDAC_OutputV.calcPayload p)
  | .TDAC_Range1 p => some (TDAC_Range1.calcPayload p)
  | .TDIO_Configure value | .TDIO_Output value => DIO_PortParams.calcPayload value
  | .TDIO_Input value => TDIO_Input.calcPayload bAsReply value
  | .TDIO_ConfigureBit p | .TDIO_OutputBit p => DIO_BitParams.calcPayload p
  | .TDIO_InputBit p => TDIO_InputBit.calcPayload bAsReply p
  | .TDIO_ClearBit b | .TDIO_SetBit b | .TDIO_ToggleBit b => DIO_BitNumber.calcPayload b
  | .TADC_BaseClock baseClock => some (stuff32 baseClock)
  | .TADC_Differential1 p | .TADC_Range1 p => ADC_GroupParams.calcPayload p
  | .TADC_DifferentialAll settings => settings
  | .TADC_RangeAll ranges => ranges
  | .TADC_Scale1 p | .TADC_Offset1 p => ADC_CalParams.calcPayload p
  | .TADC_ScaleAll vs | .TADC_OffsetAll vs => vs.map floatBytes
  | .TADC_Calibration1 p => TADC_Calibration1.calcPayload p
  | .TADC_CalibrationAll pairs => pairs.map TADC_CalibrationAll.calcPayload
  | .TADC_RawAll | .TADC_CountsAll | .TADC_VoltsAll | .TADC_StreamStart => some this.rawBytes
  | .TADC_StreamStop => some []
  | .TCFG_Hostname hostname => some (TCFG_Hostname.calcPayload hostname)
  | .TSYS_UploadFileName | .TSYS_UploadFileData => some this.Data
  | .TSYS_Error p => some (TSYS_Error.calcPayload p)
  | .TSYS_ItemError p => some (TSYS_ItemError.calcPayload p)

/-- The header and the payload. The payload's length is cut to 16 bits. The
source also keeps the payload in `Data`; nothing reads it there again. -/
def itemBytes (DId : DataItemIds) (payload : TBytes) : TBytes :=
  stuff16 DId ++ stuff16 (UInt16.ofNat payload.length) ++ payload

/-- `TDataItemBase::AsBytes` -/
def TDataItem.AsBytes (c : TConfig) (bAsReply : Bool) (this : TDataItem) :
    Option TBytes :=
  (calcPayload c bAsReply this.toTItemBody).map (itemBytes this.DId)

end EnetTcp
