import EnetTcp.Types
import Mathlib.Data.List.Sort

/-!
# The dictionary of data items (TDataItem.cpp, DIdDict)

One entry for each known data item id: the bounds on the length of a non-empty
payload, the class that represents the item, its description, and for some raw
items the lambda that `Go` runs.
-/

namespace EnetTcp

/-- The classes of data items. An entry of the dictionary names the class whose
constructor it calls. -/
inductive ItemClass
  | TDataItemRaw | TDataItemDoc | TBRD_DeviceID | TBRD_Features | TBRD_FpgaId | TBRD_Model
  | TBRD_GetModel | TBRD_SerialNumber | TBRD_GetSerialNumber | TBRD_GetNumberOfAdcChannels
  | TBRD_NumberOfSubmuxes | TBRD_SubmuxScale | TBRD_SubmuxOffset | TBRD_GetNumberOfSubmuxes
  | TBRD_GetSubmuxScale | TBRD_GetSubmuxOffset | TREG_Read1 | TDataItemNYI | TREG_Write1
  | TREG_ReadBit | TREG_WriteBit | TREG_ClearBit | TREG_SetBit | TREG_ToggleBit | TDAC_Output
  | TDAC_OutputV | TDAC_Range1 | TDIO_Configure | TDIO_Input | TDIO_Output | TDIO_ConfigureBit
  | TDIO_InputBit | TDIO_OutputBit | TDIO_ClearBit | TDIO_SetBit | TDIO_ToggleBit
  | TADC_BaseClock | TADC_Differential1 | TADC_DifferentialAll | TADC_Range1 | TADC_RangeAll
  | TADC_Scale1 | TADC_ScaleAll | TADC_Offset1 | TADC_OffsetAll | TADC_Calibration1
  | TADC_CalibrationAll | TADC_RawAll | TADC_CountsAll | TADC_VoltsAll | TADC_StreamStart
  | TADC_StreamStop | TCFG_Hostname | TSYS_UploadFileName | TSYS_UploadFileData | TSYS_Error
  | TSYS_ItemError | TDataItemDocGet
  deriving Repr, DecidableEq

/-- The lambdas that the dictionary attaches to raw items. -/
inductive GoLambda
  | BRD_REBOOT | REG_ClearBits | REG_ToggleBits | REG_SetBits | DAC_Calibrate1 | DAC_Offset1
  | DAC_OffsetAll | DAC_Scale1 | DAC_ScaleAll
  deriving Repr, DecidableEq

structure TDIdDictEntry where
  DId : DataItemIds
  minLen : Nat
  maxLen : Nat
  Construct : ItemClass
  desc : String
  go : Option GoLambda := none

/-- An item that is not yet implemented takes no data. -/
def DIdNYI (id : DataItemIds) (name : String) : TDIdDictEntry :=
  { DId := id, minLen := 0, maxLen := 0, Construct := .TDataItemNYI, desc := name ++ " (NYI)" }

open DataItemIds in
/-- The entries in the order of the source. -/
def DIdDict : List TDIdDictEntry :=
  [
    ⟨INVALID, 0, 0, .TDataItemRaw, "Invalid DId -1", none⟩,
    ⟨BRD_, 0, 0, .TDataItemDoc, "Documentation: list of BRD_ DataItems", none⟩,
    ⟨BRD_Reset, 0, 0, .TDataItemRaw, "BRD_Reset()", none⟩,
    ⟨BRD_DeviceID, 0, 0, .TBRD_DeviceID, "BRD_DeviceID() → u32", none⟩,
    ⟨BRD_Features, 0, 4, .TBRD_Features, "BRD_Features() → u8", none⟩,
    ⟨BRD_FpgaID, 0, 4, .TBRD_FpgaId, "BRD_FpgaID() → u32", none⟩,
    ⟨BRD_Model, 12, 40, .TBRD_Model, "BRD_Model(ASCII)", none⟩,
    ⟨BRD_GetModel, 0, 0, .TBRD_GetModel, "BRD_GetModel() → ASCII", none⟩,
    ⟨BRD_SerialNumber, 12, 14, .TBRD_SerialNumber, "BRD_SetSerialNumber(ASCII SN)", none⟩,
    ⟨BRD_GetSerialNumber, 0, 0, .TBRD_GetSerialNumber, "BRD_GetSerialNumber() → ASCII", none⟩,
    ⟨BRD_GetNumberOfAdcChannels, 0, 0, .TBRD_GetNumberOfAdcChannels,
      "BRD_GetNumberOfAdcChannels() → u8", none⟩,
    ⟨BRD_NumberOfSubmuxes, 1, 1, .TBRD_NumberOfSubmuxes, "BRD_NumberOfSubmuxes(u8 count)", none⟩,
    ⟨BRD_SubmuxScale, 6, 6, .TBRD_SubmuxScale,
      "BRD_SubmuxScale(u8 submuxIndex, u8 gainGroupIndex, f32 Scale)", none⟩,
    ⟨BRD_SubmuxOffset, 6, 6, .TBRD_SubmuxOffset,
      "BRD_SubmuxOffset(u8 submuxIndex, u8 gainGroupIndex, f32 Offset)", none⟩,
    ⟨BRD_GetNumberOfSubmuxes, 0, 0, .TBRD_GetNumberOfSubmuxes,
      "BRD_GetNumberOfSubmuxes() → [u8]", none⟩,
    ⟨BRD_GetSubmuxScale, 2, 2, .TBRD_GetSubmuxScale,
      "BRD_GetSubmuxScale(u8 submuxIndex, u8 gainGroupIndex) → [float]", none⟩,
    ⟨BRD_GetSubmuxOffset, 2, 2, .TBRD_GetSubmuxOffset,
      "BRD_GetSubmuxOffset(u8 submuxIndex, u8 gainGroupIndex) → [float]", none⟩,
    ⟨BRD_REBOOT, 8, 8, .TDataItemRaw, "BRD_REBOOT(double)", (some .BRD_REBOOT)⟩,
    ⟨REG_, 0, 0, .TDataItemDoc, "Documentation: list of REG_ DataItems", none⟩,
    ⟨REG_Read1, 1, 1, .TREG_Read1, "REG_Read1(u8 offset) → [u8|u32]", none⟩,
    DIdNYI REG_ReadBuf "REG_ReadBuf",
    ⟨REG_Write1, 2, 5, .TREG_Write1, "REG_Write1(u8 ofs, [u8|u32] data)", none⟩,
    DIdNYI REG_WriteBuf "REG_WriteBuf",
    ⟨REG_ClearBits, 2, 5, .TDataItemRaw,
      "REG_ClearBits(u8 ofs, u8|u32 bitsToClear)", (some .REG_ClearBits)⟩,
    ⟨REG_ToggleBits, 2, 5, .TDataItemRaw,
      "REG_ToggleBits(u8 ofs, u8|u32 bitsToToggle)", (some .REG_ToggleBits)⟩,
    ⟨REG_SetBits, 2, 5, .TDataItemRaw,
      "REG_SetBits(u8 ofs, u8|u32 bitsToSet)", (some .REG_SetBits)⟩,
    ⟨REG_ReadBit, 2, 2, .TREG_ReadBit, "TREG_ReadBit(u8 offset, u8 bitIndex) → [u8]", none⟩,
    ⟨REG_WriteBit, 3, 3, .TREG_WriteBit,
      "TREG_WriteBit(u8 offset, u8 bitIndex, u8 one_or_zero)", none⟩,
    ⟨REG_ClearBit, 2, 2, .TREG_ClearBit, "TREG_ClearBit(u8 offset, u8 bitIndex)", none⟩,
    ⟨REG_SetBit, 2, 2, .TREG_SetBit, "TREG_SetBit(u8 offset, u8 bitIndex)", none⟩,
    ⟨REG_ToggleBit, 2, 2, .TREG_ToggleBit, "TREG_ToggleBit(u8 offset, u8 bitIndex)", none⟩,
    ⟨DAC_, 0, 0, .TDataItemDoc, "Documentation: list of DAC_ DataItems", none⟩,
    ⟨DAC_Output1, 3, 5, .TDAC_Output, "DAC_Output1(u8 iDAC, u16 counts)", none⟩,
    ⟨DAC_Output1V, 3, 5, .TDAC_OutputV, "DAC_Output1(u8 iDAC, single Volts)", none⟩,
    ⟨DAC_Range1, 5, 5, .TDAC_Range1, "DAC_Range1(u8 iDAC, u32 RangeCode)", none⟩,
    DIdNYI DAC_Configure1 "DAC_Configure1",
    DIdNYI DAC_ConfigAndOutput1 "DAC_ConfigAndOutput1",
    ⟨DAC_Calibrate1, 9, 9, .TDataItemRaw,
      "DAC_Calibrate1(u8 iDAC, single Offset, single Scale)", (some .DAC_Calibrate1)⟩,
    ⟨DAC_Offset1, 5, 5, .TDataItemRaw, "DAC_Offset1(u8 iDac, single Offset)", (some .DAC_Offset1)⟩,
    ⟨DAC_OffsetAll, 8, 16, .TDataItemRaw,
      "DAC_OffsetAll(single offset0, offset1[, offset2, offset3])", (some .DAC_OffsetAll)⟩,
    ⟨DAC_Scale1, 5, 5, .TDataItemRaw, "DAC_Scale1(u8 iDac, single Scale)", (some .DAC_Scale1)⟩,
    ⟨DAC_ScaleAll, 8, 16, .TDataItemRaw,
      "DAC_ScaleAll(single scale0, scale1[, scale2, scale3])", (some .DAC_ScaleAll)⟩,
    ⟨DIO_, 0, 0, .TDataItemDoc, "Documentation: list of DIO_ DataItems", none⟩,
    ⟨DIO_Configure, 2, 2, .TDIO_Configure,
      "TDIO_Configure(u16 value) - each bit: 1=input, 0=output", none⟩,
    ⟨DIO_Input, 0, 0, .TDIO_Input, "TDIO_Input() → returns u16 value", none⟩,
    ⟨DIO_Output, 2, 2, .TDIO_Output, "TDIO_Output(u16 value) - sets digital outputs", none⟩,
    ⟨DIO_ConfigureBit, 2, 2, .TDIO_ConfigureBit,
      "DIO_ConfigureBit(u8 bitNumber, u8 direction)", none⟩,
    ⟨DIO_InputBit, 1, 1, .TDIO_InputBit, "DIO_InputBit(u8 bitNumber) → [u8]", none⟩,
    ⟨DIO_OutputBit, 2, 2, .TDIO_OutputBit, "DIO_OutputBit(u8 bitNumber, u8 value)", none⟩,
    ⟨DIO_ClearBit, 1, 1, .TDIO_ClearBit, "DIO_ClearBit(u8 bitNumber)", none⟩,
    ⟨DIO_SetBit, 1, 1, .TDIO_SetBit, "DIO_SetBit(u8 bitNumber)", none⟩,
    ⟨DIO_ToggleBit, 1, 1, .TDIO_ToggleBit, "DIO_ToggleBit(u8 bitNumber)", none⟩,
    DIdNYI DIO_PulseBit "DIO_PulseBit",
    DIdNYI DIO_ConfigureReadWriteReadSome "DIO_ConfigureReadWriteReadSome",
    ⟨ADC_, 0, 0, .TDataItemDoc, "Documentation: list of ADC_ DataItems", none⟩,
    DIdNYI ADC_Claim "ADC_Claim",
    DIdNYI ADC_Release "ADC_Release",
    ⟨ADC_BaseClock, 0, 4, .TADC_BaseClock, "ADC_BaseClock() → u32", none⟩,
    ⟨ADC_StartHz, 4, 4, .TDataItemRaw, "ADC_StartHz(f32)", none⟩,
    ⟨ADC_StartDivisor, 4, 4, .TDataItemRaw, "ADC_StartDivisor(u32)", none⟩,
    DIdNYI ADC_ConfigurationOfEverything "ADC_ConfigurationOfEverything",
    ⟨ADC_Differential1, 2, 2, .TADC_Differential1,
      "ADC_Differential1(u8 channelGroup, u8 singleEnded)", none⟩,
    ⟨ADC_DifferentialAll, 8, 8, .TADC_DifferentialAll,
      "ADC_DifferentialAll(8 bytes: one per channelGroup)", none⟩,
    ⟨ADC_Range1, 2, 2, .TADC_Range1, "ADC_Range1(u8 channelGroup, u8 range)", none⟩,
    ⟨ADC_RangeAll, 8, 8, .TADC_RangeAll,
      "ADC_RangeAll(8 bytes: range for each channelGroup)", none⟩,
    ⟨ADC_Scale1, 5, 5, .TADC_Scale1, "ADC_Scale1(u8 rangeIndex, float scale)", none⟩,
    ⟨ADC_ScaleAll, 32, 32, .TADC_ScaleAll, "ADC_ScaleAll(8 floats for scale calibration)", none⟩,
    ⟨ADC_Offset1, 5, 5, .TADC_Offset1, "ADC_Offset1(u8 rangeIndex, float offset)", none⟩,
    ⟨ADC_OffsetAll, 32, 32, .TADC_OffsetAll,
      "ADC_OffsetAll(8 floats for offset calibration)", none⟩,
    ⟨ADC_Calibration1, 9, 9, .TADC_Calibration1,
      "ADC_Calibration1(u8 rangeIndex, float scale, float offset)", none⟩,
    ⟨ADC_CalibrationAll, 64, 64, .TADC_CalibrationAll,
      "ADC_CalibrationAll(8 scales followed by 8 offsets)", none⟩,
    DIdNYI ADC_Raw1 "ADC_Raw1",
    DIdNYI ADC_Counts1 "ADC_Counts1",
    DIdNYI ADC_Volts1 "ADC_Volts1",
    ⟨ADC_RawAll, 0, 0, .TADC_RawAll, "ADC_RawAll() -> nChannels * u32", none⟩,
    ⟨ADC_CountsAll, 0, 0, .TADC_CountsAll, "ADC_CountsAll() -> nChannels * u16", none⟩,
    ⟨ADC_VoltsAll, 0, 0, .TADC_VoltsAll, "ADC_VoltsAll() → float[nChannels]", none⟩,
    ⟨ADC_StreamStart, 4, 4, .TADC_StreamStart, "ADC_StreamStart((u32)AdcConnectionId)", none⟩,
    ⟨ADC_StreamStop, 0, 0, .TADC_StreamStop, "ADC_StreamStop()", none⟩,
    DIdNYI SCRIPT_Pause "SCRIPT_Pause",
    ⟨WDG_, 0, 0, .TDataItemDoc, "Documentation: list of WDG_ DataItems", none⟩,
    ⟨DEF_, 0, 0, .TDataItemDoc, "Documentation: list of DEF_ DataItems", none⟩,
    ⟨SERVICE_, 0, 0, .TDataItemDoc, "Documentation: list of SERVICE_ DataItems", none⟩,
    ⟨PNP_, 0, 0, .TDataItemDoc, "Documentation: list of PNP_ DataItems", none⟩,
    ⟨CFG_, 0, 0, .TDataItemDoc, "Documentation: list of CFG_ DataItems", none⟩,
    ⟨CFG_Hostname, 1, 253, .TCFG_Hostname, "CFG_Hostname(\x7bvalid Hostname\x7d)", none⟩,
    ⟨SYS_UploadFileName, 1, 255, .TSYS_UploadFileName,
      "SYS_UploadFileName(\x7bvalid filepath\x7d)", none⟩,
    ⟨SYS_UploadFileData, 1, 65534, .TSYS_UploadFileData,
      "SYS_UploadFileData(\x7bvalid file data\x7d)", none⟩,
    ⟨SYS_Error, 0, 12, .TSYS_Error, "SYS_Error() → u32 Stage, u32 error code, u32 info", none⟩,
    ⟨SYS_ItemError, 0, 12, .TSYS_ItemError,
      "SYS_ItemError() → u16 itemIndex, u16 DId, u32 error code, u32 info", none⟩,
    ⟨PWM_, 0, 0, .TDataItemDoc, "Documentation: list of PWM_ DataItems", none⟩,
    DIdNYI PWM_Configure1 "PWM_Configure1",
    DIdNYI PWM_Input1 "PWM_Input1",
    DIdNYI PWM_Output1 "PWM_Output1",
    ⟨TCP_, 0, 0, .TDataItemDoc, "Documentation: list of TCP_ DataItems", none⟩,
    ⟨TCP_ConnectionID, 4, 4, .TDataItemRaw, "TCP_ConnectionID() → u32", none⟩,
    ⟨DOC_Get, 0, 0, .TDataItemDocGet, "Documentation: list of All top-level DataItem groups", none⟩
  ]

namespace DIdDict

def find (id : DataItemIds) : Option TDIdDictEntry := EnetTcp.DIdDict.find? fun e => e.DId == id

/-- The entries in the order in which a `std::map` is walked. -/
def sorted : List TDIdDictEntry := EnetTcp.DIdDict.insertionSort fun a b => a.DId ≤ b.DId

end DIdDict

/-! ## Facts about the table -/

/-- Every lambda belongs to a raw item, whose `Go` is the only one to look for it. -/
theorem lambda_raw {e : TDIdDictEntry} (he : e ∈ DIdDict) (hgo : e.go.isSome) :
    e.Construct = .TDataItemRaw := by
  revert e
  decide +kernel

/-- Each id has one entry only. -/
theorem dict_nodup : (DIdDict.map TDIdDictEntry.DId).Nodup := by
  decide +kernel

/-- An entry's length bounds are in order and fit the 16-bit length field. -/
theorem dict_bounds {e : TDIdDictEntry} (he : e ∈ DIdDict) :
    e.minLen ≤ e.maxLen ∧ e.maxLen < 65535 := by
  revert e
  decide +kernel

/-- Looking an id up gives an entry of the table with that id. -/
theorem find_some {id : DataItemIds} {e : TDIdDictEntry} (h : DIdDict.find id = some e) :
    e ∈ DIdDict ∧ e.DId = id := by
  refine ⟨List.mem_of_find?_eq_some h, ?_⟩
  have hid := List.find?_some h
  exact eq_of_beq hid

end EnetTcp
