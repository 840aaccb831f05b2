/-!
# Bytes, error codes and data item ids

The integer types of the daemon are the fixed-width types of Lean: `__u8` is
`UInt8`, `__u16` is `UInt16`, `__u32` is `UInt32`. A `float` is carried as its
32 bits. A `std::vector<__u8>` is a list of bytes, and so is a `std::string`.
-/

namespace EnetTcp

abbrev TBytes := List UInt8

/-- The bytes of a string literal of the source (the files are UTF-8). -/
def text (s : String) : TBytes := s.toByteArray.data.toList

/-- The bit pattern of a `float`. -/
abbrev FloatBits := UInt32

/-! ## 1. Error codes (TError.h, TError.cpp) -/

/-- An error code is a `__u32`, but the codes are written as negative numbers. -/
abbrev TError := UInt32

abbrev ERR_SUCCESS : TError := 0
abbrev ERR_MSG_TOO_SHORT : TError := -1
abbrev ERR_MSG_CHECKSUM : TError := -2
abbrev ERR_MSG_PARSE : TError := -3
abbrev ERR_MSG_ID_UNKNOWN : TError := -5
abbrev ERR_MSG_LEN_MISMATCH : TError := -6
abbrev ERR_MSG_PAYLOAD_DATAITEM_LEN_MISMATCH : TError := -7
abbrev ERR_MSG_DATAITEM_TOO_SHORT : TError := -9
abbrev ERR_DId_BAD_PARAM : TError := -10
abbrev ERR_DId_BAD_OFFSET : TError := -11
abbrev ERR_DId_INVALID : TError := -12
abbrev ERR_NYI : TError := -13

/-- The position of an error code in `err_msg`. -/
def ErrIndex (rc : TError) : UInt32 := -rc

def err_msg : List String :=
  [ "VALID", "Message too short", "Checksum error", "Parse error", "Invalid Start symbol found",
    "Unknown Message ID", "Length mismatch", "DataItem length mismatch", "DataItem ID unknown",
    "DataItem too short", "DataItem Payload error", "DId Offset Arg error", "DId Invalid",
    "Not Yet Implemented", "ADC Busy", "ADC FATAL" ]

/-! ## 2. Message ids and size limits (TMessage.h, TMessage.cpp) -/

abbrev TMessageId := UInt8

/-- `Q`, `C` and `M` go to the server. `R`, `X`, `E` and `H` come from it. -/
def ValidMessageIDs : List TMessageId := [81, 67, 77, 82, 88, 69, 72]

/-- `sizeof(ValidMessageIDs)`: the size of the vector object, not of its contents. -/
def sizeofValidMessageIDs : Nat := 24

/-- The message ids of requests, the only messages that are run. -/
def isRequest (mid : TMessageId) : Bool := mid == 81 || mid == 67 || mid == 77

abbrev sizeofTDataItemHeader : Nat := 4
abbrev sizeofTMessageHeader : Nat := 5
abbrev minimumMessageLength : Nat := 6
abbrev maxDataLength : Nat := 65535
abbrev maxPayloadLength : Nat := (sizeofTDataItemHeader + maxDataLength) * 16

/-! ## 3. Data item ids (eNET-types.h) -/

/-- `enum class DataItemIds : __u16`. Any 16-bit value can arrive in a header, named or not. -/
abbrev DataItemIds := UInt16

namespace DataItemIds

abbrev INVALID : DataItemIds := 0xFFFE
abbrev BRD_ : DataItemIds := 0x0000
abbrev BRD_Reset : DataItemIds := 0x0001
abbrev BRD_DeviceID : DataItemIds := 0x0002
abbrev BRD_Features : DataItemIds := 0x0003
abbrev BRD_FpgaID : DataItemIds := 0x0004
abbrev BRD_Model : DataItemIds := 0x0008
abbrev BRD_GetModel : DataItemIds := 0x0009
abbrev BRD_SerialNumber : DataItemIds := 0x0010
abbrev BRD_GetSerialNumber : DataItemIds := 0x0011
abbrev BRD_NumberOfSubmuxes : DataItemIds := 0x0021
abbrev BRD_SubmuxScale : DataItemIds := 0x0023
abbrev BRD_SubmuxOffset : DataItemIds := 0x0024
abbrev BRD_GetNumberOfAdcChannels : DataItemIds := 0x0030
abbrev BRD_GetNumberOfSubmuxes : DataItemIds := 0x0031
abbrev BRD_GetSubmuxScale : DataItemIds := 0x0033
abbrev BRD_GetSubmuxOffset : DataItemIds := 0x0034
abbrev BRD_REBOOT : DataItemIds := 0x00FF
abbrev REG_ : DataItemIds := 0x0100
abbrev REG_Read1 : DataItemIds := 0x0101
abbrev REG_ReadBuf : DataItemIds := 0x0104
abbrev REG_Write1 : DataItemIds := 0x0105
abbrev REG_WriteBuf : DataItemIds := 0x0107
abbrev REG_ClearBits : DataItemIds := 0x0108
abbrev REG_SetBits : DataItemIds := 0x0109
abbrev REG_ToggleBits : DataItemIds := 0x010A
abbrev REG_ReadBit : DataItemIds := 0x0121
abbrev REG_WriteBit : DataItemIds := 0x0122
abbrev REG_ClearBit : DataItemIds := 0x0123
abbrev REG_SetBit : DataItemIds := 0x0124
abbrev REG_ToggleBit : DataItemIds := 0x0125
abbrev DAC_ : DataItemIds := 0x0200
abbrev DAC_Output1 : DataItemIds := 0x0201
abbrev DAC_Output1V : DataItemIds := 0x0203
abbrev DAC_Range1 : DataItemIds := 0x0204
abbrev DAC_Calibrate1 : DataItemIds := 0x020C
abbrev DAC_Offset1 : DataItemIds := 0x020E
abbrev DAC_OffsetAll : DataItemIds := 0x020F
abbrev DAC_Scale1 : DataItemIds := 0x0210
abbrev DAC_ScaleAll : DataItemIds := 0x0211
abbrev DAC_Configure1 : DataItemIds := 0x02C0
abbrev DAC_ConfigAndOutput1 : DataItemIds := 0x02C1
abbrev DIO_ : DataItemIds := 0x0300
abbrev DIO_ConfigureBit : DataItemIds := 0x0301
abbrev DIO_Configure : DataItemIds := 0x0302
abbrev DIO_InputBit : DataItemIds := 0x0303
abbrev DIO_Input : DataItemIds := 0x0305
abbrev DIO_OutputBit : DataItemIds := 0x0308
abbrev DIO_Output : DataItemIds := 0x0309
abbrev DIO_ConfigureReadWriteReadSome : DataItemIds := 0x030B
abbrev DIO_ClearBit : DataItemIds := 0x030C
abbrev DIO_SetBit : DataItemIds := 0x030E
abbrev DIO_ToggleBit : DataItemIds := 0x0311
abbrev DIO_PulseBit : DataItemIds := 0x0313
abbrev PWM_ : DataItemIds := 0x0400
abbrev PWM_Configure1 : DataItemIds := 0x0401
abbrev PWM_Input1 : DataItemIds := 0x0403
abbrev PWM_Output1 : DataItemIds := 0x0405
abbrev ADC_ : DataItemIds := 0x1000
abbrev ADC_Claim : DataItemIds := 0x1001
abbrev ADC_Release : DataItemIds := 0x1002
abbrev ADC_BaseClock : DataItemIds := 0x1003
abbrev ADC_StartHz : DataItemIds := 0x1004
abbrev ADC_StartDivisor : DataItemIds := 0x1005
abbrev ADC_ConfigurationOfEverything : DataItemIds := 0x1006
abbrev ADC_Differential1 : DataItemIds := 0x1007
abbrev ADC_DifferentialAll : DataItemIds := 0x1008
abbrev ADC_Range1 : DataItemIds := 0x1009
abbrev ADC_RangeAll : DataItemIds := 0x100A
abbrev ADC_Calibration1 : DataItemIds := 0x100C
abbrev ADC_CalibrationAll : DataItemIds := 0x100D
abbrev ADC_Scale1 : DataItemIds := 0x100E
abbrev ADC_ScaleAll : DataItemIds := 0x100F
abbrev ADC_Offset1 : DataItemIds := 0x1010
abbrev ADC_OffsetAll : DataItemIds := 0x1011
abbrev ADC_Volts1 : DataItemIds := 0x1020
abbrev ADC_VoltsAll : DataItemIds := 0x1021
abbrev ADC_Counts1 : DataItemIds := 0x1030
abbrev ADC_CountsAll : DataItemIds := 0x1031
abbrev ADC_Raw1 : DataItemIds := 0x1040
abbrev ADC_RawAll : DataItemIds := 0x1041
abbrev ADC_StreamStart : DataItemIds := 0x1101
abbrev ADC_StreamStop : DataItemIds := 0x1102
abbrev SCRIPT_Pause : DataItemIds := 0x3001
abbrev WDG_ : DataItemIds := 0x4000
abbrev DEF_ : DataItemIds := 0x5000
abbrev SERVICE_ : DataItemIds := 0x5001
abbrev TCP_ : DataItemIds := 0x7000
abbrev TCP_ConnectionID : DataItemIds := 0x7001
abbrev PNP_ : DataItemIds := 0x7002
abbrev CFG_ : DataItemIds := 0x9000
abbrev CFG_Hostname : DataItemIds := 0x9001
abbrev SYS_UploadFileName : DataItemIds := 0xEF01
abbrev SYS_UploadFileData : DataItemIds := 0xEF02
abbrev SYS_Error : DataItemIds := 0xEFF0
abbrev SYS_ItemError : DataItemIds := 0xEFF1
abbrev DOC_Get : DataItemIds := 0xFFFF

end DataItemIds

end EnetTcp
