import EnetTcp.Item

/-!
# Running a data item

`Go` of each class. The state is the item's body and the machine, so what an
item has changed before it throws stays changed.
-/

namespace EnetTcp

/-! ## 1. The classes of TDataItem.cpp -/

section Lambdas

variable {ε : Type} (env : Env ε) (fuel : Nat)

/-- The lambda of BRD_REBOOT: the eight bytes of the double `M_PI` stop the daemon. -/
def BRD_REBOOT.go (buf : TBytes) : Prog Exn (Machine ε) Unit := do
  let low ← Prog.ofOption (readU32 buf 0)
  let high ← Prog.ofOption (readU32 buf 4)
  if low = 0x54442D18 ∧ high = 0x400921FB then
    modify fun m => { m with done := true }

def GoLambda.run (l : GoLambda) (buf : TBytes) : Prog Exn (Machine ε) Unit :=
  match l with
  | .BRD_REBOOT => BRD_REBOOT.go buf
  | .REG_ClearBits => io (REG_ClearBits.go env buf)
  | .REG_ToggleBits => io (REG_ToggleBits.go env buf)
  | .REG_SetBits => io (REG_SetBits.go env buf)
  | .DAC_Calibrate1 => DAC_Calibrate1.go env fuel buf
  | .DAC_Offset1 => DAC_Offset1.go env fuel buf
  | .DAC_OffsetAll => DAC_OffsetAll.go env fuel buf
  | .DAC_Scale1 => DAC_Scale1.go env fuel buf
  | .DAC_ScaleAll => DAC_ScaleAll.go env fuel buf

end Lambdas

/-- The high byte of an id names its group. -/
def GetMSB (id : DataItemIds) : UInt8 := (id >>> 8).toUInt8

def descLines (entries : List TDIdDictEntry) : TBytes :=
  entries.flatMap fun e => text e.desc ++ [10]

/-- The descriptions of the items in the group of `id`. -/
def TDataItemDoc.Go (id : DataItemIds) : TBytes :=
  descLines (DIdDict.sorted.filter fun e => GetMSB e.DId == GetMSB id && e.DId.toUInt8 != 0)

/-- The descriptions of the groups. -/
def TDataItemDocGet.Go : TBytes := descLines (DIdDict.sorted.filter fun e => e.DId.toUInt8 == 0)

/-! ## 2. Go -/

section Go

variable {ε α : Type}

/-- The part of a `Go` that works on the machine. -/
def onMachine (p : Prog Exn (Machine ε) α) : Prog Exn (TItemBody × Machine ε) α :=
  p.zoom Prod.snd fun m s => (s.1, m)

/-- The part of a `Go` that only talks to the outside. -/
def onSys (p : Prog Exn (Sys ε) α) : Prog Exn (TItemBody × Machine ε) α := onMachine (io p)

/-- Change the item itself. -/
def updateItem (f : TItemBody → TItemBody) : Prog Exn (TItemBody × Machine ε) Unit :=
  modify fun s => (f s.1, s.2)

def setParams (params : Params) : Prog Exn (TItemBody × Machine ε) Unit :=
  updateItem fun this => { this with params }

variable (pf : Platform) (env : Env ε)

/-- `TDataItemBase::Go`: the lambda of the id, else the result code "not yet
implemented". -/
def TDataItemBase.Go (id : DataItemIds) : Prog Exn (TItemBody × Machine ε) Unit := do
  match (DIdDict.find id).bind TDIdDictEntry.go with
  | some l =>
    let (this, _) ← get
    onMachine (l.run env pf.fuel this.Data)
  | none => updateItem fun this => { this with resultCode := ERR_NYI }

/-- `Go` of every class. -/
def Go (id : DataItemIds) : Prog Exn (TItemBody × Machine ε) Unit := do
  let (this, m) ← get
  match this.params with
  | .TDataItemRaw => TDataItemBase.Go pf env id
  | .TDataItemNYI => return ()
  | .TDataItemDoc => updateItem fun this => { this with Data := TDataItemDoc.Go id }
  | .TDataItemDocGet => updateItem fun this => { this with Data := TDataItemDocGet.Go }
  | .TBRD_DeviceID _ => do setParams (.TBRD_DeviceID (← onSys (TBRD_DeviceID.Go env)))
  | .TBRD_Features _ => do setParams (.TBRD_Features (← onMachine (TBRD_Features.Go env)))
  | .TBRD_FpgaId _ => do setParams (.TBRD_FpgaId (← onSys (TBRD_FpgaId.Go env)))
  | .TBRD_Model => onMachine (TBRD_Model.Go env pf.fuel this.rawBytes)
  | .TBRD_GetModel => return ()
  | .TBRD_SerialNumber => onMachine (TBRD_SerialNumber.Go env pf.fuel this.rawBytes)
  | .TBRD_GetSerialNumber => return ()
  | .TBRD_GetNumberOfAdcChannels _ =>
    setParams (.TBRD_GetNumberOfAdcChannels m.Config.adcChannels)
  | .TBRD_NumberOfSubmuxes value => onMachine (TBRD_NumberOfSubmuxes.Go value)
  | .TBRD_GetNumberOfSubmuxes _ =>
    setParams (.TBRD_GetNumberOfSubmuxes (some m.Config.numberOfSubmuxes))
  | .TBRD_SubmuxScale p => onMachine (TBRD_SubmuxScale.Go p)
  | .TBRD_SubmuxOffset p => onMachine (TBRD_SubmuxOffset.Go p)
  | .TBRD_GetSubmuxScale p => do
    setParams (.TBRD_GetSubmuxScale (← onMachine (TBRD_GetSubmuxScale.Go p)))
  | .TBRD_GetSubmuxOffset p => do
    setParams (.TBRD_GetSubmuxOffset (← onMachine (TBRD_GetSubmuxOffset.Go p)))
  | .TREG_Read1 p => do setParams (.TREG_Read1 (← onSys (TREG_Read1.Go env p)))
  | .TREG_Write1 Writes => do
    let resultCode ← onSys (TREG_Writes.Go env Writes)
    updateItem fun this => { this with resultCode }
  | .TREG_ReadBit p => do setParams (.TREG_ReadBit (← onSys (TREG_ReadBit.Go env p)))
  | .TREG_WriteBit p => onSys (TREG_WriteBit.Go env p)
  | .TREG_ClearBit p => onSys (TREG_ClearBit.Go env p)
  | .TREG_SetBit p => onSys (TREG_SetBit.Go env p)
  | .TREG_ToggleBit p => onSys (TREG_ToggleBit.Go env p)
  | .TDAC_Output p | .TDAC_OutputV p => onSys (TDAC_Output.Go env p)
  | .TDAC_Range1 p => do
    setParams (.TDAC_Range1 (← onMachine (TDAC_Range1.Go env pf.fuel p this.bWrite)))
  | .TDIO_Configure value => onSys (TDIO_Configure.Go env value)
  | .TDIO_Input _ => do setParams (.TDIO_Input (← onSys (TDIO_Input.Go env)))
  | .TDIO_Output value => onSys (TDIO_Output.Go env value)
  | .TDIO_ConfigureBit p => onSys (TDIO_ConfigureBit.Go env p)
  | .TDIO_InputBit p => do setParams (.TDIO_InputBit (← onSys (TDIO_InputBit.Go env p)))
  | .TDIO_OutputBit p => onSys (TDIO_OutputBit.Go env p)
  | .TDIO_ClearBit b => onSys (TDIO_ClearBit.Go env b)
  | .TDIO_SetBit b => onSys (TDIO_SetBit.Go env b)
  | .TDIO_ToggleBit b => onSys (TDIO_ToggleBit.Go env b)
  | .TADC_BaseClock _ => do setParams (.TADC_BaseClock (← onSys (TADC_BaseClock.Go env)))
  | .TADC_Differential1 p => onSys (TADC_Differential1.Go env p)
  | .TADC_DifferentialAll settings => onSys (TADC_DifferentialAll.Go env settings)
  | .TADC_Range1 p => onSys (TADC_Range1.Go env p)
  | .TADC_RangeAll ranges => onSys (TADC_RangeAll.Go env ranges)
  | .TADC_Scale1 p => onMachine (TADC_Scale1.Go env p)
  | .TADC_ScaleAll scales => onMachine (TADC_ScaleAll.Go env scales)
  | .TADC_Offset1 p => onMachine (TADC_Offset1.Go env p)
  | .TADC_OffsetAll offsets => onMachine (TADC_OffsetAll.Go env offsets)
  | .TADC_Calibration1 p => onMachine (TADC_Calibration1.Go env p)
  | .TADC_CalibrationAll pairs => onMachine (TADC_CalibrationAll.Go env pairs)
  | .TADC_RawAll => do
    let rawBytes ← onSys (TADC_RawAll.Go env pf.fuel)
    updateItem fun this => { this with rawBytes }
  | .TADC_CountsAll => do
    let rawBytes ← onSys (TADC_CountsAll.Go env pf.fuel)
    updateItem fun this => { this with rawBytes }
  | .TADC_VoltsAll => do
    let rawBytes ← onSys (TADC_VoltsAll.Go env pf.fuel)
    updateItem fun this => { this with rawBytes }
  | .TADC_StreamStart => onMachine (TADC_StreamStart.Go env)
  | .TADC_StreamStop => onMachine (TADC_StreamStop.Go env)
  | .TCFG_Hostname hostname => onMachine (TCFG_Hostname.Go env hostname)
  | .TSYS_UploadFileName => onMachine (TSYS_UploadFileName.Go env this.Data)
  | .TSYS_UploadFileData => onMachine (TSYS_UploadFileData.Go env this.Data)
  | .TSYS_Error _ | .TSYS_ItemError _ =>
    updateItem fun this => { this with resultCode := ERR_SUCCESS }

end Go

end EnetTcp
