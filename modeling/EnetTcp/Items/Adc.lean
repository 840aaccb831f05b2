import EnetTcp.State

/-!
# ADC_ data items (ADC_.h, ADC_.cpp)

1. The base clock and the stream commands. The constructor of
   `ADC_StreamStart` is the one constructor that changes a global.
2. Range, input type and calibration of the channel groups.
3. One scan of all channels: acquisition and the three replies.
-/

namespace EnetTcp

/-! ## 1. Base clock and streaming -/

def TADC_BaseClock.site : GuardSite := ⟨"./DataItems/ADC_.cpp", "TADC_BaseClock", 16⟩

/-- The value is `params.baseClock`. -/
def TADC_BaseClock.ctor {σ : Type} (buf : TBytes) : Prog Exn σ UInt32 := do
  GUARD (decide (buf.length = 0) || decide (buf.length = 4)) ERR_MSG_PAYLOAD_DATAITEM_LEN_MISMATCH 0
    TADC_BaseClock.site
  return (readU32 buf 0).getD 25000000

/-- Four bytes claim the stream for a connection, if it is free. -/
def TADC_StreamStart.ctor (FromBytes : TBytes) : Prog Exn Globals Unit :=
  if FromBytes.length = 4 then do
    let cid ← Prog.ofOption (readU32 FromBytes 0)
    let g ← get
    if g.AdcStreamingConnection = -1 then
      set { g with AdcStreamingConnection := cid.toInt32 }
    else
      throw (.logicError
        (text "ADC Busy already on Connection: " ++ intToDecimal g.AdcStreamingConnection.toInt))
  else return ()

section Go

variable {ε : Type} (env : Env ε)

def TADC_BaseClock.Go : Prog Exn (Sys ε) UInt32 := in_ env ofsAdcBaseClock

/-- `err_msg[-status]`; an index outside the table is undefined. -/
def errMsgOfStatus (status : Int) : Option TBytes :=
  if status ≤ 0 then (err_msg[status.natAbs]?).map text else none

def TADC_StreamStart.Go : Prog Exn (Machine ε) Unit := do
  let status : Int ← io (syscall env .apci_dma_transfer_size)
  if status ≠ 0 then
    let what ← Prog.ofOption (errMsgOfStatus status)
    throw (.logicError what)
  modify fun m => { m with AdcStreamTerminate := false }
  if (← get).AdcWorkerThreadID = -1 then
    let rc : Int ← io (syscall env .pthread_create_worker)
    if rc ≠ 0 then throw (.logicError (text "failed to start ADC worker thread"))
    modify fun m => { m with AdcWorkerThreadID := 0 }
  let (_ : Int) ← io (syscall env .apci_start_dma)

def TADC_StreamStop.Go : Prog Exn (Machine ε) Unit := do
  modify fun m => { m with AdcStreamTerminate := true }
  let (_ : Int) ← io (syscall env .apci_cancel_irq)

/-! ## 2. Channel groups -/

/-- The first `n` bytes of the payload, or nothing set. -/
def bytesAt (n : Nat) (data : TBytes) : Option TBytes := (List.range n).mapM fun i => data[i]?

/-- The first `n` floats of the payload, or nothing set. -/
def floatsAt (n : Nat) (data : TBytes) : Option (List FloatBits) :=
  (List.range n).mapM fun i => readU32 data (4 * i)

def floatBytes (vs : List FloatBits) : TBytes := vs.flatMap stuff32

/-- A channel group and a byte for it: `ADC_Differential1` and `ADC_Range1`. -/
structure ADC_GroupParams where
  channelGroup : UInt8
  value : UInt8
  deriving DecidableEq

def ADC_GroupParams.ctor (data : TBytes) : Option ADC_GroupParams :=
  match data with
  | channelGroup :: value :: _ => some { channelGroup, value }
  | _ => none

def ADC_GroupParams.calcPayload (p : Option ADC_GroupParams) : Option TBytes := do
  let p ← p
  return [p.channelGroup, p.value]

/-- Bit 3 of a range register: single-ended (1) or differential (0). -/
def setSingleEnded (channelGroup : Nat) (singleEnded : UInt8) : Prog Exn (Sys ε) Unit := do
  let reg := (← in_ env (ofsAdcRange + channelGroup)).toUInt8
  let reg := if singleEnded ≠ 0 then reg ||| 8 else reg &&& 0xF7
  let _ ← out env (ofsAdcRange + channelGroup) reg.toUInt32

def setRange (channelGroup : Nat) (range : UInt8) : Prog Exn (Sys ε) Unit := do
  let _ ← out env (ofsAdcRange + channelGroup) range.toUInt32

/-- `Go` of a command for one group. -/
def ADC_GroupParams.Go (f : Nat → UInt8 → Prog Exn (Sys ε) Unit) (p : Option ADC_GroupParams) :
    Prog Exn (Sys ε) Unit := do
  let p ← Prog.ofOption p
  f p.channelGroup.toNat p.value

/-- `Go` of a command with one byte for each of the eight groups. -/
def ADC_AllGroups.Go (f : Nat → UInt8 → Prog Exn (Sys ε) Unit) (settings : Option TBytes) :
    Prog Exn (Sys ε) PUnit := do
  let settings ← Prog.ofOption settings
  settings.zipIdx.forM fun s => f s.2 s.1

def TADC_Differential1.Go := ADC_GroupParams.Go (setSingleEnded env)
def TADC_DifferentialAll.Go := ADC_AllGroups.Go (setSingleEnded env)
def TADC_Range1.Go := ADC_GroupParams.Go (setRange env)
def TADC_RangeAll.Go := ADC_AllGroups.Go (setRange env)

/-- Write a calibration value of one range into an array of `Config`. The arrays
have eight elements and the index is not checked. -/
def setAdcCal (v : Vector FloatBits 8) (i : Nat) (x : FloatBits) : Option (Vector FloatBits 8) :=
  if h : i < 8 then some (v.set i x h) else none

def setAdcScale (i : Nat) (scale : FloatBits) : Prog Exn (Machine ε) Unit := do
  let m ← get
  let adcScaleCoefficients ← Prog.ofOption (setAdcCal m.Config.adcScaleCoefficients i scale)
  set { m with Config := { m.Config with adcScaleCoefficients } }

def setAdcOffset (i : Nat) (offset : FloatBits) : Prog Exn (Machine ε) Unit := do
  let m ← get
  let adcOffsetCoefficients ← Prog.ofOption (setAdcCal m.Config.adcOffsetCoefficients i offset)
  set { m with Config := { m.Config with adcOffsetCoefficients } }

def outScale (i : Nat) (scale : FloatBits) : Prog Exn (Sys ε) TError :=
  out env (ofsAdcCalScale + i * ofsAdcCalScaleStride) scale

def outOffset (i : Nat) (offset : FloatBits) : Prog Exn (Sys ε) TError :=
  out env (ofsAdcCalOffset + i * ofsAdcCalOffsetStride) offset

/-- A range index and one coefficient: `ADC_Scale1` and `ADC_Offset1`. -/
structure ADC_CalParams where
  rangeIndex : UInt8
  value : FloatBits
  deriving DecidableEq

def ADC_CalParams.ctor (data : TBytes) : Option ADC_CalParams := do
  let rangeIndex ← data[0]?
  let value ← readU32 data 1
  return { rangeIndex, value }

def ADC_CalParams.calcPayload (p : Option ADC_CalParams) : Option TBytes := do
  let p ← p
  return p.rangeIndex :: stuff32 p.value

def calibrateScale (i : Nat) (scale : FloatBits) : Prog Exn (Machine ε) Unit := do
  let _ ← io (outScale env i scale)
  setAdcScale i scale

def calibrateOffset (i : Nat) (offset : FloatBits) : Prog Exn (Machine ε) Unit := do
  let _ ← io (outOffset env i offset)
  setAdcOffset i offset

/-- Scale and offset of one range: both registers first, then both coefficients. -/
def calibrateBoth (i : Nat) (scale offset : FloatBits) : Prog Exn (Machine ε) Unit := do
  let _ ← io (outScale env i scale)
  let _ ← io (outOffset env i offset)
  setAdcScale i scale
  setAdcOffset i offset

def TADC_Scale1.Go (p : Option ADC_CalParams) : Prog Exn (Machine ε) Unit := do
  let p ← Prog.ofOption p
  calibrateScale env p.rangeIndex.toNat p.value

def TADC_Offset1.Go (p : Option ADC_CalParams) : Prog Exn (Machine ε) Unit := do
  let p ← Prog.ofOption p
  calibrateOffset env p.rangeIndex.toNat p.value

def TADC_ScaleAll.Go (scales : Option (List FloatBits)) : Prog Exn (Machine ε) PUnit := do
  let scales ← Prog.ofOption scales
  scales.zipIdx.forM fun s => calibrateScale env s.2 s.1

def TADC_OffsetAll.Go (offsets : Option (List FloatBits)) : Prog Exn (Machine ε) PUnit := do
  let offsets ← Prog.ofOption offsets
  offsets.zipIdx.forM fun s => calibrateOffset env s.2 s.1

structure ADC_Calibration1Params where
  rangeIndex : UInt8
  scale : FloatBits
  offset : FloatBits
  deriving DecidableEq

def TADC_Calibration1.ctor (data : TBytes) : Option ADC_Calibration1Params := do
  let rangeIndex ← data[0]?
  let scale ← readU32 data 1
  let offset ← readU32 data 5
  return { rangeIndex, scale, offset }

def TADC_Calibration1.calcPayload (p : Option ADC_Calibration1Params) : Option TBytes := do
  let p ← p
  return p.rangeIndex :: stuff32 p.scale ++ stuff32 p.offset

def TADC_Calibration1.Go (p : Option ADC_Calibration1Params) : Prog Exn (Machine ε) Unit := do
  let p ← Prog.ofOption p
  calibrateBoth env p.rangeIndex.toNat p.scale p.offset

/-- Eight pairs of scale and offset, interleaved in the payload. -/
def TADC_CalibrationAll.ctor (data : TBytes) : Option (List (FloatBits × FloatBits)) :=
  (List.range 8).mapM fun i => do
    let scale ← readU32 data (8 * i)
    let offset ← readU32 data (8 * i + 4)
    return (scale, offset)

def TADC_CalibrationAll.calcPayload (pairs : List (FloatBits × FloatBits)) : TBytes :=
  pairs.flatMap fun p => stuff32 p.1 ++ stuff32 p.2

def TADC_CalibrationAll.Go (pairs : Option (List (FloatBits × FloatBits))) :
    Prog Exn (Machine ε) PUnit := do
  let pairs ← Prog.ofOption pairs
  pairs.zipIdx.forM fun p => calibrateBoth env p.2 p.1.1 p.1.2

end Go

end EnetTcp
