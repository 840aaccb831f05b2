import EnetTcp.Items.Reg
import EnetTcp.Lib.Floats

/-!
# DAC_ data items (DAC_.h, DAC_.cpp) and the DAC_ lambdas of DIdDict

An output item scales its counts in the constructor, with the coefficients (and,
for volts, the range) that `Config` holds when the message is parsed. The
lambdas change these settings when their item runs.
-/

namespace EnetTcp

/-! ## 1. Output items -/

/-- `DacRangeIndexFromCode`; `none` stands for -1. -/
def DacRangeIndexFromCode (code : UInt32) : Option (Fin 4) :=
  if code = 0x35303055 ∨ code = 0 then some 0
  else if code = 0x3530E142 ∨ code = 1 then some 1
  else if code = 0x30313055 ∨ code = 2 then some 2
  else if code = 0x3031E142 ∨ code = 3 then some 3
  else none

/-- The span of a range, and its offset. -/
def kDacRangeLut : Vector (Float × Float) 4 :=
  #v[(5.0, 0.0), (10.0, -0.5), (10.0, 0.0), (20.0, -0.5)]

structure DAC_OutputParams where
  dacChannel : UInt8 := 0
  dacCounts : UInt16 := 0
  deriving DecidableEq

section Constructors

variable (pf : Platform)

/-- `std::lround`, cut to 16 bits. -/
def Platform.lround (v : Float) : UInt16 := ((Floats.lround v).map UInt16.ofInt).getD pf.lroundNaN

/-- What follows the look into the table in `DACVoltsToCounts`. -/
def voltsToCounts (ri : Fin 4) (Vcal : Float) : UInt16 :=
  let (span, offset) := kDacRangeLut.get ri
  let countsF := 65536.0 * (Vcal / span - offset)
  let countsF := if countsF < 0.0 then 0.0 else countsF
  let countsF := if countsF > 65535.0 then 65535.0 else countsF
  pf.lround countsF

/-- `DACVoltsToCounts`: a range code without an index reads outside `kDacRangeLut`. -/
def DACVoltsToCounts (c : TConfig) (ch : Fin MAX_DACs) (volts : FloatBits) : Option UInt16 :=
  (DacRangeIndexFromCode c.dacRanges[ch]).map fun ri => voltsToCounts pf ri (Floats.widen volts)

def sat_u16_from_double (v : Float) : UInt16 :=
  if v ≤ 0.0 then 0 else if v ≥ 65535.0 then 0xFFFF else pf.lround v

/-- `outCountsF`, cut to 16 bits. The product is exact in a `double`, fused or not. -/
def scaleCounts (counts : UInt16) (sc oc : FloatBits) : UInt16 :=
  sat_u16_from_double pf (counts.toFloat * Floats.widen sc + Floats.widen oc)

def TDAC_Output.site (line : Nat) : GuardSite := ⟨"./DataItems/DAC_.cpp", "parseBytes", line⟩

/-- `TDAC_Output::parseBytes` and `TDAC_OutputV::parseBytes`, which differ in
the lines of their two GUARDs only. Three bytes carry counts, five carry volts.
One byte names a channel and writes nothing. -/
def DAC_Output.parseBytes (lineChannel lineSize : Nat) (bytes : TBytes) :
    Prog Exn Globals (DAC_OutputParams × Bool) := do
  let b0 := bytes.headD 0
  GUARD (bytes.isEmpty || decide (b0 < 4)) ERR_DId_BAD_PARAM b0.toUInt32
    (TDAC_Output.site lineChannel)
  -- an empty payload leaves the default channel 0
  let ch : Fin MAX_DACs := Fin.ofNat _ b0.toNat
  let c := (← get).Config
  let sc := c.dacScaleCoefficients[ch]
  let oc := c.dacOffsetCoefficients[ch]
  if bytes.length = 3 then
    let inCounts ← Prog.ofOption (readU16 bytes 1)
    return ({ dacChannel := b0, dacCounts := scaleCounts pf inCounts sc oc }, true)
  else if bytes.length = 5 then
    let volts ← Prog.ofOption (readU32 bytes 1)
    let countsNom ← Prog.ofOption (DACVoltsToCounts pf c ch volts)
    return ({ dacChannel := b0, dacCounts := scaleCounts pf countsNom sc oc }, true)
  else
    GUARD (decide (bytes.length = 1)) ERR_DId_BAD_PARAM (UInt32.ofNat bytes.length)
      (TDAC_Output.site lineSize)
    return ({ dacChannel := b0 }, false)

def TDAC_Output.ctor := DAC_Output.parseBytes pf 56 93
def TDAC_OutputV.ctor := DAC_Output.parseBytes pf 137 174

end Constructors

def TDAC_Output.calcPayload (p : DAC_OutputParams) : TBytes := p.dacChannel :: stuff16 p.dacCounts

def countsToFloat (counts : UInt16) : FloatBits := counts.toFloat32.toBits

/-- The counts are sent back as a `float`. -/
def TDAC_OutputV.calcPayload (p : DAC_OutputParams) : TBytes :=
  p.dacChannel :: stuff32 (countsToFloat p.dacCounts)

/-- The result of the busy wait is not looked at. -/
def TDAC_Output.Go {ε : Type} (env : Env ε) (p : DAC_OutputParams) : Prog Exn (Sys ε) Unit := do
  let controlValue := (0x00300000 : UInt32) ||| p.dacChannel.toUInt32 <<< 16 |||
    p.dacCounts.toUInt32
  let _ ← WaitUntilRegisterBitIsLow env ofsDacSpiBusy bmDacSpiBusy
  let _ ← out env ofsDac controlValue

/-! ## 2. DAC_Range1 -/

structure DAC_RangeParams where
  dacChannel : UInt8 := 0
  dacRange : UInt32 := 0
  deriving DecidableEq

/-- The range codes that `DAC_Range1` takes. -/
def isDacRangeCode (rangeCode : UInt32) : Bool :=
  rangeCode < 4 || rangeCode == 0x30313055 || rangeCode == 0x35303055 ||
    rangeCode == 0x3530E142 || rangeCode == 0x3031E142

/-- `TDAC_Range1::parseBytes`. The flag is `bWrite`. -/
def TDAC_Range1.ctor {σ : Type} (bytes : TBytes) : Prog Exn σ (DAC_RangeParams × Bool) :=
  match bytes with
  | [] => return ({}, false)
  | ch :: _ => do
    GUARD (decide (ch < 4)) ERR_DId_BAD_PARAM ch.toUInt32 (TDAC_Output.site 221)
    if bytes.length = 5 then
      let rangeCode ← Prog.ofOption (readU32 bytes 1)
      if isDacRangeCode rangeCode then
        return ({ dacChannel := ch, dacRange := rangeCode }, true)
    return ({ dacChannel := ch, dacRange := 0xFFFFFFFF }, false)

def TDAC_Range1.calcPayload (p : DAC_RangeParams) : TBytes := p.dacChannel :: stuff32 p.dacRange

section Go

variable {ε : Type} (env : Env ε) (fuel : Nat)

/-- Write a setting of one DAC channel into an array of `Config`. -/
def setDac {α : Type} (v : Vector α MAX_DACs) (ch : Nat) (x : α) : Option (Vector α MAX_DACs) :=
  if h : ch < MAX_DACs then some (v.set ch x h) else none

/-- The file is written first. `Config` takes the range when that has worked,
else the item takes the range of `Config`. -/
def TDAC_Range1.Go (p : DAC_RangeParams) (bWrite : Bool) :
    Prog Exn (Machine ε) DAC_RangeParams := do
  if !bWrite then return p
  let ch := p.dacChannel.toNat
  let rc ← io (WriteConfigU32 env fuel (text "DAC_RangeCh" ++ toDecimal ch) p.dacRange)
  let m ← get
  if rc < 0 then
    let old ← Prog.ofOption m.Config.dacRanges[ch]?
    return { p with dacRange := old }
  else
    let dacRanges ← Prog.ofOption (setDac m.Config.dacRanges ch p.dacRange)
    set { m with Config := { m.Config with dacRanges } }
    return p

/-! ## 3. The lambdas -/

/-- Set one scale coefficient. -/
def setDacScale (dacnum : Nat) (scale : FloatBits) : Prog Exn (Machine ε) Unit := do
  let m ← get
  let dacScaleCoefficients ← Prog.ofOption (setDac m.Config.dacScaleCoefficients dacnum scale)
  set { m with Config := { m.Config with dacScaleCoefficients } }

/-- Set one offset coefficient. -/
def setDacOffset (dacnum : Nat) (offset : FloatBits) : Prog Exn (Machine ε) Unit := do
  let m ← get
  let dacOffsetCoefficients ← Prog.ofOption (setDac m.Config.dacOffsetCoefficients dacnum offset)
  set { m with Config := { m.Config with dacOffsetCoefficients } }

def writeDacScale (dacnum : Nat) (scale : FloatBits) : Prog Exn (Sys ε) Int :=
  WriteConfigU32 env fuel (text "DAC_ScaleCh" ++ toDecimal dacnum) scale

def writeDacOffset (dacnum : Nat) (offset : FloatBits) : Prog Exn (Sys ε) Int :=
  WriteConfigU32 env fuel (text "DAC_OffsetCh" ++ toDecimal dacnum) offset

def lambdaSite (line : Nat) : GuardSite := ⟨"./DataItems/TDataItem.cpp", "operator()", line⟩

/-- The channel that a one-channel lambda works on. -/
def lambdaChannel {σ : Type} (buf : TBytes) (line : Nat) : Prog Exn σ Nat := do
  let dacnum ← Prog.ofOption buf[0]?
  GUARD (decide (dacnum < 4)) ERR_DId_BAD_PARAM dacnum.toUInt32 (lambdaSite line)
  return dacnum.toNat

def DAC_Calibrate1.go (buf : TBytes) : Prog Exn (Machine ε) Unit := do
  let dacnum ← lambdaChannel buf 186
  let offset ← Prog.ofOption (readU32 buf 1)
  let scale ← Prog.ofOption (readU32 buf 5)
  setDacScale dacnum scale
  setDacOffset dacnum offset
  let _ ← io (writeDacScale env fuel dacnum scale)
  let _ ← io (writeDacOffset env fuel dacnum offset)

def DAC_Offset1.go (buf : TBytes) : Prog Exn (Machine ε) Unit := do
  let dacnum ← lambdaChannel buf 210
  let offset ← Prog.ofOption (readU32 buf 1)
  setDacOffset dacnum offset
  let _ ← io (writeDacOffset env fuel dacnum offset)

def DAC_Scale1.go (buf : TBytes) : Prog Exn (Machine ε) Unit := do
  let dacnum ← lambdaChannel buf 243
  let scale ← Prog.ofOption (readU32 buf 1)
  setDacScale dacnum scale
  let _ ← io (writeDacScale env fuel dacnum scale)

/-- One round of the loop of `DAC_OffsetAll`. -/
def DAC_OffsetAll.step (buf : TBytes) (dacnum : Nat) : Prog Exn (Machine ε) PUnit := do
  let v ← Prog.ofOption (readU32 buf (dacnum * 4))
  setDacOffset dacnum v
  let _ ← io (writeDacOffset env fuel dacnum v)

/-- One coefficient for each complete `float` of the payload. -/
def DAC_OffsetAll.go (buf : TBytes) : Prog Exn (Machine ε) PUnit :=
  (List.range (buf.length / 4)).forM (DAC_OffsetAll.step env fuel buf)

/-- One round of the loop of `DAC_ScaleAll`. -/
def DAC_ScaleAll.step (buf : TBytes) (dacnum : Nat) : Prog Exn (Machine ε) PUnit := do
  let scale ← Prog.ofOption (readU32 buf (dacnum * 4))
  setDacScale dacnum scale
  let _ ← io (writeDacScale env fuel dacnum scale)

/-- The same, cut at four channels. -/
def DAC_ScaleAll.go (buf : TBytes) : Prog Exn (Machine ε) PUnit :=
  (List.range (min (buf.length / 4) 4)).forM (DAC_ScaleAll.step env fuel buf)

end Go

end EnetTcp
