import EnetTcp.Lib.Floats
import EnetTcp.State

/-!
# One scan of all ADC channels (second half of ADC_.cpp)

`ADC_RawAll`, `ADC_CountsAll` and `ADC_VoltsAll` acquire one scan and reduce it
to one value for each channel. Polling loops have no bound in the source, so
they run on fuel.
-/

namespace EnetTcp

structure TAdcScanCfg where
  startCh : UInt8 := 0
  endCh : UInt8 := 0
  oversamples : UInt8 := 0
  nChannels : Nat := 0
  perChannel : Nat := 0
  expected : Nat := 0
  deriving DecidableEq

/-! ## 1. Reduction -/

def AdcRawCounts (raw : UInt32) : UInt16 := raw.toUInt16
def AdcRawMeta (raw : UInt32) : UInt32 := raw &&& 0xFFFF0000
def AdcRawChannel (raw : UInt32) : UInt8 := ((raw >>> 20) &&& 0x7F).toUInt8

/-- INV: the FIFO had nothing to give. -/
def AdcRawInvalid (raw : UInt32) : Bool := raw &&& 0x80000000 ≠ 0

structure TPerChAccum where
  «meta» : UInt32 := 0x80000000
  sum : Nat := 0
  seen : Nat := 0
  included : Nat := 0
  first : UInt16 := 0
  firstSet : Bool := false
  deriving DecidableEq

def FinalizeAvgCounts (a : TPerChAccum) (cfg : TAdcScanCfg) : UInt16 :=
  if cfg.oversamples = 0 then if a.firstSet then a.first else 0
  else if a.included = 0 then 0
  else UInt16.ofNat ((a.sum + a.included / 2) / a.included)

/-- What one word adds to the accumulator of its channel. -/
def TPerChAccum.add (cfg : TAdcScanCfg) (v : UInt32) (a : TPerChAccum) : TPerChAccum :=
  if cfg.perChannel ≤ a.seen then a
  else
    let a := if a.meta = 0x80000000 then { a with «meta» := AdcRawMeta v } else a
    let c := AdcRawCounts v
    if cfg.oversamples = 0 then { a with first := c, firstSet := true, seen := cfg.perChannel }
    else if cfg.oversamples = 1 then
      { a with sum := a.sum + c.toNat, included := a.included + 1, seen := a.seen + 1 }
    else if a.seen ≠ 0 then
      { a with sum := a.sum + c.toNat, included := a.included + 1, seen := a.seen + 1 }
    else { a with seen := a.seen + 1 }

/-- One round of the loop of `AccumulateByChannel`. -/
def accumulateWord (cfg : TAdcScanCfg) (acc : List TPerChAccum) (v : UInt32) : List TPerChAccum :=
  if AdcRawInvalid v then acc
  else
    let ch := AdcRawChannel v
    if ch < cfg.startCh ∨ cfg.endCh < ch then acc
    else acc.modify (ch.toNat - cfg.startCh.toNat) (TPerChAccum.add cfg v)

def AccumulateByChannel (raw : List UInt32) (cfg : TAdcScanCfg) : List TPerChAccum :=
  raw.foldl (accumulateWord cfg) (List.replicate cfg.nChannels {})

def ADC_ReduceRawToCountsPerChannel (raw : List UInt32) (cfg : TAdcScanCfg) : List UInt16 :=
  (AccumulateByChannel raw cfg).map fun a => FinalizeAvgCounts a cfg

/-- The reading of a channel: its meta bits and its average, INV when it has none. -/
def ADC_ReduceRawToRawPerChannel (raw : List UInt32) (cfg : TAdcScanCfg) : List UInt32 :=
  (AccumulateByChannel raw cfg).map fun a =>
    if a.meta = 0x80000000 then 0x80000000
    else a.meta ||| (FinalizeAvgCounts a cfg).toUInt32

abbrev quietNaN : FloatBits := 0x7FC00000

/-- The products are those of a `double`; the quotient is cut to a `float`. -/
def AdcRawToVolts (raw : UInt32) : FloatBits :=
  if AdcRawInvalid raw then quietNaN
  else
    let gainCode := (raw >>> 28) &&& 3
    let counts := AdcRawCounts raw
    let fsVolts : Float := if gainCode = 0 then 10.0 else if gainCode = 1 then 5.0
      else if gainCode = 2 then 2.0 else 1.0
    Floats.narrow <|
      if raw &&& 0x08000000 = 0 then counts.toFloat * fsVolts / 65535.0
      else (counts.toFloat - 32768.0) * fsVolts / 32768.0

def ADC_ReduceRawToVoltsPerChannel (raw : List UInt32) (cfg : TAdcScanCfg) :
    List FloatBits :=
  (AccumulateByChannel raw cfg).map fun a =>
    if a.meta = 0x80000000 then quietNaN
    else AdcRawToVolts (a.meta ||| (FinalizeAvgCounts a cfg).toUInt32)

/-! ## 2. Acquisition -/

section Acquire

variable {ε : Type} (env : Env ε) (fuel : Nat)

def ADC_ReadScanCfg : Prog Exn (Sys ε) TAdcScanCfg := do
  let startCh := (← in_ env ofsAdcStartChannel).toUInt8
  let endCh := (← in_ env ofsAdcStopChannel).toUInt8
  let oversamples := (← in_ env ofsAdcOversamples).toUInt8
  if startCh ≤ endCh then
    let nChannels := endCh.toNat - startCh.toNat + 1
    let perChannel := oversamples.toNat + 1
    return { startCh, endCh, oversamples, nChannels, perChannel,
             expected := nChannels * perChannel }
  else return { startCh, endCh, oversamples }

def ADC_SetScanStartMode : Prog Exn (Sys ε) TError := do
  let _ ← out env ofsAdcTriggerOptions 0
  let _ ← out env ofsAdcSoftwareStart 0
  out env ofsAdcTriggerOptions 0x04

/-- Read the FIFO until it reports that it is empty. -/
def ADC_DrainFIFO : (fuel : Nat) → Prog Exn (Sys ε) Unit
  | 0 => Prog.undefined
  | fuel + 1 => do
    let available ← in_ env ofsAdcFifoCount
    if 0 < available then
      let _ ← in_ env ofsAdcDataFifo
      ADC_DrainFIFO fuel
    else return ()

def ADC_StartSoftwareADC : Prog Exn (Sys ε) Unit := do
  let _ ← out env ofsAdcSoftwareStart 0x00
  let () ← syscall env (.usleep 10)

/-- The inner loop: at most `toRead` words, until there are `expected` valid ones. -/
def readFifoWords (expected : Nat) : (toRead : Nat) → List UInt32 → Prog Exn (Sys ε) (List UInt32)
  | 0, raw => return raw
  | toRead + 1, raw =>
    if raw.length < expected then do
      let v ← in_ env ofsAdcDataFifo
      readFifoWords expected toRead (if AdcRawInvalid v then raw else raw ++ [v])
    else return raw

/-- The outer loop, with the start time and the timeout in nanoseconds. -/
def drainFifo (expected t0 timeout : Nat) :
    (fuel : Nat) → List UInt32 → Prog Exn (Sys ε) (TError × List UInt32)
  | 0, _ => Prog.undefined
  | fuel + 1, raw =>
    if raw.length < expected then do
      let available ← in_ env ofsAdcFifoCount
      if available = 0 then
        let now : Nat ← syscall env .steady_clock_now
        if timeout < now - t0 then return (0xFFFFFFFF, raw)
        drainFifo expected t0 timeout fuel raw
      else
        let () ← syscall env (.usleep 10)
        let raw ← readFifoWords env expected available.toNat raw
        drainFifo expected t0 timeout fuel raw
    else return (0, raw)

def ADC_DrainAdcFifoRaw (expected : Nat) : Prog Exn (Sys ε) (TError × List UInt32) := do
  let t0 : Nat ← syscall env .steady_clock_now
  drainFifo env expected t0 ((2 + expected) * 1000000) fuel []

/-- The error, the words read, and the scan configuration. -/
def ADC_AcquireScanRaw : Prog Exn (Sys ε) (TError × List UInt32 × TAdcScanCfg) := do
  let _ ← out env ofsAdcOversamples 0
  let cfg ← ADC_ReadScanCfg env
  if cfg.expected = 0 then return (0xFFFFFFFF, [], cfg)
  let err ← ADC_SetScanStartMode env
  if err ≠ 0 then return (err, [], cfg)
  ADC_DrainFIFO env fuel
  ADC_StartSoftwareADC env
  let (err, raw) ← ADC_DrainAdcFifoRaw env fuel cfg.expected
  return (err, raw, cfg)

/-- `Go` of the three scan items gives the new `rawBytes`. A failed scan leaves
them empty and sets no result code. -/
def ADC_Scan.Go (reduce : List UInt32 → TAdcScanCfg → TBytes) : Prog Exn (Sys ε) TBytes := do
  let (err, raw, cfg) ← ADC_AcquireScanRaw env fuel
  if err ≠ 0 then return [] else return reduce raw cfg

def TADC_RawAll.Go : Prog Exn (Sys ε) TBytes :=
  ADC_Scan.Go env fuel fun raw cfg => (ADC_ReduceRawToRawPerChannel raw cfg).flatMap stuff32

def TADC_CountsAll.Go : Prog Exn (Sys ε) TBytes :=
  ADC_Scan.Go env fuel fun raw cfg => (ADC_ReduceRawToCountsPerChannel raw cfg).flatMap stuff16

def TADC_VoltsAll.Go : Prog Exn (Sys ε) TBytes :=
  ADC_Scan.Go env fuel fun raw cfg => (ADC_ReduceRawToVoltsPerChannel raw cfg).flatMap stuff32

end Acquire

end EnetTcp
