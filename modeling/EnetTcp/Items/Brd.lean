import EnetTcp.State

/-!
# BRD_ data items (BRD_.h, BRD_.cpp)

1. Read-only registers.
2. Model and serial number. The reply shows what `Config` holds when it is built.
3. The two parsers of the model string.
4. Submuxes.
-/

namespace EnetTcp

variable {ε : Type} (env : Env ε) (fuel : Nat)

/-! ## 1. Read-only registers -/

/-- `config` is unset until `Go` reads the register, unless the payload fills
the whole parameter block (the value and one byte for the offset). -/
structure ReadOnlyConfigParams (T : Type) where
  config : Option T
  deriving DecidableEq

def TBRD_FpgaId.ctor (data : TBytes) : ReadOnlyConfigParams UInt32 :=
  { config := if 5 ≤ data.length then readU32 data 0 else none }

def TBRD_FpgaId.Go : Prog Exn (Sys ε) (ReadOnlyConfigParams UInt32) := do
  let v ← in_ env ofsFpgaID
  return { config := some v }

def TBRD_FpgaId.calcPayload (p : ReadOnlyConfigParams UInt32) : Option TBytes :=
  p.config.map stuff32

def TBRD_DeviceID.ctor (data : TBytes) : ReadOnlyConfigParams UInt16 :=
  { config := if 3 ≤ data.length then readU16 data 0 else none }

def TBRD_DeviceID.Go : Prog Exn (Sys ε) (ReadOnlyConfigParams UInt16) := do
  let v ← in_ env ofsDeviceID
  return { config := some v.toUInt16 }

def TBRD_DeviceID.calcPayload (p : ReadOnlyConfigParams UInt16) : Option TBytes :=
  p.config.map stuff16

def TBRD_Features.ctor (data : TBytes) : ReadOnlyConfigParams UInt8 :=
  { config := if 2 ≤ data.length then data[0]? else none }

def TBRD_Features.Go : Prog Exn (Machine ε) (ReadOnlyConfigParams UInt8) := do
  let v ← io (in_ env ofsFeatures)
  modify fun m => { m with Config := { m.Config with features := v.toUInt8 } }
  return { config := some v.toUInt8 }

/-- Four bytes are sent for the one-byte value. -/
def TBRD_Features.calcPayload (p : ReadOnlyConfigParams UInt8) : Option TBytes :=
  p.config.map fun v => stuff32 v.toUInt32

/-! ## 2. The model string -/

/-- What a C function sees of a string: the bytes before the first NUL. -/
def c_str (s : TBytes) : TBytes := s.takeWhile (· != 0)

/-- `std::toupper` and `std::tolower` in the C locale. -/
def toUpperByte (b : UInt8) : UInt8 := if 97 ≤ b && b ≤ 122 then b - 32 else b
def toLowerByte (b : UInt8) : UInt8 := if 65 ≤ b && b ≤ 90 then b + 32 else b

/-- `snprintf(buf, n, "%s", s)` -/
def snprintfBuf (n : Nat) (s : TBytes) : TBytes := (c_str s).take (n - 1)

/-- The tokens that repeated `strtok_r(.., "-", ..)` gives: empty ones are skipped. -/
def strtokDash (s : TBytes) : List TBytes := (s.splitOn 45).filter (!·.isEmpty)

/-- The common head of both parsers: the dash-separated parts behind `eNET-AI`. -/
def modelParts (model_in : TBytes) : Option (TBytes × TBytes × List TBytes) :=
  let p := trim (snprintfBuf 256 model_in)
  let p := if (text "\\000027").isPrefixOf p then p.drop 7 else p
  let p := trim p
  if (p.take 7).map toUpperByte ≠ (text "eNET-AI").map toUpperByte then none
  else
    match strtokDash (p.drop 7) with
    | parts0 :: parts1 :: options => some (parts0, parts1, options)
    | _ => none

/-- `strtol(.., 10)` on a trimmed string; `none` when there is no number. -/
def strtol10 (s : TBytes) : Option Int :=
  let neg := s.head? == some 45
  let digits := if s.head? == some 45 || s.head? == some 43 then s.drop 1 else s
  let (n, seen) := digitsValue 10 digits 0 false
  if seen then some (if neg then -(n : Int) else n) else none

/-- The return code and the value left in `*adc_channels`. -/
def enet_ai_parse_adc_channel_count (model_in : TBytes) : Int × UInt8 :=
  match modelParts model_in with
  | none => (-1, 0)
  | some (_, parts1, _) =>
    match strtol10 (trim (snprintfBuf 64 parts1)) with
    | none => (-1, 0)
    | some n => if n ≤ 0 ∨ 128 < n then (-1, 0) else (0, UInt8.ofNat n.toNat)

def is_valid_dac_range (code : TBytes) : Bool :=
  code == text "5B" || code == text "10B" || code == text "5U" || code == text "10U"

/-- The scan of the option codes: a DAC range seen, `4AO` seen. `none` when a
second DAC range turns up. -/
def scanDacOptions : List TBytes → (range : Option TBytes) → (seen_4ao : Bool) →
    Option (Option TBytes × Bool)
  | [], range, seen_4ao => some (range, seen_4ao)
  | tok :: toks, range, seen_4ao =>
    let opt := (trim (snprintfBuf 32 tok)).map toUpperByte
    if opt.isEmpty then scanDacOptions toks range seen_4ao
    else if opt == text "4AO" then scanDacOptions toks range true
    else if is_valid_dac_range opt then
      match range with
      | none => scanDacOptions toks (some opt) seen_4ao
      | some _ => none
    else scanDacOptions toks range seen_4ao

/-- The return code and the value left in `*num_dacs`, which is -1 cut to a
byte on every error. -/
def enet_ai_parse_dac_count (model_in : TBytes) : Int × UInt8 :=
  match modelParts model_in with
  | none => (-1, 255)
  | some (parts0, _, options) =>
    match scanDacOptions options none false with
    | none => (-1, 255)
    | some (range, seen_4ao) =>
      if parts0.head?.map toUpperByte = some 79 then
        if range.isNone then (-1, 255) else (0, if seen_4ao then 4 else 2)
      else if range.isSome || seen_4ao then (-1, 255)
      else (0, 0)

/-- `Go` keeps the string and both parsed counts, whether the parsers accept the
string or not, and saves the board keys. -/
def TBRD_Model.Go (rawBytes : TBytes) : Prog Exn (Machine ε) Unit := do
  let m ← get
  let Config := { m.Config with
    Model := rawBytes
    NUM_DACs := (enet_ai_parse_dac_count (c_str rawBytes)).2
    adcChannels := (enet_ai_parse_adc_channel_count (c_str rawBytes)).2 }
  set { m with Config }
  let _ ← io (SaveBrdConfig env fuel Config)

def TBRD_SerialNumber.Go (rawBytes : TBytes) : Prog Exn (Machine ε) Unit := do
  let m ← get
  let Config := { m.Config with SerialNumber := rawBytes }
  set { m with Config }
  let _ ← io (SaveBrdConfig env fuel Config)

/-! ## 3. Channel and submux counts -/

def TBRD_GetNumberOfAdcChannels.site : GuardSite :=
  ⟨"./DataItems/BRD_.cpp", "TBRD_GetNumberOfAdcChannels", 532⟩

/-- The value is `params.numAdcChan`. -/
def TBRD_GetNumberOfAdcChannels.ctor {σ : Type} (buf : TBytes) : Prog Exn σ UInt8 := do
  GUARD (decide (buf.length = 0) || decide (buf.length = 1)) ERR_MSG_PAYLOAD_DATAITEM_LEN_MISMATCH 0
    TBRD_GetNumberOfAdcChannels.site
  return buf.headD 16

/-- Is `newVal` a possible number of submuxes of the type in `features`? -/
def validSubmuxCount (features newVal : UInt8) : Bool :=
  let submuxType := (features >>> 4) &&& 0x03
  if submuxType = 0 then newVal == 1
  else if submuxType = 1 then 1 ≤ newVal && newVal ≤ 4
  else if submuxType = 3 then newVal == 0
  else false

/-- An impossible number is only logged. -/
def TBRD_NumberOfSubmuxes.Go (value : UInt8) : Prog Exn (Machine ε) Unit := do
  let m ← get
  if validSubmuxCount m.Config.features value then
    set { m with Config := { m.Config with numberOfSubmuxes := value } }

/-! ## 4. Submux calibration -/

structure SubmuxParams where
  submuxIndex : UInt8
  gainGroupIndex : UInt8
  value : FloatBits
  deriving DecidableEq

/-- `BRD_SubmuxScale` and `BRD_SubmuxOffset`: six bytes, else all zero. -/
def SubmuxParams.ctor (buf : TBytes) : SubmuxParams :=
  match buf with
  | s :: g :: _ =>
    match readU32 buf 2 with
    | some value => { submuxIndex := s, gainGroupIndex := g, value }
    | none => { submuxIndex := 0, gainGroupIndex := 0, value := 0 }
  | _ => { submuxIndex := 0, gainGroupIndex := 0, value := 0 }

def SubmuxParams.calcPayload (p : SubmuxParams) : TBytes :=
  p.submuxIndex :: p.gainGroupIndex :: stuff32 p.value

abbrev SubmuxTable := Vector (Vector FloatBits gainGroupsPerSubmux) maxSubmuxes

/-- Set one entry of a submux table. Indices outside the table are only logged. -/
def setSubmux (v : SubmuxTable) (p : SubmuxParams) : SubmuxTable :=
  if h : p.submuxIndex.toNat < maxSubmuxes ∧ p.gainGroupIndex.toNat < gainGroupsPerSubmux then
    v.set p.submuxIndex.toNat
      ((v.get ⟨p.submuxIndex.toNat, h.1⟩).set p.gainGroupIndex.toNat p.value h.2) h.1
  else v

def TBRD_SubmuxScale.Go (p : SubmuxParams) : Prog Exn (Machine ε) Unit :=
  modify fun m => { m with Config := { m.Config with
    submuxScaleFactors := setSubmux m.Config.submuxScaleFactors p } }

def TBRD_SubmuxOffset.Go (p : SubmuxParams) : Prog Exn (Machine ε) Unit :=
  modify fun m => { m with Config := { m.Config with
    submuxOffsets := setSubmux m.Config.submuxOffsets p } }

/-- `BRD_GetSubmuxScale` and `BRD_GetSubmuxOffset`. Fields that the constructor
leaves unset are `none`. -/
structure GetSubmuxParams where
  submuxIndex : Option UInt8
  gainGroupIndex : Option UInt8
  value : Option FloatBits
  deriving DecidableEq

/-- Six bytes or more fill the whole parameter block. -/
def GetSubmuxParams.ctor (buf : TBytes) : GetSubmuxParams :=
  if buf.length = 2 then
    { submuxIndex := buf[0]?, gainGroupIndex := buf[1]?, value := none }
  else if buf.length = 4 then
    { submuxIndex := none, gainGroupIndex := none, value := readU32 buf 0 }
  else if 6 ≤ buf.length then
    { submuxIndex := buf[0]?, gainGroupIndex := buf[1]?, value := readU32 buf 2 }
  else { submuxIndex := none, gainGroupIndex := none, value := none }

/-- Look up one entry; indices outside the table give zero. -/
def GetSubmuxParams.Go (table : TConfig → SubmuxTable) (p : GetSubmuxParams) :
    Prog Exn (Machine ε) GetSubmuxParams := do
  let s ← Prog.ofOption p.submuxIndex
  let g ← Prog.ofOption p.gainGroupIndex
  let m ← get
  let row := (table m.Config)[s.toNat]?
  return { p with value := some ((row.bind fun r => r[g.toNat]?).getD 0) }

def TBRD_GetSubmuxScale.Go (p : GetSubmuxParams) : Prog Exn (Machine ε) GetSubmuxParams :=
  GetSubmuxParams.Go TConfig.submuxScaleFactors p

def TBRD_GetSubmuxOffset.Go (p : GetSubmuxParams) : Prog Exn (Machine ε) GetSubmuxParams :=
  GetSubmuxParams.Go TConfig.submuxOffsets p

def GetSubmuxParams.calcPayload (bAsReply : Bool) (p : GetSubmuxParams) : Option TBytes :=
  if bAsReply then p.value.map stuff32
  else do
    let s ← p.submuxIndex
    let g ← p.gainGroupIndex
    return [s, g]

end EnetTcp
