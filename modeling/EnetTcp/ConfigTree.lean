import Mathlib.Data.List.FinRange
import EnetTcp.Config

/-!
# Loading the configuration (config.cpp)

`LoadConfig` reads one file for each field of `Config`. The files lie in one directory for
each layer, and a layer without a file falls back on another. `ConfigField` names the fields;
its `key` is the name of the file, its `type` says how the value is written.
-/

namespace EnetTcp

/-! ## 1. Fields -/

/-- The fields of `Config` that have a file. -/
inductive ConfigField
  | Model
  | Description
  | SerialNumber
  | adcChannels
  | adcDifferential
  | NUM_DACs
  | numberOfSubmuxes
  | adcRangeCodes (ch : Fin 16)
  | adcScaleCoefficients (range : Fin 8)
  | adcOffsetCoefficients (range : Fin 8)
  | dacRanges (ch : Fin MAX_DACs)
  | dacScaleCoefficients (ch : Fin MAX_DACs)
  | dacOffsetCoefficients (ch : Fin MAX_DACs)
  | submuxBarcodes (submux : Fin maxSubmuxes)
  | submuxTypes (submux : Fin maxSubmuxes)
  | submuxScaleFactors (submux : Fin maxSubmuxes) (gain : Fin gainGroupsPerSubmux)
  | submuxOffsets (submux : Fin maxSubmuxes) (gain : Fin gainGroupsPerSubmux)
  deriving DecidableEq

/-- A `float` is kept as its bits, like a `__u32`. -/
inductive FieldType
  | text
  | u8
  | u32
  deriving DecidableEq

def FieldType.Value : FieldType → Type
  | .text => TBytes
  | .u8 => UInt8
  | .u32 => UInt32

namespace ConfigField

def type : ConfigField → FieldType
  | Model | Description | SerialNumber | submuxBarcodes _ | submuxTypes _ => .text
  | adcChannels | adcDifferential | NUM_DACs | numberOfSubmuxes => .u8
  | adcRangeCodes _ | adcScaleCoefficients _ | adcOffsetCoefficients _ | dacRanges _
  | dacScaleCoefficients _ | dacOffsetCoefficients _ | submuxScaleFactors .. | submuxOffsets .. =>
    .u32

def key : ConfigField → TBytes
  | Model => text "BRD_Model"
  | Description => text "BRD_Description"
  | SerialNumber => text "BRD_SerialNumber"
  | adcChannels => text "BRD_NumberOfAdcChannels"
  | adcDifferential => text "ADC_Differential"
  | NUM_DACs => text "BRD_NUM_DACs"
  | numberOfSubmuxes => text "BRD_NumberOfSubmuxes"
  | adcRangeCodes ch =>
    text "ADC_RangeCodeCh" ++ (if ch < 10 then text "0" else []) ++ toDecimal ch
  | adcScaleCoefficients range => text "ADC_ScaleRange" ++ toDecimal range
  | adcOffsetCoefficients range => text "ADC_OffsetRange" ++ toDecimal range
  | dacRanges ch => text "DAC_RangeCh" ++ toDecimal ch
  | dacScaleCoefficients ch => text "DAC_ScaleCh" ++ toDecimal ch
  | dacOffsetCoefficients ch => text "DAC_OffsetCh" ++ toDecimal ch
  | submuxBarcodes submux => text "BRD_SubmuxBarcode" ++ toDecimal submux
  | submuxTypes submux => text "BRD_SubmuxType" ++ toDecimal submux
  | submuxScaleFactors submux gain =>
    text "BRD_Submux" ++ toDecimal submux ++ text "Range" ++ toDecimal gain
  | submuxOffsets submux gain =>
    text "BRD_Submux" ++ toDecimal submux ++ text "Offset" ++ toDecimal gain

def get (f : ConfigField) (c : TConfig) : f.type.Value :=
  match f with
  | Model => c.Model
  | Description => c.Description
  | SerialNumber => c.SerialNumber
  | adcChannels => c.adcChannels
  | adcDifferential => c.adcDifferential
  | NUM_DACs => c.NUM_DACs
  | numberOfSubmuxes => c.numberOfSubmuxes
  | adcRangeCodes ch => c.adcRangeCodes.get ch
  | adcScaleCoefficients range => c.adcScaleCoefficients.get range
  | adcOffsetCoefficients range => c.adcOffsetCoefficients.get range
  | dacRanges ch => c.dacRanges.get ch
  | dacScaleCoefficients ch => c.dacScaleCoefficients.get ch
  | dacOffsetCoefficients ch => c.dacOffsetCoefficients.get ch
  | submuxBarcodes submux => c.submuxBarcodes.get submux
  | submuxTypes submux => c.submuxTypes.get submux
  | submuxScaleFactors submux gain => (c.submuxScaleFactors.get submux).get gain
  | submuxOffsets submux gain => (c.submuxOffsets.get submux).get gain

def set (f : ConfigField) (c : TConfig) (v : f.type.Value) : TConfig :=
  match f, v with
  | Model, v => { c with Model := v }
  | Description, v => { c with Description := v }
  | SerialNumber, v => { c with SerialNumber := v }
  | adcChannels, v => { c with adcChannels := v }
  | adcDifferential, v => { c with adcDifferential := v }
  | NUM_DACs, v => { c with NUM_DACs := v }
  | numberOfSubmuxes, v => { c with numberOfSubmuxes := v }
  | adcRangeCodes ch, v => { c with adcRangeCodes := c.adcRangeCodes.set ch v ch.isLt }
  | adcScaleCoefficients range, v =>
    { c with adcScaleCoefficients := c.adcScaleCoefficients.set range v range.isLt }
  | adcOffsetCoefficients range, v =>
    { c with adcOffsetCoefficients := c.adcOffsetCoefficients.set range v range.isLt }
  | dacRanges ch, v => { c with dacRanges := c.dacRanges.set ch v ch.isLt }
  | dacScaleCoefficients ch, v =>
    { c with dacScaleCoefficients := c.dacScaleCoefficients.set ch v ch.isLt }
  | dacOffsetCoefficients ch, v =>
    { c with dacOffsetCoefficients := c.dacOffsetCoefficients.set ch v ch.isLt }
  | submuxBarcodes submux, v =>
    { c with submuxBarcodes := c.submuxBarcodes.set submux v submux.isLt }
  | submuxTypes submux, v =>
    { c with submuxTypes := c.submuxTypes.set submux v submux.isLt }
  | submuxScaleFactors submux gain, v =>
    { c with submuxScaleFactors :=
        c.submuxScaleFactors.set submux (c.submuxScaleFactors[submux].set gain v) }
  | submuxOffsets submux gain, v =>
    { c with submuxOffsets :=
        c.submuxOffsets.set submux (c.submuxOffsets[submux].set gain v) }

end ConfigField

namespace FieldLemmas

variable {α : Type} {n m : Nat}

theorem set_self (v : Vector α n) (i : Fin n) (x : α) : (v.set i x)[i] = x :=
  Vector.getElem_set_self _

theorem set_of_ne (v : Vector α n) {i j : Fin n} (h : i ≠ j) (x : α) : (v.set j x)[i] = v[i] :=
  Vector.getElem_set_ne _ _ fun hij => h (Fin.ext hij.symm)

/-- One entry of a table. -/
theorem table_set_self (t : Vector (Vector α n) m) (i : Fin m) (k : Fin n) (x : α) :
    (t.set i (t[i].set k x))[i][k] = x := by
  rw [set_self, set_self]

theorem table_set_of_ne (t : Vector (Vector α n) m) {i j : Fin m} {k l : Fin n}
    (h : ¬(i = j ∧ k = l)) (x : α) : (t.set j (t[j].set l x))[i][k] = t[i][k] := by
  by_cases hij : i = j
  · subst hij
    rw [set_self, set_of_ne _ (fun hkl => h ⟨rfl, hkl⟩)]
  · rw [set_of_ne _ hij]

end FieldLemmas

open FieldLemmas

namespace ConfigField

variable {c : TConfig}

theorem get_set_self (f : ConfigField) (v : f.type.Value) : f.get (f.set c v) = v := by
  cases f with
  | Model | Description | SerialNumber | adcChannels | adcDifferential | NUM_DACs
  | numberOfSubmuxes => rfl
  | adcRangeCodes _ | adcScaleCoefficients _ | adcOffsetCoefficients _ | dacRanges _
  | dacScaleCoefficients _ | dacOffsetCoefficients _ | submuxBarcodes _ | submuxTypes _ =>
    exact set_self _ _ _
  | submuxScaleFactors _ _ | submuxOffsets _ _ => exact table_set_self _ _ _ _

theorem get_set_of_ne {f f' : ConfigField} (h : f ≠ f') (v : f'.type.Value) :
    f.get (f'.set c v) = f.get c := by
  cases f <;> cases f' <;> try rfl
  all_goals first
    | exact absurd rfl h
    | exact set_of_ne _ (fun heq => h (congrArg _ heq)) _
    | exact table_set_of_ne _ (fun heq => h (by rw [heq.1, heq.2])) _

end ConfigField

/-! ## 2. Files -/

/-- What the file system has under a path. -/
inductive ConfFile
  | absent
  /-- `open` fails. -/
  | unopenable (errno : Nat)
  /-- `read` fails. -/
  | unreadable (errno : Nat)
  | content (bytes : TBytes)

abbrev ConfigTree := TBytes → ConfFile

abbrev CONFIG_FACTORY : String := "config.factory/"
abbrev CONFIG_USER : String := "config.user/"
abbrev ENOENT_neg : Int := -2
abbrev EINVAL_neg : Int := -22

def ConfFile.exists : ConfFile → Bool
  | .absent => false
  | _ => true

/-- The loop that takes line ends off the back of a string. -/
def stripLineEnds (value : TBytes) : TBytes :=
  (value.reverse.dropWhile fun b => b == 10 || b == 13).reverse

section Load

variable {σ : Type} (tree : ConfigTree)

/-- The buffer takes 1023 bytes, and the string ends at the first zero byte. -/
def ReadConfigStringRaw (key which : TBytes) : Except Int TBytes :=
  match tree (FilePathFor which key) with
  | .absent => .error ENOENT_neg
  | .unopenable errno | .unreadable errno => .error (-errno)
  | .content bytes => .ok (stripLineEnds ((bytes.take 1023).takeWhile (· != 0)))

def ReadConfigString (key which : TBytes) : Except Int TBytes :=
  if (tree (FilePathFor which key)).exists then ReadConfigStringRaw tree key which
  else if (text CONFIG_USER).isPrefixOf which &&
      (tree (FilePathFor (text CONFIG_CURRENT) key)).exists then
    ReadConfigStringRaw tree key (text CONFIG_CURRENT)
  else if (tree (FilePathFor (text CONFIG_FACTORY) key)).exists then
    ReadConfigStringRaw tree key (text CONFIG_FACTORY)
  else .error ENOENT_neg

/-- The number in a file, which must have as many characters. What `std::stoul` throws is a
`std::logic_error`. -/
def readConfigHex (digits : Nat) (key which : TBytes) : Prog Exn σ (Except Int Nat) :=
  match ReadConfigString tree key which with
  | .error rc => return .error rc
  | .ok v =>
    if v.length < digits then return .error EINVAL_neg
    else
      match stoul 16 v with
      | none => throw (.logicError (text "stoul"))
      | some n => return .ok n

def ReadConfigU8 (key which : TBytes) : Prog Exn σ (Except Int UInt8) := do
  return (← readConfigHex tree 2 key which).map UInt8.ofNat

/-- `ReadConfigFloat` reads the bits in the same way. -/
def ReadConfigU32 (key which : TBytes) : Prog Exn σ (Except Int UInt32) := do
  return (← readConfigHex tree 8 key which).map UInt32.ofNat

def readConfig (key which : TBytes) : (t : FieldType) → Prog Exn σ (Except Int t.Value)
  | .text => return ReadConfigString tree key which
  | .u8 => ReadConfigU8 tree key which
  | .u32 => ReadConfigU32 tree key which

/-- Read a field. An error is only logged. -/
def loadField (which : TBytes) (f : ConfigField) : Prog Exn TConfig Unit := do
  match ← readConfig tree f.key which f.type with
  | .ok v => modify fun c => f.set c v
  | .error _ => return ()

def loadFields (which : TBytes) (fs : List ConfigField) : Prog Exn TConfig Unit :=
  forM fs (loadField tree which)

/-! ## 3. LoadConfig -/

/-- `std::getline` from `/etc/hostname`. -/
def LoadHostname : Prog Exn TConfig Unit :=
  match tree (text "/etc/hostname") with
  | .absent | .unopenable _ => return ()
  | .unreadable _ => modify fun c => { c with Hostname := [] }
  | .content bytes => modify fun c => { c with Hostname := bytes.takeWhile (· != 10) }

end Load

def dacCalFields : List ConfigField :=
  (List.finRange _).map .dacScaleCoefficients ++ (List.finRange _).map .dacOffsetCoefficients

def adcCalFields : List ConfigField :=
  (List.finRange _).map .adcScaleCoefficients ++ (List.finRange _).map .adcOffsetCoefficients

def dacFields : List ConfigField := .NUM_DACs :: (List.finRange _).map .dacRanges

def adcFields : List ConfigField := .adcDifferential :: (List.finRange _).map .adcRangeCodes

def submuxFields : List ConfigField :=
  .numberOfSubmuxes :: ((List.finRange _).map .submuxBarcodes ++
    (List.finRange _).map .submuxTypes ++
    (List.finRange _).flatMap (fun submux => (List.finRange _).map (.submuxScaleFactors submux)) ++
    (List.finRange _).flatMap fun submux => (List.finRange _).map (.submuxOffsets submux))

section Load

variable (tree : ConfigTree) (which : TBytes)

def LoadDacCalConfig : Prog Exn TConfig Unit := loadFields tree which dacCalFields

def LoadAdcCalConfig : Prog Exn TConfig Unit := loadFields tree which adcCalFields

def LoadCalConfig : Prog Exn TConfig Unit := do
  LoadDacCalConfig tree which
  LoadAdcCalConfig tree which

def LoadDacConfig : Prog Exn TConfig Unit := loadFields tree which dacFields

def LoadAdcConfig : Prog Exn TConfig Unit := loadFields tree which adcFields

def LoadSubmuxConfig : Prog Exn TConfig Unit := loadFields tree which submuxFields

def LoadBrdConfig : Prog Exn TConfig Unit :=
  loadFields tree which [.Model, .adcChannels, .Description, .SerialNumber]

def LoadConfig : Prog Exn TConfig Unit := do
  LoadHostname tree
  LoadBrdConfig tree which
  LoadCalConfig tree which
  LoadDacConfig tree which
  LoadAdcConfig tree which
  LoadSubmuxConfig tree which

end Load

/-- All fields, in the order in which they are loaded. -/
def loadedFields : List ConfigField :=
  [.Model, .adcChannels, .Description, .SerialNumber] ++ dacCalFields ++ adcCalFields ++
    dacFields ++ adcFields ++ submuxFields

theorem mem_loadedFields (f : ConfigField) : f ∈ loadedFields := by
  cases f <;> simp [loadedFields, dacCalFields, adcCalFields, dacFields, adcFields, submuxFields]

theorem loadedKeys_nodup : (loadedFields.map ConfigField.key).Nodup := by decide +kernel

theorem loadedFields_nodup : loadedFields.Nodup := loadedKeys_nodup.of_map

/-- No two fields share a file. -/
theorem key_injective {f f' : ConfigField} (h : f.key = f'.key) : f = f' :=
  List.inj_on_of_nodup_map loadedKeys_nodup (mem_loadedFields f) (mem_loadedFields f') h

end EnetTcp
