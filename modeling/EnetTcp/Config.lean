import Mathlib.Algebra.GroupWithZero.Nat
import EnetTcp.System

/-!
# The configuration (config.h, config.cpp)

`TConfig` is the global `Config`. Its text fields are byte strings, its `float`
fields are bit patterns. Saving a key writes one file of the configuration tree
through `AtomicWriteTextFile`.
-/

namespace EnetTcp

abbrev maxSubmuxes : Nat := 4
abbrev gainGroupsPerSubmux : Nat := 4
abbrev MAX_DACs : Nat := 4

instance : NeZero MAX_DACs := ⟨by decide⟩

structure TConfig where
  Hostname : TBytes
  Model : TBytes
  Description : TBytes
  SerialNumber : TBytes
  FpgaVersionCode : UInt32
  features : UInt8
  numberOfSubmuxes : UInt8
  submuxBarcodes : Vector TBytes maxSubmuxes
  submuxTypes : Vector TBytes maxSubmuxes
  submuxScaleFactors : Vector (Vector FloatBits gainGroupsPerSubmux) maxSubmuxes
  submuxOffsets : Vector (Vector FloatBits gainGroupsPerSubmux) maxSubmuxes
  adcChannels : UInt8
  adcDifferential : UInt8
  adcRangeCodes : Vector UInt32 16
  adcScaleCoefficients : Vector FloatBits 8
  adcOffsetCoefficients : Vector FloatBits 8
  NUM_DACs : UInt8
  dacRanges : Vector UInt32 MAX_DACs
  dacScaleCoefficients : Vector FloatBits MAX_DACs
  dacOffsetCoefficients : Vector FloatBits MAX_DACs
  deriving DecidableEq

/-- The bit pattern of `1.0f`. -/
abbrev float1 : FloatBits := 0x3F800000

/-- `InitConfig` on the zero-initialised global. -/
def InitConfig : TConfig where
  Hostname := text "enetaio000000000000000"
  Model := text "eNET-untested"
  Description := text "eNET-untested Description"
  SerialNumber := text "eNET-unset Serial Number"
  FpgaVersionCode := 0xDEADBA57
  features := 0
  numberOfSubmuxes := 0
  submuxBarcodes := Vector.replicate _ []
  submuxTypes := Vector.replicate _ []
  submuxScaleFactors := Vector.replicate _ (Vector.replicate _ float1)
  submuxOffsets := Vector.replicate _ (Vector.replicate _ 0)
  adcChannels := 16
  adcDifferential := 0
  adcRangeCodes := Vector.replicate _ 1
  adcScaleCoefficients := Vector.replicate _ float1
  adcOffsetCoefficients := Vector.replicate _ 0
  NUM_DACs := 4
  dacRanges := Vector.replicate _ 1
  dacScaleCoefficients := Vector.replicate _ float1
  dacOffsetCoefficients := Vector.replicate _ 0

/-! ## Writing a key -/

section Write

variable {ε : Type} (env : Env ε)

/-- `std::filesystem::path(path).parent_path()` of a path with a directory part. -/
def parentPath (path : TBytes) : TBytes := (path.reverse.dropWhile (· != 47)).tail.reverse

def FsyncDir (dirPath : TBytes) : Prog Exn (Sys ε) Int := do
  let dfd : Int ← syscall env (.open_ dirPath)
  if dfd < 0 then return dfd
  let rc : Int ← syscall env (.fsync dfd)
  let () ← syscall env (.close dfd)
  return rc

def MkdirP (path : TBytes) : Prog Exn (Sys ε) Int := do
  let present : Bool ← syscall env (.exists path)
  if present then return 0
  let rc : Int ← syscall env (.create_directories path)
  if rc < 0 then return rc
  FsyncDir env (parentPath path)

/-- The write loop of `AtomicWriteTextFile`. A short count goes round again; the
loop has no bound of its own, so it runs on fuel. -/
def writeAll (fd : Int) : (fuel : Nat) → TBytes → Prog Exn (Sys ε) Int
  | _, [] => return 0
  | 0, _ :: _ => Prog.undefined
  | fuel + 1, p => do
    let w : Int ← syscall env (.write fd p)
    if w < 0 then return w
    writeAll fd fuel (p.drop w.toNat)

def AtomicWriteTextFile (fuel : Nat) (path contents : TBytes) : Prog Exn (Sys ε) Int := do
  let tmp := path ++ text ".tmp"
  let fd : Int ← syscall env (.open_ tmp)
  if fd < 0 then return fd
  let w ← writeAll env fd fuel contents
  if w < 0 then
    let () ← syscall env (.close fd)
    return w
  let rc : Int ← syscall env (.fsync fd)
  if rc ≠ 0 then
    let () ← syscall env (.close fd)
    return rc
  let () ← syscall env (.close fd)
  let rc : Int ← syscall env (.rename tmp path)
  if rc ≠ 0 then return rc
  let _ ← FsyncDir env (parentPath path)
  return 0

abbrev CONFIG_PATH : String := "/var/lib/aioenetd/"
abbrev CONFIG_CURRENT : String := "config.current/"

def FilePathFor (which key : TBytes) : TBytes := text CONFIG_PATH ++ which ++ key ++ text ".conf"

/-- Every caller on the command path writes to the current configuration. -/
def WriteConfigString (fuel : Nat) (key value : TBytes) : Prog Exn (Sys ε) Int := do
  let path := FilePathFor (text CONFIG_CURRENT) key
  let _ ← MkdirP env (parentPath path)
  AtomicWriteTextFile env fuel path value

def WriteConfigU8 (fuel : Nat) (key : TBytes) (value : UInt8) : Prog Exn (Sys ε) Int :=
  WriteConfigString env fuel key (to_hex 1 value.toNat)

def WriteConfigU32 (fuel : Nat) (key : TBytes) (value : UInt32) : Prog Exn (Sys ε) Int :=
  WriteConfigString env fuel key (to_hex 4 value.toNat)

/-- The result of each write is only logged. -/
def SaveBrdConfig (fuel : Nat) (c : TConfig) : Prog Exn (Sys ε) Bool := do
  let _ ← WriteConfigString env fuel (text "BRD_Description") c.Description
  let _ ← WriteConfigString env fuel (text "BRD_Model") c.Model
  let _ ← WriteConfigU8 env fuel (text "BRD_NumberOfAdcChannels") c.adcChannels
  let _ ← WriteConfigString env fuel (text "BRD_SerialNumber") c.SerialNumber
  return true

end Write

end EnetTcp
