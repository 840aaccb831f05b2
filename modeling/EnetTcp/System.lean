import EnetTcp.Guard

/-!
# The system under the daemon: registers, files, clock

Everything the daemon asks of the driver, the file system and the clock is a
`SysCall`. An environment `Env ε` answers each call from a state of its own,
which may be anything: a register file, a disk, a script of failures. `Sys ε` is
that state with the record of all calls so far. Code that can touch nothing
else of the daemon is a program over `Sys ε`.

The second half is apci.cpp and the register helpers of utilities.cpp.
-/

namespace EnetTcp

/-! ## 1. Calls -/

/-- The calls that leave the program. -/
inductive SysCall
  | apci_read8 (offset : Nat)
  | apci_read32 (offset : Nat)
  | apci_write8 (offset : Nat) (value : UInt8)
  | apci_write32 (offset : Nat) (value : UInt32)
  | apci_dma_transfer_size
  | apci_start_dma
  | apci_cancel_irq
  | pthread_create_worker
  | steady_clock_now
  | usleep (us : Nat)
  | open_ (path : TBytes)
  | write (fd : Int) (bytes : TBytes)
  | fsync (fd : Int)
  | close (fd : Int)
  | fchmod (fd : Int)
  | mkstemp (template : TBytes)
  | rename (src dst : TBytes)
  | unlink (path : TBytes)
  | exists (path : TBytes)
  | create_directories (path : TBytes)
  | ifstream (path : TBytes)
  | ofstream_open (path : TBytes)
  | ofstream_write (bytes : TBytes)
  | ofstream_close
  | runUpdate (path : TBytes)
  | sethostname (name : TBytes)
  | access (path : TBytes)
  | system (command : TBytes)
  deriving Repr, DecidableEq

/-- What each call gives back. A register read gives `none` when the driver
reports an error. Calls that the C library signals by a number give it, negated
`errno` included. `ifstream` gives the content, empty when the file cannot be
opened. -/
def SysCall.Result : SysCall → Type
  | .apci_read8 _ => Option UInt8
  | .apci_read32 _ => Option UInt32
  | .apci_write8 .. | .apci_write32 .. => UInt32
  | .apci_dma_transfer_size | .apci_start_dma | .apci_cancel_irq => Int
  | .pthread_create_worker => Int
  | .steady_clock_now => Nat
  | .usleep _ | .close _ | .unlink _ | .runUpdate _ => Unit
  | .open_ _ | .write .. | .fsync _ | .fchmod _ | .rename .. | .create_directories _ => Int
  | .mkstemp _ => Option (Int × TBytes)
  | .exists _ | .access _ => Bool
  | .ifstream _ => TBytes
  | .ofstream_open _ | .ofstream_write _ | .ofstream_close => Bool
  | .sethostname _ | .system _ => Int

/-- How the world outside answers calls. -/
structure Env (ε : Type) where
  answer : (c : SysCall) → ε → c.Result × ε

/-- The state of the world outside and the calls made so far, oldest first. -/
structure Sys (ε : Type) where
  env : ε
  calls : List SysCall

/-- An environment for concrete runs: registers read 0, and every call succeeds. -/
def exEnv : Env Unit where
  answer c e :=
    match c with
    | .apci_read8 _ => (some (0 : UInt8), e)
    | .apci_read32 _ => (some (0 : UInt32), e)
    | .apci_write8 .. | .apci_write32 .. => ((0 : UInt32), e)
    | .apci_dma_transfer_size | .apci_start_dma | .apci_cancel_irq => ((0 : Int), e)
    | .pthread_create_worker => ((0 : Int), e)
    | .steady_clock_now => ((0 : Nat), e)
    | .usleep _ | .close _ | .unlink _ | .runUpdate _ => ((), e)
    | .open_ _ => ((3 : Int), e)
    | .write _ bytes => ((bytes.length : Int), e)
    | .fsync _ | .fchmod _ | .rename .. | .create_directories _ => ((0 : Int), e)
    | .mkstemp template => (some ((3 : Int), template), e)
    | .exists _ | .access _ => (true, e)
    | .ifstream _ => (([] : TBytes), e)
    | .ofstream_open _ | .ofstream_write _ | .ofstream_close => (true, e)
    | .sethostname _ | .system _ => ((0 : Int), e)

/-- Is the call a write to a hardware register? -/
def SysCall.isRegisterWrite : SysCall → Bool
  | .apci_write8 .. | .apci_write32 .. => true
  | _ => false

/-- The register writes issued so far, oldest first. -/
def Sys.registerWrites {ε : Type} (s : Sys ε) : List SysCall :=
  s.calls.filter SysCall.isRegisterWrite

section Calls

variable {ε : Type} (env : Env ε)

/-- Make one call and record it. -/
def syscall (c : SysCall) : Prog Exn (Sys ε) c.Result := do
  let s ← get
  let (r, e) := env.answer c s.env
  set { s with env := e, calls := s.calls ++ [c] : Sys ε }
  return r

/-! ## 2. Registers (apci.cpp, eNET-AIO16-16F.h) -/

abbrev ofsAdcRange : Nat := 0x01
abbrev ofsAdcTriggerOptions : Nat := 0x12
abbrev ofsAdcStartChannel : Nat := 0x13
abbrev ofsAdcStopChannel : Nat := 0x14
abbrev ofsAdcOversamples : Nat := 0x15
abbrev ofsAdcSoftwareStart : Nat := 0x16
abbrev ofsAdcDataFifo : Nat := 0x1C
abbrev ofsAdcFifoCount : Nat := 0x24
abbrev ofsDac : Nat := 0x30
abbrev ofsDacSpiBusy : Nat := 0x30
abbrev ofsDioDirections : Nat := 0x3C
abbrev ofsDioSpiBusy : Nat := 0x3C
abbrev ofsDioOutputs : Nat := 0x40
abbrev ofsDioInputs : Nat := 0x44
abbrev ofsFpgaID : Nat := 0xA0
abbrev ofsFeatures : Nat := 0xA4
abbrev ofsDeviceID : Nat := 0xA8
abbrev ofsAdcBaseClock : Nat := 0xAC
abbrev ofsAdcCalScale : Nat := 0xC0
abbrev ofsAdcCalScaleStride : Nat := 8
abbrev ofsAdcCalOffset : Nat := 0xC4
abbrev ofsAdcCalOffsetStride : Nat := 8
abbrev bmDacSpiBusy : UInt32 := 0x80000000
abbrev bmDioSpiBusy : UInt32 := 0x80000000

/-- The width of a register in bits, 0 for an offset that is no register. The
offsets that reach this function are never negative. -/
def widthFromOffset (ofs : Nat) : Nat :=
  if ofs < 0x18 then 8 else if ofs ≤ 0xFC ∧ ofs % 4 = 0 then 32 else 0

/-- Read a register: all ones when the driver fails or the offset is no
register. A failed 8-bit read is cut to `0xFF` by the type of `in8`. -/
def in_ (offset : Nat) : Prog Exn (Sys ε) UInt32 :=
  if widthFromOffset offset = 8 then do
    let value ← syscall env (.apci_read8 offset)
    return ((value : Option UInt8).getD 0xFF).toUInt32
  else if widthFromOffset offset = 32 then do
    let value ← syscall env (.apci_read32 offset)
    return (value : Option UInt32).getD 0xFFFFFFFF
  else return 0xFFFFFFFF

/-- Write a register and give the driver's status. -/
def out (offset : Nat) (value : UInt32) : Prog Exn (Sys ε) TError :=
  if widthFromOffset offset = 8 then syscall env (.apci_write8 offset value.toUInt8)
  else if widthFromOffset offset = 32 then syscall env (.apci_write32 offset value)
  else return 0xFFFFFFFF

/-! ## 3. Register helpers (utilities.cpp, utilities.h) -/

/-- `-ETIMEDOUT` -/
abbrev ETIMEDOUT_neg : TError := -110

/-- Read until the masked bits are low. The 101st read ends the wait with an
error whatever it finds; `attempt` counts the reads done. -/
def waitLow (offset : Nat) (bitMask : UInt32) : (attemptsLeft : Nat) → Prog Exn (Sys ε) TError
  | 0 => do
    let _ ← in_ env offset
    return ETIMEDOUT_neg
  | n + 1 => do
    let value ← in_ env offset
    if value &&& bitMask ≠ 0 then waitLow offset bitMask n else return 0

def WaitUntilRegisterBitIsLow (offset : Nat) (bitMask : UInt32) : Prog Exn (Sys ε) TError :=
  waitLow env offset bitMask 100

end Calls

/-- The little-endian `__u16` at `bs[i]`, `none` when the read leaves the vector. -/
def readU16 (bs : TBytes) (i : Nat) : Option UInt16 := do
  let b0 ← bs[i]?
  let b1 ← bs[i + 1]?
  return b0.toUInt16 ||| b1.toUInt16 <<< 8

/-- The little-endian `__u32` at `bs[i]`, `none` when the read leaves the vector. -/
def readU32 (bs : TBytes) (i : Nat) : Option UInt32 := do
  let b0 ← bs[i]?
  let b1 ← bs[i + 1]?
  let b2 ← bs[i + 2]?
  let b3 ← bs[i + 3]?
  return b0.toUInt32 ||| b1.toUInt32 <<< 8 ||| b2.toUInt32 <<< 16 ||| b3.toUInt32 <<< 24

/-- The value behind `buf` as wide as the register: `none` when `buf` is too
short for the read. -/
def regextract (buf : TBytes) (regofs : Nat) : Option UInt32 :=
  if widthFromOffset regofs = 8 then (buf[0]?).map UInt8.toUInt32
  else if widthFromOffset regofs = 32 then readU32 buf 0
  else some 0

/-- `1 << n`, which C++ defines for a 32-bit operand only below 32. -/
def shl1 (n : UInt8) : Option UInt32 := if n < 32 then some (1 <<< n.toUInt32) else none

/-- `(__u8)((v >> n) & 1)`, defined below 32 as well. -/
def bitOf (v : UInt32) (n : UInt8) : Option UInt8 :=
  if n < 32 then some ((v >>> n.toUInt32) &&& 1).toUInt8 else none

/-- `stuff<__u16>` and `stuff<__u32>`: little-endian bytes. -/
def stuff16 (v : UInt16) : TBytes := [v.toUInt8, (v >>> 8).toUInt8]

def stuff32 (v : UInt32) : TBytes :=
  [v.toUInt8, (v >>> 8).toUInt8, (v >>> 16).toUInt8, (v >>> 24).toUInt8]

end EnetTcp
