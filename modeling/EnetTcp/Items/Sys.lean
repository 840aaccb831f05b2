import EnetTcp.State

/-!
# SYS_ data items (SYS_.h, SYS_.cpp)

1. File upload. The path is checked in the constructor of `SYS_UploadFileName`.
2. `SYS_Error` and `SYS_ItemError`, the items that report errors.
-/

namespace EnetTcp

/-! ## 1. Uploads -/

def basePath : TBytes := text "/home/acces/"

/-- `std::filesystem::absolute`. An empty path is refused with a
`std::filesystem::filesystem_error`, which is no `std::logic_error`. -/
def absolutePath {σ : Type} (currentPath path : TBytes) : Prog Exn σ TBytes :=
  match path with
  | [] => throw (.stdException
      (text "filesystem error: cannot make absolute path: Invalid argument []"))
  | b :: rest =>
    if b = 47 then return b :: rest
    else if currentPath.getLast? = some 47 then return currentPath ++ b :: rest
    else return currentPath ++ [47] ++ b :: rest

/-- The new value of `path`, or `none` when the path is refused. -/
def sanitizePath {σ : Type} (currentPath path : TBytes) : Prog Exn σ (Option TBytes) :=
  if 0 ∈ path then return none
  else do
    let absPath ← absolutePath currentPath path
    let absPath := absPath.map fun b => if b = 92 then 47 else b
    if basePath.isPrefixOf absPath then return some absPath else return none

/-- A refused path leaves the item without data. -/
def TSYS_UploadFileName.ctor {σ : Type} (pf : Platform) (buf : TBytes) : Prog Exn σ TBytes := do
  let str ← sanitizePath pf.currentPath buf
  return str.getD []

section Go

variable {ε : Type} (env : Env ε)

/-- `ofs.close()`: the file is closed in any case. -/
def ofsClose : Prog Exn (Machine ε) Unit := do
  let ok : Bool ← io (syscall env .ofstream_close)
  modify fun m => { m with upload := { m.upload with
    is_open := false, fail := m.upload.fail || !ok } }

/-- `ofs.open(filename)` on a closed stream: success clears the error state. -/
def ofsOpen (filename : TBytes) : Prog Exn (Machine ε) Unit := do
  let ok : Bool ← io (syscall env (.ofstream_open filename))
  modify fun m => { m with upload := { m.upload with is_open := ok, fail := !ok } }

/-- `ofs.write(data)`: nothing is written while the error state is set. -/
def ofsWrite (data : TBytes) : Prog Exn (Machine ε) Unit := do
  if !(← get).upload.fail then
    let ok : Bool ← io (syscall env (.ofstream_write data))
    modify fun m => { m with upload := { m.upload with fail := !ok } }

/-- `if (!ofs) throw std::runtime_error(...)`; the text ends with the file name. -/
def throwIfFailed (what : String) : Prog Exn (Machine ε) Unit := do
  let m ← get
  if m.upload.fail then throw (.stdException (text what ++ m.upload.filename))

/-- The file that makes a finished upload replace the daemon. -/
def updateFileName : TBytes := text "/home/pb/eNET_TCP_Server/aioenetd.new"

/-- `UploadFilesByDataItem` for a SYS_UploadFileName item. -/
def uploadFileName (data : TBytes) : Prog Exn (Machine ε) Unit := do
  if (← get).upload.is_open then
    ofsClose env
    throwIfFailed "File Upload process failed to close file "
  modify fun m => { m with upload := { m.upload with filename := data } }
  ofsOpen env data
  throwIfFailed "File Upload process cannot open file "

/-- `UploadFilesByDataItem` for a SYS_UploadFileData item. -/
def uploadFileData (data : TBytes) : Prog Exn (Machine ε) Unit := do
  if !(← get).upload.is_open then
    throw (.stdException (text "File Upload process received data item before filename"))
  if data.isEmpty then
    ofsClose env
    throwIfFailed "File Upload process failed to close file "
    if (← get).upload.filename = updateFileName then
      let () ← io (syscall env (.runUpdate updateFileName))
  else
    ofsWrite env data
    throwIfFailed "File Upload process failed to write to file "

/-- Every exception ends in the log. -/
def TSYS_UploadFileName.Go (data : TBytes) : Prog Exn (Machine ε) Unit := do
  let _ ← (uploadFileName env data).attempt

def TSYS_UploadFileData.Go (data : TBytes) : Prog Exn (Machine ε) Unit := do
  let _ ← (uploadFileData env data).attempt

end Go

/-! ## 2. Error items -/

/-- `ReadU16LE` and `ReadU32LE` give 0 outside the payload. -/
def ReadU16LE (b : TBytes) (ofs : Nat) : UInt16 := (readU16 b ofs).getD 0
def ReadU32LE (b : TBytes) (ofs : Nat) : UInt32 := (readU32 b ofs).getD 0

structure SYS_ErrorParams where
  Stage : UInt32
  ErrorCode : UInt32
  Info : UInt32
  deriving DecidableEq

def TSYS_Error.ctor (FromBytes : TBytes) : SYS_ErrorParams where
  Stage := ReadU32LE FromBytes 0
  ErrorCode := ReadU32LE FromBytes 4
  Info := ReadU32LE FromBytes 8

def TSYS_Error.calcPayload (p : SYS_ErrorParams) : TBytes :=
  stuff32 p.Stage ++ stuff32 p.ErrorCode ++ stuff32 p.Info

structure SYS_ItemErrorParams where
  ItemIndex : UInt16
  DId : UInt16
  ErrorCode : UInt32
  Info : UInt32
  deriving DecidableEq

def TSYS_ItemError.ctor (FromBytes : TBytes) : SYS_ItemErrorParams where
  ItemIndex := ReadU16LE FromBytes 0
  DId := ReadU16LE FromBytes 2
  ErrorCode := ReadU32LE FromBytes 4
  Info := ReadU32LE FromBytes 8

def TSYS_ItemError.calcPayload (p : SYS_ItemErrorParams) : TBytes :=
  stuff16 p.ItemIndex ++ stuff16 p.DId ++ stuff32 p.ErrorCode ++ stuff32 p.Info

end EnetTcp
