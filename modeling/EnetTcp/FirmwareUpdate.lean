import EnetTcp.Lib.Files
import EnetTcp.Lib.Triples
import EnetTcp.Types

/-!
# Replacing the daemon's program (SYS_.cpp)

The daemon boots through the symbolic link `/opt/aioenet/aioenetd`. `Update` points it at
a backup copy while it writes the new program, and `Revert` moves the backup back. Every
call of the system may fail or be the last one before a crash, and a write may have put
any number of its bytes into the file by then. A crash is one of the process: what the calls
before it have done is on the disk, also without a sync.

Results:
1. `update_boots`: whenever `Update` is cut off, the link leads to the old program or to
   the new one, complete and executable; without an error it is the new one.
2. `revert_boots_iff`: when `Revert` is safe in the same sense.
3. `revert_restores`: what `Revert` has done when it returns no error, whatever stood at the
   link and at the program's path.
-/

namespace EnetTcp

namespace Firmware

open Prog

/-! ## 1. Calls that fail -/

/-- A call that fails leaves an `errno` other than 0. -/
abbrev Errno : Type := { e : Nat // e ≠ 0 }

def ENOENT : Errno := ⟨2, by decide⟩
def EEXIST : Errno := ⟨17, by decide⟩

/-- How a call ends. Of the bytes that it writes, `n` are in the file by then; what a
stream has not written yet stays in its buffer. -/
inductive Outcome
  | done (n : Nat)
  | fails (n : Nat) (errno : Errno)
  | crash (n : Nat)
  deriving DecidableEq

/-- What ends a program. `exists` and `remove` throw when they fail. -/
inductive Stop
  | crash
  | filesystem_error (errno : Errno)
  deriving DecidableEq

/-- The files, and the buffer of the open `ofstream`. -/
structure Disk where
  files : FileSystem TBytes UInt8
  buffer : TBytes := []

/-- `outcomes` are those of the calls to come. Behind them the system has crashed. -/
structure UpdateState where
  disk : Disk
  outcomes : List Outcome

abbrev Op (α : Type) : Type := Prog Stop UpdateState α

/-- A call that does `full n` when it is done and `part n` otherwise. -/
def call (full part : Nat → Disk → Disk) : Op (Option Errno) := do
  let s ← get
  match s.outcomes with
  | [] => throw .crash
  | .done n :: outcomes => do
    set { disk := full n s.disk, outcomes : UpdateState }
    return none
  | .fails n errno :: outcomes => do
    set { disk := part n s.disk, outcomes : UpdateState }
    return some errno
  | .crash n :: outcomes => do
    set { disk := part n s.disk, outcomes : UpdateState }
    throw .crash

/-- A call that is done at once or not at all. -/
def atomicCall (f : FileSystem TBytes UInt8 → FileSystem TBytes UInt8) : Op (Option Errno) :=
  call (fun _ d => { d with files := f d.files }) fun _ d => d

def files : Op (FileSystem TBytes UInt8) := return (← get).disk.files

/-- `std::filesystem::exists` -/
def pathExists (p : TBytes) : Op Bool := do
  if let some errno ← atomicCall id then throw (.filesystem_error errno)
  return ((← files).read p).isSome

/-- `std::filesystem::remove` -/
def remove (p : TBytes) : Op Unit := do
  if let some errno ← atomicCall (·.put p none) then throw (.filesystem_error errno)

def symlink (target linkpath : TBytes) : Op (Option Errno) := do
  if ((← files) linkpath).isSome then return some EEXIST
  atomicCall (·.put linkpath (some (.symlink target)))

/-- `renameat2` with `RENAME_EXCHANGE` -/
def renameExchange (p q : TBytes) : Op (Option Errno) := do
  let fs ← files
  if (fs p).isNone || (fs q).isNone then return some ENOENT
  atomicCall (·.exchange p q)

/-- `std::filesystem::rename` -/
def renameFile (p q : TBytes) : Op (Option Errno) := do
  if ((← files) p).isNone then return some ENOENT
  atomicCall (·.rename p q)

/-- Set the mode bits of the file at `p`. -/
def setMode (p : TBytes) (executable : Bool) : Op (Option Errno) :=
  atomicCall (·.mapFile p fun content _ => .file content executable)

def appendBytes (p : TBytes) (bytes : TBytes) (d : Disk) : Disk :=
  { d with files := d.files.mapFile p fun content executable =>
      .file (content ++ bytes) executable }

/-- `std::filesystem::copy` of a file: a new file, its mode, its content. -/
def copy (source dest : TBytes) : Op (Option Errno) := do
  match (← files).read source with
  | none => return some ENOENT
  | some (content, executable) =>
    if ((← files) dest).isSome then return some EEXIST
    if let some errno ← atomicCall (·.put dest (some (.file [] false))) then return some errno
    if let some errno ← setMode dest executable then return some errno
    call (fun _ => appendBytes dest content) fun n => appendBytes dest (content.take n)

/-- `std::ofstream file(p, std::ios::binary)`, for a path that is no link. -/
def ofstreamOpen (p : TBytes) : Op (Option Errno) :=
  atomicCall fun fs =>
    match fs p with
    | none => fs.put p (some (.file [] false))
    | some _ => fs.mapFile p fun _ executable => .file [] executable

def ofstreamWrite (p bytes : TBytes) : Op (Option Errno) :=
  call (fun n d => { appendBytes p (bytes.take n) d with buffer := bytes.drop n })
    fun n d => appendBytes p (bytes.take n) d

def ofstreamClose (p : TBytes) : Op (Option Errno) :=
  call (fun _ d => { appendBytes p d.buffer d with buffer := [] })
    fun n d => appendBytes p (d.buffer.take n) d

/-! ## 2. The source -/

def PATH_ROOT : TBytes := text "/home/acces/eNET_TCP_Server/"

def aioenetd : TBytes := PATH_ROOT ++ text "aioenetd"

/-- The link that runs at boot. -/
def bootLink : TBytes := text "/opt/aioenet/aioenetd"

section Source

-- `__DATE__` and `__TIME__` of this program in the format `%Y-%m-%d_%H-%M-%S`
variable (timestamp : TBytes)

def generateBackupFilenameWithBuildTime (base : TBytes) : TBytes :=
  base ++ timestamp ++ text ".backup"

def backupFile : TBytes :=
  PATH_ROOT ++ generateBackupFilenameWithBuildTime timestamp (text "aioenetd_")

def tempLink : TBytes :=
  generateBackupFilenameWithBuildTime timestamp (PATH_ROOT ++ text "temp_link")

def update_symlink_atomic (target linkpath : TBytes) : Op (Option Errno) := do
  let tmp := tempLink timestamp
  if ← pathExists tmp then remove tmp
  if let some errno ← symlink target tmp then return some errno
  renameExchange tmp linkpath

def Update (newfile : TBytes) : Op (Option Errno) := do
  if let some ec ← copy aioenetd (backupFile timestamp) then return some ec
  if let some ec ← update_symlink_atomic timestamp (backupFile timestamp) bootLink then
    return some ec
  if let some errno ← ofstreamOpen aioenetd then return some errno
  if let some errno ← ofstreamWrite aioenetd newfile then
    let closed ← ofstreamClose aioenetd
    return some (closed.getD errno)
  if let some errno ← ofstreamClose aioenetd then return some errno
  if let some errno ← setMode aioenetd true then return some errno
  update_symlink_atomic timestamp aioenetd bootLink

def Revert : Op (Option Errno) := do
  unless ← pathExists (backupFile timestamp) do return some ENOENT
  if let some ec ← renameFile (backupFile timestamp) aioenetd then return some ec
  update_symlink_atomic timestamp aioenetd bootLink

/-- The end of `UploadFilesByDataItem` for the file with the new program. -/
def install (newfile : TBytes) : Op Unit := do
  if (← Update timestamp newfile).isSome then
    let _ ← Revert timestamp

end Source

/-! ## 3. What a call keeps -/

/-- Something holds of the files and the buffer. -/
def On (P : Disk → Prop) (s : UpdateState) : Prop := P s.disk

section Rules

variable {P : Disk → Prop} {Q : Option Errno → Disk → Prop} {E : Disk → Prop}

theorem triple_call {full part : Nat → Disk → Disk} (hcrashed : ∀ d, P d → E d)
    (hdone : ∀ d n, P d → Q none (full n d)) (hfails : ∀ d n errno, P d → Q (some errno) (part n d))
    (hcrash : ∀ d n, P d → E (part n d)) :
    Triple (On P) (call full part) (fun r => On (Q r)) fun _ => On E := by
  rintro ⟨d, outcomes⟩ hd r s' hrun
  have hd : P d := hd
  unfold call at hrun
  rw [exec_get_bind] at hrun
  cases outcomes with
  | nil =>
    cases hrun
    exact hcrashed d hd
  | cons o outcomes =>
    cases o with
    | done n =>
      cases hrun
      exact hdone d n hd
    | fails n errno =>
      cases hrun
      exact hfails d n errno hd
    | crash n =>
      cases hrun
      exact hcrash d n hd

theorem triple_atomicCall {f : FileSystem TBytes UInt8 → FileSystem TBytes UInt8}
    (hcrashed : ∀ d, P d → E d) (hdone : ∀ d, P d → Q none { d with files := f d.files })
    (hfails : ∀ d errno, P d → Q (some errno) d) :
    Triple (On P) (atomicCall f) (fun r => On (Q r)) fun _ => On E :=
  triple_call hcrashed (fun d _ => hdone d) (fun d _ => hfails d) fun d _ => hcrashed d

theorem triple_files : Triple (On P) files (fun fs => On fun d => d.files = fs ∧ P d)
    fun _ => On E := by
  intro s hs r s' hrun
  cases hrun
  exact ⟨rfl, hs⟩

/-- `if (ec) return ec;` -/
theorem triple_checked {p q : Op (Option Errno)} {P : UpdateState → Prop}
    {R Q : Option Errno → UpdateState → Prop} {E : Stop → UpdateState → Prop}
    (hp : Triple P p R E) (herror : ∀ ec s, R (some ec) s → Q (some ec) s)
    (hq : Triple (R none) q Q E) :
    Triple P
      (p >>= fun r =>
        match r with
        | some ec => pure (some ec)
        | _ => q) Q E := by
  refine triple_bind hp ?_
  rintro (_ | ec)
  · exact hq
  · exact triple_pure fun s hs => herror ec s hs

theorem triple_pathExists {P E : Disk → Prop} {p : TBytes} (hE : ∀ d, P d → E d) :
    Triple (On P) (pathExists p) (fun r => On fun d => r = (d.files.read p).isSome ∧ P d)
      fun _ => On E := by
  unfold pathExists
  refine triple_bind (R := fun _ => On P)
    (triple_atomicCall hE (fun d hd => hd) fun d _ hd => hd) ?_
  rintro (_ | errno)
  · refine triple_bind triple_files fun fs => triple_pure ?_
    rintro s ⟨rfl, hs⟩
    exact ⟨rfl, hs⟩
  · exact triple_bind (triple_throw (Q := fun _ _ => False) fun s hs => hE s.disk hs)
      fun _ s hs => hs.elim

theorem triple_remove {P Q E : Disk → Prop} {p : TBytes} (hE : ∀ d, P d → E d)
    (hdone : ∀ d, P d → Q { d with files := d.files.put p none }) :
    Triple (On P) (remove p) (fun _ => On Q) fun _ => On E := by
  unfold remove
  refine triple_bind (R := fun r => On fun d => if r = none then Q d else P d)
    (triple_atomicCall hE (fun d hd => hdone d hd) fun d _ hd => hd) ?_
  rintro (_ | errno)
  · exact triple_pure fun s hs => hs
  · exact triple_throw fun s hs => hE s.disk hs

theorem triple_symlink {P E : Disk → Prop} {Q : Option Errno → Disk → Prop}
    {target linkpath : TBytes} (hE : ∀ d, P d → E d) (hfails : ∀ d errno, P d → Q (some errno) d)
    (hdone : ∀ d, P d →
      Q none { d with files := d.files.put linkpath (some (.symlink target)) }) :
    Triple (On P) (symlink target linkpath) (fun r => On (Q r)) fun _ => On E := by
  unfold symlink
  refine triple_bind triple_files fun fs => triple_ite (fun _ => triple_pure ?_) fun _ => ?_
  · rintro s ⟨-, hs⟩
    exact hfails s.disk EEXIST hs
  · exact triple_atomicCall (fun d hd => hE d hd.2) (fun d hd => hdone d hd.2)
      fun d errno hd => hfails d errno hd.2

theorem triple_renameExchange {P E : Disk → Prop} {Q : Option Errno → Disk → Prop} {p q : TBytes}
    (hE : ∀ d, P d → E d) (hfails : ∀ d errno, P d → Q (some errno) d)
    (hdone : ∀ d, P d → Q none { d with files := d.files.exchange p q }) :
    Triple (On P) (renameExchange p q) (fun r => On (Q r)) fun _ => On E := by
  unfold renameExchange
  refine triple_bind triple_files fun fs => triple_ite (fun _ => triple_pure ?_) fun _ => ?_
  · rintro s ⟨-, hs⟩
    exact hfails s.disk ENOENT hs
  · exact triple_atomicCall (fun d hd => hE d hd.2) (fun d hd => hdone d hd.2)
      fun d errno hd => hfails d errno hd.2

theorem triple_renameFile {P E : Disk → Prop} {Q : Option Errno → Disk → Prop} {p q : TBytes}
    (hE : ∀ d, P d → E d) (hfails : ∀ d errno, P d → Q (some errno) d)
    (hdone : ∀ d, P d → Q none { d with files := d.files.rename p q }) :
    Triple (On P) (renameFile p q) (fun r => On (Q r)) fun _ => On E := by
  unfold renameFile
  refine triple_bind triple_files fun fs => triple_ite (fun _ => triple_pure ?_) fun _ => ?_
  · rintro s ⟨-, hs⟩
    exact hfails s.disk ENOENT hs
  · exact triple_atomicCall (fun d hd => hE d hd.2) (fun d hd => hdone d hd.2)
      fun d errno hd => hfails d errno hd.2

end Rules

/-! ## 4. The paths -/

section Paths

variable (ts : TBytes)

theorem backupFile_ne_aioenetd : backupFile ts ≠ aioenetd := by
  intro h
  have hbyte : (backupFile ts)[36]? = some 0x5F := rfl
  rw [h] at hbyte
  cases hbyte

theorem tempLink_ne_aioenetd : tempLink ts ≠ aioenetd := by
  intro h
  have hbyte : (tempLink ts)[28]? = some 0x74 := rfl
  rw [h] at hbyte
  cases hbyte

theorem tempLink_ne_backupFile : tempLink ts ≠ backupFile ts := by
  intro h
  have hbyte : (tempLink ts)[28]? = some 0x74 := rfl
  rw [h] at hbyte
  cases hbyte

theorem bootLink_ne_backupFile : bootLink ≠ backupFile ts := by
  intro h
  have hbyte : (backupFile ts)[1]? = some 0x68 := rfl
  rw [← h] at hbyte
  cases hbyte

theorem bootLink_ne_tempLink : bootLink ≠ tempLink ts := by
  intro h
  have hbyte : (tempLink ts)[1]? = some 0x68 := rfl
  rw [← h] at hbyte
  cases hbyte

theorem bootLink_ne_aioenetd : bootLink ≠ aioenetd := by decide

end Paths

/-! ## 5. Update -/

def linkTo (target : TBytes) : Option (Node TBytes UInt8) := some (.symlink target)

/-- What stands at the link, and at the two paths of the program. -/
structure Stage (ts : TBytes) (link actual backup : Option (Node TBytes UInt8))
    (fs : FileSystem TBytes UInt8) : Prop where
  link : fs bootLink = link
  actual : fs aioenetd = actual
  backup : fs (backupFile ts) = backup

section Update

variable {ts old : TBytes} {link actual backup : Option (Node TBytes UInt8)}
  {fs : FileSystem TBytes UInt8}

theorem Stage.read_actual (h : Stage ts (linkTo aioenetd) (some (.file old true)) backup fs) :
    fs.read bootLink = some (old, true) :=
  FileSystem.read_symlink h.link h.actual

theorem Stage.read_backup
    (h : Stage ts (linkTo (backupFile ts)) actual (some (.file old true)) fs) :
    fs.read bootLink = some (old, true) :=
  FileSystem.read_symlink h.link h.backup

/-- A change of the temporary link. -/
theorem Stage.temp (h : Stage ts link actual backup fs) (node : Option (Node TBytes UInt8)) :
    Stage ts link actual backup (fs.put (tempLink ts) node) where
  link := (FileSystem.put_other (bootLink_ne_tempLink ts)).trans h.link
  actual := (FileSystem.put_other (tempLink_ne_aioenetd ts).symm).trans h.actual
  backup := (FileSystem.put_other (tempLink_ne_backupFile ts).symm).trans h.backup

theorem Stage.create_backup (h : Stage ts link actual backup fs)
    (node : Option (Node TBytes UInt8)) :
    Stage ts link actual node (fs.put (backupFile ts) node) where
  link := (FileSystem.put_other (bootLink_ne_backupFile ts)).trans h.link
  actual := (FileSystem.put_other (backupFile_ne_aioenetd ts).symm).trans h.actual
  backup := FileSystem.put_same

/-- The exchange of the temporary link with the link. -/
theorem Stage.exchange {newTarget : TBytes} (h : Stage ts link actual backup fs)
    (htemp : fs (tempLink ts) = some (.symlink newTarget)) :
    Stage ts (linkTo newTarget) actual backup (fs.exchange (tempLink ts) bootLink) where
  link := FileSystem.exchange_right.trans htemp
  actual := (FileSystem.exchange_other (tempLink_ne_aioenetd ts).symm
    bootLink_ne_aioenetd.symm).trans h.actual
  backup := (FileSystem.exchange_other (tempLink_ne_backupFile ts).symm
    (bootLink_ne_backupFile ts).symm).trans h.backup

/-- A change of the program's file. -/
theorem Stage.write_actual {content : TBytes} {executable : Bool}
    (h : Stage ts link (some (.file content executable)) backup fs)
    (f : TBytes → Bool → Node TBytes UInt8) :
    Stage ts link (some (f content executable)) backup (fs.mapFile aioenetd f) where
  link := (FileSystem.mapFile_other bootLink_ne_aioenetd).trans h.link
  actual := FileSystem.mapFile_same h.actual
  backup := (FileSystem.mapFile_other (backupFile_ne_aioenetd ts)).trans h.backup

/-- A change of the backup's file. -/
theorem Stage.write_backup {content : TBytes} {executable : Bool}
    (h : Stage ts link actual (some (.file content executable)) fs)
    (f : TBytes → Bool → Node TBytes UInt8) :
    Stage ts link actual (some (f content executable)) (fs.mapFile (backupFile ts) f) where
  link := (FileSystem.mapFile_other (bootLink_ne_backupFile ts)).trans h.link
  actual := (FileSystem.mapFile_other (backupFile_ne_aioenetd ts).symm).trans h.actual
  backup := FileSystem.mapFile_same h.backup

/-- The link leads to the new target behind the exchange, and not before. -/
theorem triple_update_symlink (newTarget : TBytes) :
    Triple (On fun d => Stage ts link actual backup d.files)
      (update_symlink_atomic ts newTarget bootLink)
      (fun r => On fun d =>
        if r = none then Stage ts (linkTo newTarget) actual backup d.files
        else Stage ts link actual backup d.files)
      fun _ => On fun d => Stage ts link actual backup d.files := by
  unfold update_symlink_atomic
  have hrest : Triple (On fun d => Stage ts link actual backup d.files)
      (do
        if let some errno ← symlink newTarget (tempLink ts) then return some errno
        renameExchange (tempLink ts) bootLink)
      (fun r => On fun d =>
        if r = none then Stage ts (linkTo newTarget) actual backup d.files
        else Stage ts link actual backup d.files)
      fun _ => On fun d => Stage ts link actual backup d.files := by
    refine triple_checked (R := fun r => On fun d => Stage ts link actual backup d.files ∧
      (r = none → d.files (tempLink ts) = some (.symlink newTarget))) ?_ ?_ ?_
    · refine triple_symlink (fun _ hd => hd) (fun d errno hd => ⟨hd, nofun⟩) fun d hd => ?_
      exact ⟨hd.temp _, fun _ => FileSystem.put_same⟩
    · rintro ec s ⟨hs, -⟩
      exact hs
    · exact triple_renameExchange (fun _ hd => hd.1) (fun d errno hd => hd.1)
        fun d hd => hd.1.exchange (hd.2 rfl)
  refine triple_bind (triple_pathExists fun _ hd => hd) fun found => ?_
  refine triple_ite (fun _ => ?_) fun _ => ?_
  · refine triple_bind (triple_remove (fun _ hd => hd.2) fun d hd => hd.2.temp none) fun _ => hrest
  · exact hrest.pre fun _ hs => hs.2

/-- The copy is complete when no error is reported. -/
theorem triple_copy :
    Triple (On fun d => Stage ts (linkTo aioenetd) (some (.file old true)) backup d.files)
      (copy aioenetd (backupFile ts))
      (fun r => On fun d => ∃ backup',
        Stage ts (linkTo aioenetd) (some (.file old true)) backup' d.files ∧
        (r = none → backup' = some (.file old true)))
      fun _ => On fun d => ∃ backup',
        Stage ts (linkTo aioenetd) (some (.file old true)) backup' d.files := by
  unfold copy
  refine triple_bind triple_files fun fs => ?_
  refine triple_of (F := fs.read aioenetd = some (old, true)) ?_ fun hread => ?_
  · rintro s ⟨rfl, hs⟩
    exact FileSystem.read_file hs.actual
  rw [hread]
  refine triple_bind triple_files fun fs' => triple_ite (fun _ => triple_pure ?_) fun hfree => ?_
  · rintro s ⟨-, -, hs⟩
    exact ⟨backup, hs, nofun⟩
  refine triple_checked (R := fun r => On fun d => ∃ backup',
    Stage ts (linkTo aioenetd) (some (.file old true)) backup' d.files ∧
      (r = none → backup' = some (.file [] false))) ?_ ?_ ?_
  · exact triple_atomicCall (fun d hd => ⟨backup, hd.2.2⟩)
      (fun d hd => ⟨_, hd.2.2.create_backup _, fun _ => rfl⟩)
      fun d errno hd => ⟨backup, hd.2.2, nofun⟩
  · rintro ec s ⟨backup', hs, -⟩
    exact ⟨backup', hs, nofun⟩
  refine triple_checked (R := fun r => On fun d => ∃ backup',
    Stage ts (linkTo aioenetd) (some (.file old true)) backup' d.files ∧
      (r = none → backup' = some (.file [] true))) ?_ ?_ ?_
  · refine triple_atomicCall (fun d hd => hd.imp fun _ h => h.1) ?_ ?_
    · rintro d ⟨backup', hd, hempty⟩
      cases hempty rfl
      exact ⟨_, hd.write_backup _, fun _ => rfl⟩
    · rintro d errno ⟨backup', hd, -⟩
      exact ⟨backup', hd, nofun⟩
  · rintro ec s ⟨backup', hs, -⟩
    exact ⟨backup', hs, nofun⟩
  · refine triple_call (fun d hd => hd.imp fun _ h => h.1) ?_ ?_ ?_
    · rintro d n ⟨backup', hd, hempty⟩
      cases hempty rfl
      exact ⟨_, hd.write_backup _, fun _ => rfl⟩
    · rintro d n errno ⟨backup', hd, hempty⟩
      cases hempty rfl
      exact ⟨_, hd.write_backup _, nofun⟩
    · rintro d n ⟨backup', hd, hempty⟩
      cases hempty rfl
      exact ⟨_, hd.write_backup _⟩

/-- The link leads to the backup while the program's file is written. -/
def Writing (ts old content : TBytes) (d : Disk) : Prop :=
  Stage ts (linkTo (backupFile ts)) (some (.file content true)) (some (.file old true)) d.files

theorem Writing.boots {content : TBytes} {d : Disk} (h : Writing ts old content d) :
    d.files.read bootLink = some (old, true) :=
  h.read_backup

theorem Writing.append {content : TBytes} {d : Disk} (h : Writing ts old content d)
    (bytes buffer : TBytes) :
    Writing ts old (content ++ bytes) ⟨(appendBytes aioenetd bytes d).files, buffer⟩ :=
  h.write_actual fun content executable => .file (content ++ bytes) executable

theorem triple_ofstreamOpen :
    Triple (On (Writing ts old old)) (ofstreamOpen aioenetd)
      (fun r => On fun d => ∃ content, Writing ts old content d ∧ (r = none → content = []))
      fun _ => On fun d => d.files.read bootLink = some (old, true) := by
  refine triple_atomicCall (fun d hd => hd.boots) (fun d hd => ⟨[], ?_, fun _ => rfl⟩)
    fun d errno hd => ⟨old, hd, nofun⟩
  have hfile : d.files aioenetd = some (.file old true) := hd.actual
  unfold Writing
  rw [hfile]
  exact hd.write_actual fun _ executable => .file [] executable

theorem triple_ofstreamWrite (bytes : TBytes) :
    Triple (On (Writing ts old [])) (ofstreamWrite aioenetd bytes)
      (fun r => On fun d => ∃ content, Writing ts old content d ∧
        (r = none → content ++ d.buffer = bytes))
      fun _ => On fun d => d.files.read bootLink = some (old, true) := by
  refine triple_call (fun d hd => hd.boots) (fun d n hd => ?_) (fun d n errno hd => ?_)
    fun d n hd => ?_
  · exact ⟨bytes.take n, hd.append (bytes.take n) _, fun _ => List.take_append_drop n bytes⟩
  · exact ⟨bytes.take n, hd.append (bytes.take n) d.buffer, nofun⟩
  · exact (hd.append (bytes.take n) d.buffer).boots

theorem triple_ofstreamClose {bytes : TBytes} :
    Triple (On fun d => ∃ content, Writing ts old content d ∧ content ++ d.buffer = bytes)
      (ofstreamClose aioenetd)
      (fun r => On fun d => ∃ content, Writing ts old content d ∧ (r = none → content = bytes))
      fun _ => On fun d => d.files.read bootLink = some (old, true) := by
  refine triple_call ?_ ?_ ?_ ?_
  · rintro d ⟨content, hd, -⟩
    exact hd.boots
  · rintro d n ⟨content, hd, hbuffer⟩
    exact ⟨_, hd.append d.buffer [], fun _ => hbuffer⟩
  · rintro d n errno ⟨content, hd, -⟩
    exact ⟨_, hd.append (d.buffer.take n) d.buffer, nofun⟩
  · rintro d n ⟨content, hd, -⟩
    exact (hd.append (d.buffer.take n) d.buffer).boots

/-- The program's file is replaced, and the link leads to it again. -/
theorem triple_replace (newfile : TBytes) :
    Triple (On (Writing ts old old))
      (do
        if let some errno ← ofstreamOpen aioenetd then return some errno
        if let some errno ← ofstreamWrite aioenetd newfile then
          let closed ← ofstreamClose aioenetd
          return some (closed.getD errno)
        if let some errno ← ofstreamClose aioenetd then return some errno
        if let some errno ← setMode aioenetd true then return some errno
        update_symlink_atomic ts aioenetd bootLink)
      (fun r => On fun d =>
        if r = none then Stage ts (linkTo aioenetd) (some (.file newfile true))
          (some (.file old true)) d.files
        else d.files.read bootLink = some (old, true))
      fun _ => On fun d => d.files.read bootLink = some (old, true) := by
  refine triple_checked triple_ofstreamOpen ?_ ?_
  · rintro ec s ⟨content, hs, -⟩
    exact hs.boots
  refine triple_bind ((@triple_ofstreamWrite ts old newfile).pre ?_) ?_
  · rintro s ⟨content, hs, hempty⟩
    cases hempty rfl
    exact hs
  rintro (_ | errno)
  · refine triple_checked ((@triple_ofstreamClose ts old newfile).pre ?_) ?_ ?_
    · rintro s ⟨content, hs, hbuffer⟩
      exact ⟨content, hs, hbuffer rfl⟩
    · rintro ec s ⟨content, hs, -⟩
      exact hs.boots
    refine triple_checked (R := fun _ => On (Writing ts old newfile)) ?_
      (fun ec s hs => hs.boots) ?_
    · refine triple_atomicCall ?_ ?_ ?_
      · rintro d ⟨content, hd, -⟩
        exact hd.boots
      · rintro d ⟨content, hd, hcontent⟩
        cases hcontent rfl
        exact hd.write_actual fun content _ => .file content true
      · rintro d errno ⟨content, hd, hcontent⟩
        cases hcontent rfl
        exact hd
    · refine (triple_update_symlink aioenetd).weaken (fun s hs => hs) ?_
        fun _ s hs => Stage.read_backup hs
      rintro (_ | ec) s hs
      · exact hs
      · exact Stage.read_backup hs
  · -- a write has failed
    refine triple_bind (R := fun _ => On fun d => d.files.read bootLink = some (old, true)) ?_
      fun closed => triple_pure fun s hs => hs
    refine triple_call ?_ ?_ ?_ ?_
    · rintro d ⟨content, hd, -⟩
      exact hd.boots
    · rintro d n ⟨content, hd, -⟩
      exact (hd.append d.buffer []).boots
    · rintro d n errno ⟨content, hd, -⟩
      exact (hd.append (d.buffer.take n) d.buffer).boots
    · rintro d n ⟨content, hd, -⟩
      exact (hd.append (d.buffer.take n) d.buffer).boots

/-- `Update` from a link to the program's own file. -/
theorem triple_Update (newfile : TBytes) :
    Triple (On fun d => Stage ts (linkTo aioenetd) (some (.file old true)) backup d.files)
      (Update ts newfile)
      (fun r => On fun d =>
        if r = none then Stage ts (linkTo aioenetd) (some (.file newfile true))
          (some (.file old true)) d.files
        else d.files.read bootLink = some (old, true))
      fun _ => On fun d => d.files.read bootLink = some (old, true) := by
  unfold Update
  refine triple_checked (triple_copy.weaken (fun _ hs => hs) (fun _ _ hs => hs) ?_) ?_ ?_
  · rintro e s ⟨backup', hs⟩
    exact Stage.read_actual hs
  · rintro ec s ⟨backup', hs, -⟩
    exact Stage.read_actual hs
  refine triple_checked (R := fun r => On fun d =>
    if r = none then Writing ts old old d else d.files.read bootLink = some (old, true)) ?_
    (fun ec s hs => hs) (triple_replace newfile)
  refine (@triple_update_symlink ts (linkTo aioenetd) (some (.file old true))
    (some (.file old true)) (backupFile ts)).weaken ?_ ?_ fun _ s hs => Stage.read_actual hs
  · rintro s ⟨backup', hs, hcopied⟩
    cases hcopied rfl
    exact hs
  · rintro (_ | ec) s hs
    · exact hs
    · exact Stage.read_actual hs

/-- A backup of this program is there already: `Update` does nothing. -/
theorem triple_Update_again (newfile : TBytes) (hbackup : backup.isSome = true) :
    Triple (On fun d => Stage ts link actual backup d.files) (Update ts newfile)
      (fun r => On fun d => r ≠ none ∧ Stage ts link actual backup d.files)
      fun _ => On fun d => Stage ts link actual backup d.files := by
  unfold Update
  refine triple_checked (R := fun r => On fun d =>
    r ≠ none ∧ Stage ts link actual backup d.files) ?_ (fun _ _ hs => hs)
    fun s hs => absurd rfl hs.1
  unfold copy
  refine triple_bind triple_files fun fs => ?_
  cases fs.read aioenetd with
  | none =>
    refine triple_pure ?_
    rintro s ⟨-, hs⟩
    exact ⟨Option.some_ne_none _, hs⟩
  | some file =>
    refine triple_bind triple_files fun fs' => triple_ite (fun _ => triple_pure ?_) fun hfree => ?_
    · rintro s ⟨-, -, hs⟩
      exact ⟨Option.some_ne_none _, hs⟩
    · rintro s ⟨rfl, -, hs⟩
      rw [hs.backup] at hfree
      exact absurd hbackup hfree

end Update

/-- The link leads to the program `old`, which stands at its own path or at the backup's. -/
def Start (ts old : TBytes) (fs : FileSystem TBytes UInt8) : Prop :=
  ∃ actual backup, Stage ts (linkTo aioenetd) actual backup fs ∧ actual = some (.file old true) ∨
    Stage ts (linkTo (backupFile ts)) actual backup fs ∧ backup = some (.file old true)

/-- Wherever `Update` is cut off, and whatever fails in it, the old program still boots. When
it reports no error, the new one does, and the backup is the old one. -/
theorem update_boots {ts old newfile : TBytes} {s s' : UpdateState}
    {r : Except Stop (Option Errno)} (hstart : Start ts old s.disk.files)
    (hrun : (Update ts newfile).exec s = some (r, s')) :
    match r with
    | .ok none => s'.disk.files.read bootLink = some (newfile, true) ∧
        s'.disk.files (backupFile ts) = some (.file old true)
    | _ => s'.disk.files.read bootLink = some (old, true) := by
  obtain ⟨actual, backup, ⟨hstage, rfl⟩ | ⟨hstage, rfl⟩⟩ := hstart
  · have hall := triple_Update newfile s hstage r s' hrun
    rcases r with e | _ | ec
    · exact hall
    · exact ⟨Stage.read_actual hall, Stage.backup hall⟩
    · exact hall
  · have hall := triple_Update_again newfile rfl s hstage r s' hrun
    rcases r with e | _ | ec
    · exact Stage.read_backup hall
    · exact absurd rfl hall.1
    · exact Stage.read_backup hall.2

/-- The link leads to the program, and there is no backup yet. -/
def exInstalled : UpdateState where
  disk :=
    { files := fun p =>
        if p = bootLink then some (.symlink aioenetd)
        else if p = aioenetd then some (.file [1, 2] true)
        else none }
  outcomes := List.replicate 15 (.done 1)

def exTimestamp : TBytes := text "2024-06-01_12-00-00"

def noError : Except Stop (Option Errno) → Bool
  | .ok none => true
  | _ => false

theorem noError_iff {r : Except Stop (Option Errno)} : noError r = true ↔ r = .ok none := by
  rcases r with e | _ | ec <;> simp [noError]

theorem update_boots_example : ∃ s', (Update exTimestamp [3, 4, 5]).exec exInstalled =
      some (.ok none, s') ∧
    s'.disk.files.read bootLink = some ([3, 4, 5], true) ∧
    s'.disk.files (backupFile exTimestamp) = some (.file [1, 2] true) := by
  have hstart : Start exTimestamp [1, 2] exInstalled.disk.files :=
    ⟨_, none, .inl ⟨⟨rfl, rfl, by decide +kernel⟩, rfl⟩⟩
  have hrun : ((Update exTimestamp [3, 4, 5]).exec exInstalled).map (noError ·.1) =
      some true := by decide +kernel
  obtain ⟨⟨r, s'⟩, hrun, hr⟩ := Option.map_eq_some_iff.mp hrun
  cases noError_iff.mp hr
  exact ⟨s', hrun, update_boots hstart hrun⟩

/-! ## 6. Revert -/

section Revert

variable {ts : TBytes} {link actual backup : Option (Node TBytes UInt8)} {content : TBytes}
  {executable : Bool} {fs : FileSystem TBytes UInt8}

theorem Stage.rename (h : Stage ts link actual backup fs) :
    Stage ts link backup none (fs.rename (backupFile ts) aioenetd) where
  link := (FileSystem.rename_other (bootLink_ne_backupFile ts) bootLink_ne_aioenetd).trans h.link
  actual := (FileSystem.rename_new (backupFile_ne_aioenetd ts).symm).trans h.backup
  backup := FileSystem.rename_old

/-- `Revert` before its last step: nothing has changed, or the backup is in place. -/
def Reverting (ts : TBytes) (link actual backup : Option (Node TBytes UInt8))
    (fs : FileSystem TBytes UInt8) : Prop :=
  Stage ts link actual backup fs ∨ backup.isSome = true ∧ Stage ts link backup none fs

/-- `Revert`, whatever stands at the three paths. -/
theorem triple_Revert :
    Triple (On fun d => Stage ts link actual backup d.files) (Revert ts)
      (fun r => On fun d =>
        if r = none then backup.isSome = true ∧ Stage ts (linkTo aioenetd) backup none d.files
        else Reverting ts link actual backup d.files)
      fun _ => On fun d => Reverting ts link actual backup d.files := by
  unfold Revert
  refine triple_bind (triple_pathExists fun _ hd => .inl hd) fun found => ?_
  refine triple_ite (fun hfound => ?_) fun _ => triple_pure fun s hs => .inl hs.2
  refine triple_of (F := backup.isSome = true) ?_ fun hbackup => ?_
  · rintro s ⟨hread, hs⟩
    cases hnone : backup with
    | some node => rfl
    | none =>
      rw [FileSystem.read_none (hs.backup.trans hnone)] at hread
      exact hread.symm.trans hfound
  refine triple_checked (R := fun r => On fun d =>
    if r = none then Stage ts link backup none d.files
    else Stage ts link actual backup d.files) ?_
    (fun ec s hs => .inl hs) ?_
  · exact triple_renameFile (fun _ hd => .inl hd.2) (fun _ _ hd => hd.2) fun _ hd => hd.2.rename
  · refine (triple_update_symlink aioenetd).weaken (fun s hs => hs) ?_
      fun _ s hs => .inr ⟨hbackup, hs⟩
    rintro (_ | ec) s hs
    · exact ⟨hbackup, hs⟩
    · exact .inr ⟨hbackup, hs⟩

/-- `Revert` is cut off behind its `rename`. -/
theorem revert_cut (hstage : Stage ts link actual (some (.file content executable)) fs) :
    (Revert ts).exec ⟨⟨fs, []⟩, [.done 0, .done 0]⟩ =
      some (.error .crash, ⟨⟨fs.rename (backupFile ts) aioenetd, []⟩, []⟩) := by
  have hread := FileSystem.read_file hstage.backup
  have hexists : (pathExists (backupFile ts)).exec ⟨⟨fs, []⟩, [.done 0, .done 0]⟩ =
      some (.ok true, ⟨⟨fs, []⟩, [.done 0]⟩) := by
    have hrun : (pathExists (backupFile ts)).exec ⟨⟨fs, []⟩, [.done 0, .done 0]⟩ =
      some (.ok (fs.read (backupFile ts)).isSome, ⟨⟨fs, []⟩, [.done 0]⟩) := rfl
    rw [hrun, hread]
    rfl
  have hrename : (renameFile (backupFile ts) aioenetd).exec ⟨⟨fs, []⟩, [.done 0]⟩ =
      some (.ok none, ⟨⟨fs.rename (backupFile ts) aioenetd, []⟩, []⟩) := by
    unfold renameFile
    rw [exec_bind_ok (a := fs) rfl, hstage.backup]
    rfl
  unfold Revert
  rw [exec_bind_ok hexists, if_pos rfl, exec_bind_ok hrename]
  rfl

end Revert

/-- When the old program boots, `Revert` keeps something bootable at every point at which it
can be cut off, unless it takes the backup away from under the link, or puts one in place that
is no program. -/
theorem revert_boots_iff {Program : TBytes → Prop} {ts old : TBytes}
    {fs : FileSystem TBytes UInt8} (hstart : Start ts old fs) (hold : Program old)
    (hfile : ∀ t, fs (backupFile ts) ≠ some (.symlink t)) :
    (∀ buffer outcomes r s', (Revert ts).exec ⟨⟨fs, buffer⟩, outcomes⟩ = some (r, s') →
      ∃ content, s'.disk.files.read bootLink = some (content, true) ∧ Program content) ↔
    fs (backupFile ts) = none ∨ fs bootLink = some (.symlink aioenetd) ∧
      ∃ content, fs (backupFile ts) = some (.file content true) ∧ Program content := by
  constructor
  · intro hall
    cases hbackup : fs (backupFile ts) with
    | none => exact .inl rfl
    | some node =>
      right
      cases node with
      | symlink t => exact absurd hbackup (hfile t)
      | file content executable =>
        obtain ⟨actual, backup, ⟨hstage, -⟩ | ⟨hstage, -⟩⟩ := hstart
        · cases hstage.backup.symm.trans hbackup
          obtain ⟨content', hread, hprogram⟩ := hall [] _ _ _ (revert_cut hstage)
          rw [FileSystem.read_symlink hstage.rename.link hstage.rename.actual] at hread
          cases hread
          exact ⟨hstage.link, content, rfl, hprogram⟩
        · -- the link is left without a target
          cases hstage.backup.symm.trans hbackup
          obtain ⟨content', hread, -⟩ := hall [] _ _ _ (revert_cut hstage)
          rw [FileSystem.read_dangling hstage.rename.link hstage.rename.backup] at hread
          cases hread
  · intro hsafe buffer outcomes r s' hrun
    obtain ⟨actual, backup, ⟨hstage, rfl⟩ | ⟨hstage, rfl⟩⟩ := hstart
    · have hkept := triple_Revert ⟨⟨fs, buffer⟩, outcomes⟩ hstage r s' hrun
      rcases hsafe with hnone | ⟨-, content, hcontent, hprogram⟩
      · cases hstage.backup.symm.trans hnone
        have hstaged : Stage ts (linkTo aioenetd) (some (.file old true)) none s'.disk.files := by
          rcases r with e | _ | ec
          · exact hkept.resolve_right fun h => nomatch h.1
          · exact nomatch hkept.1
          · exact hkept.resolve_right fun h => nomatch h.1
        exact ⟨old, hstaged.read_actual, hold⟩
      · cases hstage.backup.symm.trans hcontent
        rcases r with e | _ | ec
        · rcases hkept with hkept | ⟨-, hkept⟩
          · exact ⟨old, hkept.read_actual, hold⟩
          · exact ⟨content, hkept.read_actual, hprogram⟩
        · exact ⟨content, Stage.read_actual hkept.2, hprogram⟩
        · rcases hkept with hkept | ⟨-, hkept⟩
          · exact ⟨old, hkept.read_actual, hold⟩
          · exact ⟨content, hkept.read_actual, hprogram⟩
    · rcases hsafe with hnone | ⟨hlink, -⟩
      · cases hstage.backup.symm.trans hnone
      · have htarget : some (Node.symlink (backupFile ts)) = some (Node.symlink aioenetd) :=
          hstage.link.symm.trans hlink
        injection htarget with htarget
        injection htarget with htarget
        exact absurd htarget (backupFile_ne_aioenetd ts)

/-- An `Update` has failed when the link led to the backup already. -/
def exFallback : FileSystem TBytes UInt8 := fun p =>
  if p = bootLink then some (.symlink (backupFile exTimestamp))
  else if p = aioenetd then some (.file [3] true)
  else if p = backupFile exTimestamp then some (.file [1, 2] true)
  else none

theorem exFallback_stage : Stage exTimestamp (linkTo (backupFile exTimestamp))
    (some (.file [3] true)) (some (.file [1, 2] true)) exFallback where
  link := rfl
  actual := rfl
  backup := by decide +kernel

theorem revert_boots_iff_example : ¬∀ buffer outcomes r s',
    (Revert exTimestamp).exec ⟨⟨exFallback, buffer⟩, outcomes⟩ = some (r, s') →
      ∃ content, s'.disk.files.read bootLink = some (content, true) ∧ content = [1, 2] := by
  have hsafe := @revert_boots_iff (fun content => content = [1, 2]) exTimestamp [1, 2] exFallback
    ⟨_, _, .inr ⟨exFallback_stage, rfl⟩⟩ rfl fun t => by
      rw [exFallback_stage.backup]
      exact nofun
  rw [hsafe, exFallback_stage.backup, exFallback_stage.link]
  rintro (hnone | ⟨hlink, -⟩)
  · cases hnone
  · injection hlink with hlink
    injection hlink with hlink
    exact backupFile_ne_aioenetd exTimestamp hlink

-- A disk that is full while `Update` makes the backup: `Revert` puts the truncated copy in the
-- program's place, and nothing reports an error.
example : ((install exTimestamp [3, 4, 5]).exec
      { exInstalled with
        outcomes :=
          [.done 0, .done 0, .fails 1 ⟨28, by decide⟩] ++ List.replicate 8 (.done 0) }).map
    (fun r => (r.1.isOk, r.2.disk.files.read bootLink)) = some (true, some ([1], true)) := by
  decide +kernel

/-- When `Revert` reports no error, there was a backup, it stands at the program's path, and
the link leads there. -/
theorem revert_restores {ts : TBytes} {s s' : UpdateState}
    (hrun : (Revert ts).exec s = some (.ok none, s')) :
    (s.disk.files (backupFile ts)).isSome = true ∧
      Stage ts (linkTo aioenetd) (s.disk.files (backupFile ts)) none s'.disk.files := by
  have hstage : Stage ts (s.disk.files bootLink) (s.disk.files aioenetd)
      (s.disk.files (backupFile ts)) s.disk.files := ⟨rfl, rfl, rfl⟩
  exact triple_Revert s hstage _ s' hrun

theorem revert_restores_example : ∃ s', (Revert exTimestamp).exec
      ⟨⟨exFallback, []⟩, List.replicate 8 (.done 0)⟩ = some (.ok none, s') ∧
    (exFallback (backupFile exTimestamp)).isSome = true ∧
    Stage exTimestamp (linkTo aioenetd) (exFallback (backupFile exTimestamp)) none
      s'.disk.files := by
  have hrun : ((Revert exTimestamp).exec
      ⟨⟨exFallback, []⟩, List.replicate 8 (.done 0)⟩).map (noError ·.1) = some true := by
    decide +kernel
  obtain ⟨⟨r, s'⟩, hrun, hr⟩ := Option.map_eq_some_iff.mp hrun
  cases noError_iff.mp hr
  exact ⟨s', hrun, revert_restores hrun⟩

end Firmware

end EnetTcp
