import EnetTcp.Items.Brd

/-!
# CFG_Hostname (CFG_.h, CFG_.cpp) and the host name helpers of utilities.cpp

The texts of exceptions that are caught in `Go` reach the log only. They leave
out what `strerror` says.
-/

namespace EnetTcp

/-! ## 1. Host names -/

def isAlnumByte (b : UInt8) : Bool :=
  isDigitByte b || (65 ≤ b && b ≤ 90) || (97 ≤ b && b ≤ 122)

def IsValidHostnameLabel (s : TBytes) : Bool :=
  !s.isEmpty && decide (s.length ≤ 63) && s.head? != some 45 && s.getLast? != some 45 &&
    s.all fun c => isAlnumByte c || c == 45

def SanitizeHostname (s : TBytes) : TBytes := (trim s).map toLowerByte

/-- The loop over the labels. It ends when nothing is left, so a dot at the very
end is not followed by one more label. -/
def validLabels : (fuel : Nat) → TBytes → Bool
  | 0, s => s.isEmpty
  | _, [] => true
  | fuel + 1, s =>
    IsValidHostnameLabel (s.takeWhile (· != 46)) &&
      validLabels fuel ((s.dropWhile (· != 46)).drop 1)

def IsValidHostname (host : TBytes) : Bool :=
  !host.isEmpty && decide (host.length ≤ 253) && validLabels host.length host

/-! ## 2. Writing system files -/

section Write

variable {ε : Type} (env : Env ε)

def GetTempFileNameInDir (dir tmpl : TBytes) : Prog Exn (Sys ε) (Option TBytes) := do
  let rc : Int ← syscall env (.create_directories dir)
  if rc < 0 then throw (.stdException (text "create_directories"))
  let r : Option (Int × TBytes) ← syscall env (.mkstemp tmpl)
  match r with
  | none => return none
  | some (fd, name) =>
    let () ← syscall env (.close fd)
    return some name

/-- Write to a temporary file in the same directory, then rename it. -/
def WriteFileAtomic (path content : TBytes) : Prog Exn (Sys ε) Unit := do
  let tmp ← GetTempFileNameInDir env (parentPath path) (path ++ text ".XXXXXX")
  match tmp with
  | none => throw (.stdException (text "WriteFileAtomic: could not create temp file"))
  | some tmp =>
    let fd : Int ← syscall env (.open_ tmp)
    if fd < 0 then
      let () ← syscall env (.unlink tmp)
      throw (.stdException (text "open(" ++ tmp ++ text "): "))
    let rc : Int ← syscall env (.fchmod fd)
    if rc ≠ 0 then
      let () ← syscall env (.close fd)
      let () ← syscall env (.unlink tmp)
      throw (.stdException (text "fchmod(" ++ tmp ++ text "): "))
    let w : Int ← syscall env (.write fd content)
    if w ≠ content.length then
      let () ← syscall env (.close fd)
      let () ← syscall env (.unlink tmp)
      throw (.stdException (text "write(" ++ tmp ++ text "): "))
    let rc : Int ← syscall env (.fsync fd)
    if rc ≠ 0 then
      let () ← syscall env (.close fd)
      let () ← syscall env (.unlink tmp)
      throw (.stdException (text "fsync(" ++ tmp ++ text "): "))
    let () ← syscall env (.close fd)
    let rc : Int ← syscall env (.rename tmp path)
    if rc ≠ 0 then
      let () ← syscall env (.unlink tmp)
      throw (.stdException (text "rename(" ++ tmp ++ text "): "))

/-- The lines that `std::getline` gives: a final newline ends the last line. -/
def getlines (content : TBytes) : List TBytes :=
  let lines := content.splitOn 10
  if lines.getLast? = some [] then lines.dropLast else lines

/-- The first field of a line that is no comment. -/
def hostsAddress (line : TBytes) : Option TBytes :=
  let trimmed := line.dropWhile isSpaceByte
  if trimmed.isEmpty || trimmed.head? == some 35 then none
  else some (trimmed.takeWhile fun b => b != 32 && b != 9)

/-- The new content of /etc/hosts. -/
def updateHosts (content newHost : TBytes) : TBytes :=
  let entry := text "127.0.1.1\t" ++ newHost ++ [10]
  let isEntry line := hostsAddress line == some (text "127.0.1.1")
  let lines := getlines content
  (lines.flatMap fun line => if isEntry line then entry else line ++ [10]) ++
    if lines.any isEntry then [] else entry

def UpdateEtcHosts127011 (newHost : TBytes) : Prog Exn (Sys ε) Unit := do
  let content : TBytes ← syscall env (.ifstream (text "/etc/hosts"))
  WriteFileAtomic env (text "/etc/hosts") (updateHosts content newHost)

/-- Run a shell command when one of the two programs can be executed. -/
def systemIfPresent (path₁ path₂ command : String) : Prog Exn (Sys ε) Unit := do
  let first : Bool ← syscall env (.access (text path₁))
  let present : Bool ← if first then pure true else syscall env (.access (text path₂))
  if present then
    let (_ : Int) ← syscall env (.system (text command))

/-! ## 3. The data item -/

/-- `Go` up to the change of `Config`: is the name accepted and written? -/
def TCFG_Hostname.apply (requested : TBytes) : Prog Exn (Sys ε) Bool := do
  if !IsValidHostname requested then return false
  match ← (WriteFileAtomic env (text "/etc/hostname") (requested ++ [10])).attempt with
  | .error _ => return false
  | .ok () =>
    let _ ← (UpdateEtcHosts127011 env requested).attempt
    let (_ : Int) ← syscall env (.sethostname requested)
    systemIfPresent env "/usr/bin/hostnamectl" "/bin/hostnamectl"
      "hostnamectl set-hostname --static --transient --pretty >/dev/null 2>&1"
    systemIfPresent env "/usr/sbin/avahi-daemon" "/sbin/avahi-daemon"
      "systemctl try-restart avahi-daemon.service >/dev/null 2>&1"
    return true

end Write

/-- At most 255 bytes of the payload, in a zeroed array of 256. -/
def TCFG_Hostname.ctor (buf : TBytes) : TBytes := buf.take 255

def TCFG_Hostname.calcPayload (hostname : TBytes) : TBytes := c_str hostname

def TCFG_Hostname.Go {ε : Type} (env : Env ε) (hostname : TBytes) :
    Prog Exn (Machine ε) Unit := do
  let requested := SanitizeHostname (c_str hostname)
  if ← io (TCFG_Hostname.apply env requested) then
    modify fun m => { m with Config := { m.Config with Hostname := requested } }

end EnetTcp
