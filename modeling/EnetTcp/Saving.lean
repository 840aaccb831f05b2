import Mathlib.Logic.Function.Basic
import EnetTcp.ConfigTree

/-!
# Saving the configuration (config.cpp)

`SaveConfig` writes each field to its file. The text goes to a second file first, which is then
renamed.

* `DiskWorks`: what the calls do to the files, when they report success.
* `SaveConfig_eq`: saving writes the fields one after the other.
* `saveFields_files`: when every write succeeds, each file holds the text of its field.
-/

namespace EnetTcp

open Prog

/-! ## 1. SaveConfig -/

/-- The text of a value. -/
def FieldType.encode : (t : FieldType) → t.Value → TBytes
  | .text, v => v
  | .u8, v => to_hex 1 (UInt8.toNat v)
  | .u32, v => to_hex 4 (UInt32.toNat v)

section Save

variable {ε : Type} (env : Env ε) (fuel : Nat)

/-- `WriteConfigString` into any layer. -/
def WriteConfigStringTo (key value which : TBytes) : Prog Exn (Sys ε) Int := do
  let path := FilePathFor which key
  let _ ← MkdirP env (parentPath path)
  AtomicWriteTextFile env fuel path value

/-- `WriteConfigU8`, `WriteConfigU32` and `WriteConfigFloat` write digits. -/
def writeConfig (key : TBytes) (t : FieldType) (value : t.Value) (which : TBytes) :
    Prog Exn (Sys ε) Int :=
  WriteConfigStringTo env fuel key (t.encode value) which

def saveField (c : TConfig) (which : TBytes) (f : ConfigField) : Prog Exn (Sys ε) Int :=
  writeConfig env fuel f.key f.type (f.get c) which

/-- The results of all writes. Their caller only logs them. -/
def saveFields (c : TConfig) (which : TBytes) (fs : List ConfigField) :
    Prog Exn (Sys ε) (List Int) :=
  fs.mapM (saveField env fuel c which)

variable (c : TConfig) (which : TBytes)

def SaveDacCalConfig : Prog Exn (Sys ε) Bool := do
  let _ ← saveFields env fuel c which dacCalFields
  return true

def SaveAdcCalConfig : Prog Exn (Sys ε) Bool := do
  let _ ← saveFields env fuel c which adcCalFields
  return true

def SaveCalConfig : Prog Exn (Sys ε) Bool := do
  let _ ← SaveDacCalConfig env fuel c which
  let _ ← SaveAdcCalConfig env fuel c which
  return true

def SaveDacConfig : Prog Exn (Sys ε) Bool := do
  let _ ← saveFields env fuel c which dacFields
  return true

def SaveAdcConfig : Prog Exn (Sys ε) Bool := do
  let _ ← saveFields env fuel c which adcFields
  return true

def SaveSubmuxConfig : Prog Exn (Sys ε) Bool := do
  let _ ← saveFields env fuel c which submuxFields
  return true

/-- `SaveBrdConfig` into any layer. -/
def SaveBrdConfigTo : Prog Exn (Sys ε) Bool := do
  let _ ← saveFields env fuel c which [.Description, .Model, .adcChannels, .SerialNumber]
  return true

def SaveConfig : Prog Exn (Sys ε) Bool := do
  let _ ← SaveBrdConfigTo env fuel c which
  let _ ← SaveCalConfig env fuel c which
  let _ ← SaveDacConfig env fuel c which
  let _ ← SaveAdcConfig env fuel c which
  let _ ← SaveSubmuxConfig env fuel c which
  return true

/-- The commands save to the current layer. -/
theorem SaveBrdConfig_eq :
    SaveBrdConfig env fuel c = SaveBrdConfigTo env fuel c (text CONFIG_CURRENT) := by
  simp only [SaveBrdConfigTo, saveFields, List.mapM_cons, List.mapM_nil, bind_assoc, pure_bind]
  rfl

end Save

/-- All fields, in the order in which they are saved. -/
def savedFields : List ConfigField :=
  [.Description, .Model, .adcChannels, .SerialNumber] ++ dacCalFields ++ adcCalFields ++
    dacFields ++ adcFields ++ submuxFields

theorem mem_savedFields (f : ConfigField) : f ∈ savedFields := by
  have h := mem_loadedFields f
  simp only [loadedFields, savedFields, List.mem_append, List.mem_cons] at h ⊢
  tauto

theorem savedFields_nodup : savedFields.Nodup := by decide +kernel

/-- Saving writes the fields one after the other. -/
theorem SaveConfig_eq {ε : Type} (env : Env ε) (fuel : Nat) (c : TConfig) (which : TBytes) :
    SaveConfig env fuel c which =
      saveFields env fuel c which savedFields >>= fun _ => pure true := by
  simp only [SaveConfig, SaveBrdConfigTo, SaveCalConfig, SaveDacCalConfig, SaveAdcCalConfig,
    SaveDacConfig, SaveAdcConfig, SaveSubmuxConfig, saveFields, savedFields, List.mapM_append,
    bind_assoc, pure_bind]

/-! ## 2. The disk -/

/-- What an environment says of its files: what is under each path, and the file that a
descriptor writes to. -/
structure Disk (ε : Type) where
  tree : ε → ConfigTree
  file : ε → Int → Option TBytes

/-- The directory of a layer. -/
def layerDir (which : TBytes) : TBytes := parentPath (text CONFIG_PATH ++ which)

def confPath (which : TBytes) (f : ConfigField) : TBytes := FilePathFor which f.key

def tmpPath (which : TBytes) (f : ConfigField) : TBytes := confPath which f ++ text ".tmp"

/-- The calls do to the files what they are for. -/
structure DiskWorks {ε : Type} (env : Env ε) (disk : Disk ε) (which : TBytes) : Prop where
  /-- A temporary file is empty when it has been opened. -/
  creates : ∀ (f : ConfigField) (e e' : ε) (fd : Int),
    env.answer (.open_ (tmpPath which f)) e = (fd, e') → 0 ≤ fd →
    disk.tree e' = Function.update (disk.tree e) (tmpPath which f) (.content []) ∧
      disk.file e' fd = some (tmpPath which f)
  /-- A write may be short. -/
  appends : ∀ (fd : Int) (bytes path old : TBytes) (e e' : ε) (n : Int),
    env.answer (.write fd bytes) e = (n, e') → 0 ≤ n → disk.file e fd = some path →
    disk.tree e path = .content old →
    n ≤ bytes.length ∧ disk.file e' fd = some path ∧
      disk.tree e' = Function.update (disk.tree e) path (.content (old ++ bytes.take n.toNat))
  renames : ∀ (src dst bytes : TBytes) (e e' : ε),
    env.answer (.rename src dst) e = ((0 : Int), e') → disk.tree e src = .content bytes →
    disk.tree e' = Function.update (Function.update (disk.tree e) src .absent) dst (.content bytes)
  /-- The directories are opened for reading. -/
  opens : ∀ dir ∈ [layerDir which, parentPath (layerDir which)], ∀ e,
    disk.tree (env.answer (.open_ dir) e).2 = disk.tree e
  creates_directories : ∀ (e : ε) (path : TBytes), ¬path <+: layerDir which →
    disk.tree (env.answer (.create_directories (layerDir which)) e).2 path = disk.tree e path
  fsyncs : ∀ fd e, disk.tree (env.answer (.fsync fd) e).2 = disk.tree e
  closes : ∀ fd e, disk.tree (env.answer (.close fd) e).2 = disk.tree e
  looks : ∀ path e, disk.tree (env.answer (.exists path) e).2 = disk.tree e

/-- The same of the calls that write one file. -/
structure PathWorks {ε : Type} (env : Env ε) (disk : Disk ε) (path : TBytes) : Prop where
  creates : ∀ (e e' : ε) (fd : Int), env.answer (.open_ (path ++ text ".tmp")) e = (fd, e') →
    0 ≤ fd →
    disk.tree e' = Function.update (disk.tree e) (path ++ text ".tmp") (.content []) ∧
      disk.file e' fd = some (path ++ text ".tmp")
  appends : ∀ (fd : Int) (bytes path old : TBytes) (e e' : ε) (n : Int),
    env.answer (.write fd bytes) e = (n, e') → 0 ≤ n → disk.file e fd = some path →
    disk.tree e path = .content old →
    n ≤ bytes.length ∧ disk.file e' fd = some path ∧
      disk.tree e' = Function.update (disk.tree e) path (.content (old ++ bytes.take n.toNat))
  renames : ∀ (src dst bytes : TBytes) (e e' : ε),
    env.answer (.rename src dst) e = ((0 : Int), e') → disk.tree e src = .content bytes →
    disk.tree e' = Function.update (Function.update (disk.tree e) src .absent) dst (.content bytes)
  opens : ∀ e, disk.tree (env.answer (.open_ (parentPath path)) e).2 = disk.tree e
  fsyncs : ∀ fd e, disk.tree (env.answer (.fsync fd) e).2 = disk.tree e
  closes : ∀ fd e, disk.tree (env.answer (.close fd) e).2 = disk.tree e

/-! ## 3. Paths -/

namespace SaveLemmas

theorem confPath_injective {which : TBytes} {f f' : ConfigField}
    (h : confPath which f = confPath which f') : f = f' := by
  unfold confPath FilePathFor at h
  exact key_injective (List.append_cancel_left (List.append_cancel_right h))

theorem tmpPath_ne_confPath (which : TBytes) (f f' : ConfigField) :
    confPath which f' ≠ tmpPath which f := by
  have hconf : (confPath which f').getLast? = some 102 := by
    rw [confPath, FilePathFor, List.getLast?_append]
    rfl
  have htmp : (tmpPath which f).getLast? = some 112 := by
    rw [tmpPath, List.getLast?_append]
    rfl
  intro h
  rw [h, htmp] at hconf
  cases hconf

/-- No key has a slash. -/
theorem slash_not_mem_key (f : ConfigField) : ∀ b ∈ f.key ++ text ".conf", (b != 47) = true := by
  have hall : ∀ f ∈ loadedFields, ∀ b ∈ f.key ++ text ".conf", (b != 47) = true := by
    decide +kernel
  exact hall f (mem_loadedFields f)

theorem parentPath_confPath (which : TBytes) (f : ConfigField) :
    parentPath (confPath which f) = layerDir which := by
  rw [confPath, FilePathFor, List.append_assoc _ f.key, parentPath, List.reverse_append,
    List.dropWhile_append_of_pos fun b hb => slash_not_mem_key f b (List.mem_reverse.mp hb)]
  rfl

theorem length_parentPath_le (path : TBytes) : (parentPath path).length ≤ path.length := by
  rw [parentPath, List.length_reverse, List.length_tail]
  have hdrop := (List.dropWhile_sublist (fun b : UInt8 => b != 47) (l := path.reverse)).length_le
  rw [List.length_reverse] at hdrop
  omega

/-- A file does not lie above the directory of its layer. -/
theorem not_prefix_layerDir (which : TBytes) (f : ConfigField) :
    ¬confPath which f <+: layerDir which := by
  intro h
  have hlen := h.length_le
  have hdir := length_parentPath_le (text CONFIG_PATH ++ which)
  have hconf : (text ".conf").length = 5 := by decide
  simp only [layerDir, confPath, FilePathFor, List.length_append] at hlen hdir
  omega

end SaveLemmas

open SaveLemmas

/-! ## 4. What saving leaves -/

section Files

variable {ε : Type} {env : Env ε} {disk : Disk ε} {which : TBytes}

namespace SaveLemmas

/-- A program that begins with a call goes on with the answer. -/
theorem call_inv {α : Type} {c : SysCall} {k : c.Result → Prog Exn (Sys ε) α} {s s' : Sys ε}
    {r : Except Exn α} (h : (syscall env c >>= k).exec s = some (r, s')) :
    ∃ a e, env.answer c s.env = (a, e) ∧ (k a).exec ⟨e, s.calls ++ [c]⟩ = some (r, s') :=
  ⟨_, _, rfl, h⟩

/-- The tree stays as it is. -/
def SameTree (disk : Disk ε) (s s' : Sys ε) : Prop := disk.tree s'.env = disk.tree s.env

instance : Std.Refl (SameTree disk) := ⟨fun _ => rfl⟩

instance : IsTrans (Sys ε) (SameTree disk) := ⟨fun _ _ _ h h' => Eq.trans h' h⟩

theorem sameTree_syscall {c : SysCall} (h : ∀ e, disk.tree (env.answer c e).2 = disk.tree e) :
    Moves (SameTree disk) (syscall env c) := by
  intro s r s' hrun
  cases hrun
  exact h s.env

theorem sameTree_FsyncDir {dir : TBytes}
    (hopens : ∀ e, disk.tree (env.answer (.open_ dir) e).2 = disk.tree e)
    (hfsyncs : ∀ fd e, disk.tree (env.answer (.fsync fd) e).2 = disk.tree e)
    (hcloses : ∀ fd e, disk.tree (env.answer (.close fd) e).2 = disk.tree e) :
    Moves (SameTree disk) (FsyncDir env dir) := by
  refine moves_bind (sameTree_syscall hopens) fun dfd => ?_
  refine moves_ite (fun _ => moves_pure _) fun _ => ?_
  refine moves_bind (sameTree_syscall (hfsyncs dfd)) fun rc => ?_
  exact moves_bind (sameTree_syscall (hcloses dfd)) fun _ => moves_pure _

theorem writeAll_cons (env : Env ε) (fd : Int) (fuel : Nat) (b : UInt8) (p : TBytes) :
    writeAll env fd (fuel + 1) (b :: p) = syscall env (.write fd (b :: p)) >>= fun w : Int =>
      if w < 0 then pure w else writeAll env fd fuel ((b :: p).drop w.toNat) := rfl

section Path

variable {path : TBytes} (hpath : PathWorks env disk path)
include hpath

/-- The loop appends all that is left to write. -/
theorem writeAll_files {fd : Int} {file : TBytes} {fuel : Nat} {p old : TBytes} {s s' : Sys ε}
    {w : Int} (hfile : disk.file s.env fd = some file) (hold : disk.tree s.env file = .content old)
    (hrun : (writeAll env fd fuel p).exec s = some (.ok w, s')) (hw : 0 ≤ w) :
    disk.tree s'.env = Function.update (disk.tree s.env) file (.content (old ++ p)) := by
  induction fuel generalizing p old s with
  | zero =>
    cases p with
    | nil =>
      cases hrun
      rw [List.append_nil, ← hold, Function.update_eq_self]
    | cons b p => cases hrun
  | succ fuel ih =>
    cases p with
    | nil =>
      cases hrun
      rw [List.append_nil, ← hold, Function.update_eq_self]
    | cons b p =>
      rw [writeAll_cons] at hrun
      obtain ⟨(n : Int), e, hn, hrun⟩ := call_inv (c := .write fd (b :: p)) hrun
      split at hrun
      case isTrue hneg =>
        cases hrun
        exact absurd hneg (Int.not_lt.mpr hw)
      case isFalse hpos =>
        obtain ⟨hle, hfile', htree⟩ :=
          hpath.appends fd (b :: p) file old s.env e n hn (Int.not_lt.mp hpos) hfile hold
        rw [ih hfile' (by rw [htree, Function.update_self]) hrun, htree, Function.update_idem,
          List.append_assoc, List.take_append_drop]

/-- After an atomic write the file has its content, and the second file is gone. -/
theorem atomicWrite_tree {fuel : Nat} {contents : TBytes} {s s' : Sys ε}
    (hrun : (AtomicWriteTextFile env fuel path contents).exec s = some (.ok 0, s')) :
    disk.tree s'.env = Function.update
      (Function.update (disk.tree s.env) (path ++ text ".tmp") .absent) path
      (.content contents) := by
  rw [AtomicWriteTextFile] at hrun
  obtain ⟨(fd : Int), e₁, hopen, hrun⟩ := call_inv (c := .open_ (path ++ text ".tmp")) hrun
  split at hrun
  case isTrue hneg =>
    cases hrun
    exact absurd hneg (by decide)
  case isFalse hfd =>
  obtain ⟨htree₁, hfile₁⟩ := hpath.creates s.env e₁ fd hopen (Int.not_lt.mp hfd)
  obtain ⟨w, s₂, hwrite, hrun⟩ := bind_exec_ok hrun
  split at hrun
  case isTrue hneg =>
    obtain ⟨-, e, -, hrun⟩ := call_inv (c := .close fd) hrun
    cases hrun
    exact absurd hneg (by decide)
  case isFalse hw =>
  have htree₂ := writeAll_files hpath hfile₁ (by rw [htree₁, Function.update_self]) hwrite
    (Int.not_lt.mp hw)
  obtain ⟨(rc : Int), e₃, hfsync, hrun⟩ := call_inv (c := .fsync fd) hrun
  have htree₃ := hpath.fsyncs fd s₂.env
  rw [hfsync] at htree₃
  split at hrun
  case isTrue hfail =>
    obtain ⟨-, e, -, hrun⟩ := call_inv (c := .close fd) hrun
    cases hrun
    exact absurd rfl hfail
  case isFalse =>
  obtain ⟨_, e₄, hclose, hrun⟩ := call_inv (c := .close fd) hrun
  have htree₄ := hpath.closes fd e₃
  rw [hclose] at htree₄
  obtain ⟨(rc' : Int), e₅, hrename, hrun⟩ :=
    call_inv (c := .rename (path ++ text ".tmp") path) hrun
  split at hrun
  case isTrue hfail =>
    cases hrun
    exact absurd rfl hfail
  case isFalse hok =>
  cases Decidable.not_not.mp hok
  have hwritten : disk.tree e₄ = Function.update (disk.tree s.env) (path ++ text ".tmp")
      (.content contents) := by
    rw [htree₄, htree₃, htree₂, List.nil_append]
    show Function.update (disk.tree e₁) _ _ = _
    rw [htree₁, Function.update_idem]
  have htree₅ := hpath.renames _ _ contents e₄ e₅ hrename (by rw [hwritten, Function.update_self])
  obtain ⟨_, s₆, hdir, hrun⟩ := bind_exec_ok hrun
  cases hrun
  rw [sameTree_FsyncDir hpath.opens hpath.fsyncs hpath.closes _ _ _ hdir]
  show disk.tree e₅ = _
  rw [htree₅, hwritten, Function.update_idem]

end Path

/-- The files of the fields stay as they are. -/
def KeepsFiles (disk : Disk ε) (which : TBytes) (s s' : Sys ε) : Prop :=
  ∀ f : ConfigField, disk.tree s'.env (confPath which f) = disk.tree s.env (confPath which f)

instance : Std.Refl (KeepsFiles disk which) := ⟨fun _ _ => rfl⟩

instance : IsTrans (Sys ε) (KeepsFiles disk which) :=
  ⟨fun _ _ _ h h' f => (h' f).trans (h f)⟩

theorem keeps_syscall {c : SysCall}
    (h : ∀ e (f : ConfigField), disk.tree (env.answer c e).2 (confPath which f) =
      disk.tree e (confPath which f)) :
    Moves (KeepsFiles disk which) (syscall env c) := by
  intro s r s' hrun f
  cases hrun
  exact h s.env f

variable (hdisk : DiskWorks env disk which)
include hdisk

/-- A disk that works for a layer works for the file of each field. -/
theorem path_works (f : ConfigField) : PathWorks env disk (confPath which f) where
  creates := hdisk.creates f
  appends := hdisk.appends
  renames := hdisk.renames
  opens e := by rw [parentPath_confPath, hdisk.opens _ List.mem_cons_self]
  fsyncs := hdisk.fsyncs
  closes := hdisk.closes

theorem keeps_FsyncDir {dir : TBytes} (hdir : dir ∈ [layerDir which, parentPath (layerDir which)]) :
    Moves (KeepsFiles disk which) (FsyncDir env dir) := fun s r s' hrun _ =>
  congrFun (sameTree_FsyncDir (hdisk.opens dir hdir) hdisk.fsyncs hdisk.closes s r s' hrun) _

theorem keeps_MkdirP : Moves (KeepsFiles disk which) (MkdirP env (layerDir which)) := by
  refine moves_bind (keeps_syscall fun e f => by rw [hdisk.looks]) fun present => ?_
  refine moves_ite (fun _ => moves_pure _) fun _ => ?_
  refine moves_bind (keeps_syscall fun e f => ?_) fun rc => ?_
  · exact hdisk.creates_directories e _ (not_prefix_layerDir which f)
  · refine moves_ite (fun _ => moves_pure _) fun _ => keeps_FsyncDir hdisk ?_
    exact List.mem_cons_of_mem _ List.mem_cons_self

/-- A file that was written atomically has its content, and the other files are as before. -/
theorem atomicWrite_files {fuel : Nat} {f : ConfigField} {contents : TBytes} {s s' : Sys ε}
    (hrun : (AtomicWriteTextFile env fuel (confPath which f) contents).exec s =
      some (.ok 0, s')) :
    disk.tree s'.env (confPath which f) = .content contents ∧
      ∀ f', f' ≠ f →
        disk.tree s'.env (confPath which f') = disk.tree s.env (confPath which f') := by
  rw [atomicWrite_tree (path_works hdisk f) hrun]
  refine ⟨Function.update_self .., fun f' hne => ?_⟩
  rw [Function.update_of_ne fun h => hne (confPath_injective h)]
  exact Function.update_of_ne (tmpPath_ne_confPath which f f') _ _

theorem writeConfigString_files {fuel : Nat} {f : ConfigField} {value : TBytes} {s s' : Sys ε}
    (hrun : (WriteConfigStringTo env fuel f.key value which).exec s = some (.ok 0, s')) :
    disk.tree s'.env (confPath which f) = .content value ∧
      ∀ f', f' ≠ f →
        disk.tree s'.env (confPath which f') = disk.tree s.env (confPath which f') := by
  obtain ⟨_, s₁, hmkdir, hrun⟩ := bind_exec_ok hrun
  rw [← confPath, parentPath_confPath] at hmkdir
  have hkeeps := keeps_MkdirP hdisk _ _ _ hmkdir
  obtain ⟨hself, hothers⟩ := atomicWrite_files hdisk hrun
  exact ⟨hself, fun f' hne => (hothers f' hne).trans (hkeeps f')⟩

end SaveLemmas

/-- When every write succeeds, each file holds the text of its field. -/
theorem saveFields_files (hdisk : DiskWorks env disk which) {fuel : Nat} {c : TConfig}
    {fs : List ConfigField}
    (hnodup : fs.Nodup) {s s' : Sys ε} {codes : List Int}
    (hrun : (saveFields env fuel c which fs).exec s = some (.ok codes, s'))
    (hcodes : ∀ rc ∈ codes, rc = 0) :
    (∀ f ∈ fs, disk.tree s'.env (confPath which f) = .content (f.type.encode (f.get c))) ∧
      ∀ f, f ∉ fs → disk.tree s'.env (confPath which f) = disk.tree s.env (confPath which f) := by
  induction fs generalizing s codes with
  | nil =>
    cases hrun
    exact ⟨fun f hf => absurd hf List.not_mem_nil, fun _ _ => rfl⟩
  | cons f fs ih =>
    obtain ⟨hf, hfs⟩ := List.nodup_cons.mp hnodup
    rw [saveFields, List.mapM_cons] at hrun
    obtain ⟨rc, s₁, hhead, hrun⟩ := bind_exec_ok hrun
    obtain ⟨rcs, s₂, htail, hrun⟩ := bind_exec_ok hrun
    cases hrun
    obtain ⟨hrc, hrcs⟩ := List.forall_mem_cons.mp hcodes
    cases hrc
    obtain ⟨hself, hothers⟩ := writeConfigString_files hdisk hhead
    obtain ⟨hsaved, hkept⟩ := ih hfs htail hrcs
    refine ⟨List.forall_mem_cons.mpr ⟨(hkept f hf).trans hself, hsaved⟩, fun f' hf' => ?_⟩
    rw [List.mem_cons, not_or] at hf'
    exact (hkept f' hf'.2).trans (hothers f' hf'.1)

end Files

end EnetTcp
