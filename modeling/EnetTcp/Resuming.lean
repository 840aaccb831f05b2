import Mathlib.Logic.Relation
import EnetTcp.AtomicWrites
import EnetTcp.Calls
import EnetTcp.SeedLoading

/-!
# Starts that are cut off (config.cpp, InitializeConfigFiles)

A start seeds the layers until one of them has written the stamp. Any call of a start may fail,
and a start that is cut off is one whose calls all fail from some point on. The next one goes on
with the files that are there.

* `starts_keep_files`: no start changes a file that is there.
* `seeding_complete_iff`: the factory layer is complete for good when the start that writes the
  stamp has missed none of its files, and only then.
-/

namespace EnetTcp

open Prog SaveLemmas SeedLemmas

/-! ## 1. A disk that may fail -/

/-- The file that later starts look for. -/
def initStamp : TBytes := text CONFIG_PATH ++ text CONFIG_INIT_STAMP

/-- Calls that change files may fail. What is looked up and read is true. -/
structure FaultyStorage {ε : Type} (env : DirEnv ε) (disk : Disk ε) : Prop
    extends ConfigDisk env disk where
  open_fails : ∀ (path kept : TBytes) (e e' : ε) (fd : Int), kept ≠ path ++ text ".tmp" →
    env.answer (.open_ (path ++ text ".tmp")) e = (fd, e') → fd < 0 →
    disk.tree e' kept = disk.tree e kept
  write_fails : ∀ (fd : Int) (bytes path path' : TBytes) (e e' : ε) (n : Int),
    env.answer (.write fd bytes) e = (n, e') → n < 0 → disk.file e fd = some path →
    path' ≠ path → disk.tree e' path' = disk.tree e path'
  fsync_fails : ∀ (fd : Int) (e e' : ε) (rc : Int),
    env.answer (.fsync fd) e = (rc, e') → rc ≤ 0
  rename_fails : ∀ (src dst : TBytes) (e e' : ε) (rc : Int),
    env.answer (.rename src dst) e = (rc, e') → rc ≠ 0 → rc < 0 ∧ disk.tree e' = disk.tree e
  finds_stamp : ∀ e, (env.answer (.exists initStamp) e).1 = (disk.tree e initStamp).exists

/-- The system is cut off: no call changes anything any more. -/
def DirEnv.cutOff {ε : Type} (env : DirEnv ε) (off : ε → Bool) : DirEnv ε where
  answer c e :=
    match c with
    | .open_ path => if off e then ((-5 : Int), e) else env.answer (.open_ path) e
    | .write fd bytes => if off e then ((-5 : Int), e) else env.answer (.write fd bytes) e
    | .fsync fd => if off e then ((-5 : Int), e) else env.answer (.fsync fd) e
    | .rename src dst => if off e then ((-5 : Int), e) else env.answer (.rename src dst) e
    | .create_directories path =>
      if off e then ((-5 : Int), e) else env.answer (.create_directories path) e
    | c => env.answer c e
  entries := env.entries

/-- Wherever it is cut off, the disk is one whose calls may fail. -/
theorem cutOff_faulty {ε : Type} {env : DirEnv ε} {disk : Disk ε} (h : FaultyStorage env disk)
    (off : ε → Bool) : FaultyStorage (env.cutOff off) disk where
  creates path e e' fd hanswer hfd := by
    simp only [DirEnv.cutOff] at hanswer
    split at hanswer
    · cases hanswer
      exact absurd hfd (by decide)
    · exact h.creates path e e' fd hanswer hfd
  appends fd bytes path old e e' n hanswer hn := by
    simp only [DirEnv.cutOff] at hanswer
    split at hanswer
    · cases hanswer
      exact absurd hn (by decide)
    · exact h.appends fd bytes path old e e' n hanswer hn
  renames src dst bytes e e' hanswer := by
    simp only [DirEnv.cutOff] at hanswer
    split at hanswer
    · cases hanswer
    · exact h.renames src dst bytes e e' hanswer
  opens path e hpath := by
    simp only [DirEnv.cutOff]
    split
    · rfl
    · exact h.opens path e hpath
  creates_directories dir path e hpath := by
    simp only [DirEnv.cutOff]
    split
    · rfl
    · exact h.creates_directories dir path e hpath
  fsyncs fd e := by
    simp only [DirEnv.cutOff]
    split
    · rfl
    · exact h.fsyncs fd e
  closes := h.closes
  looks := h.looks
  finds := h.finds
  reads := h.reads
  streams := h.streams
  lists := h.lists
  iterates := h.iterates
  open_fails path kept e e' fd hkept hanswer hfd := by
    simp only [DirEnv.cutOff] at hanswer
    split at hanswer
    · cases hanswer
      rfl
    · exact h.open_fails path kept e e' fd hkept hanswer hfd
  write_fails fd bytes path path' e e' n hanswer hn hfile hpath := by
    simp only [DirEnv.cutOff] at hanswer
    split at hanswer
    · cases hanswer
      rfl
    · exact h.write_fails fd bytes path path' e e' n hanswer hn hfile hpath
  fsync_fails fd e e' rc hanswer := by
    simp only [DirEnv.cutOff] at hanswer
    split at hanswer
    · cases hanswer
      decide
    · exact h.fsync_fails fd e e' rc hanswer
  rename_fails src dst e e' rc hanswer hrc := by
    simp only [DirEnv.cutOff] at hanswer
    split at hanswer
    · cases hanswer
      exact ⟨by decide, rfl⟩
    · exact h.rename_fails src dst e e' rc hanswer hrc
  finds_stamp := h.finds_stamp

/-- The layers that a start writes to. -/
def seededLayers : List TBytes := [text CONFIG_FACTORY, text CONFIG_CURRENT]

section Disk

variable {ε : Type} (disk : Disk ε)

/-- Files are added to the layers where they are missing, those that `new` allows. -/
def AddsFiles (new : TBytes → TBytes → TBytes → Prop) (s s' : Sys ε) : Prop :=
  ∀ which ∈ seededLayers, ∀ key,
    disk.tree s'.env (FilePathFor which key) = disk.tree s.env (FilePathFor which key) ∨
      disk.tree s.env (FilePathFor which key) = .absent ∧ ∃ bytes, new which key bytes ∧
        disk.tree s'.env (FilePathFor which key) = .content bytes

/-- Each file of the factory layer is one that is seeded. -/
def PartlySeeded (c : TConfig) (s : Sys ε) : Prop :=
  ∀ key, disk.tree s.env (FilePathFor (text CONFIG_FACTORY) key) = .absent ∨
    ∃ bytes, (key, bytes) ∈ seededKeys c ∧
      disk.tree s.env (FilePathFor (text CONFIG_FACTORY) key) = .content bytes

/-- One start, to its end, with a system that may fail in its own way. -/
def Starts (c : TConfig) (s s' : Sys ε) : Prop :=
  ∃ env fuel version res, FaultyStorage env disk ∧
    (InitializeConfigFiles env fuel version c).exec s = some (.ok res, s')

/-- Whatever else happens leaves the factory layer and the stamp alone: the daemon writes to the
current layer only. -/
def GoesOn (s s' : Sys ε) : Prop :=
  (∀ key, disk.tree s'.env (FilePathFor (text CONFIG_FACTORY) key) =
    disk.tree s.env (FilePathFor (text CONFIG_FACTORY) key)) ∧
  disk.tree s'.env initStamp = disk.tree s.env initStamp

def Happens (c : TConfig) (s s' : Sys ε) : Prop := Starts disk c s s' ∨ GoesOn disk s s'

end Disk

section

variable {ε : Type} {env : DirEnv ε} {disk : Disk ε} {new : TBytes → TBytes → TBytes → Prop}
  {fuel : Nat} {s s' : Sys ε}

namespace ResumeLemmas

/-! ## 2. What a start adds -/

theorem filePath_inj {which which' key key' : TBytes} (h : which ∈ seededLayers)
    (h' : which' ∈ seededLayers) (heq : FilePathFor which key = FilePathFor which' key') :
    which = which' ∧ key = key' := by
  rw [filePathFor_layer, filePathFor_layer] at heq
  simp only [seededLayers, List.mem_cons, List.not_mem_nil, or_false] at h h'
  rcases h with rfl | rfl <;> rcases h' with rfl | rfl
  · exact ⟨rfl, List.append_cancel_right (List.append_cancel_left heq)⟩
  · exact absurd heq factory_ne_current
  · exact absurd heq.symm factory_ne_current
  · exact ⟨rfl, List.append_cancel_right (List.append_cancel_left heq)⟩

theorem getLast?_filePath (which key : TBytes) : (FilePathFor which key).getLast? ≠ some 112 := by
  rw [filePathFor_layer]
  exact getLast?_layer _ _

theorem exists_of_content {file : ConfFile} {bytes : TBytes} (h : file = .content bytes) :
    file.exists = true := by
  rw [h]
  rfl

instance : Std.Refl (AddsFiles disk new) := ⟨fun _ _ _ _ => .inl rfl⟩

instance : IsTrans (Sys ε) (AddsFiles disk new) := by
  refine ⟨fun s₁ s₂ s₃ h h' which hwhich key => ?_⟩
  rcases h which hwhich key with hsame | ⟨habsent, bytes, hnew, hbytes⟩
  · rcases h' which hwhich key with hsame' | ⟨habsent', hadded⟩
    · exact .inl (hsame'.trans hsame)
    · exact .inr ⟨hsame.symm.trans habsent', hadded⟩
  · rcases h' which hwhich key with hsame' | ⟨habsent', -⟩
    · exact .inr ⟨habsent, bytes, hnew, hsame'.trans hbytes⟩
    · rw [hbytes] at habsent'
      cases habsent'

theorem addsFiles_mono {new' : TBytes → TBytes → TBytes → Prop} (h : AddsFiles disk new s s')
    (hnew : ∀ which key bytes, new which key bytes → new' which key bytes) :
    AddsFiles disk new' s s' := by
  intro which hwhich key
  rcases h which hwhich key with hsame | ⟨habsent, bytes, hbytes, hadded⟩
  · exact .inl hsame
  · exact .inr ⟨habsent, bytes, hnew _ _ _ hbytes, hadded⟩

theorem addsFiles_kept (h : AddsFiles disk new s s') {which key : TBytes}
    (hwhich : which ∈ seededLayers)
    (hexists : (disk.tree s.env (FilePathFor which key)).exists = true) :
    disk.tree s'.env (FilePathFor which key) = disk.tree s.env (FilePathFor which key) := by
  refine (h which hwhich key).resolve_right ?_
  rintro ⟨habsent, -⟩
  rw [habsent] at hexists
  cases hexists

theorem addsFiles_same (h : AddsFiles disk new s s') {which key : TBytes}
    (hwhich : which ∈ seededLayers) (hnew : ∀ bytes, ¬new which key bytes) :
    disk.tree s'.env (FilePathFor which key) = disk.tree s.env (FilePathFor which key) := by
  refine (h which hwhich key).resolve_right ?_
  rintro ⟨-, bytes, hbytes, -⟩
  exact hnew bytes hbytes

theorem addsFiles_of_keeps (h : KeepsLayers disk s s') : AddsFiles disk new s s' := by
  intro which hwhich key
  rw [filePathFor_layer]
  simp only [seededLayers, List.mem_cons, List.not_mem_nil, or_false] at hwhich
  rcases hwhich with rfl | rfl
  · exact .inl (h factoryDir List.mem_cons_self _ (confName_ne_nil key))
  · exact .inl (h currentDir (List.mem_cons_of_mem _ List.mem_cons_self) _ (confName_ne_nil key))

theorem addsFiles_after {t : Sys ε} (h' : AddsFiles disk new t s')
    (h : disk.tree t.env = disk.tree s.env) : AddsFiles disk new s s' := by
  intro which hwhich key
  rw [← h]
  exact h' which hwhich key

theorem addsFiles_of_sameTree (h : SameTree disk s s') : AddsFiles disk new s s' :=
  fun _ _ _ => .inl (congrFun h _)

/-- Nothing that works on files throws. -/
theorem throws_atomicWrite (env : Env ε) (fuel : Nat) (path contents : TBytes) :
    Throws (fun _ => False) (AtomicWriteTextFile env fuel path contents) :=
  CallLemmas.made_atomicWrite closed_throws (fun _ _ _ _ _ _ h => by cases h)
    (fun _ _ _ h => by cases h) fuel contents

theorem layer_dir {which key : TBytes} (hwhich : which ∈ seededLayers)
    (hslash : 47 ∉ key ++ text ".conf") : ¬text ".tmp" <:+ parentPath (FilePathFor which key) := by
  rw [filePathFor_layer, parentPath_layer which hslash]
  simp only [seededLayers, List.mem_cons, List.not_mem_nil, or_false] at hwhich
  rcases hwhich with rfl | rfl <;> decide

variable (hdisk : FaultyStorage env disk)
include hdisk

theorem faulty_path {path kept : TBytes} (hdir : ¬text ".tmp" <:+ parentPath path)
    (hkept : kept ≠ path ++ text ".tmp") : FaultyPath env.toEnv disk path kept where
  toPathWorks := seed_path_works hdisk.toConfigDisk hdir
  open_fails e e' fd := hdisk.open_fails path kept e e' fd hkept
  write_fails := hdisk.write_fails
  fsync_fails := hdisk.fsync_fails
  rename_fails := hdisk.rename_fails

/-- A file is written as a whole or not at all, and no other file with it. -/
theorem atomicWrite_effect {path contents : TBytes} (hdir : ¬text ".tmp" <:+ parentPath path)
    (hlast : path.getLast? ≠ some 112) {r : Except Exn Int}
    (hrun : (AtomicWriteTextFile env.toEnv fuel path contents).exec s = some (r, s')) :
    (∀ other, other ≠ path → other.getLast? ≠ some 112 →
      disk.tree s'.env other = disk.tree s.env other) ∧
    (r = .ok 0 ∧ disk.tree s'.env path = .content contents ∨
      (∃ rc, r = .ok rc ∧ rc < 0) ∧ disk.tree s'.env path = disk.tree s.env path) := by
  have hne {other : TBytes} (hother : other.getLast? ≠ some 112) : other ≠ path ++ text ".tmp" :=
    fun h => hother (h ▸ getLast?_tmp path)
  cases r with
  | error e => exact (throws_atomicWrite _ _ _ _ _ _ _ hrun).elim
  | ok rc =>
    have hpath := seed_path_works hdisk.toConfigDisk hdir
    by_cases hrc : rc = 0
    · subst hrc
      refine ⟨fun other => atomicWrite_others hpath hrun, .inl ⟨rfl, ?_⟩⟩
      rw [atomicWrite_tree hpath hrun, Function.update_self]
    · have hfails {kept : TBytes} (hkept : kept.getLast? ≠ some 112) :=
        AtomicLemmas.atomicWrite_fails (faulty_path hdisk hdir (hne hkept)) (hne hkept) hrun hrc
      exact ⟨fun other _ hother => (hfails hother).2, .inr ⟨⟨rc, rfl, (hfails hlast).1⟩,
        (hfails hlast).2⟩⟩

/-- A missing file of a layer is written. -/
theorem addsFiles_atomicWrite {which key contents : TBytes} (hwhich : which ∈ seededLayers)
    (hslash : 47 ∉ key ++ text ".conf") (hnew : new which key contents)
    (habsent : disk.tree s.env (FilePathFor which key) = .absent) {r : Except Exn Int}
    (hrun : (AtomicWriteTextFile env.toEnv fuel (FilePathFor which key) contents).exec s =
      some (r, s')) : AddsFiles disk new s s' := by
  obtain ⟨hothers, hself⟩ := atomicWrite_effect hdisk (layer_dir hwhich hslash)
    (getLast?_filePath which key) hrun
  intro which' hwhich' key'
  by_cases heq : FilePathFor which' key' = FilePathFor which key
  · obtain ⟨rfl, rfl⟩ := filePath_inj hwhich' hwhich heq
    rcases hself with ⟨-, hcontent⟩ | ⟨-, hsame⟩
    · exact .inr ⟨habsent, contents, hnew, hcontent⟩
    · exact .inl hsame
  · exact .inl (hothers _ heq (getLast?_filePath which' key'))

/-- What `WriteIfMissing` does for a key, and what its result says. -/
theorem writeIfMissing_effect {which key value : TBytes} (hwhich : which ∈ seededLayers)
    (hslash : 47 ∉ key ++ text ".conf") (hnew : new which key value) {r : Except Exn Int}
    (hrun : (WriteIfMissing env fuel which key value).exec s = some (r, s')) :
    AddsFiles disk new s s' ∧
      ((disk.tree s'.env (FilePathFor which key)).exists = true ↔ r = .ok 0) := by
  obtain ⟨(present : Bool), e, hlook, hrun⟩ := call_inv (c := .exists (FilePathFor which key)) hrun
  have htree := hdisk.looks (FilePathFor which key) s.env
  have hpresent := hdisk.finds (FilePathFor which key) s.env (List.suffix_append _ _)
  rw [hlook] at htree hpresent
  have hpresent : present = (disk.tree s.env (FilePathFor which key)).exists := hpresent
  have htree : disk.tree e = disk.tree s.env := htree
  cases present with
  | true =>
    cases hrun
    refine ⟨addsFiles_of_sameTree htree, iff_of_true ?_ rfl⟩
    rw [htree, ← hpresent]
  | false =>
    have habsent : disk.tree e (FilePathFor which key) = .absent := by
      rw [htree]
      exact absent_of_exists hpresent.symm
    refine ⟨addsFiles_after (addsFiles_atomicWrite hdisk hwhich hslash hnew habsent hrun) htree, ?_⟩
    obtain ⟨-, ⟨rfl, hself⟩ | ⟨⟨rc, rfl, hneg⟩, hself⟩⟩ :=
      atomicWrite_effect hdisk (layer_dir hwhich hslash) (getLast?_filePath which key) hrun
    · exact iff_of_true (exists_of_content hself) rfl
    · refine iff_of_false (fun hexists => ?_) fun hok => ?_
      · rw [hself.trans habsent] at hexists
        cases hexists
      · cases hok
        exact absurd hneg (by decide)

/-- The files that a list of writes may add to the factory layer. -/
def Seeded (ws : List (TBytes × TBytes)) (which key bytes : TBytes) : Prop :=
  which = text CONFIG_FACTORY ∧ (key, bytes) ∈ ws

theorem addsFiles_seed {ws : List (TBytes × TBytes)} (hslash : ∀ w ∈ ws, 47 ∉ w.1 ++ text ".conf") :
    Moves (AddsFiles disk (Seeded ws))
      (ws.mapM fun w => WriteIfMissing env fuel (text CONFIG_FACTORY) w.1 w.2) :=
  Closed.mapM closed_moves fun w hw _ _ _ hrun =>
    (writeIfMissing_effect hdisk List.mem_cons_self (hslash w hw) ⟨rfl, hw⟩ hrun).1

/-- The results tell which of the files are there. -/
theorem seed_present {ws : List (TBytes × TBytes)} (hslash : ∀ w ∈ ws, 47 ∉ w.1 ++ text ".conf")
    (hnodup : (ws.map Prod.fst).Nodup) {codes : List Int}
    (hrun : (ws.mapM fun w => WriteIfMissing env fuel (text CONFIG_FACTORY) w.1 w.2).exec s =
      some (.ok codes, s')) :
    codes.length = ws.length ∧
      ((∀ w ∈ ws, (disk.tree s'.env (FilePathFor (text CONFIG_FACTORY) w.1)).exists = true) ↔
        ∀ rc ∈ codes, rc = 0) := by
  induction ws generalizing s codes with
  | nil =>
    cases hrun
    exact ⟨rfl, iff_of_true (fun w hw => absurd hw List.not_mem_nil)
      fun rc hrc => absurd hrc List.not_mem_nil⟩
  | cons w ws ih =>
    obtain ⟨hw, hws⟩ := List.nodup_cons.mp hnodup
    obtain ⟨hslash₁, hslash₂⟩ := List.forall_mem_cons.mp hslash
    rw [List.mapM_cons] at hrun
    obtain ⟨rc, s₁, hhead, hrun⟩ := bind_exec_ok hrun
    obtain ⟨rcs, s₂, htail, hrun⟩ := bind_exec_ok hrun
    cases hrun
    obtain ⟨hlen, hrest⟩ := ih hslash₂ hws htail
    -- the other writes leave the first file as it is
    have hsame : disk.tree s'.env (FilePathFor (text CONFIG_FACTORY) w.1) =
        disk.tree s₁.env (FilePathFor (text CONFIG_FACTORY) w.1) :=
      addsFiles_same (addsFiles_seed hdisk hslash₂ _ _ _ htail) List.mem_cons_self
        fun bytes hnew => hw (List.mem_map.mpr ⟨_, hnew.2, rfl⟩)
    obtain ⟨-, hfirst⟩ : AddsFiles disk (fun _ _ _ => True) s s₁ ∧ _ :=
      writeIfMissing_effect hdisk List.mem_cons_self hslash₁ trivial hhead
    rw [← hsame] at hfirst
    refine ⟨congrArg (· + 1) hlen, ?_⟩
    rw [List.forall_mem_cons, List.forall_mem_cons, hrest, hfirst]
    exact and_congr_left fun _ => ⟨Except.ok.inj, congrArg _⟩

/-- Files are copied to the current layer only. -/
theorem addsFiles_copyIfMissing {name : TBytes} (hslash : 47 ∉ name)
    (hconf : text ".conf" <:+ name) :
    Moves (AddsFiles disk fun which _ _ => which = text CONFIG_CURRENT)
      (copyIfMissing env fuel factoryDir currentDir name) := by
  intro s r s' hrun
  obtain ⟨key, rfl⟩ := hconf
  obtain ⟨(present : Bool), e, hlook, hrun⟩ :=
    call_inv (c := .exists (currentDir ++ (key ++ text ".conf"))) hrun
  have htree := hdisk.looks (currentDir ++ (key ++ text ".conf")) s.env
  have hmissing := hdisk.finds (currentDir ++ (key ++ text ".conf")) s.env
    ((List.suffix_append key _).trans (List.suffix_append _ _))
  rw [hlook] at htree hmissing
  have htree : disk.tree e = disk.tree s.env := htree
  cases present with
  | true =>
    cases hrun
    exact addsFiles_of_sameTree htree
  | false =>
    obtain ⟨(contents : TBytes), e', hread, hrun⟩ :=
      call_inv (c := .ifstream (factoryDir ++ (key ++ text ".conf"))) hrun
    have htree' := hdisk.streams (factoryDir ++ (key ++ text ".conf")) e
    rw [hread] at htree'
    have htree' : disk.tree e' = disk.tree s.env := Eq.trans htree' htree
    have habsent : disk.tree e' (FilePathFor (text CONFIG_CURRENT) key) = .absent := by
      rw [htree', filePathFor_layer]
      exact absent_of_exists hmissing.symm
    rw [← filePathFor_layer] at hrun
    have hcurrent : text CONFIG_CURRENT ∈ seededLayers := List.mem_cons_of_mem _ List.mem_cons_self
    exact addsFiles_after (addsFiles_atomicWrite hdisk hcurrent hslash rfl habsent hrun) htree'

theorem addsFiles_seedCurrent : Moves (AddsFiles disk fun which _ _ => which = text CONFIG_CURRENT)
    (SeedCurrentFromFactoryIfMissing env fuel) := by
  have hlook : Moves (AddsFiles disk fun which _ _ => which = text CONFIG_CURRENT)
      (syscall env.toEnv (.exists factoryDir)) :=
    fun s r s' hrun => addsFiles_of_sameTree (sameTree_syscall (hdisk.looks factoryDir) s r s' hrun)
  refine moves_bind hlook fun (present : Bool) => moves_ite (fun _ => moves_pure _) fun _ => ?_
  refine moves_bind_ok ?_ fun names t t' hnames => ?_
  · intro s r s' hrun
    cases hrun
    exact addsFiles_of_sameTree (hdisk.iterates factoryDir s.env)
  · cases hnames
    refine Closed.mapM closed_moves fun name hname => ?_
    obtain ⟨⟨name, regular⟩, hentry, rfl⟩ := List.mem_map.mp hname
    obtain ⟨hentry, hkeep⟩ := List.mem_filter.mp hentry
    obtain ⟨hregular, hconf⟩ := Bool.and_eq_true_iff.mp hkeep
    cases hregular
    exact addsFiles_copyIfMissing hdisk (hdisk.lists name t.env hentry).1
      (List.isSuffixOf_iff_suffix.mp (Bool.and_eq_true_iff.mp hconf).2)

omit hdisk in
theorem filePath_ne_stamp (which key : TBytes) : FilePathFor which key ≠ initStamp := by
  intro h
  have hlast := congrArg List.getLast? h
  rw [FilePathFor, getLast?_conf] at hlast
  exact absurd hlast (by decide)

/-- The stamp is no file of a layer. -/
theorem stamp_effect {version : TBytes} {r : Except Exn Bool}
    (hrun : (WriteInitStamp env fuel version).exec s = some (r, s')) :
    AddsFiles disk new s s' ∧
      (r = .ok true → (disk.tree s'.env initStamp).exists = true) := by
  have hadds {t t' : Sys ε} {q : Except Exn Int}
      (h : (AtomicWriteTextFile env.toEnv fuel initStamp version).exec t = some (q, t')) :=
    atomicWrite_effect hdisk (by decide) (by decide) h
  rw [WriteInitStamp, exec_bind, Option.bind_eq_some_iff] at hrun
  obtain ⟨⟨q, t⟩, hwrite, hrun⟩ := hrun
  obtain ⟨hothers, hself⟩ := hadds hwrite
  have hlayers : AddsFiles disk new s t := fun which _ key =>
    .inl (hothers _ (filePath_ne_stamp which key) (getLast?_filePath which key))
  rcases hself with ⟨rfl, hcontent⟩ | ⟨⟨rc, rfl, hneg⟩, -⟩
  · cases hrun
    exact ⟨hlayers, fun _ => exists_of_content hcontent⟩
  · cases hrun
    refine ⟨hlayers, fun hok => ?_⟩
    have hzero : (rc == 0) = true := Except.ok.inj hok
    rw [beq_iff_eq.mp hzero] at hneg
    exact absurd hneg (by decide)

/-! ## 3. A start -/

/-- A start has seeded nothing, or it has seeded both layers and come to the stamp. -/
theorem initialize_steps {version : TBytes} {c : TConfig} {res : Option (List Int × Bool)}
    (hrun : (InitializeConfigFiles env fuel version c).exec s = some (.ok res, s')) :
    res = none ∧ KeepsLayers disk s s' ∨ ∃ s₁ s₂ s₃ factory current stamp,
      res = some (factory ++ current, stamp) ∧ KeepsLayers disk s s₁ ∧
      (SeedFactoryFromStruct env fuel c).exec s₁ = some (.ok factory, s₂) ∧
      (SeedCurrentFromFactoryIfMissing env fuel).exec s₂ = some (.ok current, s₃) ∧
      (WriteInitStamp env fuel version).exec s₃ = some (.ok stamp, s') := by
  obtain ⟨made, t, hmade, hrun⟩ := bind_exec_ok hrun
  have hkept := keepsLayers_ensureConfigTree hdisk.toConfigDisk _ _ _ hmade
  split at hrun
  · cases hrun
    exact .inl ⟨rfl, hkept⟩
  obtain ⟨first, s₁, hfirst, hrun⟩ := bind_exec_ok hrun
  have hkept' := keepsLayers_isFirstBoot hdisk.toConfigDisk _ _ _ hfirst
  split at hrun
  · cases hrun
    exact .inl ⟨rfl, IsTrans.trans _ _ _ hkept hkept'⟩
  obtain ⟨factory, s₂, hfactory, hrun⟩ := bind_exec_ok hrun
  obtain ⟨current, s₃, hcurrent, hrun⟩ := bind_exec_ok hrun
  obtain ⟨stamp, s₄, hstamp, hrun⟩ := bind_exec_ok hrun
  cases hrun
  exact .inr ⟨s₁, s₂, s₃, factory, current, stamp, rfl, IsTrans.trans _ _ _ hkept hkept', hfactory,
    hcurrent, hstamp⟩

/-- What a whole start adds. -/
theorem addsFiles_start {version : TBytes} {c : TConfig} {res : Option (List Int × Bool)}
    (hrun : (InitializeConfigFiles env fuel version c).exec s = some (.ok res, s')) :
    AddsFiles disk (fun which key bytes =>
      which = text CONFIG_FACTORY → (key, bytes) ∈ seededKeys c) s s' := by
  obtain ⟨-, hkept⟩ | ⟨s₁, s₂, s₃, factory, current, stamp, -, hkept, hfactory, hcurrent, hstamp⟩ :=
    initialize_steps hdisk hrun
  · exact addsFiles_of_keeps hkept
  · have hseed := addsFiles_seed hdisk (fun w hw => slash_not_mem_seeded hw) _ _ _ hfactory
    have hcopy := addsFiles_seedCurrent hdisk _ _ _ hcurrent
    refine IsTrans.trans s s₁ s' (addsFiles_of_keeps hkept) (IsTrans.trans s₁ s₂ s' ?_
      (IsTrans.trans s₂ s₃ s' ?_ (stamp_effect hdisk hstamp).1))
    · exact addsFiles_mono hseed fun which key bytes hnew _ => hnew.2
    · refine addsFiles_mono hcopy ?_
      rintro which key bytes rfl hlayer
      exact absurd hlayer (by decide)

/-- A file that the directories are not below stays as it is. -/
def SameFile (disk : Disk ε) (path : TBytes) (s s' : Sys ε) : Prop :=
  disk.tree s'.env path = disk.tree s.env path

omit hdisk in
instance (path : TBytes) : Std.Refl (SameFile disk path) := ⟨fun _ => rfl⟩

omit hdisk in
instance (path : TBytes) : IsTrans (Sys ε) (SameFile disk path) := ⟨fun _ _ _ h h' => Eq.trans h' h⟩

omit hdisk in
theorem sameFile_of_sameTree {α : Type} {path : TBytes} {p : Prog Exn (Sys ε) α}
    (h : Moves (SameTree disk) p) : Moves (SameFile disk path) p :=
  fun s r s' hrun => congrFun (h s r s' hrun) path

theorem sameFile_mkdirP {path dir : TBytes} (hpath : ¬path <+: dir)
    (htmp : ¬text ".tmp" <:+ parentPath dir) :
    Moves (SameFile disk path) (MkdirP env.toEnv dir) := by
  refine moves_bind (sameFile_of_sameTree (sameTree_syscall (hdisk.looks dir))) fun present => ?_
  refine moves_ite (fun _ => moves_pure _) fun _ => ?_
  refine moves_bind (fun s r s' hrun => ?_) fun rc => ?_
  · cases hrun
    exact hdisk.creates_directories dir path s.env hpath
  · refine moves_ite (fun _ => moves_pure _) fun _ => sameFile_of_sameTree ?_
    exact sameTree_FsyncDir (fun e => hdisk.opens _ e htmp) hdisk.fsyncs hdisk.closes

theorem sameStamp_ensureConfigTree : Moves (SameFile disk initStamp) (EnsureConfigTree env) := by
  refine moves_bind (sameFile_mkdirP hdisk (by decide) (by decide)) fun _ => ?_
  refine moves_ite (fun _ => moves_pure _) fun _ => ?_
  refine moves_bind (sameFile_mkdirP hdisk (by decide) (by decide)) fun _ => ?_
  refine moves_ite (fun _ => moves_pure _) fun _ => ?_
  refine moves_bind (sameFile_mkdirP hdisk (by decide) (by decide)) fun _ => ?_
  refine moves_ite (fun _ => moves_pure _) fun _ => ?_
  refine moves_bind (sameFile_mkdirP hdisk (by decide) (by decide)) fun _ => ?_
  exact moves_ite (fun _ => moves_pure _) fun _ => moves_pure _

/-- Once the stamp is there, starts leave the layers alone. -/
theorem stamped_start {version : TBytes} {c : TConfig} {res : Option (List Int × Bool)}
    (hstamp : (disk.tree s.env initStamp).exists = true)
    (hrun : (InitializeConfigFiles env fuel version c).exec s = some (.ok res, s')) :
    KeepsLayers disk s s' ∧ SameFile disk initStamp s s' := by
  obtain ⟨made, t, hmade, hrun⟩ := bind_exec_ok hrun
  have hkept := keepsLayers_ensureConfigTree hdisk.toConfigDisk _ _ _ hmade
  have hsame : SameFile disk initStamp s t := sameStamp_ensureConfigTree hdisk _ _ _ hmade
  split at hrun
  · cases hrun
    exact ⟨hkept, hsame⟩
  obtain ⟨first, t', hfirst, hrun⟩ := bind_exec_ok hrun
  obtain ⟨(present : Bool), e, hlook, hfirst⟩ := call_inv (c := .exists initStamp) hfirst
  have hpresent := hdisk.finds_stamp t.env
  have htree := hdisk.looks initStamp t.env
  rw [hlook] at hpresent htree
  have hpresent : present = (disk.tree t.env initStamp).exists := hpresent
  rw [hsame, hstamp] at hpresent
  subst hpresent
  cases hfirst
  cases hrun
  refine ⟨fun dir hdir name hname => ?_, (congrFun htree initStamp).trans hsame⟩
  exact (congrFun htree _).trans (hkept dir hdir name hname)

omit hdisk in
theorem keepsLayers_factory (h : KeepsLayers disk s s') (key : TBytes) :
    disk.tree s'.env (FilePathFor (text CONFIG_FACTORY) key) =
      disk.tree s.env (FilePathFor (text CONFIG_FACTORY) key) := by
  rw [filePathFor_layer]
  exact h factoryDir List.mem_cons_self _ (confName_ne_nil key)

omit hdisk in
theorem partlySeeded_adds {c : TConfig} (h : PartlySeeded disk c s)
    (hadds : AddsFiles disk (fun which key bytes =>
      which = text CONFIG_FACTORY → (key, bytes) ∈ seededKeys c) s s') :
    PartlySeeded disk c s' := by
  intro key
  rcases hadds _ List.mem_cons_self key with hsame | ⟨-, bytes, hnew, hcontent⟩
  · rw [hsame]
    exact h key
  · exact .inr ⟨bytes, hnew rfl, hcontent⟩

end ResumeLemmas

open ResumeLemmas

/-! ## 4. Many starts -/

/-- However often the daemon is started, and whatever fails: a file of a layer that was there
before is the same afterwards. -/
theorem starts_keep_files {c : TConfig} (h : Relation.ReflTransGen (Starts disk c) s s')
    {which key : TBytes} (hwhich : which ∈ seededLayers)
    (hexists : (disk.tree s.env (FilePathFor which key)).exists = true) :
    disk.tree s'.env (FilePathFor which key) = disk.tree s.env (FilePathFor which key) := by
  induction h with
  | refl => rfl
  | tail _ hstart ih =>
    obtain ⟨env, fuel, version, res, hdisk, hrun⟩ := hstart
    rw [addsFiles_kept (addsFiles_start hdisk hrun) hwhich (by rw [ih]; exact hexists), ih]

namespace ResumeLemmas

theorem partlySeeded_happens {c : TConfig} (h : Relation.ReflTransGen (Happens disk c) s s')
    (hpartly : PartlySeeded disk c s) : PartlySeeded disk c s' := by
  induction h with
  | refl => exact hpartly
  | tail _ hnext ih =>
    rcases hnext with ⟨env, fuel, version, res, hdisk, hrun⟩ | ⟨hfactory, -⟩
    · exact partlySeeded_adds ih (addsFiles_start hdisk hrun)
    · intro key
      rw [hfactory]
      exact ih key

theorem stamped_happens {c : TConfig} (h : Relation.ReflTransGen (Happens disk c) s s')
    (hstamp : (disk.tree s.env initStamp).exists = true) :
    (disk.tree s'.env initStamp).exists = true ∧ ∀ key,
      disk.tree s'.env (FilePathFor (text CONFIG_FACTORY) key) =
        disk.tree s.env (FilePathFor (text CONFIG_FACTORY) key) := by
  induction h with
  | refl => exact ⟨hstamp, fun _ => rfl⟩
  | tail _ hnext ih =>
    obtain ⟨ihstamp, ihfactory⟩ := ih
    rcases hnext with ⟨env, fuel, version, res, hdisk, hrun⟩ | ⟨hfactory, hsame⟩
    · obtain ⟨hkept, hsame⟩ := stamped_start hdisk ihstamp hrun
      exact ⟨by rw [hsame, ihstamp],
        fun key => (keepsLayers_factory hkept key).trans (ihfactory key)⟩
    · exact ⟨by rw [hsame, ihstamp], fun key => (hfactory key).trans (ihfactory key)⟩

/-- A seeded file has the text that belongs to its key. -/
theorem seeded_content {c : TConfig} (h : PartlySeeded disk c s) {w : TBytes × TBytes}
    (hw : w ∈ seededKeys c) :
    disk.tree s.env (FilePathFor (text CONFIG_FACTORY) w.1) = .content w.2 ↔
      (disk.tree s.env (FilePathFor (text CONFIG_FACTORY) w.1)).exists = true := by
  refine ⟨exists_of_content, fun hexists => ?_⟩
  rcases h w.1 with habsent | ⟨bytes, hbytes, hcontent⟩
  · rw [habsent] at hexists
    cases hexists
  · have heq : (w.1, bytes) = w := List.inj_on_of_nodup_map (seededKeys_nodup c) hbytes hw rfl
    rw [hcontent, ← heq]

end ResumeLemmas

/-- The daemon has been started any number of times, with whatever failures, and has run in
between. Then a start writes the stamp. From there on, and after any further starts, the factory
layer is complete if and only if that start has found or written each of its files. -/
theorem seeding_complete_iff {c : TConfig} {s₀ s'' : Sys ε} {version : TBytes} {codes : List Int}
    (hpartly : PartlySeeded disk c s₀) (hbefore : Relation.ReflTransGen (Happens disk c) s₀ s)
    (hdisk : FaultyStorage env disk)
    (hrun : (InitializeConfigFiles env fuel version c).exec s = some (.ok (some (codes, true)), s'))
    (hafter : Relation.ReflTransGen (Happens disk c) s' s'') :
    (∀ w ∈ seededKeys c,
      disk.tree s''.env (FilePathFor (text CONFIG_FACTORY) w.1) = .content w.2) ↔
      ∀ rc ∈ codes.take (seededKeys c).length, rc = 0 := by
  obtain ⟨hres, -⟩ | ⟨s₁, s₂, s₃, factory, current, stamp, hres, hkept, hfactory, hcurrent,
    hstamp⟩ := initialize_steps hdisk hrun
  · cases hres
  cases hres
  obtain ⟨hlen, hpresent⟩ := seed_present hdisk (fun w hw => slash_not_mem_seeded hw)
    (seededKeys_nodup c) hfactory
  -- the copies, the stamp and all that comes later leave the factory layer as it is
  obtain ⟨hadds, hthere⟩ : AddsFiles disk (fun _ _ _ => False) s₃ s' ∧ _ :=
    stamp_effect hdisk hstamp
  have hsame (key : TBytes) : disk.tree s''.env (FilePathFor (text CONFIG_FACTORY) key) =
      disk.tree s₂.env (FilePathFor (text CONFIG_FACTORY) key) := by
    rw [(stamped_happens hafter (hthere rfl)).2, addsFiles_same hadds List.mem_cons_self
      fun _ => id, addsFiles_same (addsFiles_seedCurrent hdisk _ _ _ hcurrent) List.mem_cons_self
      fun _ => by decide]
  have hpartly₂ : PartlySeeded disk c s₂ := by
    refine partlySeeded_adds (partlySeeded_adds (partlySeeded_happens hbefore hpartly)
      (addsFiles_of_keeps hkept)) ?_
    exact addsFiles_mono (addsFiles_seed hdisk (fun w hw => slash_not_mem_seeded hw) _ _ _ hfactory)
      fun _ _ _ hnew _ => hnew.2
  rw [List.take_left' hlen, ← hpresent]
  exact forall₂_congr fun w hw => by rw [hsame, seeded_content hpartly₂ hw]

end

/-! ## 5. An example -/

theorem exSeed_faulty : FaultyStorage exSeedEnv exSeedDisk where
  toConfigDisk := exSeed_works
  open_fails path kept e e' fd _ hanswer hfd := by
    have hopen := exSeed_neverFails.opens (path ++ text ".tmp") e
    rw [hanswer] at hopen
    exact absurd hfd (Int.not_lt.mpr hopen)
  write_fails fd bytes path path' e e' n hanswer hn := by
    have hwrite := exSeed_neverFails.writes fd bytes e
    rw [hanswer] at hwrite
    have hwrite : n = (bytes.length : Int) := hwrite
    omega
  fsync_fails fd e e' rc hanswer := by
    cases hanswer
    exact Int.le_refl 0
  rename_fails src dst e e' rc hanswer hrc := by
    have hrename := exSeed_neverFails.renames src dst e
    rw [hanswer] at hrename
    exact absurd hrename hrc
  finds_stamp _ := rfl

namespace ResumeLemmas

theorem returns_ensureConfigTree :
    Returns (fun _ => True) (fun made => made = true) (EnsureConfigTree exSeedEnv) := by
  have hmade (dir : TBytes) := RestoreLemmas.returns_MkdirP exSeed_neverFails dir
  refine returns_bind (hmade _) fun rc hrc => ?_
  rw [hrc]
  refine returns_bind (hmade _) fun rc hrc => ?_
  rw [hrc]
  refine returns_bind (hmade _) fun rc hrc => ?_
  rw [hrc]
  refine returns_bind (hmade _) fun rc hrc => ?_
  rw [hrc]
  exact returns_pure rfl

/-- Without the stamp everything that is missing is seeded. -/
theorem exSeed_seeds (version : TBytes) (c : TConfig) {s : Sys ExLog}
    (hstamp : (exSeedDisk.tree s.env initStamp).exists = false) :
    ∃ s', Seeds exSeedEnv 1 version c s s' := by
  obtain ⟨made, s₁, hmade, -, rfl⟩ := returns_ensureConfigTree s trivial
  have hsame : SameFile exSeedDisk initStamp s s₁ :=
    sameStamp_ensureConfigTree exSeed_faulty _ _ _ hmade
  have hfirst : (IsFirstBoot exSeedEnv).exec s₁ =
      some (.ok true, ⟨s₁.env, s₁.calls ++ [.exists initStamp]⟩) := by
    show some (Except.ok (!(exSeedDisk.tree s₁.env initStamp).exists), _) = _
    rw [hsame, hstamp]
    rfl
  have hseed : Returns (fun _ => True) (fun codes => ∀ rc ∈ codes, rc = 0)
      (SeedFactoryFromStruct exSeedEnv 1 c) :=
    returns_mapM fun w _ => returns_writeIfMissing _ _ _
  obtain ⟨factory, s₃, hfactory, -, hcodes⟩ :=
    hseed ⟨s₁.env, s₁.calls ++ [.exists initStamp]⟩ trivial
  obtain ⟨current, s₄, hcurrent, -, hcodes'⟩ := returns_seedCurrent s₃ trivial
  obtain ⟨stamp, s₅, hwritten, -, rfl⟩ := returns_writeInitStamp version s₄ trivial
  refine ⟨s₅, factory ++ current, ?_, List.forall_mem_append.mpr ⟨hcodes, hcodes'⟩⟩
  rw [InitializeConfigFiles, exec_bind_ok hmade]
  show (IsFirstBoot exSeedEnv >>= _).exec s₁ = _
  rw [exec_bind_ok hfirst]
  show (SeedFactoryFromStruct exSeedEnv 1 c >>= _).exec _ = _
  rw [exec_bind_ok hfactory, exec_bind_ok hcurrent, exec_bind, hwritten]
  rfl

end ResumeLemmas

/-- The first start is cut off in the middle of its fourth file. -/
def exCutOff : DirEnv ExLog := exSeedEnv.cutOff fun e => decide (18 ≤ e.log.length)

namespace ResumeLemmas

theorem exCutOff_start : ∃ s, Starts exSeedDisk InitConfig exNew s ∧
    (exSeedDisk.tree s.env initStamp).exists = false ∧
    (exSeedDisk.tree s.env (FilePathFor (text CONFIG_FACTORY) (text "BRD_SerialNumber"))).exists =
      true ∧
    (exSeedDisk.tree s.env (FilePathFor (text CONFIG_FACTORY) (text "ADC_Differential"))).exists =
      false := by
  have hrun : ((InitializeConfigFiles exCutOff 1 [] InitConfig).exec exNew).map (fun r =>
      r.1.isOk && !(exSeedDisk.tree r.2.env initStamp).exists &&
      (exSeedDisk.tree r.2.env
        (FilePathFor (text CONFIG_FACTORY) (text "BRD_SerialNumber"))).exists &&
      !(exSeedDisk.tree r.2.env
        (FilePathFor (text CONFIG_FACTORY) (text "ADC_Differential"))).exists) = some true := by
    decide +kernel
  obtain ⟨⟨r, s⟩, hrun, hs⟩ := Option.map_eq_some_iff.mp hrun
  simp only [Bool.and_eq_true, Bool.not_eq_true'] at hs
  obtain ⟨⟨⟨hok, hstamp⟩, hserial⟩, hdifferential⟩ := hs
  cases r with
  | error e => cases hok
  | ok res =>
    exact ⟨s, ⟨exCutOff, 1, [], res, cutOff_faulty exSeed_faulty _, hrun⟩, hstamp, hserial,
      hdifferential⟩

end ResumeLemmas

open ResumeLemmas

theorem starts_keep_files_example :
    ∃ s s', Starts exSeedDisk InitConfig exNew s ∧ Starts exSeedDisk InitConfig s s' ∧
      exSeedDisk.tree s'.env (FilePathFor (text CONFIG_FACTORY) (text "BRD_SerialNumber")) =
        exSeedDisk.tree s.env (FilePathFor (text CONFIG_FACTORY) (text "BRD_SerialNumber")) := by
  obtain ⟨s, hfirst, hstamp, hserial, -⟩ := exCutOff_start
  obtain ⟨s', codes, hrun, -⟩ := exSeed_seeds [] InitConfig hstamp
  have hnext : Starts exSeedDisk InitConfig s s' := ⟨exSeedEnv, 1, [], _, exSeed_faulty, hrun⟩
  exact ⟨s, s', hfirst, hnext, starts_keep_files (.single hnext) List.mem_cons_self hserial⟩

/-- The second start completes what the first one has left. -/
theorem seeding_complete_iff_example :
    ∃ s s', Starts exSeedDisk InitConfig exNew s ∧
      (exSeedDisk.tree s.env
        (FilePathFor (text CONFIG_FACTORY) (text "ADC_Differential"))).exists = false ∧
      Starts exSeedDisk InitConfig s s' ∧ ∀ w ∈ seededKeys InitConfig,
        exSeedDisk.tree s'.env (FilePathFor (text CONFIG_FACTORY) w.1) = .content w.2 := by
  obtain ⟨s, hfirst, hstamp, -, hmissing⟩ := exCutOff_start
  obtain ⟨s', codes, hrun, hcodes⟩ := exSeed_seeds [] InitConfig hstamp
  have hnext : Starts exSeedDisk InitConfig s s' := ⟨exSeedEnv, 1, [], _, exSeed_faulty, hrun⟩
  have hempty : PartlySeeded exSeedDisk InitConfig exNew := fun _ => .inl rfl
  refine ⟨s, s', hfirst, hmissing, hnext, ?_⟩
  exact (seeding_complete_iff hempty (.single (.inl hfirst)) exSeed_faulty hrun .refl).mpr
    fun rc hrc => hcodes rc (List.mem_of_mem_take hrc)

end EnetTcp
