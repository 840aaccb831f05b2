import EnetTcp.Restoring

/-!
# One file written as a whole (config.cpp, AtomicWriteTextFile)

The text goes to a second file, piece by piece where writes are short. The second file takes the
place of the first one when all of it is there, and where a call fails on the way the first file
stays as it is.

* `FaultyPath`: what calls that report an error leave alone.
* `atomicWrite_fails`: a failed write has not touched the file.
* `atomicWrite_result`: a write returns, with the new file or with the old one.
-/

namespace EnetTcp

open Prog SaveLemmas RestoreLemmas

/-! ## 1. A disk that may fail -/

/-- A call that reports an error has left `kept` alone. -/
structure FaultyPath {ε : Type} (env : Env ε) (disk : Disk ε) (path kept : TBytes) : Prop
    extends PathWorks env disk path where
  open_fails : ∀ (e e' : ε) (fd : Int), env.answer (.open_ (path ++ text ".tmp")) e = (fd, e') →
    fd < 0 → disk.tree e' kept = disk.tree e kept
  write_fails : ∀ (fd : Int) (bytes path path' : TBytes) (e e' : ε) (n : Int),
    env.answer (.write fd bytes) e = (n, e') → n < 0 → disk.file e fd = some path →
    path' ≠ path → disk.tree e' path' = disk.tree e path'
  fsync_fails : ∀ (fd : Int) (e e' : ε) (rc : Int),
    env.answer (.fsync fd) e = (rc, e') → rc ≤ 0
  /-- A file is renamed as a whole or not at all. -/
  rename_fails : ∀ (src dst : TBytes) (e e' : ε) (rc : Int),
    env.answer (.rename src dst) e = (rc, e') → rc ≠ 0 → rc < 0 ∧ disk.tree e' = disk.tree e

/-- A write takes some of what it is given, or fails. -/
def WritesGoOn {ε : Type} (env : Env ε) : Prop :=
  ∀ (fd : Int) (bytes : TBytes) (e : ε), bytes ≠ [] → (env.answer (.write fd bytes) e).1 ≠ (0 : Int)

section Path

variable {ε : Type} {env : Env ε} {disk : Disk ε} {path kept : TBytes}

namespace AtomicLemmas

/-- The loop changes only the file that it writes to, whatever comes of it. -/
theorem writeAll_others (hpath : FaultyPath env disk path kept) {fd : Int} {file : TBytes}
    {fuel : Nat} {p old : TBytes} {s s' : Sys ε} {w : Int} (hfile : disk.file s.env fd = some file)
    (hold : disk.tree s.env file = .content old)
    (hrun : (writeAll env fd fuel p).exec s = some (.ok w, s')) {file' : TBytes}
    (hne : file' ≠ file) : disk.tree s'.env file' = disk.tree s.env file' := by
  induction fuel generalizing p old s with
  | zero =>
    cases p with
    | nil =>
      cases hrun
      rfl
    | cons b p => cases hrun
  | succ fuel ih =>
    cases p with
    | nil =>
      cases hrun
      rfl
    | cons b p =>
      rw [writeAll_cons] at hrun
      obtain ⟨(n : Int), e, hn, hrun⟩ := call_inv (c := .write fd (b :: p)) hrun
      split at hrun
      case isTrue hneg =>
        cases hrun
        exact hpath.write_fails fd (b :: p) file file' s.env e w hn hneg hfile hne
      case isFalse hpos =>
        obtain ⟨-, hfile', htree⟩ :=
          hpath.appends fd (b :: p) file old s.env e n hn (Int.not_lt.mp hpos) hfile hold
        rw [ih hfile' (by rw [htree, Function.update_self]) hrun, htree, Function.update_of_ne hne]

/-- A failed write has not touched the file. -/
theorem atomicWrite_fails (hpath : FaultyPath env disk path kept) (hne : kept ≠ path ++ text ".tmp")
    {fuel : Nat} {contents : TBytes} {s s' : Sys ε} {rc : Int}
    (hrun : (AtomicWriteTextFile env fuel path contents).exec s = some (.ok rc, s'))
    (hrc : rc ≠ 0) : rc < 0 ∧ disk.tree s'.env kept = disk.tree s.env kept := by
  rw [AtomicWriteTextFile] at hrun
  obtain ⟨(fd : Int), e₁, hopen, hrun⟩ := call_inv (c := .open_ (path ++ text ".tmp")) hrun
  split at hrun
  case isTrue hneg =>
    cases hrun
    exact ⟨hneg, hpath.open_fails s.env e₁ rc hopen hneg⟩
  case isFalse hfd =>
  obtain ⟨htree₁, hfile₁⟩ := hpath.creates s.env e₁ fd hopen (Int.not_lt.mp hfd)
  -- whatever comes of the loop, it has written to the second file only
  obtain ⟨w, s₂, hwrite, hrun⟩ := bind_exec_ok hrun
  have hkept₂ : disk.tree s₂.env kept = disk.tree s.env kept := by
    rw [writeAll_others hpath hfile₁ (by rw [htree₁, Function.update_self]) hwrite hne]
    show disk.tree e₁ _ = _
    rw [htree₁, Function.update_of_ne hne]
  split at hrun
  case isTrue hneg =>
    obtain ⟨_, e₃, hclose, hrun⟩ := call_inv (c := .close fd) hrun
    have htree₃ := hpath.closes fd s₂.env
    rw [hclose] at htree₃
    cases hrun
    exact ⟨hneg, (congrFun htree₃ _).trans hkept₂⟩
  case isFalse =>
  obtain ⟨(rc₃ : Int), e₃, hfsync, hrun⟩ := call_inv (c := .fsync fd) hrun
  have htree₃ := hpath.fsyncs fd s₂.env
  rw [hfsync] at htree₃
  have hkept₃ := (congrFun htree₃ _).trans hkept₂
  have hclosed := hpath.closes fd e₃
  split at hrun
  case isTrue hfail =>
    obtain ⟨_, e₄, hclose, hrun⟩ := call_inv (c := .close fd) hrun
    rw [hclose] at hclosed
    cases hrun
    have hle := hpath.fsync_fails fd s₂.env e₃ rc hfsync
    exact ⟨lt_of_le_of_ne hle hrc, (congrFun hclosed _).trans hkept₃⟩
  case isFalse =>
  -- all of the text is there, and a rename that fails is the last way not to replace the file
  obtain ⟨_, e₄, hclose, hrun⟩ := call_inv (c := .close fd) hrun
  rw [hclose] at hclosed
  have hkept₄ := (congrFun hclosed _).trans hkept₃
  obtain ⟨(rc₅ : Int), e₅, hrename, hrun⟩ :=
    call_inv (c := .rename (path ++ text ".tmp") path) hrun
  split at hrun
  case isTrue hfail =>
    cases hrun
    obtain ⟨hneg, htree₅⟩ := hpath.rename_fails _ _ e₄ e₅ rc hrename hfail
    exact ⟨hneg, (congrFun htree₅ _).trans hkept₄⟩
  case isFalse =>
    obtain ⟨_, s₆, -, hrun⟩ := bind_exec_ok hrun
    cases hrun
    exact absurd rfl hrc

/-- Each round of the loop leaves less to write. -/
theorem returns_writeLoop (hwrites : WritesGoOn env) (fd : Int) {fuel : Nat} {p : TBytes}
    (hfuel : p.length ≤ fuel) :
    Returns (fun _ => True) (fun _ => True) (writeAll env fd fuel p) := by
  induction fuel generalizing p with
  | zero =>
    cases List.length_eq_zero_iff.mp (Nat.le_zero.mp hfuel)
    exact returns_pure trivial
  | succ fuel ih =>
    cases p with
    | nil => exact returns_pure trivial
    | cons b p =>
      rw [writeAll_cons]
      refine returns_bind (returns_call (c := .write fd (b :: p)) (Q := fun n : Int => n ≠ 0)
        fun e => hwrites fd (b :: p) e (List.cons_ne_nil b p)) fun (n : Int) hn => ?_
      split
      case isTrue => exact returns_pure trivial
      case isFalse hpos =>
        refine ih ?_
        rw [List.length_drop]
        rw [List.length_cons] at hfuel ⊢
        omega

theorem returns_FsyncDir_any (env : Env ε) (dir : TBytes) :
    Returns (fun _ => True) (fun _ => True) (FsyncDir env dir) := by
  refine returns_bind (returns_any (.open_ dir)) fun (dfd : Int) _ => ?_
  split
  · exact returns_pure trivial
  · refine returns_bind (returns_any (.fsync dfd)) fun (rc : Int) _ => ?_
    exact returns_bind (returns_any (.close dfd)) fun _ _ => returns_pure trivial

theorem returns_MkdirP_any (env : Env ε) (path : TBytes) :
    Returns (fun _ => True) (fun _ => True) (MkdirP env path) := by
  refine returns_bind (returns_any (.exists path)) fun (present : Bool) _ => ?_
  cases present with
  | true => exact returns_pure trivial
  | false =>
    refine returns_bind (returns_any (.create_directories path)) fun (rc : Int) _ => ?_
    split
    · exact returns_pure trivial
    · exact returns_FsyncDir_any env _

/-- Every way through the function ends in a return. -/
theorem returns_atomicWrite_any (hwrites : WritesGoOn env) {fuel : Nat} (path : TBytes)
    {contents : TBytes} (hfuel : contents.length ≤ fuel) :
    Returns (fun _ => True) (fun _ => True) (AtomicWriteTextFile env fuel path contents) := by
  refine returns_bind (returns_any (.open_ (path ++ text ".tmp"))) fun (fd : Int) _ => ?_
  split
  · exact returns_pure trivial
  refine returns_bind (returns_writeLoop hwrites fd hfuel) fun w _ => ?_
  split
  · exact returns_bind (returns_any (.close fd)) fun _ _ => returns_pure trivial
  refine returns_bind (returns_any (.fsync fd)) fun (rc : Int) _ => ?_
  split
  · exact returns_bind (returns_any (.close fd)) fun _ _ => returns_pure trivial
  refine returns_bind (returns_any (.close fd)) fun _ _ => ?_
  refine returns_bind (returns_any (.rename (path ++ text ".tmp") path)) fun (rc : Int) _ => ?_
  split
  · exact returns_pure trivial
  · exact returns_bind (returns_FsyncDir_any env _) fun _ _ => returns_pure trivial

end AtomicLemmas

open AtomicLemmas

/-- A write returns. The file holds the text when it returns 0, and else it is as it was. -/
theorem atomicWrite_result (hpath : FaultyPath env disk path path) (hwrites : WritesGoOn env)
    {fuel : Nat} {contents : TBytes} (hfuel : contents.length ≤ fuel) (s : Sys ε) :
    ∃ rc s', (AtomicWriteTextFile env fuel path contents).exec s = some (.ok rc, s') ∧
      (rc = 0 ∧ disk.tree s'.env path = .content contents ∨
        rc < 0 ∧ disk.tree s'.env path = disk.tree s.env path) := by
  obtain ⟨rc, s', hrun, -⟩ := returns_atomicWrite_any hwrites path hfuel s trivial
  refine ⟨rc, s', hrun, ?_⟩
  by_cases hrc : rc = 0
  · subst hrc
    rw [atomicWrite_tree hpath.toPathWorks hrun]
    exact .inl ⟨rfl, Function.update_self ..⟩
  · have hne : path ≠ path ++ text ".tmp" := fun h =>
      absurd (List.self_eq_append_right.mp h) (by decide)
    exact .inr (atomicWrite_fails hpath hne hrun hrc)

end Path

/-! ## 2. A disk with short writes -/

/-- The files of `exDiskEnv`, with writes of at most two bytes. -/
def exShortEnv : Env ExFiles where
  answer c e :=
    match c with
    | .write fd bytes => exDiskEnv.answer (.write fd (bytes.take 2)) e
    | c => exDiskEnv.answer c e

theorem exShort_works (f : ConfigField) : FaultyPath exShortEnv exDisk
    (confPath (text CONFIG_CURRENT) f) (confPath (text CONFIG_CURRENT) f) where
  creates := exDisk_works.creates f
  appends fd bytes path old e e' n h hn hfile hold := by
    obtain ⟨hle, hfile', htree⟩ :=
      exDisk_works.appends fd (bytes.take 2) path old e e' n h hn hfile hold
    cases h
    refine ⟨Int.ofNat_le.mpr (List.length_take_le' 2 bytes), hfile', htree.trans ?_⟩
    rw [Int.toNat_natCast, List.take_length, List.length_take, ← List.take_eq_take_min]
  renames := exDisk_works.renames
  opens := exDisk_works.opens _ (by
    rw [parentPath_confPath]
    exact List.mem_cons_self)
  fsyncs := exDisk_works.fsyncs
  closes := exDisk_works.closes
  open_fails e e' fd h hneg := by
    have hopens := exDisk_neverFails.opens (confPath (text CONFIG_CURRENT) f ++ text ".tmp") e
    have hfd : (exDiskEnv.answer (.open_ (confPath (text CONFIG_CURRENT) f ++ text ".tmp")) e).1 =
        fd := congrArg Prod.fst h
    rw [hfd] at hopens
    exact absurd hneg (Int.not_lt.mpr hopens)
  write_fails fd bytes path path' e e' n h hn := by
    cases h
    exact absurd hn (Int.not_lt.mpr (Int.natCast_nonneg _))
  fsync_fails fd e e' rc h := by
    cases h
    exact Int.le_refl 0
  rename_fails src dst e e' rc h hrc := by
    cases h
    exact absurd rfl hrc

theorem exShort_goesOn : WritesGoOn exShortEnv := by
  intro fd bytes e hne
  cases bytes with
  | nil => exact absurd rfl hne
  | cons b bytes =>
    show (((b :: bytes).take 2).length : Int) ≠ 0
    rw [List.take_succ_cons, List.length_cons]
    exact Int.natCast_ne_zero.mpr (Nat.succ_ne_zero _)

/-- The loop goes round as often as it takes. -/
theorem short_writes_result :
    ∃ s', (AtomicWriteTextFile exShortEnv 10 (confPath (text CONFIG_CURRENT) .SerialNumber)
        (text "SN-1234567")).exec exBlank = some (.ok 0, s') ∧
      exDisk.tree s'.env (confPath (text CONFIG_CURRENT) .SerialNumber) =
        .content (text "SN-1234567") := by
  have hzero : (((AtomicWriteTextFile exShortEnv 10 (confPath (text CONFIG_CURRENT) .SerialNumber)
      (text "SN-1234567")).exec exBlank).map fun q => q.1.toOption) = some (some 0) := by
    decide +kernel
  obtain ⟨rc, s', hrun, hresult⟩ := @atomicWrite_result _ _ exDisk _
    (exShort_works .SerialNumber) exShort_goesOn 10 (text "SN-1234567") (by decide) exBlank
  rw [hrun] at hzero
  obtain rfl : rc = 0 := Option.some.inj (Option.some.inj hzero)
  obtain ⟨-, htree⟩ | ⟨hneg, -⟩ := hresult
  · exact ⟨s', hrun, htree⟩
  · exact absurd hneg (Int.lt_irrefl 0)

end EnetTcp
