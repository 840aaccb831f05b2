import EnetTcp.AtomicWrites
import EnetTcp.Failures

/-!
# Settings in memory and on disk (config.cpp)

What a data item sets in `Config` it writes to a file as well. Each write may fail.

* `FaultyDisk`: what calls that report an error leave alone.
* `writeConfigString_result`: a write leaves the new text or the old file.
* `writeKeys_files`: the same of several writes, each of which may fail.
* `Assigns`: programs that give fields of `Config` their values.
-/

namespace EnetTcp

open Prog SaveLemmas AtomicLemmas FailureLemmas

variable {ε : Type}

/-! ## 1. Settings -/

/-- A field of `Config`, and a value for it. -/
structure Setting where
  field : ConfigField
  value : field.type.Value

namespace Setting

/-- The key and the text that are written. -/
def write (x : Setting) : TBytes × TBytes := (x.field.key, x.field.type.encode x.value)

/-- `Config` has the value. -/
def InMemory (x : Setting) (c : TConfig) : Prop := x.field.get c = x.value

/-- The file holds the value. -/
def OnDisk (x : Setting) (which : TBytes) (tree : ConfigTree) : Prop :=
  tree (confPath which x.field) = .content (x.field.type.encode x.value)

end Setting

/-- Give fields their values, one after the other. -/
def assign (xs : List Setting) (c : TConfig) : TConfig :=
  xs.foldl (fun c x => x.field.set c x.value) c

theorem assign_append (xs ys : List Setting) (c : TConfig) :
    assign (xs ++ ys) c = assign ys (assign xs c) := List.foldl_append

/-- A field that gets no value keeps its own. -/
theorem get_assign_of_not_mem {xs : List Setting} {f : ConfigField}
    (h : f ∉ xs.map Setting.field) (c : TConfig) : f.get (assign xs c) = f.get c := by
  induction xs generalizing c with
  | nil => rfl
  | cons x xs ih =>
    rw [List.map_cons, List.mem_cons, not_or] at h
    rw [assign, List.foldl_cons, ← assign, ih h.2]
    exact ConfigField.get_set_of_ne h.1 x.value

/-- A field that gets one value has it. -/
theorem get_assign_of_mem {xs : List Setting} (hnodup : (xs.map Setting.field).Nodup) {x : Setting}
    (hx : x ∈ xs) (c : TConfig) : x.InMemory (assign xs c) := by
  induction xs generalizing c with
  | nil => cases hx
  | cons y xs ih =>
    obtain ⟨hy, hxs⟩ := List.nodup_cons.mp hnodup
    rw [assign, List.foldl_cons, ← assign]
    rcases List.mem_cons.mp hx with rfl | hx
    · exact (get_assign_of_not_mem hy _).trans (x.field.get_set_self x.value)
    · exact ih hxs hx _

/-- Values that `Config` has already do not change it. -/
theorem get_assign_of_inMemory {xs : List Setting} (hnodup : (xs.map Setting.field).Nodup)
    {c : TConfig} (h : ∀ x ∈ xs, x.InMemory c) (f : ConfigField) :
    f.get (assign xs c) = f.get c := by
  by_cases hf : f ∈ xs.map Setting.field
  · obtain ⟨x, hx, rfl⟩ := List.mem_map.mp hf
    exact (get_assign_of_mem hnodup hx c).trans (h x hx).symm
  · exact get_assign_of_not_mem hf c

/-! ## 2. A disk that may fail -/

/-- A call that reports an error has left the files alone that it is not for. -/
structure FaultyDisk (env : Env ε) (disk : Disk ε) (which : TBytes) : Prop
    extends DiskWorks env disk which where
  open_fails : ∀ (f f' : ConfigField) (e e' : ε) (fd : Int),
    env.answer (.open_ (tmpPath which f)) e = (fd, e') → fd < 0 →
    disk.tree e' (confPath which f') = disk.tree e (confPath which f')
  write_fails : ∀ (fd : Int) (bytes path path' : TBytes) (e e' : ε) (n : Int),
    env.answer (.write fd bytes) e = (n, e') → n < 0 → disk.file e fd = some path →
    path' ≠ path → disk.tree e' path' = disk.tree e path'
  fsync_fails : ∀ (fd : Int) (e e' : ε) (rc : Int),
    env.answer (.fsync fd) e = (rc, e') → rc ≤ 0
  /-- A file is renamed as a whole or not at all. -/
  rename_fails : ∀ (src dst : TBytes) (e e' : ε) (rc : Int),
    env.answer (.rename src dst) e = (rc, e') → rc ≠ 0 → rc < 0 ∧ disk.tree e' = disk.tree e

section Disk

variable {env : Env ε} {disk : Disk ε} {which : TBytes}

namespace PersistLemmas

variable (hdisk : FaultyDisk env disk which)
include hdisk

theorem faulty_path (f f' : ConfigField) :
    FaultyPath env disk (confPath which f) (confPath which f') where
  toPathWorks := path_works hdisk.toDiskWorks f
  open_fails := hdisk.open_fails f f'
  write_fails := hdisk.write_fails
  fsync_fails := hdisk.fsync_fails
  rename_fails := hdisk.rename_fails

end PersistLemmas

open PersistLemmas

/-- What a write leaves: the text of the value when it reports success, else the file of
before. -/
def Setting.Outcome (x : Setting) (which : TBytes) (tree tree' : ConfigTree) (rc : Int) : Prop :=
  rc ≤ 0 ∧ tree' (confPath which x.field) =
    if rc = 0 then .content (x.field.type.encode x.value) else tree (confPath which x.field)

theorem writeConfigString_result (hdisk : FaultyDisk env disk which) {fuel : Nat} {x : Setting}
    {s s' : Sys ε} {rc : Int}
    (hrun : (WriteConfigStringTo env fuel x.write.1 x.write.2 which).exec s = some (.ok rc, s')) :
    x.Outcome which (disk.tree s.env) (disk.tree s'.env) rc ∧
      ∀ f, f ≠ x.field → disk.tree s'.env (confPath which f) =
        disk.tree s.env (confPath which f) := by
  by_cases hrc : rc = 0
  · subst hrc
    obtain ⟨hself, hothers⟩ := writeConfigString_files hdisk.toDiskWorks hrun
    exact ⟨⟨Int.le_refl 0, hself⟩, hothers⟩
  · obtain ⟨_, s₁, hmkdir, hrun⟩ := bind_exec_ok hrun
    have hpath : FilePathFor which x.write.1 = confPath which x.field := rfl
    rw [hpath, parentPath_confPath] at hmkdir
    have hkeeps := keeps_MkdirP hdisk.toDiskWorks _ _ _ hmkdir
    have hfails (f : ConfigField) := atomicWrite_fails (faulty_path hdisk x.field f)
      (tmpPath_ne_confPath which x.field f) hrun hrc
    refine ⟨⟨(hfails x.field).1.le, ?_⟩, fun f _ => (hfails f).2.trans (hkeeps f)⟩
    rw [if_neg hrc]
    exact (hfails x.field).2.trans (hkeeps x.field)

end Disk

/-! ## 3. Several writes -/

section Writes

variable {env : Env ε} {disk : Disk ε} {fuel : Nat}

/-- The directory of the current layer, as a string of bytes. -/
abbrev currentLayer : TBytes := text CONFIG_CURRENT

/-- Of several files each holds its new text, or what it held before. -/
theorem writeKeys_files (hdisk : FaultyDisk env disk currentLayer) {xs : List Setting}
    (hnodup : (xs.map Setting.field).Nodup) {s s' : Sys ε} {rcs : List Int}
    (hrun : (writeKeys env fuel (xs.map Setting.write)).exec s = some (.ok rcs, s')) :
    List.Forall₂ (fun x rc => x.Outcome currentLayer (disk.tree s.env) (disk.tree s'.env) rc)
        xs rcs ∧
      ∀ f, f ∉ xs.map Setting.field →
        disk.tree s'.env (confPath currentLayer f) = disk.tree s.env (confPath currentLayer f) := by
  induction xs generalizing s rcs with
  | nil =>
    cases hrun
    exact ⟨.nil, fun _ _ => rfl⟩
  | cons x xs ih =>
    obtain ⟨hx, hxs⟩ := List.nodup_cons.mp hnodup
    rw [List.map_cons, writeKeys, List.mapM_cons] at hrun
    obtain ⟨rc, s₁, hhead, hrun⟩ := bind_exec_ok hrun
    obtain ⟨rcs', s₂, htail, hrun⟩ := bind_exec_ok hrun
    cases hrun
    obtain ⟨⟨hle, hself⟩, hothers⟩ := writeConfigString_result hdisk (x := x) hhead
    obtain ⟨hwritten, hkept⟩ := ih hxs htail
    refine ⟨.cons ⟨hle, (hkept x.field hx).trans hself⟩ ?_, fun f hf => ?_⟩
    · refine List.forall₂_iff_get.mpr ⟨hwritten.length_eq, fun i hi hi' => ?_⟩
      obtain ⟨hle, hfile⟩ := (List.forall₂_iff_get.mp hwritten).2 i hi hi'
      refine ⟨hle, hfile.trans ?_⟩
      rw [hothers]
      exact fun heq => hx (heq ▸ List.mem_map_of_mem (List.get_mem xs _))
    · rw [List.map_cons, List.mem_cons, not_or] at hf
      exact (hkept f hf.2).trans (hothers f hf.1)

/-- The file has the value after a write with this result. -/
def Setting.Arrives (x : Setting) (tree : ConfigTree) (rc : Int) : Prop :=
  rc = 0 ∨ x.OnDisk currentLayer tree

/-- A write with this result leaves the file as it was. -/
def Setting.Stays (x : Setting) (tree : ConfigTree) (rc : Int) : Prop :=
  rc ≠ 0 ∨ x.OnDisk currentLayer tree

namespace PersistLemmas

/-- What is so for each element, said of the elements and their partners. -/
theorem forall_mem_iff_forall₂ {α β : Type} {P : α → Prop} {Q R : α → β → Prop} {xs : List α}
    {ys : List β} (h : List.Forall₂ R xs ys) (hiff : ∀ x y, R x y → (P x ↔ Q x y)) :
    (∀ x ∈ xs, P x) ↔ List.Forall₂ Q xs ys := by
  induction h with
  | nil => exact iff_of_true (fun x hx => absurd hx List.not_mem_nil) .nil
  | cons hxy _ ih => rw [List.forall_mem_cons, List.forall₂_cons, hiff _ _ hxy, ih]

theorem onDisk_iff {x : Setting} {tree tree' : ConfigTree} {rc : Int}
    (h : x.Outcome currentLayer tree tree' rc) :
    x.OnDisk currentLayer tree' ↔ x.Arrives tree rc := by
  obtain ⟨-, hfile⟩ := h
  rw [Setting.OnDisk, hfile]
  by_cases hrc : rc = 0
  · rw [if_pos hrc]
    exact iff_of_true rfl (.inl hrc)
  · rw [if_neg hrc]
    exact (or_iff_right hrc).symm

theorem unchanged_iff {x : Setting} {tree tree' : ConfigTree} {rc : Int}
    (h : x.Outcome currentLayer tree tree' rc) :
    tree' (confPath currentLayer x.field) = tree (confPath currentLayer x.field) ↔
      x.Stays tree rc := by
  obtain ⟨-, hfile⟩ := h
  rw [hfile]
  by_cases hrc : rc = 0
  · rw [if_pos hrc]
    exact eq_comm.trans (or_iff_right (not_not.mpr hrc)).symm
  · rw [if_neg hrc]
    exact iff_of_true rfl (.inl hrc)

end PersistLemmas

/-! ## 4. Config -/

/-- Every run of the program gives the fields their values. -/
def Assigns (xs : List Setting) {α : Type} (p : Prog Exn (Machine ε) α) : Prop :=
  ∀ m r m', p.exec m = some (r, m') → (∃ a, r = .ok a) ∧ m'.Config = assign xs m.Config

variable {xs ys : List Setting} {α β : Type}

theorem assigns_pure (a : α) : Assigns (ε := ε) [] (pure a) := by
  intro m r m' h
  cases h
  exact ⟨⟨a, rfl⟩, rfl⟩

theorem assigns_bind {p : Prog Exn (Machine ε) α} {f : α → Prog Exn (Machine ε) β}
    (hp : Assigns xs p) (hf : ∀ a, Assigns ys (f a)) : Assigns (xs ++ ys) (p >>= f) := by
  intro m r m' h
  rw [exec_bind, Option.bind_eq_some_iff] at h
  obtain ⟨⟨q, m₁⟩, hq, h⟩ := h
  obtain ⟨⟨a, rfl⟩, hxs⟩ := hp m q m₁ hq
  obtain ⟨hr, hys⟩ := hf a m₁ r m' h
  exact ⟨hr, by rw [hys, hxs, assign_append]⟩

/-- What talks to the outside leaves `Config` alone. -/
theorem assigns_io {p : Prog Exn (Sys ε) α} (hp : Quiet p) : Assigns [] (io p) := by
  intro m r m' h
  rw [io, exec_zoom, Option.map_eq_some_iff] at h
  obtain ⟨⟨q, s⟩, hq, h⟩ := h
  cases h
  cases q with
  | error x => exact absurd (hp _ x s hq) not_false
  | ok a => exact ⟨⟨a, rfl⟩, rfl⟩

/-- A loop whose rounds give a field its value each, where they are defined. -/
theorem assigns_forM {step : Nat → Prog Exn (Machine ε) PUnit} {w : Nat → Option Setting}
    (ks : List Nat) (hsome : ∀ k x, w k = some x → Assigns [x] (step k))
    (hnone : ∀ k m, w k = none → (step k).exec m = none) :
    Assigns (ks.filterMap w) (ks.forM step) := by
  induction ks with
  | nil => exact assigns_pure _
  | cons k ks ih =>
    cases hk : w k with
    | none =>
      intro m r m' h
      have hrun : (k :: ks).forM step = step k >>= fun _ => ks.forM step := rfl
      rw [hrun, exec_bind, hnone k m hk] at h
      cases h
    | some x =>
      rw [List.filterMap_cons_some hk]
      exact assigns_bind (hsome k x hk) fun _ => ih

end Writes

end EnetTcp
