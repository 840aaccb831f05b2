import Mathlib.Data.List.Infix
import EnetTcp.Restoring

/-!
# The first configuration (config.cpp, InitializeConfigFiles)

On its first boot the daemon writes `Config` to the factory layer, and copies the files of that
layer to the current one. The names of the keys are spelled out here once more.

* `seededKeys_eq`: the names that are spelled out, as names of fields.
* `factory_seeded`, `copy_files`: what the two passes over the layers leave.
* `seeded_files`: what the loader finds for each field afterwards.
-/

namespace EnetTcp

open Prog SaveLemmas

/-! ## 1. InitializeConfigFiles -/

/-- An environment whose directories can be listed: the names of the entries, and whether they
are regular files. -/
structure DirEnv (ε : Type) extends Env ε where
  entries : (path : TBytes) → ε → List (TBytes × Bool) × ε

abbrev CONFIG_INIT_STAMP : String := ".initialized"

/-- The keys that `SeedFactoryFromStruct` writes, with their contents. -/
def seededKeys (cfg : TConfig) : List (TBytes × TBytes) :=
  [(text "BRD_Description", cfg.Description), (text "BRD_Model", cfg.Model),
    (text "BRD_SerialNumber", cfg.SerialNumber),
    (text "ADC_Differential", to_hex 1 cfg.adcDifferential.toNat)] ++
  (List.finRange 16).map (fun i : Fin 16 =>
    (text "ADC_RangeCodeCh" ++ (if i.val < 10 then text "0" else []) ++ toDecimal i,
      to_hex 4 (cfg.adcRangeCodes.get i).toNat)) ++
  (List.finRange 8).flatMap (fun r : Fin 8 =>
    [(text "ADC_ScaleRange" ++ toDecimal r, to_hex 4 (cfg.adcScaleCoefficients.get r).toNat),
      (text "ADC_OffsetRange" ++ toDecimal r,
        to_hex 4 (cfg.adcOffsetCoefficients.get r).toNat)]) ++
  [(text "DAC_NumDACs", to_hex 1 cfg.NUM_DACs.toNat)] ++
  (List.finRange MAX_DACs).map (fun i : Fin MAX_DACs =>
    (text "DAC_RangeCh" ++ toDecimal i, to_hex 4 (cfg.dacRanges.get i).toNat)) ++
  (List.finRange MAX_DACs).flatMap (fun d : Fin MAX_DACs =>
    [(text "DAC_ScaleCh" ++ toDecimal d, to_hex 4 (cfg.dacScaleCoefficients.get d).toNat),
      (text "DAC_OffsetCh" ++ toDecimal d, to_hex 4 (cfg.dacOffsetCoefficients.get d).toNat)]) ++
  [(text "BRD_NumberOfSubmuxes", to_hex 1 cfg.numberOfSubmuxes.toNat)] ++
  (List.finRange maxSubmuxes).flatMap (fun i : Fin maxSubmuxes =>
    [(text "BRD_SubmuxBarcode" ++ toDecimal i, cfg.submuxBarcodes.get i),
      (text "BRD_SubmuxType" ++ toDecimal i, cfg.submuxTypes.get i)] ++
    (List.finRange gainGroupsPerSubmux).flatMap fun g : Fin gainGroupsPerSubmux =>
      [(text "BRD_Submux" ++ toDecimal i ++ text "Range" ++ toDecimal g,
          to_hex 4 ((cfg.submuxScaleFactors.get i).get g).toNat),
        (text "BRD_Submux" ++ toDecimal i ++ text "Offset" ++ toDecimal g,
          to_hex 4 ((cfg.submuxOffsets.get i).get g).toNat)])

/-- A name of at least six bytes that ends in `.conf`. -/
def isConfName (name : TBytes) : Bool := decide (6 ≤ name.length) && (text ".conf").isSuffixOf name

section Seed

variable {ε : Type} (env : DirEnv ε) (fuel : Nat)

/-- `fs::directory_iterator`, run to its end. -/
def directory_iterator (path : TBytes) : Prog Exn (Sys ε) (List (TBytes × Bool)) := do
  let s ← get
  let (names, e) := env.entries path s.env
  set { s with env := e : Sys ε }
  return names

def EnsureConfigTree : Prog Exn (Sys ε) Bool := do
  let rc ← MkdirP env.toEnv (text CONFIG_PATH)
  if rc < 0 then return false
  let rc ← MkdirP env.toEnv (text CONFIG_PATH ++ text CONFIG_FACTORY)
  if rc < 0 then return false
  let rc ← MkdirP env.toEnv (text CONFIG_PATH ++ text CONFIG_CURRENT)
  if rc < 0 then return false
  let rc ← MkdirP env.toEnv (text CONFIG_PATH ++ text CONFIG_USER)
  if rc < 0 then return false
  return true

def IsFirstBoot : Prog Exn (Sys ε) Bool := do
  let present : Bool ← syscall env.toEnv (.exists (text CONFIG_PATH ++ text CONFIG_INIT_STAMP))
  return !present

/-- The version holds the date and the time of the build. -/
def WriteInitStamp (version : TBytes) : Prog Exn (Sys ε) Bool := do
  let rc ← AtomicWriteTextFile env.toEnv fuel (text CONFIG_PATH ++ text CONFIG_INIT_STAMP) version
  return rc == 0

def WriteIfMissing (which key value : TBytes) : Prog Exn (Sys ε) Int := do
  let path := FilePathFor which key
  let present : Bool ← syscall env.toEnv (.exists path)
  if present then return 0
  AtomicWriteTextFile env.toEnv fuel path value

/-- The results of all writes, which the source drops. -/
def SeedFactoryFromStruct (cfg : TConfig) : Prog Exn (Sys ε) (List Int) :=
  (seededKeys cfg).mapM fun w => WriteIfMissing env fuel (text CONFIG_FACTORY) w.1 w.2

/-- One round of the loop of `SeedCurrentFromFactoryIfMissing`. -/
def copyIfMissing (facDir curDir name : TBytes) : Prog Exn (Sys ε) Int := do
  let dst := curDir ++ name
  let present : Bool ← syscall env.toEnv (.exists dst)
  if present then return 0
  let contents : TBytes ← syscall env.toEnv (.ifstream (facDir ++ name))
  AtomicWriteTextFile env.toEnv fuel dst contents

/-- The results of all writes, which the source drops. -/
def SeedCurrentFromFactoryIfMissing : Prog Exn (Sys ε) (List Int) := do
  let facDir := text CONFIG_PATH ++ text CONFIG_FACTORY
  let curDir := text CONFIG_PATH ++ text CONFIG_CURRENT
  let present : Bool ← syscall env.toEnv (.exists facDir)
  if !present then return []
  let names ← directory_iterator env facDir
  ((names.filter fun entry => entry.2 && isConfName entry.1).map Prod.fst).mapM
    (copyIfMissing env fuel facDir curDir)

/-- The results of the writes, and that of the stamp; `none` when nothing is seeded. The source
only logs them. -/
def InitializeConfigFiles (version : TBytes) (config : TConfig) :
    Prog Exn (Sys ε) (Option (List Int × Bool)) := do
  if !(← EnsureConfigTree env) then return none
  if !(← IsFirstBoot env) then return none
  let factory ← SeedFactoryFromStruct env fuel config
  let current ← SeedCurrentFromFactoryIfMissing env fuel
  let stamp ← WriteInitStamp env fuel version
  return some (factory ++ current, stamp)

end Seed

/-! ## 2. The keys -/

/-- The loader reads these fields from files that are not seeded. -/
def ConfigField.Unseeded (f : ConfigField) : Prop := f = .NUM_DACs ∨ f = .adcChannels

instance : DecidablePred ConfigField.Unseeded := fun _ => inferInstanceAs (Decidable (_ ∨ _))

/-- The fields that are seeded, before and after the key that the loader does not know. -/
def fieldsBeforeDacs : List ConfigField :=
  [ConfigField.Description, .Model, .SerialNumber, .adcDifferential] ++
  (List.finRange 16).map ConfigField.adcRangeCodes ++
  (List.finRange 8).flatMap fun r => [ConfigField.adcScaleCoefficients r, .adcOffsetCoefficients r]

def fieldsAfterDacs : List ConfigField :=
  (List.finRange MAX_DACs).map ConfigField.dacRanges ++
  (List.finRange MAX_DACs).flatMap (fun d =>
    [ConfigField.dacScaleCoefficients d, .dacOffsetCoefficients d]) ++
  ConfigField.numberOfSubmuxes ::
  (List.finRange maxSubmuxes).flatMap fun i =>
    ConfigField.submuxBarcodes i :: ConfigField.submuxTypes i ::
    (List.finRange gainGroupsPerSubmux).flatMap fun g =>
      [ConfigField.submuxScaleFactors i g, .submuxOffsets i g]

/-- The key of a field, with the text of its value. -/
def ConfigField.write (c : TConfig) (f : ConfigField) : TBytes × TBytes :=
  (f.key, f.type.encode (f.get c))

namespace SeedLemmas

/-- The names that are spelled out are those of the fields, but for one. -/
theorem seededKeys_eq (c : TConfig) : seededKeys c =
    fieldsBeforeDacs.map (ConfigField.write c) ++
      (text "DAC_NumDACs", to_hex 1 c.NUM_DACs.toNat) ::
        fieldsAfterDacs.map (ConfigField.write c) := by
  simp only [seededKeys, fieldsBeforeDacs, fieldsAfterDacs, List.map_append, List.map_cons,
    List.map_nil, List.map_map, List.map_flatMap, Function.comp_def, List.append_assoc,
    List.cons_append, List.nil_append, ConfigField.write, ConfigField.key, ConfigField.type,
    ConfigField.get, FieldType.encode]
  rfl

theorem mem_seededFields {f : ConfigField} (h : ¬f.Unseeded) :
    f ∈ fieldsBeforeDacs ∨ f ∈ fieldsAfterDacs := by
  cases f with
  | NUM_DACs => exact absurd (.inl rfl) h
  | adcChannels => exact absurd (.inr rfl) h
  | _ => simp [fieldsBeforeDacs, fieldsAfterDacs]

theorem seeded_of_field (c : TConfig) {f : ConfigField} (h : ¬f.Unseeded) :
    f.write c ∈ seededKeys c := by
  rw [seededKeys_eq]
  rcases mem_seededFields h with hf | hf
  · exact List.mem_append_left _ (List.mem_map_of_mem hf)
  · exact List.mem_append_right _ (List.mem_cons_of_mem _ (List.mem_map_of_mem hf))

theorem seededFields_nodup : (fieldsBeforeDacs ++ fieldsAfterDacs).Nodup := by decide +kernel

/-- What is seeded is the key of a field that is loaded, or the one that no field has. -/
theorem seededKeys_cases {c : TConfig} {w : TBytes × TBytes} (h : w ∈ seededKeys c) :
    (∃ f : ConfigField, ¬f.Unseeded ∧ w = f.write c) ∨ w.1 = text "DAC_NumDACs" := by
  have hseeded : ∀ f ∈ fieldsBeforeDacs ++ fieldsAfterDacs, ¬f.Unseeded := by decide +kernel
  rw [List.forall_mem_append] at hseeded
  rw [seededKeys_eq, List.mem_append, List.mem_cons] at h
  rcases h with h | rfl | h
  · obtain ⟨f, hf, rfl⟩ := List.mem_map.mp h
    exact .inl ⟨f, hseeded.1 f hf, rfl⟩
  · exact .inr rfl
  · obtain ⟨f, hf, rfl⟩ := List.mem_map.mp h
    exact .inl ⟨f, hseeded.2 f hf, rfl⟩

theorem key_ne_numDacs (f : ConfigField) : f.key ≠ text "DAC_NumDACs" := by
  have hall : ∀ f ∈ loadedFields, f.key ≠ text "DAC_NumDACs" := by decide +kernel
  exact hall f (mem_loadedFields f)

theorem seededKeys_nodup (c : TConfig) : ((seededKeys c).map Prod.fst).Nodup := by
  have hkeys (fs : List ConfigField) : (fs.map (ConfigField.write c)).map Prod.fst =
      fs.map ConfigField.key := List.map_map
  rw [seededKeys_eq, List.map_append, List.map_cons, hkeys, hkeys, List.nodup_middle,
    List.nodup_cons, ← List.map_append]
  refine ⟨?_, seededFields_nodup.map fun _ _ => key_injective⟩
  intro h
  obtain ⟨f, -, hf⟩ := List.mem_map.mp h
  exact key_ne_numDacs f hf

theorem unseeded_key {c : TConfig} {f : ConfigField} (h : f.Unseeded) :
    ∀ w ∈ seededKeys c, w.1 ≠ f.key := by
  intro w hw heq
  rcases seededKeys_cases hw with ⟨f', hf', rfl⟩ | hnum
  · exact hf' (key_injective heq ▸ h)
  · exact key_ne_numDacs f (heq ▸ hnum)

theorem slash_not_mem_seeded {c : TConfig} {w : TBytes × TBytes} (h : w ∈ seededKeys c) :
    47 ∉ w.1 ++ text ".conf" := by
  rcases seededKeys_cases h with ⟨f, -, rfl⟩ | hnum
  · exact fun hmem => absurd (slash_not_mem_key f 47 hmem) (by decide)
  · rw [hnum]
    decide

end SeedLemmas

open SeedLemmas

/-! ## 3. A disk with directories -/

/-- The two layers that are seeded. -/
abbrev factoryDir : TBytes := text CONFIG_PATH ++ text CONFIG_FACTORY
abbrev currentDir : TBytes := text CONFIG_PATH ++ text CONFIG_CURRENT

/-- The calls of the seeder do to the files what they are for. -/
structure ConfigDisk {ε : Type} (env : DirEnv ε) (disk : Disk ε) : Prop where
  creates : ∀ (path : TBytes) (e e' : ε) (fd : Int),
    env.answer (.open_ (path ++ text ".tmp")) e = (fd, e') → 0 ≤ fd →
    disk.tree e' = Function.update (disk.tree e) (path ++ text ".tmp") (.content []) ∧
      disk.file e' fd = some (path ++ text ".tmp")
  appends : ∀ (fd : Int) (bytes path old : TBytes) (e e' : ε) (n : Int),
    env.answer (.write fd bytes) e = (n, e') → 0 ≤ n → disk.file e fd = some path →
    disk.tree e path = .content old →
    n ≤ bytes.length ∧ disk.file e' fd = some path ∧
      disk.tree e' = Function.update (disk.tree e) path (.content (old ++ bytes.take n.toNat))
  renames : ∀ (src dst bytes : TBytes) (e e' : ε),
    env.answer (.rename src dst) e = ((0 : Int), e') → disk.tree e src = .content bytes →
    disk.tree e' = Function.update (Function.update (disk.tree e) src .absent) dst (.content bytes)
  /-- What does not end as a temporary file is opened for reading. -/
  opens : ∀ (path : TBytes) (e : ε), ¬text ".tmp" <:+ path →
    disk.tree (env.answer (.open_ path) e).2 = disk.tree e
  creates_directories : ∀ (dir path : TBytes) (e : ε), ¬path <+: dir →
    disk.tree (env.answer (.create_directories dir) e).2 path = disk.tree e path
  fsyncs : ∀ fd e, disk.tree (env.answer (.fsync fd) e).2 = disk.tree e
  closes : ∀ fd e, disk.tree (env.answer (.close fd) e).2 = disk.tree e
  looks : ∀ path e, disk.tree (env.answer (.exists path) e).2 = disk.tree e
  finds : ∀ (path : TBytes) (e : ε), text ".conf" <:+ path →
    (env.answer (.exists path) e).1 = (disk.tree e path).exists
  reads : ∀ (path bytes : TBytes) (e : ε), disk.tree e path = .content bytes →
    (env.answer (.ifstream path) e).1 = bytes
  streams : ∀ path e, disk.tree (env.answer (.ifstream path) e).2 = disk.tree e
  /-- A regular file that is listed is there. -/
  lists : ∀ (name : TBytes) (e : ε), (name, true) ∈ (env.entries factoryDir e).1 →
    47 ∉ name ∧ (disk.tree e (factoryDir ++ name)).exists = true
  iterates : ∀ path e, disk.tree (env.entries path e).2 = disk.tree e

/-- Neither layer has a file. -/
def EmptyTree (tree : ConfigTree) : Prop :=
  ∀ dir ∈ [factoryDir, currentDir], ∀ name, name ≠ [] → tree (dir ++ name) = .absent

/-- Seeding goes to its end, and every write succeeds. -/
def Seeds {ε : Type} (env : DirEnv ε) (fuel : Nat) (version : TBytes) (c : TConfig)
    (s s' : Sys ε) : Prop :=
  ∃ codes, (InitializeConfigFiles env fuel version c).exec s = some (.ok (some (codes, true)), s') ∧
    ∀ rc ∈ codes, rc = 0

section Disk

variable {ε : Type} {env : DirEnv ε} {disk : Disk ε}

namespace SeedLemmas

/-- The last byte of a temporary file. -/
theorem getLast?_tmp (path : TBytes) : (path ++ text ".tmp").getLast? = some 112 := by
  rw [List.getLast?_append]
  rfl

theorem absent_of_exists {file : ConfFile} (h : file.exists = false) : file = .absent := by
  cases file with
  | absent => rfl
  | unopenable _ | unreadable _ | content _ => cases h

theorem getLast?_conf (name : TBytes) : (name ++ text ".conf").getLast? = some 102 := by
  rw [List.getLast?_append]
  rfl

theorem parentPath_layer (which : TBytes) {name : TBytes} (h : 47 ∉ name) :
    parentPath (text CONFIG_PATH ++ which ++ name) = layerDir which := by
  rw [parentPath, List.reverse_append, List.dropWhile_append_of_pos]
  · rfl
  · intro b hb
    exact bne_iff_ne.mpr fun heq => h (heq ▸ List.mem_reverse.mp hb)

/-- Other files than the written one and the temporary one are as before. -/
theorem atomicWrite_others {path : TBytes} (hpath : PathWorks env.toEnv disk path) {fuel : Nat}
    {contents : TBytes} {s s' : Sys ε}
    (hrun : (AtomicWriteTextFile env.toEnv fuel path contents).exec s = some (.ok 0, s'))
    {other : TBytes} (hne : other ≠ path) (hlast : other.getLast? ≠ some 112) :
    disk.tree s'.env other = disk.tree s.env other := by
  rw [atomicWrite_tree hpath hrun, Function.update_of_ne hne, Function.update_of_ne]
  exact fun h => hlast (h ▸ getLast?_tmp path)

/-- What is copied to the current layer, and what is left alone. -/
def Copied (names : List TBytes) (tree tree' : ConfigTree) : Prop :=
  ∀ other, other.getLast? ≠ some 112 → tree' other = tree other ∨
    tree other = .absent ∧
      ∃ name ∈ names, other = currentDir ++ name ∧ tree' other = tree (factoryDir ++ name)

theorem factory_ne_current {name name' : TBytes} : factoryDir ++ name ≠ currentDir ++ name' := by
  intro h
  have hdirs : factoryDir = currentDir := List.append_inj_left h (by decide)
  exact absurd hdirs (by decide)

/-- A file of the factory layer is not copied over. -/
theorem Copied.factory {names : List TBytes} {tree tree' : ConfigTree} (h : Copied names tree tree')
    {name : TBytes} (hconf : text ".conf" <:+ name) :
    tree' (factoryDir ++ name) = tree (factoryDir ++ name) := by
  obtain ⟨stem, rfl⟩ := hconf
  have hlast : (factoryDir ++ (stem ++ text ".conf")).getLast? ≠ some 112 := by
    rw [← List.append_assoc, getLast?_conf]
    decide
  refine (h _ hlast).resolve_right ?_
  rintro ⟨-, name, -, heq, -⟩
  exact factory_ne_current heq

theorem filePathFor_layer (which key : TBytes) :
    FilePathFor which key = text CONFIG_PATH ++ which ++ (key ++ text ".conf") :=
  List.append_assoc ..

theorem confName_ne_nil (key : TBytes) : key ++ text ".conf" ≠ [] :=
  List.append_ne_nil_of_right_ne_nil _ (by decide)

theorem getLast?_layer (dir key : TBytes) :
    (dir ++ (key ++ text ".conf")).getLast? ≠ some 112 := by
  rw [← List.append_assoc, getLast?_conf]
  decide

/-- The current layer falls back on the factory layer. -/
theorem foundFile_current (tree : ConfigTree) (key : TBytes) :
    foundFile tree (text CONFIG_CURRENT) key =
      if (tree (currentDir ++ (key ++ text ".conf"))).exists then
        tree (currentDir ++ (key ++ text ".conf"))
      else tree (factoryDir ++ (key ++ text ".conf")) := by
  have huser : (text CONFIG_USER).isPrefixOf (text CONFIG_CURRENT) = false := by decide
  rw [foundFile, huser, Bool.false_and, if_neg Bool.false_ne_true, filePathFor_layer,
    filePathFor_layer]

/-- Copied or not, the loader finds what is in the factory layer. -/
theorem foundFile_copied {names : List TBytes} {tree tree' : ConfigTree}
    (h : Copied names tree tree') {key : TBytes}
    (habsent : tree (currentDir ++ (key ++ text ".conf")) = .absent) :
    foundFile tree' (text CONFIG_CURRENT) key = tree (factoryDir ++ (key ++ text ".conf")) := by
  have hfactory := h.factory (List.suffix_append key (text ".conf"))
  rw [foundFile_current]
  rcases h _ (getLast?_layer currentDir key) with hsame | ⟨-, name, -, heq, hcopy⟩
  · rw [hsame, habsent, hfactory]
    rfl
  · cases List.append_cancel_left heq
    rw [hcopy, hfactory, ite_self]

variable (hdisk : ConfigDisk env disk)
include hdisk

theorem seed_path_works {path : TBytes} (h : ¬text ".tmp" <:+ parentPath path) :
    PathWorks env.toEnv disk path where
  creates := hdisk.creates path
  appends := hdisk.appends
  renames := hdisk.renames
  opens e := hdisk.opens _ e h
  fsyncs := hdisk.fsyncs
  closes := hdisk.closes

/-- The files of a layer are written in its directory. -/
theorem layer_works {which : TBytes} (hwhich : which ∈ [text CONFIG_FACTORY, text CONFIG_CURRENT])
    {name : TBytes} (h : 47 ∉ name) :
    PathWorks env.toEnv disk (text CONFIG_PATH ++ which ++ name) := by
  refine seed_path_works hdisk ?_
  rw [parentPath_layer which h]
  revert which
  decide

/-- A file that was missing is written. -/
theorem writeIfMissing_files {which key value : TBytes}
    (hpath : PathWorks env.toEnv disk (FilePathFor which key)) {fuel : Nat} {s s' : Sys ε}
    (habsent : disk.tree s.env (FilePathFor which key) = .absent)
    (hrun : (WriteIfMissing env fuel which key value).exec s = some (.ok 0, s')) :
    disk.tree s'.env (FilePathFor which key) = .content value ∧
      ∀ other, other ≠ FilePathFor which key → other.getLast? ≠ some 112 →
        disk.tree s'.env other = disk.tree s.env other := by
  obtain ⟨(present : Bool), e, hlook, hrun⟩ := call_inv (c := .exists (FilePathFor which key)) hrun
  have htree := hdisk.looks (FilePathFor which key) s.env
  have hmissing := hdisk.finds (FilePathFor which key) s.env (List.suffix_append _ _)
  rw [hlook] at htree hmissing
  have hno : present = false := by
    rw [habsent] at hmissing
    exact hmissing
  subst hno
  constructor
  · rw [atomicWrite_tree hpath hrun, Function.update_self]
  · intro other hne hlast
    exact (atomicWrite_others hpath hrun hne hlast).trans (congrFun htree other)

/-- Several files that were missing. -/
theorem seedFactory_files {fuel : Nat} {ws : List (TBytes × TBytes)}
    (hslash : ∀ w ∈ ws, 47 ∉ w.1 ++ text ".conf") (hnodup : (ws.map Prod.fst).Nodup)
    {s s' : Sys ε} {codes : List Int}
    (habsent : ∀ w ∈ ws, disk.tree s.env (FilePathFor (text CONFIG_FACTORY) w.1) = .absent)
    (hrun : (ws.mapM fun w => WriteIfMissing env fuel (text CONFIG_FACTORY) w.1 w.2).exec s =
      some (.ok codes, s')) (hcodes : ∀ rc ∈ codes, rc = 0) :
    (∀ w ∈ ws, disk.tree s'.env (FilePathFor (text CONFIG_FACTORY) w.1) = .content w.2) ∧
      ∀ other, (∀ w ∈ ws, other ≠ FilePathFor (text CONFIG_FACTORY) w.1) →
        other.getLast? ≠ some 112 → disk.tree s'.env other = disk.tree s.env other := by
  induction ws generalizing s codes with
  | nil =>
    cases hrun
    exact ⟨fun w hw => absurd hw List.not_mem_nil, fun _ _ _ => rfl⟩
  | cons w ws ih =>
    obtain ⟨hw, hws⟩ := List.nodup_cons.mp hnodup
    obtain ⟨hslash₁, hslash₂⟩ := List.forall_mem_cons.mp hslash
    obtain ⟨habsent₁, habsent₂⟩ := List.forall_mem_cons.mp habsent
    rw [List.mapM_cons] at hrun
    obtain ⟨rc, s₁, hhead, hrun⟩ := bind_exec_ok hrun
    obtain ⟨rcs, s₂, htail, hrun⟩ := bind_exec_ok hrun
    cases hrun
    obtain ⟨hrc, hrcs⟩ := List.forall_mem_cons.mp hcodes
    cases hrc
    have hpath : PathWorks env.toEnv disk (FilePathFor (text CONFIG_FACTORY) w.1) := by
      rw [FilePathFor, List.append_assoc]
      exact layer_works hdisk List.mem_cons_self hslash₁
    obtain ⟨hself, hothers⟩ := writeIfMissing_files hdisk hpath habsent₁ hhead
    have hne : ∀ w' ∈ ws, FilePathFor (text CONFIG_FACTORY) w'.1 ≠
        FilePathFor (text CONFIG_FACTORY) w.1 := by
      intro w' hw' heq
      have hkey : w'.1 = w.1 := List.append_cancel_left (List.append_cancel_right heq)
      exact hw (hkey ▸ List.mem_map_of_mem hw')
    have hlast (key : TBytes) : (FilePathFor (text CONFIG_FACTORY) key).getLast? ≠ some 112 := by
      rw [FilePathFor, getLast?_conf]
      decide
    obtain ⟨hseeded, hkept⟩ := ih hslash₂ hws
      (fun w' hw' => (hothers _ (hne w' hw') (hlast _)).trans (habsent₂ w' hw')) htail hrcs
    refine ⟨List.forall_mem_cons.mpr ⟨?_, hseeded⟩, fun other hother hp => ?_⟩
    · rw [hkept _ (fun w' hw' => (hne w' hw').symm) (hlast _), hself]
    · obtain ⟨hother₁, hother₂⟩ := List.forall_mem_cons.mp hother
      exact (hkept other hother₂ hp).trans (hothers other hother₁ hp)

theorem copyIfMissing_files {fuel : Nat} {name bytes : TBytes} (hslash : 47 ∉ name)
    (hconf : text ".conf" <:+ name) {s s' : Sys ε}
    (hfactory : disk.tree s.env (factoryDir ++ name) = .content bytes)
    (hrun : (copyIfMissing env fuel factoryDir currentDir name).exec s = some (.ok 0, s')) :
    Copied [name] (disk.tree s.env) (disk.tree s'.env) := by
  obtain ⟨(present : Bool), e, hlook, hrun⟩ := call_inv (c := .exists (currentDir ++ name)) hrun
  have htree := hdisk.looks (currentDir ++ name) s.env
  have hmissing := hdisk.finds (currentDir ++ name) s.env (hconf.trans (List.suffix_append _ _))
  rw [hlook] at htree hmissing
  cases present with
  | true =>
    cases hrun
    exact fun other _ => .inl (congrFun htree other)
  | false =>
    obtain ⟨(contents : TBytes), e', hread, hrun⟩ :=
      call_inv (c := .ifstream (factoryDir ++ name)) hrun
    have htree' := hdisk.streams (factoryDir ++ name) e
    have hcontents := hdisk.reads (factoryDir ++ name) bytes e (by rw [htree, hfactory])
    rw [hread] at htree' hcontents
    have hcontents : contents = bytes := hcontents
    have hpath : PathWorks env.toEnv disk (currentDir ++ name) :=
      layer_works hdisk (List.mem_cons_of_mem _ List.mem_cons_self) hslash
    intro other hlast
    by_cases hother : other = currentDir ++ name
    · subst hother
      refine .inr ⟨?_, name, List.mem_singleton.mpr rfl, rfl, ?_⟩
      · exact absent_of_exists hmissing.symm
      · rw [atomicWrite_tree hpath hrun, Function.update_self, hfactory, hcontents]
    · refine .inl ((atomicWrite_others hpath hrun hother hlast).trans ?_)
      exact (congrFun htree' other).trans (congrFun htree other)

theorem copy_files {fuel : Nat} {names : List TBytes} {s s' : Sys ε} {codes : List Int}
    (hnames : ∀ name ∈ names, 47 ∉ name ∧ text ".conf" <:+ name ∧
      ∃ bytes, disk.tree s.env (factoryDir ++ name) = .content bytes)
    (hrun : (names.mapM (copyIfMissing env fuel factoryDir currentDir)).exec s =
      some (.ok codes, s')) (hcodes : ∀ rc ∈ codes, rc = 0) :
    Copied names (disk.tree s.env) (disk.tree s'.env) := by
  induction names generalizing s codes with
  | nil =>
    cases hrun
    exact fun _ _ => .inl rfl
  | cons name names ih =>
    rw [List.mapM_cons] at hrun
    obtain ⟨rc, s₁, hhead, hrun⟩ := bind_exec_ok hrun
    obtain ⟨rcs, s₂, htail, hrun⟩ := bind_exec_ok hrun
    cases hrun
    obtain ⟨hrc, hrcs⟩ := List.forall_mem_cons.mp hcodes
    cases hrc
    obtain ⟨⟨hslash, hconf, bytes, hfactory⟩, hnames⟩ := List.forall_mem_cons.mp hnames
    have hfirst := copyIfMissing_files hdisk hslash hconf hfactory hhead
    have hrest := ih (fun name' hname' => by
      obtain ⟨hslash', hconf', bytes', hbytes'⟩ := hnames name' hname'
      exact ⟨hslash', hconf', bytes', (hfirst.factory hconf').trans hbytes'⟩) htail hrcs
    intro other hlast
    rcases hrest other hlast with hsame | ⟨habsent, name', hname', hother, hcopy⟩
    · rcases hfirst other hlast with hsame' | ⟨habsent', name', hname', hother, hcopy⟩
      · exact .inl (hsame.trans hsame')
      · obtain rfl := List.mem_singleton.mp hname'
        exact .inr ⟨habsent', name', List.mem_cons_self, hother, hsame.trans hcopy⟩
    · have hconf' := (hnames name' hname').2.1
      rcases hfirst other hlast with hsame' | ⟨habsent', -⟩
      · exact .inr ⟨hsame'.symm.trans habsent, name', List.mem_cons_of_mem _ hname', hother,
          hcopy.trans (hfirst.factory hconf')⟩
      · exact .inr ⟨habsent', name', List.mem_cons_of_mem _ hname', hother,
          hcopy.trans (hfirst.factory hconf')⟩

/-- The files of both layers stay as they are. -/
def KeepsLayers (disk : Disk ε) (s s' : Sys ε) : Prop :=
  ∀ dir ∈ [factoryDir, currentDir], ∀ name, name ≠ [] →
    disk.tree s'.env (dir ++ name) = disk.tree s.env (dir ++ name)

omit hdisk in
instance : Std.Refl (KeepsLayers disk) := ⟨fun _ _ _ _ _ => rfl⟩

omit hdisk in
instance : IsTrans (Sys ε) (KeepsLayers disk) :=
  ⟨fun _ _ _ h h' dir hdir name hname => (h' dir hdir name hname).trans (h dir hdir name hname)⟩

omit hdisk in
theorem keepsLayers_of_sameTree {α : Type} {p : Prog Exn (Sys ε) α}
    (h : Moves (SameTree disk) p) : Moves (KeepsLayers disk) p :=
  fun s r s' hrun _ _ _ _ => congrFun (h s r s' hrun) _

/-- The directories of the configuration are not above its files only. -/
theorem keepsLayers_mkdirP {dir : TBytes} (hlen : dir.length ≤ 33)
    (htmp : ¬text ".tmp" <:+ parentPath dir) :
    Moves (KeepsLayers disk) (MkdirP env.toEnv dir) := by
  refine moves_bind (keepsLayers_of_sameTree (sameTree_syscall (hdisk.looks dir))) fun present => ?_
  refine moves_ite (fun _ => moves_pure _) fun _ => ?_
  refine moves_bind (fun s r s' hrun layer hlayer name hname => ?_) fun rc => ?_
  · cases hrun
    refine hdisk.creates_directories dir (layer ++ name) s.env fun hprefix => ?_
    have hle := hprefix.length_le
    have hlayers : ∀ layer ∈ [factoryDir, currentDir], layer.length = 33 := by decide
    rw [List.length_append, hlayers layer hlayer] at hle
    have hpos := List.length_pos_iff.mpr hname
    omega
  · refine moves_ite (fun _ => moves_pure _) fun _ => keepsLayers_of_sameTree ?_
    exact sameTree_FsyncDir (fun e => hdisk.opens _ e htmp) hdisk.fsyncs hdisk.closes

theorem keepsLayers_ensureConfigTree : Moves (KeepsLayers disk) (EnsureConfigTree env) := by
  refine moves_bind (keepsLayers_mkdirP hdisk (by decide) (by decide)) fun _ => ?_
  refine moves_ite (fun _ => moves_pure _) fun _ => ?_
  refine moves_bind (keepsLayers_mkdirP hdisk (by decide) (by decide)) fun _ => ?_
  refine moves_ite (fun _ => moves_pure _) fun _ => ?_
  refine moves_bind (keepsLayers_mkdirP hdisk (by decide) (by decide)) fun _ => ?_
  refine moves_ite (fun _ => moves_pure _) fun _ => ?_
  refine moves_bind (keepsLayers_mkdirP hdisk (by decide) (by decide)) fun _ => ?_
  exact moves_ite (fun _ => moves_pure _) fun _ => moves_pure _

theorem keepsLayers_isFirstBoot : Moves (KeepsLayers disk) (IsFirstBoot env) :=
  moves_bind (keepsLayers_of_sameTree (sameTree_syscall (hdisk.looks _))) fun _ => moves_pure _

/-- What a run that seeds has done, step by step. -/
theorem Seeds.steps {fuel : Nat} {version : TBytes} {c : TConfig} {s s' : Sys ε}
    (h : Seeds env fuel version c s s') : ∃ s₁ s₂ s₃ factory current,
      KeepsLayers disk s s₁ ∧
      (SeedFactoryFromStruct env fuel c).exec s₁ = some (.ok factory, s₂) ∧
      (SeedCurrentFromFactoryIfMissing env fuel).exec s₂ = some (.ok current, s₃) ∧
      (WriteInitStamp env fuel version).exec s₃ = some (.ok true, s') ∧
      (∀ rc ∈ factory, rc = 0) ∧ ∀ rc ∈ current, rc = 0 := by
  obtain ⟨codes, hrun, hcodes⟩ := h
  obtain ⟨made, t, hmade, hrun⟩ := bind_exec_ok hrun
  split at hrun
  · cases hrun
  obtain ⟨first, s₁, hfirst, hrun⟩ := bind_exec_ok hrun
  split at hrun
  · cases hrun
  obtain ⟨factory, s₂, hfactory, hrun⟩ := bind_exec_ok hrun
  obtain ⟨current, s₃, hcurrent, hrun⟩ := bind_exec_ok hrun
  obtain ⟨stamp, s₄, hstamp, hrun⟩ := bind_exec_ok hrun
  cases hrun
  obtain ⟨hcodes₁, hcodes₂⟩ := List.forall_mem_append.mp hcodes
  have hkept := keepsLayers_ensureConfigTree hdisk _ _ _ hmade
  have hkept' := keepsLayers_isFirstBoot hdisk _ _ _ hfirst
  exact ⟨s₁, s₂, s₃, factory, current, IsTrans.trans _ _ _ hkept hkept', hfactory, hcurrent,
    hstamp, hcodes₁, hcodes₂⟩

/-- The current layer takes some of the files of the factory layer. -/
theorem seedCurrent_files {fuel : Nat} {s s' : Sys ε} {codes : List Int}
    (hfactory : ∀ name, text ".conf" <:+ name →
      (disk.tree s.env (factoryDir ++ name)).exists = true →
      ∃ bytes, disk.tree s.env (factoryDir ++ name) = .content bytes)
    (hrun : (SeedCurrentFromFactoryIfMissing env fuel).exec s = some (.ok codes, s'))
    (hcodes : ∀ rc ∈ codes, rc = 0) :
    ∃ names, Copied names (disk.tree s.env) (disk.tree s'.env) := by
  obtain ⟨(present : Bool), e, hlook, hrun⟩ := call_inv (c := .exists factoryDir) hrun
  have htree := hdisk.looks factoryDir s.env
  rw [hlook] at htree
  split at hrun
  · cases hrun
    exact ⟨[], fun other _ => .inl (congrFun htree other)⟩
  · obtain ⟨names, s₁, hlist, hrun⟩ := bind_exec_ok hrun
    cases hlist
    have htree₁ : disk.tree (env.entries factoryDir e).2 = disk.tree s.env :=
      (hdisk.iterates factoryDir e).trans htree
    refine ⟨_, htree₁ ▸ copy_files hdisk (fun name hname => ?_) hrun hcodes⟩
    obtain ⟨⟨name, regular⟩, hentry, rfl⟩ := List.mem_map.mp hname
    obtain ⟨hentry, hkeep⟩ := List.mem_filter.mp hentry
    obtain ⟨hregular, hconf⟩ := Bool.and_eq_true_iff.mp hkeep
    have hregular : regular = true := hregular
    subst hregular
    obtain ⟨hslash, hexists⟩ := hdisk.lists name e hentry
    have hsuffix : text ".conf" <:+ name :=
      List.isSuffixOf_iff_suffix.mp (Bool.and_eq_true_iff.mp hconf).2
    refine ⟨hslash, hsuffix, ?_⟩
    rw [htree] at hexists
    show ∃ bytes, disk.tree (env.entries factoryDir e).2 (factoryDir ++ name) = .content bytes
    rw [htree₁]
    exact hfactory name hsuffix hexists

/-- The factory layer after it was seeded. -/
theorem factory_seeded {fuel : Nat} {c : TConfig} {s s' : Sys ε} {codes : List Int}
    (hempty : EmptyTree (disk.tree s.env))
    (hrun : (SeedFactoryFromStruct env fuel c).exec s = some (.ok codes, s'))
    (hcodes : ∀ rc ∈ codes, rc = 0) :
    (∀ w ∈ seededKeys c, disk.tree s'.env (FilePathFor (text CONFIG_FACTORY) w.1) = .content w.2) ∧
      ∀ other, (∀ w ∈ seededKeys c, other ≠ FilePathFor (text CONFIG_FACTORY) w.1) →
        other.getLast? ≠ some 112 → disk.tree s'.env other = disk.tree s.env other := by
  refine seedFactory_files hdisk (fun w hw => slash_not_mem_seeded hw) (seededKeys_nodup c)
    (fun w _ => ?_) hrun hcodes
  rw [filePathFor_layer]
  exact hempty factoryDir List.mem_cons_self _ (confName_ne_nil _)

/-- Every file of the factory layer is one that was seeded. -/
theorem factory_content {fuel : Nat} {c : TConfig} {s s' : Sys ε} {codes : List Int}
    (hempty : EmptyTree (disk.tree s.env))
    (hrun : (SeedFactoryFromStruct env fuel c).exec s = some (.ok codes, s'))
    (hcodes : ∀ rc ∈ codes, rc = 0) {name : TBytes} (hconf : text ".conf" <:+ name)
    (hexists : (disk.tree s'.env (factoryDir ++ name)).exists = true) :
    ∃ bytes, disk.tree s'.env (factoryDir ++ name) = .content bytes := by
  obtain ⟨hseeded, hothers⟩ := factory_seeded hdisk hempty hrun hcodes
  obtain ⟨key, rfl⟩ := hconf
  by_cases hkey : ∃ w ∈ seededKeys c, w.1 = key
  · obtain ⟨w, hw, rfl⟩ := hkey
    exact ⟨w.2, filePathFor_layer _ w.1 ▸ hseeded w hw⟩
  · have hne : ∀ w ∈ seededKeys c,
        factoryDir ++ (key ++ text ".conf") ≠ FilePathFor (text CONFIG_FACTORY) w.1 := by
      intro w hw heq
      rw [filePathFor_layer] at heq
      exact hkey ⟨w, hw, List.append_cancel_right (List.append_cancel_left heq.symm)⟩
    rw [hothers _ hne (getLast?_layer _ key),
      hempty factoryDir List.mem_cons_self _ (confName_ne_nil key)] at hexists
    cases hexists

theorem factory_field {fuel : Nat} {c : TConfig} {s s' : Sys ε} {codes : List Int}
    (hempty : EmptyTree (disk.tree s.env))
    (hrun : (SeedFactoryFromStruct env fuel c).exec s = some (.ok codes, s'))
    (hcodes : ∀ rc ∈ codes, rc = 0) (f : ConfigField) :
    disk.tree s'.env (factoryDir ++ (f.key ++ text ".conf")) =
      if f.Unseeded then .absent else .content (f.type.encode (f.get c)) := by
  obtain ⟨hseeded, hothers⟩ := factory_seeded hdisk hempty hrun hcodes
  by_cases hf : f.Unseeded
  · rw [if_pos hf, hothers _ (fun w hw heq => ?_) (getLast?_layer _ _)]
    · exact hempty factoryDir List.mem_cons_self _ (confName_ne_nil _)
    · rw [filePathFor_layer] at heq
      exact unseeded_key hf w hw (List.append_cancel_right (List.append_cancel_left heq.symm))
  · rw [if_neg hf, ← filePathFor_layer]
    exact hseeded _ (seeded_of_field c hf)

theorem current_absent {fuel : Nat} {c : TConfig} {s s' : Sys ε} {codes : List Int}
    (hempty : EmptyTree (disk.tree s.env))
    (hrun : (SeedFactoryFromStruct env fuel c).exec s = some (.ok codes, s'))
    (hcodes : ∀ rc ∈ codes, rc = 0) (key : TBytes) :
    disk.tree s'.env (currentDir ++ (key ++ text ".conf")) = .absent := by
  rw [(factory_seeded hdisk hempty hrun hcodes).2 _ (fun w _ heq => ?_) (getLast?_layer _ _)]
  · exact hempty currentDir (List.mem_cons_of_mem _ List.mem_cons_self) _ (confName_ne_nil _)
  · rw [filePathFor_layer] at heq
    exact factory_ne_current heq.symm

/-- The stamp is no file of a layer. -/
theorem stamp_others {fuel : Nat} {version : TBytes} {s s' : Sys ε}
    (hrun : (WriteInitStamp env fuel version).exec s = some (.ok true, s')) (dir key : TBytes) :
    disk.tree s'.env (dir ++ (key ++ text ".conf")) =
      disk.tree s.env (dir ++ (key ++ text ".conf")) := by
  obtain ⟨rc, s₁, hwrite, hrun⟩ := bind_exec_ok hrun
  cases rc with
  | negSucc n => cases hrun
  | ofNat n =>
    cases n with
    | succ n => cases hrun
    | zero =>
      cases hrun
      refine atomicWrite_others (seed_path_works hdisk (by decide)) hwrite (fun heq => ?_)
        (getLast?_layer _ _)
      have hlast := congrArg List.getLast? heq
      rw [← List.append_assoc, getLast?_conf] at hlast
      exact absurd hlast (by decide)

end SeedLemmas

/-- What the loader finds after seeding. -/
theorem seeded_files (hdisk : ConfigDisk env disk) {fuel : Nat} {version : TBytes} {c : TConfig}
    {s s' : Sys ε} (hempty : EmptyTree (disk.tree s.env)) (h : Seeds env fuel version c s s')
    (f : ConfigField) : foundFile (disk.tree s'.env) (text CONFIG_CURRENT) f.key =
      if f.Unseeded then .absent else .content (f.type.encode (f.get c)) := by
  obtain ⟨s₁, s₂, s₃, factory, current, hkept, hfactory, hcurrent, hstamp, hcodes₁, hcodes₂⟩ :=
    Seeds.steps hdisk h
  have hempty₁ : EmptyTree (disk.tree s₁.env) := fun dir hdir name hname =>
    (hkept dir hdir name hname).trans (hempty dir hdir name hname)
  obtain ⟨names, hcopied⟩ := seedCurrent_files hdisk
    (fun name => factory_content hdisk hempty₁ hfactory hcodes₁) hcurrent hcodes₂
  have hfound := foundFile_copied hcopied (current_absent hdisk hempty₁ hfactory hcodes₁ f.key)
  rw [factory_field hdisk hempty₁ hfactory hcodes₁ f] at hfound
  rw [← hfound, foundFile_current, foundFile_current, stamp_others hdisk hstamp,
    stamp_others hdisk hstamp]

end Disk

end EnetTcp
