import EnetTcp.Seeding

/-!
# What is loaded after seeding (config.cpp)

The seeder writes the number of DACs under a name that the loader does not read, and the number of
ADC channels not at all. Texts are read as C strings, without line ends at their back.

* `seeded_load`: loading after seeding, field by field.
* `seeding_matches_loading_iff`: for which configurations the loader gives back what was seeded.
-/

namespace EnetTcp

open Prog SaveLemmas SeedLemmas

/-! ## 1. Seeded and loaded -/

/-- Loading into `c₀` gives every field the value that `c` has. -/
def LoadsTo (tree : ConfigTree) (c₀ c : TConfig) : Prop :=
  ∃ c', (LoadConfig tree (text CONFIG_CURRENT)).exec c₀ = some (.ok (), c') ∧
    ∀ f : ConfigField, f.get c' = f.get c

/-- The texts of a configuration that have a file. -/
def TConfig.texts (c : TConfig) : List TBytes :=
  [c.Model, c.Description, c.SerialNumber] ++ (List.finRange _).map c.submuxBarcodes.get ++
    (List.finRange _).map c.submuxTypes.get

/-- A text that fits the buffer of the loader and is read as it is. -/
def LoadableText (v : TBytes) : Prop := v.length ≤ 1023 ∧ PlainText v

instance : DecidablePred LoadableText := fun _ => inferInstanceAs (Decidable (_ ∧ _))

namespace SeedLemmas

theorem readBack_text {v : TBytes} : readBack .text v = v ↔ LoadableText v := by
  by_cases hlen : v.length ≤ 1023
  · rw [LoadableText, and_iff_right hlen, readBack_text_iff hlen]
  · refine iff_of_false (fun h => hlen ?_) fun h => hlen h.1
    have hshort := RestoreLemmas.stripLineEnds_length_le ((v.take 1023).takeWhile (· != 0))
    have hcut := (List.takeWhile_sublist (· != 0) (l := v.take 1023)).length_le
    rw [show stripLineEnds ((v.take 1023).takeWhile (· != 0)) = v from h] at hshort
    exact hshort.trans (hcut.trans (List.length_take_le 1023 v))

theorem mem_texts {c : TConfig} {v : TBytes} : v ∈ c.texts ↔
    v = c.Model ∨ v = c.Description ∨ v = c.SerialNumber ∨
      (∃ i, c.submuxBarcodes.get i = v) ∨ ∃ i, c.submuxTypes.get i = v := by
  simp only [TConfig.texts, List.cons_append, List.nil_append, List.mem_cons, List.mem_append,
    List.mem_map, List.mem_finRange, true_and]

/-- Of the values only texts can be read as something else. -/
theorem readBack_iff {c : TConfig} :
    (∀ f : ConfigField, ¬f.Unseeded → readBack f.type (f.get c) = f.get c) ↔
      ∀ v ∈ c.texts, LoadableText v := by
  constructor
  · intro h v hv
    rcases mem_texts.mp hv with rfl | rfl | rfl | ⟨i, rfl⟩ | ⟨i, rfl⟩
    · exact readBack_text.mp (h .Model (by decide))
    · exact readBack_text.mp (h .Description (by decide))
    · exact readBack_text.mp (h .SerialNumber (by decide))
    · exact readBack_text.mp (h (.submuxBarcodes i) (by rintro (h | h) <;> cases h))
    · exact readBack_text.mp (h (.submuxTypes i) (by rintro (h | h) <;> cases h))
  · intro h f _
    cases f with
    | Model => exact readBack_text.mpr (h _ (mem_texts.mpr (.inl rfl)))
    | Description => exact readBack_text.mpr (h _ (mem_texts.mpr (.inr (.inl rfl))))
    | SerialNumber => exact readBack_text.mpr (h _ (mem_texts.mpr (.inr (.inr (.inl rfl)))))
    | submuxBarcodes i =>
      exact readBack_text.mpr (h _ (mem_texts.mpr (.inr (.inr (.inr (.inl ⟨i, rfl⟩))))))
    | submuxTypes i =>
      exact readBack_text.mpr (h _ (mem_texts.mpr (.inr (.inr (.inr (.inr ⟨i, rfl⟩))))))
    | _ => rfl

end SeedLemmas

section Load

variable {ε : Type} {env : DirEnv ε} {disk : Disk ε} {fuel : Nat} {version : TBytes} {c : TConfig}
  {s s' : Sys ε}

/-- What is loaded after seeding: two fields stay as they were. -/
theorem seeded_load (hdisk : ConfigDisk env disk) (hempty : EmptyTree (disk.tree s.env))
    (h : Seeds env fuel version c s s') (c₀ : TConfig) :
    ∃ c', (LoadConfig (disk.tree s'.env) (text CONFIG_CURRENT)).exec c₀ = some (.ok (), c') ∧
      ∀ f : ConfigField, f.get c' =
        if f.Unseeded then f.get c₀ else readBack f.type (f.get c) := by
  have heffect (f : ConfigField) : fieldEffect (disk.tree s'.env) (text CONFIG_CURRENT) f =
      .ok (if f.Unseeded then none else some (readBack f.type (f.get c))) := by
    have hfound := seeded_files hdisk hempty h f
    by_cases hf : f.Unseeded
    · rw [if_pos hf] at hfound ⊢
      exact RestoreLemmas.keyEffect_noText (by rw [hfound]; rfl)
    · rw [if_neg hf] at hfound ⊢
      exact RestoreLemmas.keyEffect_found hfound
  have hnothrow : ∀ f e, fieldEffect (disk.tree s'.env) (text CONFIG_CURRENT) f ≠ .error e := by
    intro f e herror
    cases (heffect f).symm.trans herror
  obtain ⟨c', hrun, hget⟩ := LoadConfig_run hnothrow c₀
  refine ⟨c', hrun, ?_⟩
  intro f
  rw [hget, newValue, heffect]
  by_cases hf : f.Unseeded
  · rw [if_pos hf, if_pos hf]
    rfl
  · rw [if_neg hf, if_neg hf]
    rfl

/-- What was seeded is loaded when the two fields without a seeded file have the value already,
and every text is read as it is. -/
theorem seeding_matches_loading_iff (hdisk : ConfigDisk env disk)
    (hempty : EmptyTree (disk.tree s.env)) (h : Seeds env fuel version c s s') (c₀ : TConfig) :
    LoadsTo (disk.tree s'.env) c₀ c ↔ c₀.NUM_DACs = c.NUM_DACs ∧ c₀.adcChannels = c.adcChannels ∧
      ∀ v ∈ c.texts, LoadableText v := by
  obtain ⟨c', hrun, hget⟩ := seeded_load hdisk hempty h c₀
  have hloads : LoadsTo (disk.tree s'.env) c₀ c ↔ ∀ f : ConfigField, f.get c' = f.get c := by
    refine ⟨?_, fun h => ⟨c', hrun, h⟩⟩
    rintro ⟨c'', hrun', hsame⟩
    cases hrun.symm.trans hrun'
    exact hsame
  rw [hloads, ← readBack_iff]
  constructor
  · intro hsame
    refine ⟨(hget .NUM_DACs).symm.trans (hsame .NUM_DACs),
      (hget .adcChannels).symm.trans (hsame .adcChannels), ?_⟩
    intro f hf
    have hf' := hget f
    rw [if_neg hf] at hf'
    exact hf'.symm.trans (hsame f)
  · rintro ⟨hdacs, hchannels, htexts⟩ f
    rw [hget]
    by_cases hf : f.Unseeded
    · rw [if_pos hf]
      rcases hf with rfl | rfl
      · exact hdacs
      · exact hchannels
    · rw [if_neg hf]
      exact htexts f hf

end Load

/-! ## 2. A disk that lists its files -/

/-- What was put under which path, newest first, and the file that is open for writing. -/
structure ExLog where
  log : List (TBytes × ConfFile)
  file : Option TBytes

def logTree : List (TBytes × ConfFile) → ConfigTree
  | [] => fun _ => .absent
  | (path, file) :: log => Function.update (logTree log) path file

def ConfFile.isContent : ConfFile → Bool
  | .content _ => true
  | _ => false

/-- The entry of a directory for a path. -/
def entryOf (tree : ConfigTree) (dir path : TBytes) : Option (TBytes × Bool) :=
  if dir.isPrefixOf path && !(path.drop dir.length).contains 47 && (tree path).exists then
    some (path.drop dir.length, (tree path).isContent)
  else none

/-- Calls on files work. Directories are under their paths, too. -/
def exSeedEnv : DirEnv ExLog where
  answer c e :=
    match c with
    | .open_ path =>
      if (text ".tmp").isSuffixOf path then
        ((3 : Int), { log := (path, .content []) :: e.log, file := some path })
      else ((4 : Int), e)
    | .write _ bytes => ((bytes.length : Int),
      match e.file with
      | none => e
      | some path =>
        match logTree e.log path with
        | .content old => { e with log := (path, .content (old ++ bytes)) :: e.log }
        | _ => e)
    | .rename src dst =>
      ((0 : Int), { e with log := (dst, logTree e.log src) :: (src, .absent) :: e.log })
    | .create_directories path => ((0 : Int), { e with log := (path, .unreadable 21) :: e.log })
    | .exists path => ((logTree e.log path).exists, e)
    | .ifstream path =>
      (match logTree e.log path with
        | .content bytes => bytes
        | _ => [], e)
    | c => ((exEnv.answer c ()).1, e)
  entries dir e := (e.log.filterMap fun entry => entryOf (logTree e.log) dir entry.1, e)

def exSeedDisk : Disk ExLog where
  tree e := logTree e.log
  file e fd := if fd = 3 then e.file else none

theorem exSeed_neverFails : NeverFails exSeedEnv.toEnv where
  opens path e := by
    simp only [exSeedEnv]
    split
    · exact (by decide : (0 : Int) ≤ 3)
    · exact (by decide : (0 : Int) ≤ 4)
  writes _ _ _ := rfl
  fsyncs _ _ := rfl
  renames _ _ _ := rfl
  creates_directories _ _ := rfl

theorem exSeed_works : ConfigDisk exSeedEnv exSeedDisk where
  creates path e e' fd h _ := by
    simp only [exSeedEnv, if_pos (List.isSuffixOf_iff_suffix.mpr (List.suffix_append path _))] at h
    cases h
    exact ⟨rfl, rfl⟩
  appends fd bytes path old e e' n h _ hfile hold := by
    have hfd : fd = 3 ∧ e.file = some path := by
      simp only [exSeedDisk] at hfile
      split at hfile
      · exact ⟨‹_›, hfile⟩
      · cases hfile
    have hold : logTree e.log path = .content old := hold
    simp only [exSeedEnv, hfd.2, hold] at h
    cases h
    refine ⟨Int.le_refl _, by rw [hfd.1]; rfl, ?_⟩
    rw [Int.toNat_natCast, List.take_length]
    rfl
  renames src dst bytes e e' h hsrc := by
    have hsrc : logTree e.log src = .content bytes := hsrc
    simp only [exSeedEnv, hsrc] at h
    cases h
    rfl
  opens path e h := by
    simp only [exSeedEnv, if_neg (fun hsuffix => h (List.isSuffixOf_iff_suffix.mp hsuffix))]
  creates_directories dir path e h := by
    refine Function.update_of_ne (fun heq : path = dir => h ?_) _ _
    rw [heq]
  fsyncs _ _ := rfl
  closes _ _ := rfl
  looks _ _ := rfl
  finds _ _ _ := rfl
  reads path bytes e h := by
    have h : logTree e.log path = .content bytes := h
    simp only [exSeedEnv, h]
    rfl
  streams _ _ := rfl
  lists name e h := by
    obtain ⟨⟨path, file⟩, -, hentry⟩ := List.mem_filterMap.mp h
    simp only [entryOf] at hentry
    split at hentry
    case isFalse => cases hentry
    case isTrue hlisted =>
      obtain ⟨rfl, -⟩ := Prod.mk.inj (Option.some.inj hentry)
      simp only [Bool.and_eq_true, Bool.not_eq_true', List.contains_eq_mem,
        decide_eq_false_iff_not] at hlisted
      obtain ⟨⟨hbegins, hslash⟩, hexists⟩ := hlisted
      refine ⟨hslash, ?_⟩
      obtain ⟨rest, rfl⟩ := List.isPrefixOf_iff_prefix.mp hbegins
      rw [List.drop_left]
      exact hexists
  iterates _ _ := rfl

/-- A disk without a configuration. -/
def exNew : Sys ExLog := ⟨⟨[], none⟩, []⟩

theorem exNew_empty : EmptyTree (exSeedDisk.tree exNew.env) := fun _ _ _ _ => rfl

namespace SeedLemmas

theorem returns_writeIfMissing (which key value : TBytes) :
    Returns (fun _ => True) (fun rc => rc = 0) (WriteIfMissing exSeedEnv 1 which key value) := by
  refine returns_bind (RestoreLemmas.returns_any (.exists (FilePathFor which key)))
    fun (present : Bool) _ => ?_
  cases present with
  | true => exact returns_pure rfl
  | false => exact RestoreLemmas.returns_atomicWrite exSeed_neverFails 0 _ _

theorem returns_copyIfMissing (facDir curDir name : TBytes) :
    Returns (fun _ => True) (fun rc => rc = 0) (copyIfMissing exSeedEnv 1 facDir curDir name) := by
  refine returns_bind (RestoreLemmas.returns_any (.exists (curDir ++ name)))
    fun (present : Bool) _ => ?_
  cases present with
  | true => exact returns_pure rfl
  | false =>
    exact returns_bind (RestoreLemmas.returns_any (.ifstream (facDir ++ name))) fun _ _ =>
      RestoreLemmas.returns_atomicWrite exSeed_neverFails 0 _ _

theorem returns_seedCurrent : Returns (fun _ => True) (fun codes => ∀ rc ∈ codes, rc = 0)
    (SeedCurrentFromFactoryIfMissing exSeedEnv 1) := by
  refine returns_bind (RestoreLemmas.returns_any (.exists factoryDir)) fun (present : Bool) _ => ?_
  cases present with
  | false => exact returns_pure fun rc hrc => absurd hrc List.not_mem_nil
  | true =>
    have hlist : Returns (fun _ => True) (fun _ => True)
        (directory_iterator exSeedEnv (text CONFIG_PATH ++ text CONFIG_FACTORY)) :=
      fun s _ => ⟨_, _, rfl, trivial, trivial⟩
    exact returns_bind hlist fun names _ => returns_mapM fun name _ => returns_copyIfMissing _ _ _

theorem returns_writeInitStamp (version : TBytes) :
    Returns (fun _ => True) (fun ok => ok = true) (WriteInitStamp exSeedEnv 1 version) := by
  refine returns_bind (RestoreLemmas.returns_atomicWrite exSeed_neverFails 0 _ _) fun rc hrc => ?_
  rw [hrc]
  exact returns_pure rfl

end SeedLemmas

/-- On a new disk everything is seeded. -/
theorem exNew_seeds (version : TBytes) (c : TConfig) :
    ∃ s', Seeds exSeedEnv 1 version c exNew s' := by
  obtain ⟨s₁, s₂, hmade, hfirst⟩ : ∃ s₁ s₂,
      (EnsureConfigTree exSeedEnv).exec exNew = some (.ok true, s₁) ∧
        (IsFirstBoot exSeedEnv).exec s₁ = some (.ok true, s₂) := ⟨_, _, rfl, rfl⟩
  have hseed : Returns (fun _ => True) (fun codes => ∀ rc ∈ codes, rc = 0)
      (SeedFactoryFromStruct exSeedEnv 1 c) :=
    returns_mapM fun w _ => returns_writeIfMissing _ _ _
  obtain ⟨factory, s₃, hfactory, -, hcodes⟩ := hseed s₂ trivial
  obtain ⟨current, s₄, hcurrent, -, hcodes'⟩ := returns_seedCurrent s₃ trivial
  obtain ⟨stamp, s₅, hstamp, -, rfl⟩ := returns_writeInitStamp version s₄ trivial
  refine ⟨s₅, factory ++ current, ?_, List.forall_mem_append.mpr ⟨hcodes, hcodes'⟩⟩
  rw [InitializeConfigFiles, exec_bind_ok hmade]
  show (IsFirstBoot exSeedEnv >>= _).exec s₁ = _
  rw [exec_bind_ok hfirst]
  show (SeedFactoryFromStruct exSeedEnv 1 c >>= _).exec s₂ = _
  rw [exec_bind_ok hfactory, exec_bind_ok hcurrent, exec_bind, hstamp]
  rfl

/-- A configuration with a model of its own, loaded into the one that the daemon starts with. -/
theorem model_seeded_and_loaded :
    ∃ s', Seeds exSeedEnv 1 [] { InitConfig with Model := text "eNET-AIO16-16F-10U" } exNew s' ∧
      LoadsTo (exSeedDisk.tree s'.env) InitConfig
        { InitConfig with Model := text "eNET-AIO16-16F-10U" } := by
  obtain ⟨s', hseeds⟩ := exNew_seeds [] { InitConfig with Model := text "eNET-AIO16-16F-10U" }
  refine ⟨s', hseeds, (seeding_matches_loading_iff exSeed_works exNew_empty hseeds _).mpr ?_⟩
  exact ⟨rfl, rfl, by decide +kernel⟩

/-- A board with two DACs is seeded, and loaded with four. -/
theorem numDacs_not_loaded : ConfigDisk exSeedEnv exSeedDisk ∧
    EmptyTree (exSeedDisk.tree exNew.env) ∧
      ∃ s', Seeds exSeedEnv 1 [] { InitConfig with NUM_DACs := 2 } exNew s' ∧
        ¬LoadsTo (exSeedDisk.tree s'.env) InitConfig { InitConfig with NUM_DACs := 2 } := by
  obtain ⟨s', hseeds⟩ := exNew_seeds [] { InitConfig with NUM_DACs := 2 }
  refine ⟨exSeed_works, exNew_empty, s', hseeds, ?_⟩
  rintro ⟨c', hrun, hsame⟩
  obtain ⟨c'', hrun', hget⟩ := seeded_load exSeed_works exNew_empty hseeds InitConfig
  cases hrun.symm.trans hrun'
  have hdacs : (4 : UInt8) = 2 := (hget .NUM_DACs).symm.trans (hsame .NUM_DACs)
  exact absurd hdacs (by decide)

end EnetTcp
