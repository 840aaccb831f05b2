import EnetTcp.Acceptance
import EnetTcp.Greeting
import EnetTcp.Loading
import EnetTcp.Saving

/-!
# What is loaded after saving (config.cpp)

Numbers are written with as many digits as the loader asks for, and read back as they were. Texts
are written as they are, but read as C strings, and line ends at their back are taken off.

* `restores_files_iff`: after saving, everything is loaded again when every text is read as it is.
* `config_savable`: the texts that accepted messages leave in `Config` are short.
* `config_round_trip_iff`: the model and the serial number decide.
-/

namespace EnetTcp

open Prog LoadLemmas

/-! ## 1. Numbers -/

namespace RestoreLemmas

theorem digitValue_hexDigit {d : Nat} (hd : d < 16) : digitValue 16 (hexDigit d) = some d := by
  have hall : ∀ d : Fin 16, digitValue 16 (hexDigit d) = some d.val := by decide +kernel
  exact hall ⟨d, hd⟩

theorem mapM_hexDigit {α : Type} {f : α → Nat} (hf : ∀ a, f a < 16) (as : List α) :
    (as.map fun a => hexDigit (f a)).mapM (digitValue 16) = some (as.map f) := by
  induction as with
  | nil => rfl
  | cons a as ih =>
    rw [List.map_cons, List.mapM_cons, digitValue_hexDigit (hf a), ih]
    rfl

/-- The digits of a number, put together again. -/
theorem foldl_digits (n k : Nat) :
    ((List.range k).map fun i => n / 16 ^ (k - 1 - i) % 16).foldl (fun n d => n * 16 + d) 0 =
      n % 16 ^ k := by
  induction k generalizing n with
  | zero => simp [Nat.mod_one]
  | succ k ih =>
    have hhead : ((List.range k).map fun i => n / 16 ^ (k + 1 - 1 - i) % 16) =
        (List.range k).map fun i => n / 16 / 16 ^ (k - 1 - i) % 16 := by
      refine List.map_congr_left fun i hi => ?_
      have hi : i < k := List.mem_range.mp hi
      rw [Nat.div_div_eq_div_mul, ← Nat.pow_succ']
      congr 3
      omega
    rw [List.range_succ, List.map_append, List.foldl_append, hhead, ih, List.map_cons,
      List.map_nil, List.foldl_cons, List.foldl_nil, Nat.add_sub_cancel, Nat.sub_self, Nat.pow_zero,
      Nat.div_one, Nat.pow_succ', Nat.mod_mul]
    omega

/-- A number is read as it was written. -/
theorem hexNumber_to_hex {w n : Nat} (hn : n < 16 ^ (2 * w)) :
    hexNumber (2 * w) (to_hex w n) = some n := by
  have hdigits : (to_hex w n).mapM (digitValue 16) =
      some ((List.range (2 * w)).map fun i => n / 16 ^ (2 * w - 1 - i) % 16) :=
    mapM_hexDigit (fun i => Nat.mod_lt _ (by decide)) _
  have hlen : (to_hex w n).length = 2 * w := by rw [to_hex, List.length_map, List.length_range]
  rw [hexNumber, stripLineEnds_digits (mapM_mem hdigits), if_pos hlen, hdigits, Option.map_some,
    foldl_digits, Nat.mod_eq_of_lt hn]

end RestoreLemmas

open RestoreLemmas

/-! ## 2. Saved and loaded -/

/-- Loading gives every field the value that `c` has, whatever it was before. -/
def Restores (tree : ConfigTree) (which : TBytes) (c : TConfig) : Prop :=
  ∀ c₀, ∃ c', (LoadConfig tree which).exec c₀ = some (.ok (), c') ∧
    ∀ f : ConfigField, f.get c' = f.get c

/-- Every write of `SaveConfig` succeeds. -/
def Saves {ε : Type} (env : Env ε) (fuel : Nat) (c : TConfig) (which : TBytes) (s s' : Sys ε) :
    Prop :=
  ∃ codes, (saveFields env fuel c which savedFields).exec s = some (.ok codes, s') ∧
    ∀ rc ∈ codes, rc = 0

theorem Saves.exec {ε : Type} {env : Env ε} {fuel : Nat} {c : TConfig} {which : TBytes}
    {s s' : Sys ε} (h : Saves env fuel c which s s') :
    (SaveConfig env fuel c which).exec s = some (.ok true, s') := by
  obtain ⟨codes, hrun, -⟩ := h
  rw [SaveConfig_eq, exec_bind, hrun]
  rfl

/-- What is read of a value. -/
def readBack : (t : FieldType) → t.Value → t.Value
  | .text, v => stripLineEnds ((v.take 1023).takeWhile (· != 0))
  | .u8, v | .u32, v => v

section Loaded

variable {tree : ConfigTree} {which : TBytes}

namespace RestoreLemmas

theorem foundFile_saved {key v : TBytes} (h : tree (FilePathFor which key) = .content v) :
    foundFile tree which key = .content v := by
  have hexists : (tree (FilePathFor which key)).exists = true := by
    rw [h]
    rfl
  rw [foundFile, if_pos hexists, h]

theorem keyEffect_number {key bytes : TBytes} {t : FieldType} (ht : t ≠ .text)
    (h : foundFile tree which key = .content bytes)
    (hnumber : ((ConfFile.content bytes).number t.digits).isSome = true) :
    keyEffect tree which key t = .ok (encoded (.content bytes) t) := by
  have hwidth : 0 < t.digits ∧ t.digits ≤ 8 := by
    cases t with
    | text => exact absurd rfl ht
    | u8 | u32 => decide
  refine (keyEffect_tidy ht key _).mpr ?_
  rw [h]
  exact (tidy_self hwidth.1 hwidth.2).mpr (.inr hnumber)

/-- A field is loaded from the file that is found. -/
theorem keyEffect_found {key : TBytes} {t : FieldType} {v : t.Value}
    (h : foundFile tree which key = .content (t.encode v)) :
    keyEffect tree which key t = .ok (some (readBack t v)) := by
  cases t with
  | text =>
    rcases readConfigString_cases tree which key with ⟨u, hread, htext⟩ | ⟨rc, hread, htext⟩
    · rw [h] at htext
      cases htext
      rw [keyEffect, hread]
      rfl
    · rw [h] at htext
      cases htext
  | u8 =>
    have hnumber : (ConfFile.content (to_hex 1 (UInt8.toNat v))).number 2 =
        some (UInt8.toNat v) := hexNumber_to_hex (UInt8.toNat_lt v)
    refine (keyEffect_number (t := .u8) (by decide) h (Option.isSome_of_eq_some hnumber)).trans ?_
    rw [encoded, FieldType.encode, hnumber]
    exact congrArg (fun x => Except.ok (some x)) UInt8.ofNat_toNat
  | u32 =>
    have hnumber : (ConfFile.content (to_hex 4 (UInt32.toNat v))).number 8 =
        some (UInt32.toNat v) := hexNumber_to_hex (UInt32.toNat_lt v)
    refine (keyEffect_number (t := .u32) (by decide) h (Option.isSome_of_eq_some hnumber)).trans ?_
    rw [encoded, FieldType.encode, hnumber]
    exact congrArg (fun x => Except.ok (some x)) UInt32.ofNat_toNat

/-- A file without a text leaves the field as it is. -/
theorem keyEffect_noText {key : TBytes} {t : FieldType}
    (h : (foundFile tree which key).text = none) : keyEffect tree which key t = .ok none := by
  rcases readConfigString_cases tree which key with ⟨u, hread, htext⟩ | ⟨rc, hread, htext⟩
  · rw [h] at htext
    cases htext
  · cases t <;> simp only [keyEffect, hexEffect, hread] <;> rfl

end RestoreLemmas

/-- After saving, everything is loaded again when every value is read as it is. -/
theorem restores_files_iff {c : TConfig}
    (h : ∀ f : ConfigField, tree (confPath which f) = .content (f.type.encode (f.get c))) :
    Restores tree which c ↔ ∀ f : ConfigField, readBack f.type (f.get c) = f.get c := by
  have heffect (f : ConfigField) :
      fieldEffect tree which f = .ok (some (readBack f.type (f.get c))) :=
    keyEffect_found (foundFile_saved (h f))
  have hload (c₀ : TConfig) : ∃ c', (LoadConfig tree which).exec c₀ = some (.ok (), c') ∧
      ∀ f : ConfigField, f.get c' = readBack f.type (f.get c) := by
    have hnothrow : ∀ f e, fieldEffect tree which f ≠ .error e := by
      intro f e herror
      cases (heffect f).symm.trans herror
    obtain ⟨c', hrun, hget⟩ := LoadConfig_run hnothrow c₀
    refine ⟨c', hrun, fun f => ?_⟩
    rw [hget, newValue, heffect]
    rfl
  constructor
  · intro hrestores f
    obtain ⟨c', hrun, hget⟩ := hrestores c
    obtain ⟨c'', hrun', hget'⟩ := hload c
    cases hrun.symm.trans hrun'
    exact (hget' f).symm.trans (hget f)
  · intro hsame c₀
    obtain ⟨c', hrun, hget⟩ := hload c₀
    exact ⟨c', hrun, fun f => (hget f).trans (hsame f)⟩

end Loaded

/-! ## 3. Texts -/

/-- A text without a zero byte and without a line end at its back. -/
def PlainText (v : TBytes) : Prop := 0 ∉ v ∧ ∀ b ∈ v.getLast?, b ≠ 10 ∧ b ≠ 13

instance (v : TBytes) : Decidable (PlainText v) :=
  haveI : Decidable (∀ b ∈ v.getLast?, b ≠ 10 ∧ b ≠ 13) :=
    Option.decidableForallMem _
  inferInstanceAs (Decidable (_ ∧ _))

namespace RestoreLemmas

theorem stripLineEnds_eq_self {v : TBytes} :
    stripLineEnds v = v ↔ ∀ b ∈ v.getLast?, b ≠ 10 ∧ b ≠ 13 := by
  rw [stripLineEnds, List.getLast?_eq_head?_reverse, ← List.reverse_inj, List.reverse_reverse,
    List.dropWhile_eq_self_iff]
  cases v.reverse with
  | nil => simp
  | cons b u => simp

theorem stripLineEnds_length_le (v : TBytes) : (stripLineEnds v).length ≤ v.length := by
  obtain ⟨t, ht, -⟩ := exists_lineEnds v
  have hlen := congrArg List.length ht
  rw [List.length_append] at hlen
  omega

end RestoreLemmas

/-- A short text is read as it is when it is plain. -/
theorem readBack_text_iff {v : TBytes} (hlen : v.length ≤ 1023) :
    readBack .text v = v ↔ PlainText v := by
  show stripLineEnds ((v.take 1023).takeWhile (· != 0)) = v ↔ _
  rw [List.take_of_length_le hlen]
  have hnul : v.takeWhile (· != 0) = v ↔ 0 ∉ v := by
    rw [List.takeWhile_eq_self_iff]
    simp only [bne_iff_ne, ne_eq]
    exact ⟨fun h hmem => h 0 hmem rfl, fun h b hb heq => h (heq ▸ hb)⟩
  constructor
  · intro h
    have hlen' : v.length ≤ (v.takeWhile (· != 0)).length := by
      have hstrip := stripLineEnds_length_le (v.takeWhile (· != 0))
      rwa [h] at hstrip
    have hself : v.takeWhile (· != 0) = v :=
      (List.takeWhile_prefix _).eq_of_length_le hlen'
    rw [hself] at h
    exact ⟨hnul.mp hself, stripLineEnds_eq_self.mp h⟩
  · rintro ⟨hzero, hlast⟩
    rw [hnul.mpr hzero]
    exact stripLineEnds_eq_self.mpr hlast

/-! ## 4. The texts of a reachable configuration -/

/-- The texts are short, and no command changes the texts that have no command. -/
structure TConfig.Savable (c : TConfig) : Prop where
  Model : c.Model.length ≤ 1023
  SerialNumber : c.SerialNumber.length ≤ 1023
  Description : c.Description = InitConfig.Description
  submuxBarcodes : c.submuxBarcodes = InitConfig.submuxBarcodes
  submuxTypes : c.submuxTypes = InitConfig.submuxTypes

theorem savable_init : InitConfig.Savable := ⟨by decide, by decide, rfl, rfl, rfl⟩

/-- The item sets the model or the serial number. -/
def TItemBody.SetsText (this : TItemBody) : Prop :=
  this.params = .TBRD_Model ∨ this.params = .TBRD_SerialNumber

theorem ConfigChange.savable {id : DataItemIds} {this : TItemBody} {c c' : TConfig}
    (h : ConfigChange id this c c') (hlen : this.SetsText → this.rawBytes.length ≤ 1023)
    (hc : c.Savable) : c'.Savable := by
  cases h
  case Model hparams =>
    exact ⟨hlen (.inl hparams), hc.SerialNumber, hc.Description, hc.submuxBarcodes, hc.submuxTypes⟩
  case SerialNumber hparams =>
    exact ⟨hc.Model, hlen (.inr hparams), hc.Description, hc.submuxBarcodes, hc.submuxTypes⟩
  all_goals
    exact ⟨hc.Model, hc.SerialNumber, hc.Description, hc.submuxBarcodes, hc.submuxTypes⟩

namespace RestoreLemmas

variable {pf : Platform}

/-- Two classes make items that set a text. -/
theorem construct_text {cls : ItemClass} {data : TBytes} {g g' : Globals} {body : TItemBody}
    (h : (construct pf cls data).exec g = some (.ok body, g')) (htext : body.SetsText) :
    (cls = .TBRD_Model ∨ cls = .TBRD_SerialNumber) ∧ body.rawBytes = data := by
  cases cls
  case TBRD_Model =>
    cases h
    exact ⟨.inl rfl, rfl⟩
  case TBRD_SerialNumber =>
    cases h
    exact ⟨.inr rfl, rfl⟩
  case TBRD_GetNumberOfAdcChannels | TREG_Write1 | TADC_BaseClock | TSYS_UploadFileName
      | TDAC_Output | TDAC_OutputV | TDAC_Range1 | TADC_StreamStart =>
    obtain ⟨_, _, -, h⟩ := bind_exec_ok h
    cases h
    rcases htext with htext | htext <;> cases htext
  all_goals
    cases h
    rcases htext with htext | htext <;> cases htext

theorem text_entry {e : TDIdDictEntry} (he : e ∈ DIdDict)
    (hcls : e.Construct = .TBRD_Model ∨ e.Construct = .TBRD_SerialNumber) : e.maxLen ≤ 40 := by
  revert e
  decide +kernel

theorem builds_text {w : WireItem} {g g' : Globals} {item : TDataItem}
    (h : w.Builds pf g item g') (htext : item.SetsText) : item.rawBytes.length ≤ 1023 := by
  obtain ⟨⟨e, he, hadmits, hrun⟩, -⟩ := h
  obtain ⟨hcls, hraw⟩ := construct_text hrun htext
  have hmax := text_entry (find_some he).1 hcls
  rw [hraw]
  rcases hadmits with hnil | ⟨-, hle⟩
  · rw [hnil]
    decide
  · omega

theorem built_text {ws : List WireItem} {g g' : Globals} {items : List TDataItem}
    (h : Built pf g ws items g') :
    ∀ item ∈ items, item.SetsText → item.rawBytes.length ≤ 1023 := by
  induction h with
  | nil => exact fun item hitem => absurd hitem List.not_mem_nil
  | cons hw _ ih => exact List.forall_mem_cons.mpr ⟨builds_text hw, ih⟩

end RestoreLemmas

/-- In every state that accepted messages lead to. -/
theorem config_savable {ε : Type} {pf : Platform} {env : Env ε} {m₀ m : Machine ε}
    (hstart : m₀.Config = InitConfig) (h : (messageSystem pf env).Reachable m₀ m) :
    m.Config.Savable := by
  refine config_invariant ?_ (hstart ▸ savable_init) h
  intro m a message g' _ hparse item hitem c c' hchange
  obtain ⟨ws, items, _, hloose, rfl⟩ := FromBytes_succeeds_iff.mp hparse
  exact hchange.savable (built_text hloose.built item hitem)

/-! ## 5. The round trip -/

theorem readBack_savable_iff {c : TConfig} (hc : c.Savable) :
    (∀ f : ConfigField, readBack f.type (f.get c) = f.get c) ↔
      PlainText c.Model ∧ PlainText c.SerialNumber := by
  constructor
  · intro h
    exact ⟨(readBack_text_iff hc.Model).mp (h .Model),
      (readBack_text_iff hc.SerialNumber).mp (h .SerialNumber)⟩
  · rintro ⟨hmodel, hserial⟩ f
    cases f with
    | Model => exact (readBack_text_iff hc.Model).mpr hmodel
    | SerialNumber => exact (readBack_text_iff hc.SerialNumber).mpr hserial
    | Description =>
      show readBack .text c.Description = c.Description
      rw [hc.Description]
      exact (readBack_text_iff (by decide)).mpr (by decide)
    | submuxBarcodes submux =>
      have hempty : c.submuxBarcodes[submux] = [] := by
        rw [hc.submuxBarcodes]
        exact Vector.getElem_replicate _
      show readBack .text c.submuxBarcodes[submux] = c.submuxBarcodes[submux]
      rw [hempty]
      rfl
    | submuxTypes submux =>
      have hempty : c.submuxTypes[submux] = [] := by
        rw [hc.submuxTypes]
        exact Vector.getElem_replicate _
      show readBack .text c.submuxTypes[submux] = c.submuxTypes[submux]
      rw [hempty]
      rfl
    | _ => rfl

theorem Saves.restores_iff {ε : Type} {env : Env ε} {disk : Disk ε} {which : TBytes}
    (hdisk : DiskWorks env disk which) {fuel : Nat} {c : TConfig} {s s' : Sys ε}
    (h : Saves env fuel c which s s') (hc : c.Savable) :
    Restores (disk.tree s'.env) which c ↔ PlainText c.Model ∧ PlainText c.SerialNumber := by
  obtain ⟨codes, hrun, hcodes⟩ := h
  have hfiles := (saveFields_files hdisk savedFields_nodup hrun hcodes).1
  rw [restores_files_iff fun f => hfiles f (mem_savedFields f)]
  exact readBack_savable_iff hc

/-- A configuration that accepted messages lead to is saved and loaded without a change when the
model and the serial number are plain. -/
theorem config_round_trip_iff {ε₀ ε : Type} {pf : Platform} {env₀ : Env ε₀} {env : Env ε}
    {disk : Disk ε} {which : TBytes} (hdisk : DiskWorks env disk which) {m₀ m : Machine ε₀}
    (hstart : m₀.Config = InitConfig) (hreach : (messageSystem pf env₀).Reachable m₀ m)
    {fuel : Nat} {s s' : Sys ε} (hsaves : Saves env fuel m.Config which s s') :
    Restores (disk.tree s'.env) which m.Config ↔
      PlainText m.Config.Model ∧ PlainText m.Config.SerialNumber :=
  hsaves.restores_iff hdisk (config_savable hstart hreach)

/-- Every text that the message sets is plain. -/
def SetsPlainTexts (pf : Platform) {ε : Type} (_ : Machine ε) (a : TBytes × Globals) : Prop :=
  ∀ message g', (FromBytes pf a.1).exec a.2 = some (.ok (message, ERR_SUCCESS), g') →
    ∀ item ∈ message.DataItems, item.SetsText → PlainText item.rawBytes

/-- In a run of messages with plain texts. -/
theorem config_plain {ε : Type} {pf : Platform} {env : Env ε} {m₀ m : Machine ε}
    (hstart : m₀.Config = InitConfig)
    (h : (messageSystem pf env).Reaches (SetsPlainTexts pf) m₀ m) :
    PlainText m.Config.Model ∧ PlainText m.Config.SerialNumber := by
  refine config_invariant (P := fun c => PlainText c.Model ∧ PlainText c.SerialNumber) ?_ ?_ h
  · intro m a message g' hcond hparse item hitem c c' hchange hplain
    have htext := hcond message g' hparse item hitem
    cases hchange
    case Model hparams => exact ⟨htext (.inl hparams), hplain.2⟩
    case SerialNumber hparams => exact ⟨hplain.1, htext (.inr hparams)⟩
    all_goals exact hplain
  · rw [hstart]
    decide

/-! ## 6. A disk -/

/-- Files, and the file that is open for writing. -/
structure ExFiles where
  tree : ConfigTree
  file : Option TBytes

/-- The directories of the current layer. -/
def exDirs : List TBytes :=
  [layerDir (text CONFIG_CURRENT), parentPath (layerDir (text CONFIG_CURRENT))]

/-- Calls on files work, and every other call is answered as in `exEnv`. -/
def exDiskEnv : Env ExFiles where
  answer c e :=
    match c with
    | .open_ path =>
      if path ∈ exDirs then ((4 : Int), e)
      else ((3 : Int), { tree := Function.update e.tree path (.content []), file := some path })
    | .write _ bytes => ((bytes.length : Int),
      match e.file with
      | none => e
      | some path =>
        match e.tree path with
        | .content old => { e with tree := Function.update e.tree path (.content (old ++ bytes)) }
        | _ => e)
    | .rename src dst => ((0 : Int), { e with
        tree := Function.update (Function.update e.tree src .absent) dst (e.tree src) })
    | .exists path => (decide (path ∈ exDirs) || (e.tree path).exists, e)
    | c => ((exEnv.answer c ()).1, e)

def exDisk : Disk ExFiles where
  tree := ExFiles.tree
  file e fd := if fd = 3 then e.file else none

namespace RestoreLemmas

theorem tmpPath_not_mem_exDirs (f : ConfigField) : tmpPath (text CONFIG_CURRENT) f ∉ exDirs := by
  have hlong : 33 < (tmpPath (text CONFIG_CURRENT) f).length := by
    simp only [tmpPath, confPath, FilePathFor, List.length_append]
    have hpath : (text CONFIG_PATH).length + (text CONFIG_CURRENT).length = 33 := by decide
    have htmp : (text ".tmp").length = 4 := by decide
    omega
  have hdirs : ∀ dir ∈ exDirs, dir.length ≤ 33 := by decide
  exact fun h => Nat.not_lt.mpr (hdirs _ h) hlong

end RestoreLemmas

theorem exDisk_works : DiskWorks exDiskEnv exDisk (text CONFIG_CURRENT) where
  creates f e e' fd h _ := by
    simp only [exDiskEnv, if_neg (tmpPath_not_mem_exDirs f)] at h
    cases h
    exact ⟨rfl, rfl⟩
  appends fd bytes path old e e' n h _ hfile hold := by
    have hfd : fd = 3 ∧ e.file = some path := by
      simp only [exDisk] at hfile
      split at hfile
      · exact ⟨‹_›, hfile⟩
      · cases hfile
    have hold : e.tree path = .content old := hold
    simp only [exDiskEnv, hfd.2, hold] at h
    cases h
    refine ⟨Int.le_refl _, by rw [hfd.1]; rfl, ?_⟩
    rw [Int.toNat_natCast, List.take_length]
    rfl
  renames src dst bytes e e' h hsrc := by
    have hsrc : e.tree src = .content bytes := hsrc
    simp only [exDiskEnv, hsrc] at h
    cases h
    rfl
  opens dir hdir e := by
    simp only [exDiskEnv, if_pos (show dir ∈ exDirs from hdir)]
  creates_directories _ _ _ := rfl
  fsyncs _ _ := rfl
  closes _ _ := rfl
  looks _ _ := rfl

/-- Calls on files report no error, and write all that they are given. -/
structure NeverFails {ε : Type} (env : Env ε) : Prop where
  opens : ∀ path e, (0 : Int) ≤ (env.answer (.open_ path) e).1
  writes : ∀ fd bytes e, (env.answer (.write fd bytes) e).1 = (bytes.length : Int)
  fsyncs : ∀ fd e, (env.answer (.fsync fd) e).1 = (0 : Int)
  renames : ∀ src dst e, (env.answer (.rename src dst) e).1 = (0 : Int)
  creates_directories : ∀ path e, (env.answer (.create_directories path) e).1 = (0 : Int)

namespace RestoreLemmas

section NeverFails

variable {ε : Type} {env : Env ε}

/-- What a call gives. -/
theorem returns_call {c : SysCall} {Q : c.Result → Prop} (h : ∀ e, Q (env.answer c e).1) :
    Returns (fun _ => True) Q (syscall env c) :=
  fun s _ => ⟨_, _, rfl, trivial, h s.env⟩

theorem returns_any (c : SysCall) :
    Returns (fun _ => True) (fun _ => True) (syscall env c) := returns_call fun _ => trivial

variable (henv : NeverFails env)
include henv

theorem returns_FsyncDir (dir : TBytes) :
    Returns (fun _ => True) (fun rc => rc = 0) (FsyncDir env dir) := by
  refine returns_bind (returns_call (c := .open_ dir) (Q := fun fd : Int => 0 ≤ fd)
    (henv.opens dir)) fun (dfd : Int) hdfd => ?_
  rw [if_neg (Int.not_lt.mpr hdfd)]
  refine returns_bind (returns_call (c := .fsync dfd) (Q := fun rc : Int => rc = 0)
    (henv.fsyncs dfd)) fun (rc : Int) hrc => ?_
  exact returns_bind (returns_any (.close dfd)) fun _ _ => returns_pure hrc

theorem returns_writeAll (fd : Int) (fuel : Nat) (p : TBytes) :
    Returns (fun _ => True) (fun w => w = 0) (writeAll env fd (fuel + 1) p) := by
  cases p with
  | nil => exact returns_pure rfl
  | cons b p =>
    refine returns_bind (returns_call (c := .write fd (b :: p))
      (Q := fun w : Int => w = (b :: p).length) (henv.writes fd (b :: p))) fun (w : Int) hw => ?_
    subst hw
    rw [if_neg (by omega), Int.toNat_natCast, List.drop_length]
    cases fuel <;> exact returns_pure rfl

theorem returns_atomicWrite (fuel : Nat) (path contents : TBytes) : Returns (fun _ => True)
    (fun rc => rc = 0) (AtomicWriteTextFile env (fuel + 1) path contents) := by
  refine returns_bind (returns_call (c := .open_ (path ++ text ".tmp"))
    (Q := fun fd : Int => 0 ≤ fd) (henv.opens _)) fun (fd : Int) hfd => ?_
  rw [if_neg (Int.not_lt.mpr hfd)]
  refine returns_bind (returns_writeAll henv fd fuel contents) fun w hw => ?_
  rw [hw, if_neg (by decide)]
  refine returns_bind (returns_call (c := .fsync fd) (Q := fun rc : Int => rc = 0)
    (henv.fsyncs fd)) fun (rc : Int) hrc => ?_
  rw [hrc, if_neg (by decide)]
  refine returns_bind (returns_any (.close fd)) fun _ _ => ?_
  refine returns_bind (returns_call (c := .rename (path ++ text ".tmp") path)
    (Q := fun rc : Int => rc = 0) (henv.renames _ _)) fun (rc : Int) hrc => ?_
  rw [hrc, if_neg (by decide)]
  exact returns_bind (returns_FsyncDir henv _) fun _ _ => returns_pure rfl

theorem returns_MkdirP (path : TBytes) :
    Returns (fun _ => True) (fun rc => rc = 0) (MkdirP env path) := by
  refine returns_bind (returns_any (.exists path)) fun (present : Bool) _ => ?_
  cases present with
  | true => exact returns_pure rfl
  | false =>
    refine returns_bind (returns_call (c := .create_directories path)
      (Q := fun rc : Int => rc = 0) (henv.creates_directories path)) fun (rc : Int) hrc => ?_
    rw [hrc, if_neg (by decide)]
    exact returns_FsyncDir henv _

theorem returns_saveFields (c : TConfig) (which : TBytes) (fs : List ConfigField) :
    Returns (fun _ => True) (fun codes => ∀ rc ∈ codes, rc = 0) (saveFields env 1 c which fs) :=
  returns_mapM fun _ _ => returns_bind (returns_MkdirP henv _) fun _ _ =>
    returns_atomicWrite henv 0 _ _

end NeverFails

end RestoreLemmas

theorem exDisk_neverFails : NeverFails exDiskEnv where
  opens path e := by
    simp only [exDiskEnv]
    split
    · exact (by decide : (0 : Int) ≤ 4)
    · exact (by decide : (0 : Int) ≤ 3)
  writes _ _ _ := rfl
  fsyncs _ _ := rfl
  renames _ _ _ := rfl
  creates_directories _ _ := rfl

/-- Every write succeeds. -/
theorem exDisk_saves (c : TConfig) (which : TBytes) (s : Sys ExFiles) :
    ∃ s', Saves exDiskEnv 1 c which s s' := by
  obtain ⟨codes, s', hrun, -, hcodes⟩ :=
    returns_saveFields exDisk_neverFails c which savedFields s trivial
  exact ⟨s', codes, hrun, hcodes⟩

/-- A disk without a file. -/
def exBlank : Sys ExFiles := ⟨⟨fun _ => .absent, none⟩, []⟩

/-- A model string is saved and loaded. -/
theorem model_round_trip :
    ∃ (m : Machine Unit) (s' : Sys ExFiles),
      (messageSystem exPlatform exEnv).Reachable (exWorld []).machine m ∧
        m.Config.Model = text "eNET-AIO16-16F-10U" ∧
        Saves exDiskEnv 1 m.Config (text CONFIG_CURRENT) exBlank s' ∧
        Restores (exDisk.tree s'.env) (text CONFIG_CURRENT) m.Config := by
  have hrun : (((messageSystem exPlatform exEnv).run [(exModel, exGlobals)]
      (exWorld []).machine).map fun m => decide (m.Config.Model = text "eNET-AIO16-16F-10U" ∧
        PlainText m.Config.Model ∧ PlainText m.Config.SerialNumber)) = some true := by
    decide +kernel
  obtain ⟨m, hreach, htexts⟩ := StepSystem.exists_reachable_of_run hrun
  obtain ⟨hmodel, hplain⟩ := of_decide_eq_true htexts
  obtain ⟨s', hsaves⟩ := exDisk_saves m.Config (text CONFIG_CURRENT) exBlank
  exact ⟨m, s', hreach, hmodel, hsaves,
    (config_round_trip_iff exDisk_works rfl hreach hsaves).mpr hplain⟩

/-- A command with a serial number that ends in a line feed. -/
def exSerialLine : TBytes :=
  frameBytes 67 [itemBytes DataItemIds.BRD_SerialNumber (text "SN-12345678\n")]

/-- The line feed is lost. -/
theorem line_end_not_restored :
    ∃ (m : Machine Unit) (s' : Sys ExFiles),
      (messageSystem exPlatform exEnv).Reachable (exWorld []).machine m ∧
        m.Config.SerialNumber = text "SN-12345678\n" ∧
        DiskWorks exDiskEnv exDisk (text CONFIG_CURRENT) ∧
        Saves exDiskEnv 1 m.Config (text CONFIG_CURRENT) exBlank s' ∧
        ¬Restores (exDisk.tree s'.env) (text CONFIG_CURRENT) m.Config := by
  have hrun : (((messageSystem exPlatform exEnv).run [(exSerialLine, exGlobals)]
      (exWorld []).machine).map fun m =>
        decide (m.Config.SerialNumber = text "SN-12345678\n")) = some true := by
    decide +kernel
  obtain ⟨m, hreach, hserial⟩ := StepSystem.exists_reachable_of_run hrun
  have hserial : m.Config.SerialNumber = text "SN-12345678\n" := of_decide_eq_true hserial
  obtain ⟨s', hsaves⟩ := exDisk_saves m.Config (text CONFIG_CURRENT) exBlank
  refine ⟨m, s', hreach, hserial, exDisk_works, hsaves, fun h => ?_⟩
  have hplain := ((hsaves.restores_iff exDisk_works (config_savable rfl hreach)).mp h).2
  rw [hserial] at hplain
  exact absurd hplain (by decide)

end EnetTcp
