import Mathlib.Data.Bool.AllAny
import EnetTcp.Persisting
import EnetTcp.Restoring

/-!
# DAC settings in memory and on the disk (DIdDict, TDAC_Range1::Go)

Six items set ranges, scales and offsets of DAC channels, each in `Config` and in a file.
`TDAC_Range1::Go` writes the file first, and sets `Config` only when that has worked. The five
lambdas set `Config` first, and only log a write that fails.

* `dacSettings`: the settings that an item names.
* `lambda_run`: a lambda gives the settings their values in `Config` whatever the writes do.
* `all_or_nothing_iff`: when an item leaves everything new or everything as it was.
-/

namespace EnetTcp

open Prog FailureLemmas PersistLemmas

variable {ε : Type}

/-! ## 1. The settings of an item -/

def dacScaleSetting (ch : Fin MAX_DACs) (scale : FloatBits) : Setting :=
  ⟨.dacScaleCoefficients ch, scale⟩

def dacOffsetSetting (ch : Fin MAX_DACs) (offset : FloatBits) : Setting :=
  ⟨.dacOffsetCoefficients ch, offset⟩

def dacRangeSetting (ch : Fin MAX_DACs) (rangeCode : UInt32) : Setting := ⟨.dacRanges ch, rangeCode⟩

/-- The settings of the channel that the data begins with. -/
def channelSettings (buf : TBytes) (f : Fin MAX_DACs → Option (List Setting)) : List Setting :=
  match buf with
  | ch :: _ => if h : ch.toNat < MAX_DACs then (f ⟨ch.toNat, h⟩).getD [] else []
  | [] => []

/-- The value that the data has for a channel. -/
def floatSetting (buf : TBytes) (f : Fin MAX_DACs → FloatBits → Setting) (dacnum : Nat) :
    Option Setting :=
  if h : dacnum < MAX_DACs then (readU32 buf (dacnum * 4)).map (f ⟨dacnum, h⟩) else none

/-- One setting for each of the first `n` floats of the data. -/
def floatSettings (buf : TBytes) (n : Nat) (f : Fin MAX_DACs → FloatBits → Setting) :
    List Setting := (List.range n).filterMap (floatSetting buf f)

def GoLambda.settings (l : GoLambda) (buf : TBytes) : List Setting :=
  match l with
  | .DAC_Calibrate1 => channelSettings buf fun ch => do
    let offset ← readU32 buf 1
    let scale ← readU32 buf 5
    return [dacScaleSetting ch scale, dacOffsetSetting ch offset]
  | .DAC_Offset1 => channelSettings buf fun ch => do
    return [dacOffsetSetting ch (← readU32 buf 1)]
  | .DAC_Scale1 => channelSettings buf fun ch => do
    return [dacScaleSetting ch (← readU32 buf 1)]
  | .DAC_OffsetAll => floatSettings buf (buf.length / 4) dacOffsetSetting
  | .DAC_ScaleAll => floatSettings buf (min (buf.length / 4) 4) dacScaleSetting
  | _ => []

/-- The items that set DAC settings. -/
def dacSettingIds : List DataItemIds :=
  [DataItemIds.DAC_Range1, DataItemIds.DAC_Calibrate1, DataItemIds.DAC_Offset1,
    DataItemIds.DAC_OffsetAll, DataItemIds.DAC_Scale1, DataItemIds.DAC_ScaleAll]

/-- The settings that an item names, with the values that it has for them. -/
def dacSettings (id : DataItemIds) (data : TBytes) : List Setting :=
  if id = DataItemIds.DAC_Range1 then channelSettings data fun ch => do
    return [dacRangeSetting ch (← readU32 data 1)]
  else (((DIdDict.find id).bind TDIdDictEntry.go).map fun l => l.settings data).getD []

/-- Afterwards `Config` and the files have all the new values, or all that they had before. -/
def AllOrNothing (disk : Disk ε) (xs : List Setting) (m m' : Machine ε) : Prop :=
  (∀ x ∈ xs, x.InMemory m'.Config ∧ x.OnDisk currentLayer (disk.tree m'.sys.env)) ∨
    ∀ x ∈ xs, x.field.get m'.Config = x.field.get m.Config ∧
      disk.tree m'.sys.env (confPath currentLayer x.field) =
        disk.tree m.sys.env (confPath currentLayer x.field)

/-- The writes of the settings give results that leave memory and disk with all or nothing, when
memory takes all: every file gets its value, or `Config` had all values and no file changes. -/
def WritesAgree (env : Env ε) (fuel : Nat) (disk : Disk ε) (xs : List Setting) (m : Machine ε) :
    Prop :=
  Gives (writeKeys env fuel (xs.map Setting.write)) m.sys fun rcs =>
    List.Forall₂ (fun x rc => x.Arrives (disk.tree m.sys.env) rc) xs rcs ∨
      (∀ x ∈ xs, x.InMemory m.Config) ∧
        List.Forall₂ (fun x rc => x.Stays (disk.tree m.sys.env) rc) xs rcs

/-! ## 2. What a lambda leaves -/

namespace DacLemmas

variable {env : Env ε} {fuel : Nat}

theorem channelSettings_cases {buf : TBytes} {f : Fin MAX_DACs → Option (List Setting)}
    (h : channelSettings buf f ≠ []) : ∃ (ch : UInt8) (rest : TBytes) (hch : ch.toNat < MAX_DACs)
      (xs : List Setting), buf = ch :: rest ∧ f ⟨ch.toNat, hch⟩ = some xs ∧
        channelSettings buf f = xs := by
  cases buf with
  | nil => exact absurd rfl h
  | cons ch rest =>
    unfold channelSettings at h ⊢
    dsimp only at h ⊢
    by_cases hch : ch.toNat < MAX_DACs
    · rw [dif_pos hch] at h ⊢
      cases hf : f ⟨ch.toNat, hch⟩ with
      | none => exact absurd (by rw [hf]; rfl) h
      | some xs => exact ⟨ch, rest, hch, xs, rfl, hf, rfl⟩
    · exact absurd (dif_neg hch) h

theorem floatSetting_some {buf : TBytes} {f : Fin MAX_DACs → FloatBits → Setting} {k : Nat}
    {x : Setting} (h : floatSetting buf f k = some x) :
    ∃ (hk : k < MAX_DACs) (v : FloatBits), readU32 buf (k * 4) = some v ∧ x = f ⟨k, hk⟩ v := by
  unfold floatSetting at h
  by_cases hk : k < MAX_DACs
  · rw [dif_pos hk] at h
    obtain ⟨v, hread, rfl⟩ := Option.map_eq_some_iff.mp h
    exact ⟨hk, v, hread, rfl⟩
  · rw [dif_neg hk] at h
    cases h

/-- A round without a value, or for a channel that there is not, is undefined. -/
theorem floatSetting_none {buf : TBytes} {f : Fin MAX_DACs → FloatBits → Setting} {k : Nat}
    (h : floatSetting buf f k = none) :
    readU32 buf (k * 4) = none ∨ ∃ v, readU32 buf (k * 4) = some v ∧ ¬k < MAX_DACs := by
  unfold floatSetting at h
  cases hread : readU32 buf (k * 4) with
  | none => exact .inl rfl
  | some v =>
    refine .inr ⟨v, rfl, fun hk => ?_⟩
    rw [dif_pos hk, hread] at h
    cases h

theorem setDacScale_undefined {k : Nat} (hk : ¬k < MAX_DACs) (scale : FloatBits) (m : Machine ε) :
    (setDacScale k scale).exec m = none := by
  have hset : setDac m.Config.dacScaleCoefficients k scale = none := dif_neg hk
  rw [setDacScale, exec_get_bind, hset]
  rfl

theorem setDacOffset_undefined {k : Nat} (hk : ¬k < MAX_DACs) (offset : FloatBits)
    (m : Machine ε) : (setDacOffset k offset).exec m = none := by
  have hset : setDac m.Config.dacOffsetCoefficients k offset = none := dif_neg hk
  rw [setDacOffset, exec_get_bind, hset]
  rfl

theorem assigns_setDacScale (ch : Fin MAX_DACs) (scale : FloatBits) :
    Assigns [dacScaleSetting ch scale] (setDacScale (ε := ε) ch scale) := by
  intro m r m' h
  rw [exec_setDacScale ch.isLt] at h
  cases h
  exact ⟨⟨_, rfl⟩, rfl⟩

theorem assigns_setDacOffset (ch : Fin MAX_DACs) (offset : FloatBits) :
    Assigns [dacOffsetSetting ch offset] (setDacOffset (ε := ε) ch offset) := by
  intro m r m' h
  rw [exec_setDacOffset ch.isLt] at h
  cases h
  exact ⟨⟨_, rfl⟩, rfl⟩

theorem assigns_dacScale (k : Nat) (scale : FloatBits) :
    Assigns [] (io (writeDacScale env fuel k scale)) :=
  assigns_io (quiet_writeConfigString env fuel _ _)

theorem assigns_dacOffset (k : Nat) (offset : FloatBits) :
    Assigns [] (io (writeDacOffset env fuel k offset)) :=
  assigns_io (quiet_writeConfigString env fuel _ _)

/-- A loop that reads a float in each round and hands it to `body`. -/
theorem assigns_floats {buf : TBytes} {f : Fin MAX_DACs → FloatBits → Setting}
    {body : Nat → FloatBits → Prog Exn (Machine ε) PUnit}
    (hbody : ∀ (ch : Fin MAX_DACs) v, Assigns [f ch v] (body ch v))
    (hover : ∀ k v m, ¬k < MAX_DACs → (body k v).exec m = none) (n : Nat) :
    Assigns (floatSettings buf n f)
      ((List.range n).forM fun k => ofOption (readU32 buf (k * 4)) >>= body k) := by
  refine assigns_forM _ (fun k x hk => ?_) fun k m hk => ?_
  · obtain ⟨hlt, v, hread, rfl⟩ := floatSetting_some hk
    rw [hread]
    exact hbody ⟨k, hlt⟩ v
  · rcases floatSetting_none hk with hread | ⟨v, hread, hge⟩
    · rw [hread]
      rfl
    · rw [hread]
      exact hover k v m hge

theorem assigns_offsetAll (buf : TBytes) (n : Nat) : Assigns (floatSettings buf n dacOffsetSetting)
    ((List.range n).forM (DAC_OffsetAll.step env fuel buf)) := by
  refine assigns_floats (fun ch offset => ?_) (fun k offset m hge => ?_) n
  · exact assigns_bind (assigns_setDacOffset ch offset) fun _ =>
      assigns_bind (assigns_dacOffset ch offset) fun _ => assigns_pure _
  · rw [exec_bind, setDacOffset_undefined hge]
    rfl

theorem assigns_scaleAll (buf : TBytes) (n : Nat) : Assigns (floatSettings buf n dacScaleSetting)
    ((List.range n).forM (DAC_ScaleAll.step env fuel buf)) := by
  refine assigns_floats (fun ch scale => ?_) (fun k scale m hge => ?_) n
  · exact assigns_bind (assigns_setDacScale ch scale) fun _ =>
      assigns_bind (assigns_dacScale ch scale) fun _ => assigns_pure _
  · rw [exec_bind, setDacScale_undefined hge]
    rfl

theorem lambda_assigns {l : GoLambda} {buf : TBytes} (h : l.settings buf ≠ []) :
    Assigns (l.settings buf) (l.run env fuel buf) := by
  cases l with
  | BRD_REBOOT | REG_ClearBits | REG_ToggleBits | REG_SetBits => exact absurd rfl h
  | DAC_Calibrate1 =>
    unfold GoLambda.settings at h ⊢
    obtain ⟨ch, rest, hch, xs, rfl, hf, hxs⟩ := channelSettings_cases h
    obtain ⟨offset, hoffset, hf⟩ := Option.bind_eq_some_iff.mp hf
    obtain ⟨scale, hscale, hf⟩ := Option.bind_eq_some_iff.mp hf
    cases hf
    rw [hxs, GoLambda.run, calibrate_go hch hoffset hscale]
    exact assigns_bind (assigns_setDacScale ⟨ch.toNat, hch⟩ scale) fun _ =>
      assigns_bind (assigns_setDacOffset ⟨ch.toNat, hch⟩ offset) fun _ =>
        assigns_bind (assigns_dacScale _ scale) fun _ =>
          assigns_bind (assigns_dacOffset _ offset) fun _ => assigns_pure _
  | DAC_Offset1 =>
    unfold GoLambda.settings at h ⊢
    obtain ⟨ch, rest, hch, xs, rfl, hf, hxs⟩ := channelSettings_cases h
    obtain ⟨offset, hoffset, hf⟩ := Option.bind_eq_some_iff.mp hf
    cases hf
    rw [hxs, GoLambda.run, offset1_go hch hoffset]
    exact assigns_bind (assigns_setDacOffset ⟨ch.toNat, hch⟩ offset) fun _ =>
      assigns_bind (assigns_dacOffset _ offset) fun _ => assigns_pure _
  | DAC_Scale1 =>
    unfold GoLambda.settings at h ⊢
    obtain ⟨ch, rest, hch, xs, rfl, hf, hxs⟩ := channelSettings_cases h
    obtain ⟨scale, hscale, hf⟩ := Option.bind_eq_some_iff.mp hf
    cases hf
    rw [hxs, GoLambda.run, scale1_go hch hscale]
    exact assigns_bind (assigns_setDacScale ⟨ch.toNat, hch⟩ scale) fun _ =>
      assigns_bind (assigns_dacScale _ scale) fun _ => assigns_pure _
  | DAC_OffsetAll => exact assigns_offsetAll buf _
  | DAC_ScaleAll => exact assigns_scaleAll buf _

theorem channelWrites_eq {buf : TBytes} {g : Nat → Option (List (TBytes × TBytes))}
    {f : Fin MAX_DACs → Option (List Setting)}
    (h : ∀ ch : Fin MAX_DACs, g ch = (f ch).map (List.map Setting.write)) :
    channelWrites buf g = (channelSettings buf f).map Setting.write := by
  cases buf with
  | nil => rfl
  | cons ch rest =>
    unfold channelWrites channelSettings
    dsimp only
    by_cases hch : ch.toNat < MAX_DACs
    · rw [if_pos (show ch < 4 from hch), dif_pos hch, h ⟨ch.toNat, hch⟩]
      cases f ⟨ch.toNat, hch⟩ <;> rfl
    · rw [if_neg (show ¬ch < 4 from hch), dif_neg hch]
      rfl

theorem floatWrites_eq {buf : TBytes} {n : Nat} {g : Nat → FloatBits → TBytes × TBytes}
    {f : Fin MAX_DACs → FloatBits → Setting} (hn : n ≤ MAX_DACs)
    (h : ∀ (ch : Fin MAX_DACs) v, g ch v = (f ch v).write) :
    floatWrites buf n g = (floatSettings buf n f).map Setting.write := by
  rw [floatWrites, floatSettings, List.map_filterMap]
  refine List.filterMap_congr fun k hk => ?_
  have hk : k < MAX_DACs := Nat.lt_of_lt_of_le (List.mem_range.mp hk) hn
  rw [floatSetting, dif_pos hk, Option.map_map]
  exact congrArg (Option.map · (readU32 buf (k * 4))) (funext (h ⟨k, hk⟩))

/-- The keys that a lambda writes are those of its settings. -/
theorem configWrites_eq (l : GoLambda) {buf : TBytes} (hlen : buf.length ≤ 16) :
    l.configWrites buf = (l.settings buf).map Setting.write := by
  cases l with
  | BRD_REBOOT | REG_ClearBits | REG_ToggleBits | REG_SetBits => rfl
  | DAC_Calibrate1 =>
    unfold GoLambda.configWrites GoLambda.settings
    refine channelWrites_eq fun ch => ?_
    cases readU32 buf 1 <;> cases readU32 buf 5 <;> rfl
  | DAC_Offset1 | DAC_Scale1 =>
    unfold GoLambda.configWrites GoLambda.settings
    refine channelWrites_eq fun ch => ?_
    cases readU32 buf 1 <;> rfl
  | DAC_OffsetAll =>
    have hn : buf.length / 4 ≤ 16 / 4 := Nat.div_le_div_right hlen
    exact floatWrites_eq hn fun _ _ => rfl
  | DAC_ScaleAll => exact floatWrites_eq (Nat.min_le_right ..) fun _ _ => rfl

theorem channelSettings_nodup {buf : TBytes} {f : Fin MAX_DACs → Option (List Setting)}
    (h : ∀ ch, ∀ xs ∈ f ch, (xs.map Setting.field).Nodup) :
    ((channelSettings buf f).map Setting.field).Nodup := by
  by_cases hnil : channelSettings buf f = []
  · rw [hnil]
    exact List.nodup_nil
  · obtain ⟨ch, rest, hch, xs, -, hf, hxs⟩ := channelSettings_cases hnil
    rw [hxs]
    exact h ⟨ch.toNat, hch⟩ xs hf

theorem floatSettings_nodup {buf : TBytes} {n : Nat} {f : Fin MAX_DACs → FloatBits → Setting}
    (h : ∀ ch ch' v v', (f ch v).field = (f ch' v').field → ch = ch') :
    ((floatSettings buf n f).map Setting.field).Nodup := by
  rw [floatSettings, List.map_filterMap]
  refine List.nodup_range.filterMap fun k k' field hk hk' => ?_
  obtain ⟨x, hx, rfl⟩ := Option.map_eq_some_iff.mp hk
  obtain ⟨x', hx', hsame⟩ := Option.map_eq_some_iff.mp hk'
  obtain ⟨hlt, v, -, rfl⟩ := floatSetting_some hx
  obtain ⟨hlt', v', -, rfl⟩ := floatSetting_some hx'
  exact congrArg Fin.val (h _ _ v v' hsame.symm)

/-- A lambda sets no field twice. -/
theorem settings_nodup (l : GoLambda) (buf : TBytes) :
    ((l.settings buf).map Setting.field).Nodup := by
  cases l with
  | BRD_REBOOT | REG_ClearBits | REG_ToggleBits | REG_SetBits => exact List.nodup_nil
  | DAC_Calibrate1 =>
    unfold GoLambda.settings
    refine channelSettings_nodup fun ch xs hxs => ?_
    obtain ⟨offset, -, hxs⟩ := Option.bind_eq_some_iff.mp hxs
    obtain ⟨scale, -, hxs⟩ := Option.bind_eq_some_iff.mp hxs
    cases hxs
    refine List.nodup_cons.mpr ⟨fun h => ?_, List.nodup_singleton _⟩
    cases List.mem_singleton.mp h
  | DAC_Offset1 | DAC_Scale1 =>
    unfold GoLambda.settings
    refine channelSettings_nodup fun ch xs hxs => ?_
    obtain ⟨v, -, hxs⟩ := Option.bind_eq_some_iff.mp hxs
    cases hxs
    exact List.nodup_singleton _
  | DAC_OffsetAll =>
    exact floatSettings_nodup fun _ _ _ _ h => ConfigField.dacOffsetCoefficients.inj h
  | DAC_ScaleAll =>
    exact floatSettings_nodup fun _ _ _ _ h => ConfigField.dacScaleCoefficients.inj h

end DacLemmas

open DacLemmas

/-- A lambda gives its settings their values in `Config`, and tries to write them. -/
theorem lambda_run {env : Env ε} {fuel : Nat} {l : GoLambda} {buf : TBytes}
    (hlen : buf.length ≤ 16) (hne : l.settings buf ≠ []) {m m' : Machine ε} {r : Except Exn Unit}
    (hrun : (l.run env fuel buf).exec m = some (r, m')) :
    m'.Config = assign (l.settings buf) m.Config ∧
      ∃ rcs, (writeKeys env fuel ((l.settings buf).map Setting.write)).exec m.sys =
        some (.ok rcs, m'.sys) := by
  have hwrites := configWrites_eq l hlen
  have hne' : l.configWrites buf ≠ [] := by
    rw [hwrites]
    exact fun h => hne (List.map_eq_nil_iff.mp h)
  rw [← hwrites]
  exact ⟨(lambda_assigns hne m r m' hrun).2, (lambda_writes hne' m r m' hrun).2⟩

/-! ## 3. All or nothing -/

section AllOrNothing

variable {pf : Platform} {env : Env ε} {disk : Disk ε}

namespace DacLemmas

/-- Where memory takes all values, the results of the writes decide. -/
theorem allOrNothing_iff (hdisk : FaultyDisk env disk currentLayer) {xs : List Setting}
    (hnodup : (xs.map Setting.field).Nodup) {fuel : Nat} {m m' : Machine ε}
    (hconfig : m'.Config = assign xs m.Config) {rcs : List Int}
    (hrcs : (writeKeys env fuel (xs.map Setting.write)).exec m.sys = some (.ok rcs, m'.sys)) :
    AllOrNothing disk xs m m' ↔ WritesAgree env fuel disk xs m := by
  have hwritten := (writeKeys_files hdisk hnodup hrcs).1
  have hnew : (∀ x ∈ xs, x.InMemory m'.Config ∧ x.OnDisk currentLayer (disk.tree m'.sys.env)) ↔
      List.Forall₂ (fun x rc => x.Arrives (disk.tree m.sys.env) rc) xs rcs := by
    rw [← forall_mem_iff_forall₂ hwritten fun x rc => onDisk_iff, hconfig]
    exact forall₂_congr fun x hx => and_iff_right (get_assign_of_mem hnodup hx _)
  have hold : (∀ x ∈ xs, x.field.get m'.Config = x.field.get m.Config ∧
      disk.tree m'.sys.env (confPath currentLayer x.field) =
        disk.tree m.sys.env (confPath currentLayer x.field)) ↔
      (∀ x ∈ xs, x.InMemory m.Config) ∧
        List.Forall₂ (fun x rc => x.Stays (disk.tree m.sys.env) rc) xs rcs := by
    rw [← forall_mem_iff_forall₂ hwritten fun x rc => unchanged_iff, ← forall₂_and, hconfig]
    refine forall₂_congr fun x hx => and_congr_left fun _ => ?_
    rw [show x.field.get (assign xs m.Config) = x.value from get_assign_of_mem hnodup hx _]
    exact eq_comm
  rw [AllOrNothing, hnew, hold]
  constructor
  · exact fun h => ⟨rcs, m'.sys, hrcs, h⟩
  · rintro ⟨rcs', s', hrcs', h⟩
    cases hrcs.symm.trans hrcs'
    exact h

theorem allOrNothing_refl (xs : List Setting) (m : Machine ε) : AllOrNothing disk xs m m :=
  .inr fun _ _ => ⟨rfl, rfl⟩

theorem allOrNothing_nil (m m' : Machine ε) : AllOrNothing disk [] m m' :=
  .inl fun _ hx => absurd hx List.not_mem_nil

theorem range_or_lambda {id : DataItemIds} (h : id ∈ dacSettingIds) :
    id = DataItemIds.DAC_Range1 ∨ ((DIdDict.find id).bind TDIdDictEntry.go).isSome = true := by
  have hall : ∀ id ∈ dacSettingIds,
      id = DataItemIds.DAC_Range1 ∨ ((DIdDict.find id).bind TDIdDictEntry.go).isSome = true :=
    List.all_iff_forall_prop.mp (by decide +kernel)
  exact hall id h

theorem lambda_maxLen {id : DataItemIds} (h : id ∈ dacSettingIds) {e : TDIdDictEntry}
    (he : DIdDict.find id = some e) : e.maxLen ≤ 16 := by
  have hall : ∀ id ∈ dacSettingIds, ∀ e ∈ DIdDict.find id, e.maxLen ≤ 16 :=
    List.all_iff_forall_prop.mp (by decide +kernel)
  exact hall id h e he

/-- `Go` of a raw item is its lambda. -/
theorem lambda_go {id : DataItemIds} {this : TItemBody} {l : GoLambda}
    (hparams : this.params = .TDataItemRaw)
    (hlambda : (DIdDict.find id).bind TDIdDictEntry.go = some l) {m : Machine ε}
    {r : Except Exn Unit} {s' : TItemBody × Machine ε}
    (h : (Go pf env id).exec (this, m) = some (r, s')) :
    (l.run env pf.fuel this.Data).exec m = some (r, s'.2) := by
  obtain ⟨params, Data, rawBytes, resultCode, bWrite⟩ := this
  cases hparams
  rw [Go, exec_get_bind] at h
  dsimp only at h
  rw [TDataItemBase.Go, hlambda] at h
  dsimp only at h
  rw [exec_get_bind, onMachine, exec_zoom, Option.map_eq_some_iff] at h
  obtain ⟨⟨q, m'⟩, hrun, h⟩ := h
  cases h
  exact hrun

/-- The file of a range is written first. -/
theorem range1_go (hdisk : FaultyDisk env disk currentLayer) {fuel : Nat} {ch : UInt8}
    (hch : ch.toNat < MAX_DACs) {rangeCode : UInt32} {m m' : Machine ε}
    {r : Except Exn DAC_RangeParams}
    (h : (TDAC_Range1.Go env fuel { dacChannel := ch, dacRange := rangeCode } true).exec m =
      some (r, m')) :
    AllOrNothing disk [dacRangeSetting ⟨ch.toNat, hch⟩ rangeCode] m m' := by
  have hrun : (io (WriteConfigStringTo env fuel (dacRangeSetting ⟨ch.toNat, hch⟩ rangeCode).write.1
      (dacRangeSetting ⟨ch.toNat, hch⟩ rangeCode).write.2 currentLayer) >>= fun rc => do
    let m ← get
    if rc < 0 then
      let old ← Prog.ofOption m.Config.dacRanges[ch.toNat]?
      return { dacChannel := ch, dacRange := old }
    else
      let dacRanges ← Prog.ofOption (setDac m.Config.dacRanges ch.toNat rangeCode)
      set { m with Config := { m.Config with dacRanges } }
      return { dacChannel := ch, dacRange := rangeCode }).exec m = some (r, m') := h
  rw [exec_bind, Option.bind_eq_some_iff] at hrun
  obtain ⟨⟨q, m₁⟩, hio, hrun⟩ := hrun
  rw [io, exec_zoom, Option.map_eq_some_iff] at hio
  obtain ⟨⟨q', s⟩, hwrite, heq⟩ := hio
  cases heq
  cases q' with
  | error x => exact absurd (quiet_writeConfigString env fuel _ _ _ x s hwrite) not_false
  | ok rc =>
    obtain ⟨⟨hle, hfile⟩, -⟩ := writeConfigString_result hdisk hwrite
    rw [resume_ok, exec_get_bind] at hrun
    split at hrun
    case isTrue hneg =>
      obtain ⟨old, -, hrun⟩ := ofOption_bind_some hrun
      cases hrun
      rw [if_neg hneg.ne] at hfile
      exact .inr (List.forall_mem_singleton.mpr ⟨rfl, hfile⟩)
    case isFalse hpos =>
      obtain ⟨dacRanges, hset, hrun⟩ := ofOption_bind_some hrun
      cases hrun
      rw [if_pos (le_antisymm hle (Int.not_lt.mp hpos))] at hfile
      have hset' : setDac m.Config.dacRanges ch.toNat rangeCode =
          some (m.Config.dacRanges.set ch.toNat rangeCode hch) := dif_pos hch
      cases hset.symm.trans hset'
      refine .inl (List.forall_mem_singleton.mpr ⟨?_, hfile⟩)
      exact ConfigField.get_set_self (.dacRanges ⟨ch.toNat, hch⟩) rangeCode

theorem range1_item_go {id : DataItemIds} {p : DAC_RangeParams} {rawBytes : TBytes} {bWrite : Bool}
    {m : Machine ε} {r : Except Exn Unit} {s' : TItemBody × Machine ε}
    (h : (Go pf env id).exec ({ params := .TDAC_Range1 p, rawBytes, bWrite }, m) = some (r, s')) :
    ∃ q, (TDAC_Range1.Go env pf.fuel p bWrite).exec m = some (q, s'.2) := by
  rw [Go, exec_get_bind] at h
  dsimp only at h
  rw [exec_bind, onMachine, exec_zoom, Option.bind_eq_some_iff] at h
  obtain ⟨⟨q, s₁⟩, hmap, h⟩ := h
  obtain ⟨⟨q', m'⟩, hrun, heq⟩ := Option.map_eq_some_iff.mp hmap
  cases heq
  refine ⟨q', ?_⟩
  cases q' <;> cases h <;> exact hrun

/-- The item that is built has the range code of its data, or writes nothing. -/
theorem range1_cases {σ : Type} {ch : UInt8} {rest : TBytes} {s s' : σ}
    {p : DAC_RangeParams × Bool} (h : (TDAC_Range1.ctor (ch :: rest)).exec s = some (.ok p, s')) :
    ch.toNat < MAX_DACs ∧ (p.2 = false ∨
      ∃ rangeCode, readU32 (ch :: rest) 1 = some rangeCode ∧
        p = ({ dacChannel := ch, dacRange := rangeCode }, true)) := by
  rw [TDAC_Range1.ctor] at h
  obtain ⟨hch, h⟩ := GuardLemmas.guard_bind_ok h
  refine ⟨of_decide_eq_true hch, ?_⟩
  split at h
  · obtain ⟨rangeCode, hread, h⟩ := ofOption_bind_some h
    split at h
    · cases h
      exact .inr ⟨rangeCode, hread, rfl⟩
    · cases h
      exact .inl rfl
  · cases h
    exact .inl rfl

end DacLemmas

/-- An item that is built sets DAC settings all or nothing when it is `DAC_Range1`, or when the
results of its writes leave memory and disk with all or nothing. -/
theorem all_or_nothing_iff (hdisk : FaultyDisk env disk currentLayer) {w : WireItem}
    {g g' : Globals} {item : TDataItem} (hid : w.DId ∈ dacSettingIds)
    (hbuilds : w.Builds pf g item g') {m : Machine ε} {r : Except Exn Unit}
    {s' : TItemBody × Machine ε}
    (hrun : (Go pf env item.DId).exec (item.toTItemBody, m) = some (r, s')) :
    AllOrNothing disk (dacSettings w.DId w.data) m s'.2 ↔
      w.DId = DataItemIds.DAC_Range1 ∨
        WritesAgree env pf.fuel disk (dacSettings w.DId w.data) m := by
  obtain ⟨⟨e, hfind, hadmits, hctor⟩, hitem⟩ := hbuilds
  rcases range_or_lambda hid with hrange | hlambda
  · refine iff_of_true ?_ (.inl hrange)
    rw [hrange] at hfind
    cases hfind
    obtain ⟨⟨p, bWrite⟩, g₁, hp, hctor⟩ := bind_exec_ok hctor
    have hbody : item.toTItemBody =
        { params := .TDAC_Range1 p, rawBytes := w.data, bWrite := bWrite } :=
      (Except.ok.inj (congrArg Prod.fst (Option.some.inj hctor))).symm
    rw [hbody] at hrun
    obtain ⟨q, hgo⟩ := range1_item_go hrun
    rw [hrange, dacSettings, if_pos rfl]
    cases hdata : w.data with
    | nil => exact allOrNothing_nil m s'.2
    | cons ch rest =>
      rw [hdata] at hp
      obtain ⟨hch, hfalse | ⟨rangeCode, hread, hcode⟩⟩ := range1_cases hp
      · cases hfalse
        cases hgo
        exact allOrNothing_refl _ _
      · cases hcode
        rw [channelSettings, dif_pos hch, hread]
        exact range1_go hdisk hch hgo
  · obtain ⟨l, hl⟩ := Option.isSome_iff_exists.mp hlambda
    have hne : w.DId ≠ DataItemIds.DAC_Range1 := by
      rintro heq
      rw [heq] at hl
      cases hl
    have hgo : e.go = some l := by rwa [hfind, Option.bind_some] at hl
    have hraw := lambda_raw (find_some hfind).1 (Option.isSome_of_eq_some hgo)
    rw [hraw] at hctor
    have hbody : item.toTItemBody =
        { params := .TDataItemRaw, Data := w.data, rawBytes := w.data } :=
      (Except.ok.inj (congrArg Prod.fst (Option.some.inj hctor))).symm
    have hsettings : dacSettings w.DId w.data = l.settings w.data := by
      rw [dacSettings, if_neg hne, hl]
      rfl
    have hlen : w.data.length ≤ 16 := by
      rcases hadmits with hnil | ⟨-, hle⟩
      · rw [hnil]
        decide
      · exact hle.trans (lambda_maxLen hid hfind)
    rw [hsettings, or_iff_right hne]
    by_cases hnil : l.settings w.data = []
    · rw [hnil]
      exact iff_of_true (allOrNothing_nil m s'.2) ⟨[], m.sys, rfl, .inl .nil⟩
    · rw [hitem, hbody] at hrun
      obtain ⟨hconfig, rcs, hrcs⟩ := lambda_run hlen hnil (lambda_go rfl hl hrun)
      exact allOrNothing_iff hdisk (settings_nodup l w.data) hconfig hrcs

end AllOrNothing

/-- `DAC_Scale1` for the first channel, with 2.0. -/
def exDacScale : WireItem := ⟨DataItemIds.DAC_Scale1, [0, 0, 0, 0, 0x40], by decide⟩

def exDacScaleItem : TDataItem where
  DId := DataItemIds.DAC_Scale1
  params := .TDataItemRaw
  Data := [0, 0, 0, 0, 0x40]
  rawBytes := [0, 0, 0, 0, 0x40]

/-- A machine with a disk that is blank. -/
def exDiskMachine : Machine ExFiles := { Config := InitConfig, sys := exBlank }

theorem exDisk_faulty : FaultyDisk exDiskEnv exDisk currentLayer where
  toDiskWorks := exDisk_works
  open_fails f f' e e' fd h hfd := by
    simp only [exDiskEnv, if_neg (RestoreLemmas.tmpPath_not_mem_exDirs f)] at h
    cases h
    cases hfd
  write_fails fd bytes path path' e e' n h hn := by
    cases h
    exact absurd hn (by simp)
  fsync_fails fd e e' rc h := by
    cases h
    exact Int.le_refl 0
  rename_fails src dst e e' rc h hrc := by
    cases h
    exact absurd rfl hrc

/-- Every write succeeds. -/
theorem scale_everywhere :
    ∃ s', (Go exPlatform exDiskEnv exDacScaleItem.DId).exec
        (exDacScaleItem.toTItemBody, exDiskMachine) = some (.ok (), s') ∧
      AllOrNothing exDisk (dacSettings exDacScale.DId exDacScale.data) exDiskMachine s'.2 := by
  have hbuilds : exDacScale.Builds exPlatform exGlobals exDacScaleItem exGlobals :=
    ⟨⟨_, rfl, .inr ⟨by decide, by decide⟩, rfl⟩, rfl⟩
  have hagree : WritesAgree exDiskEnv exPlatform.fuel exDisk
      (dacSettings exDacScale.DId exDacScale.data) exDiskMachine :=
    ⟨[0], _, rfl, .inl (.cons (.inl rfl) .nil)⟩
  refine ⟨_, rfl, (all_or_nothing_iff exDisk_faulty ?_ hbuilds rfl).mpr (.inr hagree)⟩
  exact List.mem_of_elem_eq_true rfl

/-- A disk without a free block. -/
def exFullEnv : Env ExFiles where
  answer c e :=
    match c with
    | .open_ _ => ((-28 : Int), e)
    | c => exDiskEnv.answer c e

theorem exFull_faulty : FaultyDisk exFullEnv exDisk currentLayer where
  creates f e e' fd h hfd := by
    cases h
    exact absurd hfd (by decide)
  appends := exDisk_works.appends
  renames := exDisk_works.renames
  opens _ _ _ := rfl
  creates_directories := exDisk_works.creates_directories
  fsyncs := exDisk_works.fsyncs
  closes := exDisk_works.closes
  looks := exDisk_works.looks
  open_fails f f' e e' fd h _ := by
    cases h
    rfl
  write_fails := exDisk_faulty.write_fails
  fsync_fails := exDisk_faulty.fsync_fails
  rename_fails := exDisk_faulty.rename_fails

/-- The scale is set in `Config`, and there is no file for it. -/
theorem scale_only_in_memory :
    FaultyDisk exFullEnv exDisk currentLayer ∧
      exDacScale.Builds exPlatform exGlobals exDacScaleItem exGlobals ∧
        ∃ s', (Go exPlatform exFullEnv exDacScaleItem.DId).exec
            (exDacScaleItem.toTItemBody, exDiskMachine) = some (.ok (), s') ∧
          ¬AllOrNothing exDisk (dacSettings exDacScale.DId exDacScale.data) exDiskMachine s'.2 := by
  refine ⟨exFull_faulty, ⟨⟨_, rfl, .inr ⟨by decide, by decide⟩, rfl⟩, rfl⟩, _, rfl, ?_⟩
  have hmem : dacScaleSetting 0 0x40000000 ∈ dacSettings exDacScale.DId exDacScale.data :=
    List.mem_singleton.mpr rfl
  rintro (hnew | hold)
  · obtain ⟨-, hdisk⟩ := hnew _ hmem
    cases hdisk
  · obtain ⟨hmemory, -⟩ := hold _ hmem
    cases hmemory

end EnetTcp
