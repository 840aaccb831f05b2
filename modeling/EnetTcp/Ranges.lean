import EnetTcp.Crashes
import EnetTcp.Persisting
import EnetTcp.Restoring

/-!
# DAC ranges that have an index

`DACVoltsToCounts` takes the row of a table that `DacRangeIndexFromCode` gives for the range code
of the channel. The codes come from `DAC_Range1`, which has a list of its own of those it takes,
and from the files of the configuration, to which they are written as digits.

* `isDacRangeCode_iff`: the codes that the item takes are the codes that have an index.
* `RangeFiles`, `RangesFine.change`: what the files of the ranges hold, and go on to hold in every
  change that a `Go` makes.
* `LoadConfig_ranges`: what is loaded from such files.
* `ranges_valid`: through messages, saving and restarts every channel keeps a code with an index.
-/

namespace EnetTcp

open Prog CallLemmas SaveLemmas AtomicLemmas FailureLemmas

variable {ε : Type} {pf : Platform} {env : Env ε} {disk : Disk ε} {fuel : Nat}

/-! ## 1. Codes and files -/

/-- The item takes the codes that have an index, and no others. -/
theorem isDacRangeCode_iff (code : UInt32) :
    isDacRangeCode code = true ↔ (DacRangeIndexFromCode code).isSome = true := by
  have hsmall : code < 4 ↔ code = 0 ∨ code = 1 ∨ code = 2 ∨ code = 3 := by
    rw [UInt32.lt_iff_toNat_lt, ← UInt32.toNat_inj, ← UInt32.toNat_inj, ← UInt32.toNat_inj,
      ← UInt32.toNat_inj]
    simp
    omega
  have hindex : (DacRangeIndexFromCode code).isSome = true ↔
      (code = 0x35303055 ∨ code = 0) ∨ (code = 0x3530E142 ∨ code = 1) ∨
        (code = 0x30313055 ∨ code = 2) ∨ code = 0x3031E142 ∨ code = 3 := by
    unfold DacRangeIndexFromCode
    split_ifs with h0 h1 h2 h3
    · exact iff_of_true rfl (.inl h0)
    · exact iff_of_true rfl (.inr (.inl h1))
    · exact iff_of_true rfl (.inr (.inr (.inl h2)))
    · exact iff_of_true rfl (.inr (.inr (.inr h3)))
    · simp only [h0, h1, h2, h3, or_self, iff_false]
      exact Bool.false_ne_true
  rw [hindex, isDacRangeCode]
  simp only [Bool.or_eq_true, decide_eq_true_eq, beq_iff_eq, hsmall]
  exact iff_of_eq (by ac_rfl)

/-- The layers that the loader looks into at a start. -/
def rangeLayers : List TBytes := [text CONFIG_CURRENT, text CONFIG_FACTORY]

/-- The file of the range of a channel. -/
def rangePath (which : TBytes) (ch : Fin MAX_DACs) : TBytes := confPath which (.dacRanges ch)

/-- Text in the file is a code with an index. -/
def RangeFile (file : ConfFile) : Prop :=
  ∀ bytes, file = .content bytes → ∃ code : UInt32,
    (DacRangeIndexFromCode code).isSome = true ∧ bytes = to_hex 4 code.toNat

def RangeFiles (disk : Disk ε) (e : ε) : Prop :=
  ∀ which ∈ rangeLayers, ∀ ch, RangeFile (disk.tree e (rangePath which ch))

/-- An item that sets a range has a channel and a code with an index. -/
def TItemBody.SetsIndexed (this : TItemBody) : Prop :=
  ∀ p, this.params = .TDAC_Range1 p → this.bWrite = true →
    p.dacChannel.toNat < MAX_DACs ∧ (DacRangeIndexFromCode p.dacRange).isSome = true

/-- A disk whose range files are changed by nothing but `WriteConfigString`: what is put under
their names comes there by a rename. -/
structure RangeDisk (env : Env ε) (disk : Disk ε) : Prop where
  paths : ∀ ch, ∀ which ∈ rangeLayers, ∀ ch',
    FaultyPath env disk (rangePath currentLayer ch) (rangePath which ch')
  others : ∀ (c : SysCall) (e : ε), ∀ which ∈ rangeLayers, ∀ ch,
    (∀ src, c ≠ .rename src (rangePath which ch)) →
    disk.tree (env.answer c e).2 (rangePath which ch) = disk.tree e (rangePath which ch) ∨
      disk.tree (env.answer c e).2 (rangePath which ch) = .absent

/-! ## 2. Programs that keep the files -/

/-- The range files are as they should be, if they have been. -/
def KeepsRanges (disk : Disk ε) (s s' : Sys ε) : Prop :=
  RangeFiles disk s.env → RangeFiles disk s'.env

instance : Std.Refl (KeepsRanges disk) := ⟨fun _ h => h⟩

instance : IsTrans (Sys ε) (KeepsRanges disk) := ⟨fun _ _ _ h h' hs => h' (h hs)⟩

namespace RangeLemmas

theorem rangeFile_absent : RangeFile .absent := fun _ h => by cases h

/-! ### Paths -/

theorem rangePath_layer {which : TBytes} (h : which ∈ rangeLayers) (ch : Fin MAX_DACs) :
    (rangePath which ch).take 26 = text CONFIG_PATH ++ which.take 8 := by
  revert which ch
  decide +kernel

theorem writePath_layer (key : TBytes) :
    (FilePathFor currentLayer key).take 26 = text CONFIG_PATH ++ currentLayer.take 8 := by
  have hlen : (text CONFIG_PATH ++ currentLayer).length = 33 := by decide
  rw [FilePathFor, List.append_assoc, List.take_append_of_le_length (by omega)]
  rfl

/-- What is written under another key goes to another file. -/
theorem writePath_ne {key : TBytes} (hkey : OtherKey key) {which : TBytes}
    (hwhich : which ∈ rangeLayers) (ch : Fin MAX_DACs) :
    FilePathFor currentLayer key ≠ rangePath which ch := by
  intro h
  have hlayer := congrArg (List.take 26) h
  rw [writePath_layer, rangePath_layer hwhich] at hlayer
  obtain rfl | rfl : which = text CONFIG_CURRENT ∨ which = text CONFIG_FACTORY := by
    simpa [rangeLayers] using hwhich
  · unfold rangePath confPath FilePathFor at h
    have hsame := List.append_cancel_left (List.append_cancel_right h)
    refine hkey ?_
    rw [hsame]
    rfl
  · exact absurd hlayer (by decide)

theorem rangePath_ne_tmp (which : TBytes) (ch ch' : Fin MAX_DACs) :
    rangePath which ch' ≠ rangePath currentLayer ch ++ text ".tmp" := by
  have hconf : (rangePath which ch').getLast? = some 102 := by
    rw [rangePath, confPath, FilePathFor, List.getLast?_append]
    rfl
  have htmp : (rangePath currentLayer ch ++ text ".tmp").getLast? = some 112 := by
    rw [List.getLast?_append]
    rfl
  intro h
  rw [h, htmp] at hconf
  cases hconf

/-! ### Files -/

variable (hdisk : RangeDisk env disk)
include hdisk

theorem keeps_call {c : SysCall}
    (h : ∀ which ∈ rangeLayers, ∀ ch src, c ≠ .rename src (rangePath which ch)) :
    Moves (KeepsRanges disk) (syscall env c) := by
  intro s r s' hrun hs which hwhich ch
  cases hrun
  rcases hdisk.others c s.env which hwhich ch (h which hwhich ch) with hsame | habsent
  · show RangeFile (disk.tree (env.answer c s.env).2 (rangePath which ch))
    rw [hsame]
    exact hs which hwhich ch
  · show RangeFile (disk.tree (env.answer c s.env).2 (rangePath which ch))
    rw [habsent]
    exact rangeFile_absent

theorem keeps_noRename (c : SysCall) (h : c.isRename = false) :
    Moves (KeepsRanges disk) (syscall env c) := by
  refine keeps_call hdisk fun which _ ch src heq => ?_
  rw [heq] at h
  cases h

theorem keeps_file (c : SysCall) (h : c.isRename = false) (_ : c.isRegisterWrite = false) :
    Moves (KeepsRanges disk) (syscall env c) :=
  keeps_noRename hdisk c h

theorem keeps_writeOther {key : TBytes} (hkey : OtherKey key) (value : TBytes) :
    Moves (KeepsRanges disk) (WriteConfigString env fuel key value) := by
  refine moves_bind (made_mkdirP closed_moves (keeps_file hdisk) _) fun _ => ?_
  refine made_atomicWrite closed_moves (keeps_file hdisk) ?_ fuel value
  refine keeps_call hdisk fun which hwhich ch src heq => ?_
  exact writePath_ne hkey hwhich ch (SysCall.rename.inj heq).2

/-- A file of a range gets a code with an index, or stays as it is. -/
theorem keeps_writeRange (ch : Fin MAX_DACs) {code : UInt32}
    (hcode : (DacRangeIndexFromCode code).isSome = true) :
    Moves (KeepsRanges disk)
      (WriteConfigU32 env fuel (text "DAC_RangeCh" ++ toDecimal ch) code) := by
  refine moves_bind (made_mkdirP closed_moves (keeps_file hdisk) _) fun _ => ?_
  -- the temporary file is no range file, so only the rename matters
  intro s r s' hrun hs which hwhich ch'
  have hrun : (AtomicWriteTextFile env fuel (rangePath currentLayer ch)
      (to_hex 4 code.toNat)).exec s = some (r, s') := hrun
  cases r with
  | error x =>
    have hquiet := made_atomicWrite quiet_closed (quiet_call env)
      (quiet_syscall env (.rename (rangePath currentLayer ch ++ text ".tmp")
        (rangePath currentLayer ch))) fuel (to_hex 4 code.toNat)
    exact absurd (hquiet s x s' hrun) not_false
  | ok rc =>
    have hpath := hdisk.paths ch which hwhich ch'
    have hne := rangePath_ne_tmp which ch ch'
    by_cases hrc : rc = 0
    · subst hrc
      rw [atomicWrite_tree hpath.toPathWorks hrun]
      by_cases hsame : rangePath which ch' = rangePath currentLayer ch
      · rw [hsame, Function.update_self]
        rintro bytes ⟨⟩
        exact ⟨code, hcode, rfl⟩
      · rw [Function.update_of_ne hsame, Function.update_of_ne hne]
        exact hs which hwhich ch'
    · rw [(atomicWrite_fails hpath hne hrun hrc).2]
      exact hs which hwhich ch'

/-- Saving writes the ranges of `Config`, and the other fields elsewhere. -/
theorem keeps_saveConfig {c : TConfig} (hc : DacRangesValid c) :
    Moves (KeepsRanges disk) (SaveConfig env fuel c currentLayer) := by
  rw [SaveConfig_eq]
  refine moves_bind (closed_moves.mapM fun f _ => ?_) fun _ => moves_pure _
  by_cases hf : ∃ ch, f = .dacRanges ch
  · obtain ⟨ch, rfl⟩ := hf
    exact keeps_writeRange hdisk ch (hc ch)
  · have hkeys : ∀ f ∈ savedFields, (∀ ch, f ≠ .dacRanges ch) → OtherKey f.key := by
      decide +kernel
    exact keeps_writeOther hdisk (hkeys f (mem_savedFields f) fun ch h => hf ⟨ch, h⟩) _

/-- What an item does to the world outside: `DAC_Range1` needs `hset`, the others rename no range
file. -/
theorem keeps_sysChange {id : DataItemIds} {this : TItemBody} (hset : this.SetsIndexed)
    {s s' : Sys ε} (h : SysChange pf env id this s s') : KeepsRanges disk s s' := by
  cases h with
  | call hrename _ hrun => exact keeps_noRename hdisk _ hrename _ _ _ hrun
  | out _ hrun =>
    exact made_out closed_moves (fun _ => keeps_noRename hdisk _ rfl)
      (fun _ => keeps_noRename hdisk _ rfl) _ _ _ _ hrun
  | store hstores hrun =>
    rcases hstores with hkey | ⟨p, hparams, hwrite, rfl, rfl⟩
    · exact keeps_writeOther hdisk hkey _ _ _ _ hrun
    · obtain ⟨hch, hcode⟩ := hset p hparams hwrite
      exact keeps_writeRange hdisk ⟨p.dacChannel.toNat, hch⟩ hcode _ _ _ hrun
  | etc hpath hrun =>
    have hetc : ∀ path ∈ [text "/etc/hostname", text "/etc/hosts"], ∀ which ∈ rangeLayers, ∀ ch,
        path ≠ rangePath which ch := by
      decide +kernel
    refine keeps_call hdisk (fun which hwhich ch src heq => ?_) _ _ _ hrun
    refine hetc _ ?_ which hwhich ch (SysCall.rename.inj heq).2
    simpa using hpath

end RangeLemmas

open RangeLemmas

/-! ## 3. Items and messages -/

/-- No change of a `Go` leaves a channel with a code without an index. -/
theorem ConfigChange.rangesValid {id : DataItemIds} {this : TItemBody} {c c' : TConfig}
    (h : ConfigChange id this c c') (hset : this.SetsIndexed) (hc : DacRangesValid c) :
    DacRangesValid c' := by
  cases h
  case dacRange ch p hparams hwrite _ =>
    intro ch'
    show (DacRangeIndexFromCode (c.dacRanges.set ch p.dacRange ch.isLt)[ch']).isSome = true
    by_cases hsame : ch' = ch
    · rw [hsame, FieldLemmas.set_self]
      exact (hset p hparams hwrite).2
    · rw [FieldLemmas.set_of_ne _ hsame]
      exact hc ch'
  all_goals exact hc

namespace RangeLemmas

/-- One class makes items that set a range. -/
theorem construct_range1 {cls : ItemClass} {data : TBytes} {g g' : Globals} {body : TItemBody}
    (h : (construct pf cls data).exec g = some (.ok body, g')) : body.SetsIndexed := by
  intro p hparams hwrite
  cases cls
  case TDAC_Range1 =>
    obtain ⟨⟨q, write⟩, _, hctor, h⟩ := bind_exec_ok h
    cases h
    cases hparams
    cases hwrite
    cases data with
    | nil => cases hctor
    | cons ch rest =>
      rw [TDAC_Range1.ctor] at hctor
      obtain ⟨hch, hctor⟩ := GuardLemmas.guard_bind_ok hctor
      split at hctor
      case isTrue =>
        obtain ⟨rangeCode, -, hctor⟩ := ofOption_bind_some hctor
        split at hctor
        case isTrue hcode =>
          cases hctor
          exact ⟨of_decide_eq_true hch, (isDacRangeCode_iff _).mp hcode⟩
        case isFalse => cases hctor
      case isFalse => cases hctor
  case TREG_Write1 | TBRD_GetNumberOfAdcChannels | TADC_BaseClock | TSYS_UploadFileName
      | TDAC_Output | TDAC_OutputV | TADC_StreamStart =>
    obtain ⟨_, _, -, h⟩ := bind_exec_ok h
    cases h
    cases hparams
  all_goals
    cases h
    cases hparams

theorem built_range1 {ws : List WireItem} {g g' : Globals} {items : List TDataItem}
    (h : Built pf g ws items g') : ∀ item ∈ items, item.SetsIndexed := by
  induction h with
  | nil => exact fun item hitem => absurd hitem List.not_mem_nil
  | cons hw _ ih =>
    obtain ⟨⟨e, -, -, hrun⟩, -⟩ := hw
    exact List.forall_mem_cons.mpr ⟨construct_range1 hrun, ih⟩

end RangeLemmas

/-- Every range code has an index, in memory and in the files. -/
structure RangesFine (disk : Disk ε) (m : Machine ε) : Prop where
  config : DacRangesValid m.Config
  files : RangeFiles disk m.sys.env

/-- A change of an item keeps it so. -/
theorem RangesFine.change (hdisk : RangeDisk env disk) {id : DataItemIds} {this : TItemBody}
    (hset : this.SetsIndexed) {m m' : Machine ε} (h : Change pf env id this m m')
    (hm : RangesFine disk m) : RangesFine disk m' where
  config := h.config_invariant (fun _ _ hchange hc => hchange.rangesValid hset hc) hm.config
  files := by
    cases h with
    | sys hsys => exact keeps_sysChange hdisk hset hsys hm.files
    | upload | done | AdcStreamTerminate | AdcWorkerThreadID | Config => exact hm.files

/-- Items that are built keep it so. -/
theorem goItems_ranges (hdisk : RangeDisk env disk) {items : List TDataItem}
    (hset : ∀ item ∈ items, item.SetsIndexed) {m m' : Machine ε} {qs : List GoResult}
    (h : goItems pf env items m = some (qs, m')) (hm : RangesFine disk m) : RangesFine disk m' := by
  let R (m m' : Machine ε) : Prop := RangesFine disk m → RangesFine disk m'
  have : Std.Refl R := ⟨fun _ hm => hm⟩
  have : IsTrans (Machine ε) R := ⟨fun _ _ _ h h' hm => h' (h hm)⟩
  have hall : R m m' := goItems_closed h fun item hitem _ _ hchange =>
    RangesFine.change hdisk (hset item hitem) hchange
  exact hall hm

/-! ## 4. Loading -/

section Loading

/-- The codes of `Config` have indices, if they have had them. -/
def KeepsCodes (c c' : TConfig) : Prop := DacRangesValid c → DacRangesValid c'

instance : Std.Refl KeepsCodes := ⟨fun _ h => h⟩

instance : IsTrans TConfig KeepsCodes := ⟨fun _ _ _ h h' hc => h' (h hc)⟩

variable {tree : ConfigTree}

namespace RangeLemmas

variable (hfiles : ∀ which ∈ rangeLayers, ∀ ch, RangeFile (tree (rangePath which ch)))
include hfiles

/-- What the loader finds for a range is a code with an index, or nothing. -/
theorem range_effect (ch : Fin MAX_DACs) :
    fieldEffect tree currentLayer (.dacRanges ch) = .ok none ∨ ∃ code : UInt32,
      (DacRangeIndexFromCode code).isSome = true ∧
        fieldEffect tree currentLayer (.dacRanges ch) = .ok (some code) := by
  have hfound : RangeFile (foundFile tree currentLayer (ConfigField.dacRanges ch).key) := by
    have hcurrent := hfiles currentLayer List.mem_cons_self ch
    unfold foundFile
    split
    · exact hcurrent
    · split
      · exact hcurrent
      · exact hfiles _ (List.mem_cons_of_mem _ List.mem_cons_self) ch
  cases hfile : foundFile tree currentLayer (ConfigField.dacRanges ch).key with
  | content bytes =>
    obtain ⟨code, hcode, rfl⟩ := hfound bytes hfile
    exact .inr ⟨code, hcode, RestoreLemmas.keyEffect_found (t := .u32) (v := code) hfile⟩
  | absent | unopenable | unreadable =>
    exact .inl (RestoreLemmas.keyEffect_noText (by rw [hfile]; rfl))

theorem load_field (f : ConfigField) : Moves KeepsCodes (loadField tree currentLayer f) := by
  intro c r c' h hc
  rw [loadField_exec] at h
  by_cases hf : ∃ ch, f = .dacRanges ch
  · obtain ⟨ch, rfl⟩ := hf
    rcases range_effect hfiles ch with heffect | ⟨code, hcode, heffect⟩
    · rw [heffect] at h
      cases h
      exact hc
    · rw [heffect] at h
      cases h
      intro ch'
      show (DacRangeIndexFromCode (c.dacRanges.set ch code ch.isLt)[ch']).isSome = true
      by_cases hsame : ch' = ch
      · rw [hsame, FieldLemmas.set_self]
        exact hcode
      · rw [FieldLemmas.set_of_ne _ hsame]
        exact hc ch'
  · cases heffect : fieldEffect tree currentLayer f with
    | error e =>
      rw [heffect] at h
      cases h
      exact hc
    | ok v =>
      rw [heffect] at h
      cases v with
      | none =>
        cases h
        exact hc
      | some v =>
        cases h
        intro ch
        have hother : (ConfigField.dacRanges ch).get (f.set c v) = c.dacRanges.get ch :=
          ConfigField.get_set_of_ne (fun heq => hf ⟨ch, heq.symm⟩) v
        have hget : (f.set c v).dacRanges.get ch = c.dacRanges.get ch := hother
        rw [hget]
        exact hc ch

end RangeLemmas

/-- Loading leaves codes with an index only, also when it throws. -/
theorem LoadConfig_ranges (hfiles : ∀ which ∈ rangeLayers, ∀ ch,
    RangeFile (tree (rangePath which ch))) : Moves KeepsCodes (LoadConfig tree currentLayer) := by
  intro c r c' h hc
  have hfields : Moves KeepsCodes (loadFields tree currentLayer loadedFields) :=
    moves_forM _ fun f _ => load_field hfiles f
  obtain ⟨Hostname, hhost⟩ := LoadHostname_exec tree c
  rw [LoadConfig_eq, exec_bind_ok hhost] at h
  exact hfields _ _ _ h hc

end Loading

/-! ## 5. Messages and restarts -/

/-- What the daemon does that has to do with `Config`: it runs the first items of a message, saves
`Config`, or starts. A restart is a `SaveConfig` and a start. -/
inductive RestartStep
  | message (buf : TBytes) (g : Globals) (n : Nat)
  | SaveConfig
  | start

/-- The message is parsed from the globals of any moment. At a start `Config` is what
`InitConfig` and `LoadConfig` make it. -/
def restartSystem (pf : Platform) (env : Env ε) (disk : Disk ε) :
    StepSystem (Machine ε) RestartStep where
  next a m :=
    match a with
    | .message buf g n =>
      match (FromBytes pf buf).exec g with
      | some (.ok (message, code), _) =>
        if code ≠ ERR_SUCCESS then none
        else if isRequest message.Id then
          (goItems pf env (message.DataItems.take n) m).map Prod.snd
        else some m
      | _ => none
    | .SaveConfig =>
      ((SaveConfig env pf.fuel m.Config currentLayer).exec m.sys).map fun r =>
        { m with sys := r.2 }
    | .start =>
      ((LoadConfig (disk.tree m.sys.env) currentLayer).exec InitConfig).map fun r =>
        { Config := r.2, sys := m.sys }

theorem init_rangesValid : DacRangesValid InitConfig := by
  unfold DacRangesValid
  decide

/-- Each step keeps the codes and the files. -/
theorem step_ranges (hdisk : RangeDisk env disk) {a : RestartStep} {m m' : Machine ε}
    (h : (restartSystem pf env disk).next a m = some m') (hm : RangesFine disk m) :
    RangesFine disk m' := by
  cases a with
  | message buf g n =>
    simp only [restartSystem] at h
    split at h
    · rename_i message code g' hparse
      split at h
      · cases h
      · rename_i hcode
        rw [Decidable.not_not.mp hcode] at hparse
        split at h
        · obtain ⟨⟨qs, m₁⟩, hrun, rfl⟩ := Option.map_eq_some_iff.mp h
          obtain ⟨ws, items, _, hloose, rfl⟩ := FromBytes_succeeds_iff.mp hparse
          exact goItems_ranges hdisk (fun item hitem =>
            built_range1 hloose.built item (List.mem_of_mem_take hitem)) hrun hm
        · cases h
          exact hm
    · cases h
  | SaveConfig =>
    obtain ⟨⟨r, s⟩, hrun, rfl⟩ := Option.map_eq_some_iff.mp h
    exact ⟨hm.config, keeps_saveConfig hdisk hm.config _ _ _ hrun hm.files⟩
  | start =>
    obtain ⟨⟨r, c⟩, hrun, rfl⟩ := Option.map_eq_some_iff.mp h
    exact ⟨LoadConfig_ranges hm.files _ _ _ hrun init_rangesValid, hm.files⟩

/-- In every state that messages and restarts lead to, each channel has a code with an index, and
volts are scaled with a row of the table. -/
theorem ranges_valid (hdisk : RangeDisk env disk) {m₀ m : Machine ε}
    (hstart : m₀.Config = InitConfig) (hfiles : RangeFiles disk m₀.sys.env)
    (h : (restartSystem pf env disk).Reachable m₀ m) :
    DacRangesValid m.Config ∧ ∀ ch volts, DACVoltsToCounts pf m.Config ch volts ≠ none := by
  have hfine : RangesFine disk m := h.invariant (I := RangesFine disk)
    ⟨hstart ▸ init_rangesValid, hfiles⟩ fun _ _ _ hm _ hnext => step_ranges hdisk hnext hm
  refine ⟨hfine.config, fun ch volts hnone => ?_⟩
  have hindex : (DacRangeIndexFromCode m.Config.dacRanges[ch]).isSome = true := hfine.config ch
  rw [DACVoltsToCounts, Option.map_eq_none_iff] at hnone
  rw [hnone] at hindex
  cases hindex

/-! ## 6. A restart -/

def isTmp (path : TBytes) : Bool := (text ".tmp").isSuffixOf path

/-- Files come under other names than those of temporary files by a rename only. -/
def exRangeEnv : Env ExFiles where
  answer c e :=
    match c with
    | .open_ path =>
      if isTmp path then
        ((3 : Int), { tree := Function.update e.tree path (.content []), file := some path })
      else ((4 : Int), e)
    | .write _ bytes => ((bytes.length : Int),
      match e.file.filter isTmp with
      | none => e
      | some path =>
        match e.tree path with
        | .content old => { e with tree := Function.update e.tree path (.content (old ++ bytes)) }
        | _ => e)
    | .rename src dst => ((0 : Int), { e with
        tree := Function.update (Function.update e.tree src .absent) dst (e.tree src) })
    | c => ((exEnv.answer c ()).1, e)

def exRangeDisk : Disk ExFiles where
  tree := ExFiles.tree
  file e fd := if fd = 3 then e.file.filter isTmp else none

/-- A command with the range 3 for the first DAC. -/
def exRange3 : TBytes := frameBytes 67 [itemBytes DataItemIds.DAC_Range1 [0, 3, 0, 0, 0]]

def exFirst : Machine ExFiles := { Config := InitConfig, sys := exBlank }

namespace RangeLemmas

theorem rangePath_not_tmp {which : TBytes} (h : which ∈ rangeLayers) (ch : Fin MAX_DACs) :
    isTmp (rangePath which ch) = false := by
  revert which ch
  decide +kernel

theorem path_tmp (path : TBytes) : isTmp (path ++ text ".tmp") = true :=
  List.isSuffixOf_iff_suffix.mpr (List.suffix_append _ _)

theorem exRange_write {e e' : ExFiles} {fd n : Int} {bytes path old : TBytes}
    (h : exRangeEnv.answer (.write fd bytes) e = (n, e'))
    (hfile : exRangeDisk.file e fd = some path) (hold : exRangeDisk.tree e path = .content old) :
    n = bytes.length ∧ exRangeDisk.file e' fd = some path ∧ exRangeDisk.tree e' =
      Function.update (exRangeDisk.tree e) path (.content (old ++ bytes)) := by
  have hfd : fd = 3 ∧ e.file.filter isTmp = some path := by
    simp only [exRangeDisk] at hfile
    split at hfile
    · exact ⟨‹_›, hfile⟩
    · cases hfile
  have hold : e.tree path = .content old := hold
  simp only [exRangeEnv, hfd.2, hold] at h
  cases h
  exact ⟨rfl, by simp only [exRangeDisk, if_pos hfd.1]; exact hfd.2, rfl⟩

/-- Names that are not of temporary files. -/
theorem exRange_others (c : SysCall) (e : ExFiles) {path : TBytes} (hpath : isTmp path = false)
    (hrename : ∀ src, c ≠ .rename src path) :
    (exRangeEnv.answer c e).2.tree path = e.tree path ∨
      (exRangeEnv.answer c e).2.tree path = .absent := by
  have hne {path' : TBytes} (h : isTmp path' = true) : path ≠ path' := by
    intro heq
    rw [heq, h] at hpath
    cases hpath
  cases c with
  | open_ path' =>
    refine .inl ?_
    simp only [exRangeEnv]
    split
    case isTrue htmp => exact Function.update_of_ne (hne htmp) _ _
    case isFalse => rfl
  | write fd bytes =>
    refine .inl ?_
    simp only [exRangeEnv]
    split
    · rfl
    · rename_i path' hfile
      split
      · exact Function.update_of_ne (hne (Option.filter_eq_some_iff.mp hfile).2) _ _
      · rfl
  | rename src dst =>
    have hdst : path ≠ dst := fun heq => hrename src (heq ▸ rfl)
    simp only [exRangeEnv, Function.update_of_ne hdst]
    by_cases hsrc : path = src
    · rw [hsrc, Function.update_self]
      exact .inr rfl
    · rw [Function.update_of_ne hsrc]
      exact .inl rfl
  | _ => exact .inl rfl

end RangeLemmas

theorem exRange_disk : RangeDisk exRangeEnv exRangeDisk where
  paths ch which hwhich ch' :=
    { creates := fun e e' fd h _ => by
        simp only [exRangeEnv, if_pos (path_tmp _)] at h
        cases h
        refine ⟨rfl, ?_⟩
        show Option.filter isTmp (some _) = _
        rw [Option.filter_some, if_pos (path_tmp _)]
      appends := fun fd bytes path old e e' n h _ hfile hold => by
        obtain ⟨rfl, hfile', htree⟩ := exRange_write h hfile hold
        exact ⟨Int.le_refl _, hfile', by rwa [Int.toNat_natCast, List.take_length]⟩
      renames := fun src dst bytes e e' h hsrc => by
        have hsrc : e.tree src = .content bytes := hsrc
        simp only [exRangeEnv, hsrc] at h
        cases h
        rfl
      opens := fun e => by
        have hdir : isTmp (parentPath (rangePath currentLayer ch)) = false := by
          revert ch
          decide +kernel
        simp only [exRangeEnv, hdir]
        rfl
      fsyncs := fun _ _ => rfl
      closes := fun _ _ => rfl
      open_fails := fun e e' fd h hneg => by
        simp only [exRangeEnv, if_pos (path_tmp _)] at h
        cases h
        exact absurd hneg (by decide)
      write_fails := fun fd bytes path path' e e' n h hneg => by
        cases h
        exact absurd hneg (by simp)
      fsync_fails := fun fd e e' rc h => by
        cases h
        exact Int.le_refl _
      rename_fails := fun src dst e e' rc h hrc => by
        cases h
        exact absurd rfl hrc }
  others c e which hwhich ch hrename := exRange_others c e (rangePath_not_tmp hwhich ch) hrename

/-- The range of a command is loaded at the next start. -/
theorem range_after_start :
    ∃ m, (restartSystem exPlatform exRangeEnv exRangeDisk).Reachable exFirst m ∧
      m.Config.dacRanges[0] = 3 ∧ DacRangesValid m.Config ∧
      ∀ ch volts, DACVoltsToCounts exPlatform m.Config ch volts ≠ none := by
  have hrun : ((restartSystem exPlatform exRangeEnv exRangeDisk).run
      [.message exRange3 exGlobals 1, .start] exFirst).map
        (fun m => decide (m.Config.dacRanges[0] = 3)) = some true := by
    decide +kernel
  have hfiles : RangeFiles exRangeDisk exFirst.sys.env := fun _ _ _ => rangeFile_absent
  obtain ⟨m, hreach, hrange⟩ := StepSystem.exists_reachable_of_run hrun
  exact ⟨m, hreach, of_decide_eq_true hrange, ranges_valid exRange_disk rfl hfiles hreach⟩

end EnetTcp
