import EnetTcp.Calls
import EnetTcp.Cells
import Mathlib.Logic.Relation

/-!
# What a Go changes

`Change` lists every change that the `Go` of an item may make to the machine, `SysChange` what it
may do to the world outside. Each says what the item must be for it.

* `Go_effect`: a `Go` makes changes of its item only, and the item does not report another cell
  afterwards.
* `Changes.closed`: what holds of each change, and of one change after the other, so holds of every
  `Go`.
* `ConfigChange.keeps`: the cells that an item does not write.
-/

namespace EnetTcp

open Prog CallLemmas

variable {ε : Type}

/-! ## 1. What an item writes -/

/-! ### Cells -/

/-- The channel that the first byte names. -/
def namedChannels (buf : TBytes) : List (Fin MAX_DACs) :=
  (List.finRange MAX_DACs).filter fun ch => (buf[0]?).map UInt8.toNat == some ch.val

/-- The channels that a list of floats goes to. -/
def firstChannels (buf : TBytes) : List (Fin MAX_DACs) :=
  (List.finRange MAX_DACs).filter fun ch => ch.val < buf.length / 4

def GoLambda.writes (l : GoLambda) (buf : TBytes) : List Cell :=
  match l with
  | .DAC_Calibrate1 => (namedChannels buf).flatMap fun ch => [.dacScale ch, .dacOffset ch]
  | .DAC_Offset1 => (namedChannels buf).map .dacOffset
  | .DAC_OffsetAll => (firstChannels buf).map .dacOffset
  | .DAC_Scale1 => (namedChannels buf).map .dacScale
  | .DAC_ScaleAll => (firstChannels buf).map .dacScale
  | _ => []

/-- The cells that the `Go` of an item may write. -/
def TItemBody.writes (id : DataItemIds) (this : TItemBody) : List Cell :=
  match this.params with
  | .TDataItemRaw => ((DIdDict.find id).bind TDIdDictEntry.go).elim [] fun l => l.writes this.Data
  | .TDAC_Range1 p => if this.bWrite then (namedChannels [p.dacChannel]).map .dacRange else []
  | .TBRD_Model => [.model]
  | .TBRD_SerialNumber => [.serialNumber]
  | _ => []

/-! ### Registers -/

/-- A register of the ADC calibration is one of a range, and has a coefficient of this kind. -/
inductive CalKind
  | scale
  | offset
  deriving DecidableEq

/-- The register of a coefficient; the code does not check the index of the range. -/
def CalKind.register (kind : CalKind) (range : Nat) : Nat :=
  match kind with
  | .scale => ofsAdcCalScale + range * ofsAdcCalScaleStride
  | .offset => ofsAdcCalOffset + range * ofsAdcCalOffsetStride

/-- The offset in the payload of a REG_ lambda. -/
def bufferRegister (buf : TBytes) : List Nat := (buf.take 1).map UInt8.toNat

def GoLambda.footprint (l : GoLambda) (buf : TBytes) : List Nat :=
  match l with
  | .REG_ClearBits | .REG_ToggleBits | .REG_SetBits => bufferRegister buf
  | _ => []

/-- The registers of the first groups. -/
def groupRegisters (settings : Option TBytes) : List Nat :=
  (List.range (settings.getD []).length).map (ofsAdcRange + ·)

def calRegisters {α : Type} (kind : CalKind) (values : Option (List α)) : List Nat :=
  (List.range (values.getD []).length).map kind.register

/-- The registers that a `Go` may write. -/
def TItemBody.footprint (id : DataItemIds) (this : TItemBody) : List Nat :=
  match this.params with
  | .TDataItemRaw => (((DIdDict.find id).bind TDIdDictEntry.go).map (·.footprint this.Data)).getD []
  | .TREG_Write1 Writes => Writes.map fun w => w.offset.toNat
  | .TREG_WriteBit p => p.toList.map fun p => p.offset.toNat
  | .TREG_ClearBit p | .TREG_SetBit p | .TREG_ToggleBit p => p.toList.map fun p => p.offset.toNat
  | .TDAC_Output _ | .TDAC_OutputV _ => [ofsDac]
  | .TDIO_Configure _ | .TDIO_ConfigureBit _ => [ofsDioDirections]
  | .TDIO_Output _ | .TDIO_OutputBit _ | .TDIO_ClearBit _ | .TDIO_SetBit _ | .TDIO_ToggleBit _ =>
    [ofsDioOutputs]
  | .TADC_Differential1 p | .TADC_Range1 p =>
    p.toList.map fun p => ofsAdcRange + p.channelGroup.toNat
  | .TADC_DifferentialAll settings | .TADC_RangeAll settings => groupRegisters settings
  | .TADC_Scale1 p => p.toList.map fun p => CalKind.scale.register p.rangeIndex.toNat
  | .TADC_Offset1 p => p.toList.map fun p => CalKind.offset.register p.rangeIndex.toNat
  | .TADC_Calibration1 p => p.toList.flatMap fun p =>
    [CalKind.scale.register p.rangeIndex.toNat, CalKind.offset.register p.rangeIndex.toNat]
  | .TADC_ScaleAll scales => calRegisters .scale scales
  | .TADC_OffsetAll offsets => calRegisters .offset offsets
  | .TADC_CalibrationAll pairs => calRegisters .scale pairs ++ calRegisters .offset pairs
  | .TADC_RawAll | .TADC_CountsAll | .TADC_VoltsAll =>
    [ofsAdcOversamples, ofsAdcTriggerOptions, ofsAdcSoftwareStart]
  | _ => []

/-! ### Files -/

/-- The key is not that of the range of a channel. -/
def OtherKey (key : TBytes) : Prop := key.take 5 ≠ text "DAC_R"

instance (key : TBytes) : Decidable (OtherKey key) := inferInstanceAs (Decidable (_ ≠ _))

/-- What the `Go` of an item may store under a key. `DAC_Range1` stores the range of its channel,
and no other item stores a range. -/
def TItemBody.Stores (this : TItemBody) (key value : TBytes) : Prop :=
  OtherKey key ∨ ∃ p, this.params = .TDAC_Range1 p ∧ this.bWrite = true ∧
    key = text "DAC_RangeCh" ++ toDecimal p.dacChannel.toNat ∧ value = to_hex 4 p.dacRange.toNat

/-! ## 2. Changes -/

/-- One thing that the `Go` of an item may do to the world outside: a call that neither renames a
file nor writes a register, the write of a register or of a file of the configuration that the
item is for, and the rename that puts a new file of the host name in place. -/
inductive SysChange (pf : Platform) (env : Env ε) (id : DataItemIds) (this : TItemBody) :
    Sys ε → Sys ε → Prop
  | call {c : SysCall} {s s' : Sys ε} {r : Except Exn c.Result} : c.isRename = false →
      c.isRegisterWrite = false → (syscall env c).exec s = some (r, s') →
      SysChange pf env id this s s'
  | out {ofs : Nat} {value : UInt32} {s s' : Sys ε} {r : Except Exn TError} :
      ofs ∈ this.footprint id → (out env ofs value).exec s = some (r, s') →
      SysChange pf env id this s s'
  | store {key value : TBytes} {s s' : Sys ε} {r : Except Exn Int} : this.Stores key value →
      (WriteConfigString env pf.fuel key value).exec s = some (r, s') →
      SysChange pf env id this s s'
  | etc {src path : TBytes} {s s' : Sys ε} {r : Except Exn Int} :
      path = text "/etc/hostname" ∨ path = text "/etc/hosts" →
      (syscall env (.rename src path)).exec s = some (r, s') → SysChange pf env id this s s'

abbrev SysChanges (pf : Platform) (env : Env ε) (id : DataItemIds) (this : TItemBody) :
    Sys ε → Sys ε → Prop :=
  Relation.ReflTransGen (SysChange pf env id this)

/-- One change that the `Go` of an item may make to `Config`. -/
inductive ConfigChange (id : DataItemIds) (this : TItemBody) : TConfig → TConfig → Prop
  | features {c : TConfig} (features : UInt8) : ConfigChange id this c { c with features }
  | Hostname {c : TConfig} (Hostname : TBytes) : ConfigChange id this c { c with Hostname }
  | submuxScaleFactors {c : TConfig} (submuxScaleFactors : SubmuxTable) :
      ConfigChange id this c { c with submuxScaleFactors }
  | submuxOffsets {c : TConfig} (submuxOffsets : SubmuxTable) :
      ConfigChange id this c { c with submuxOffsets }
  | adcScaleCoefficients {c : TConfig} {i : Nat} {x : FloatBits}
      {adcScaleCoefficients : Vector FloatBits 8} : CalKind.scale.register i ∈ this.footprint id →
      setAdcCal c.adcScaleCoefficients i x = some adcScaleCoefficients →
      ConfigChange id this c { c with adcScaleCoefficients }
  | adcOffsetCoefficients {c : TConfig} {i : Nat} {x : FloatBits}
      {adcOffsetCoefficients : Vector FloatBits 8} : CalKind.offset.register i ∈ this.footprint id →
      setAdcCal c.adcOffsetCoefficients i x = some adcOffsetCoefficients →
      ConfigChange id this c { c with adcOffsetCoefficients }
  | numberOfSubmuxes {c : TConfig} {numberOfSubmuxes : UInt8} :
      validSubmuxCount c.features numberOfSubmuxes = true →
      ConfigChange id this c { c with numberOfSubmuxes }
  | Model {c : TConfig} : this.params = .TBRD_Model →
      ConfigChange id this c { c with
        Model := this.rawBytes
        NUM_DACs := (enet_ai_parse_dac_count (c_str this.rawBytes)).2
        adcChannels := (enet_ai_parse_adc_channel_count (c_str this.rawBytes)).2 }
  | SerialNumber {c : TConfig} : this.params = .TBRD_SerialNumber →
      ConfigChange id this c { c with SerialNumber := this.rawBytes }
  | dacScale {c : TConfig} {ch : Fin MAX_DACs} (x : FloatBits) :
      Cell.dacScale ch ∈ this.writes id →
      ConfigChange id this c { c with
        dacScaleCoefficients := c.dacScaleCoefficients.set ch x ch.isLt }
  | dacOffset {c : TConfig} {ch : Fin MAX_DACs} (x : FloatBits) :
      Cell.dacOffset ch ∈ this.writes id →
      ConfigChange id this c { c with
        dacOffsetCoefficients := c.dacOffsetCoefficients.set ch x ch.isLt }
  | dacRange {c : TConfig} {ch : Fin MAX_DACs} {p : DAC_RangeParams} :
      this.params = .TDAC_Range1 p → this.bWrite = true → p.dacChannel.toNat = ch →
      ConfigChange id this c { c with
        dacRanges := c.dacRanges.set ch p.dacRange ch.isLt }

/-- One change that the `Go` of an item may make to the machine. -/
inductive Change (pf : Platform) (env : Env ε) (id : DataItemIds) (this : TItemBody) :
    Machine ε → Machine ε → Prop
  | sys {m : Machine ε} {sys : Sys ε} : SysChange pf env id this m.sys sys →
      Change pf env id this m { m with sys }
  | upload {m : Machine ε} (upload : Upload) : Change pf env id this m { m with upload }
  | done {m : Machine ε} : Change pf env id this m { m with done := true }
  | AdcStreamTerminate {m : Machine ε} (AdcStreamTerminate : Bool) :
      Change pf env id this m { m with AdcStreamTerminate }
  | AdcWorkerThreadID {m : Machine ε} : this.params = .TADC_StreamStart →
      Change pf env id this m { m with AdcWorkerThreadID := 0 }
  | Config {m : Machine ε} {Config : TConfig} :
      ConfigChange id this m.Config Config → Change pf env id this m { m with Config }

/-- Any number of changes. -/
abbrev Changes (pf : Platform) (env : Env ε) (id : DataItemIds) (this : TItemBody) :
    Machine ε → Machine ε → Prop :=
  Relation.ReflTransGen (Change pf env id this)

namespace WriteLemmas

variable {α : Type} {id : DataItemIds} {this : TItemBody} {pf : Platform} {env : Env ε}

instance : Std.Refl (α := Sys ε) (SysChanges pf env id this) := ⟨fun _ => .refl⟩

instance : Std.Refl (α := Machine ε) (Changes pf env id this) := ⟨fun _ => .refl⟩

/-! ### The world outside -/

theorem changes_call (c : SysCall) (hrename : c.isRename = false)
    (hwrite : c.isRegisterWrite = false) : Moves (SysChanges pf env id this) (syscall env c) :=
  fun _ _ _ h => .single (.call hrename hwrite h)

theorem changes_out {ofs : Nat} (hofs : ofs ∈ this.footprint id) (value : UInt32) :
    Moves (SysChanges pf env id this) (out env ofs value) :=
  fun _ _ _ h => .single (.out hofs h)

theorem changes_in (ofs : Nat) : Moves (SysChanges pf env id this) (in_ env ofs) :=
  made_in closed_moves changes_call ofs

theorem changes_store {key : TBytes} (hkey : OtherKey key) (value : TBytes) :
    Moves (SysChanges pf env id this) (WriteConfigString env pf.fuel key value) :=
  fun _ _ _ h => .single (.store (.inl hkey) h)

theorem changes_saveBrdConfig (c : TConfig) :
    Moves (SysChanges pf env id this) (SaveBrdConfig env pf.fuel c) :=
  moves_bind (changes_store (by decide) _) fun _ =>
    moves_bind (changes_store (by decide) _) fun _ =>
      moves_bind (changes_store (by decide) _) fun _ =>
        moves_bind (changes_store (by decide) _) fun _ => moves_pure _

theorem changes_writeFileAtomic {path : TBytes}
    (hpath : path = text "/etc/hostname" ∨ path = text "/etc/hosts") (content : TBytes) :
    Moves (SysChanges pf env id this) (WriteFileAtomic env path content) := by
  have hcall (c : SysCall) (hrename : c.isRename = false) (hwrite : c.isRegisterWrite = false) :
      Moves (SysChanges pf env id this) (syscall env c) := changes_call c hrename hwrite
  have htemp (dir tmpl : TBytes) :
      Moves (SysChanges pf env id this) (GetTempFileNameInDir env dir tmpl) := by
    refine moves_bind (hcall (.create_directories dir) rfl rfl) fun (rc : Int) => ?_
    refine moves_ite (fun _ => moves_throw_bind _ _) fun _ => ?_
    refine moves_bind (hcall (.mkstemp tmpl) rfl rfl) fun (r : Option (Int × TBytes)) => ?_
    cases r with
    | none => exact moves_pure _
    | some r => exact moves_bind (hcall (.close r.1) rfl rfl) fun _ => moves_pure _
  refine moves_bind (htemp _ _) fun tmp => ?_
  cases tmp with
  | none => exact moves_throw _
  | some tmp =>
    have hgiveUp (x : Exn) (f : Unit → Prog Exn (Sys ε) Unit) :
        Moves (SysChanges pf env id this) (syscall env (.unlink tmp) >>= fun () => throw x >>= f) :=
      moves_bind (hcall (.unlink tmp) rfl rfl) fun _ => moves_throw_bind x f
    have hclose (fd : Int) (x : Exn) (f : Unit → Prog Exn (Sys ε) Unit) :
        Moves (SysChanges pf env id this) (syscall env (.close fd) >>= fun () =>
          syscall env (.unlink tmp) >>= fun () => throw x >>= f) :=
      moves_bind (hcall (.close fd) rfl rfl) fun _ => hgiveUp x f
    refine moves_bind (hcall (.open_ tmp) rfl rfl) fun (fd : Int) => ?_
    refine moves_ite (fun _ => hgiveUp _ _) fun _ => ?_
    refine moves_bind (hcall (.fchmod fd) rfl rfl) fun (rc : Int) => ?_
    refine moves_ite (fun _ => hclose fd _ _) fun _ => ?_
    refine moves_bind (hcall (.write fd content) rfl rfl) fun (w : Int) => ?_
    refine moves_ite (fun _ => hclose fd _ _) fun _ => ?_
    refine moves_bind (hcall (.fsync fd) rfl rfl) fun (rc : Int) => ?_
    refine moves_ite (fun _ => hclose fd _ _) fun _ => ?_
    refine moves_bind (hcall (.close fd) rfl rfl) fun _ => ?_
    refine moves_bind (fun _ _ _ h => .single (.etc hpath h)) fun (rc : Int) => ?_
    exact moves_ite (fun _ => moves_bind (hcall (.unlink tmp) rfl rfl) fun _ => moves_throw _)
      fun _ => moves_pure _

theorem changes_hostnameApply (requested : TBytes) :
    Moves (SysChanges pf env id this) (TCFG_Hostname.apply env requested) := by
  have hsystem (path₁ path₂ command : String) :
      Moves (SysChanges pf env id this) (systemIfPresent env path₁ path₂ command) :=
    made_systemIfPresent closed_moves changes_call path₁ path₂ command
  have hupdate : Moves (SysChanges pf env id this) (UpdateEtcHosts127011 env requested) :=
    moves_bind (changes_call (.ifstream _) rfl rfl) fun _ => changes_writeFileAtomic (.inr rfl) _
  refine moves_ite (fun _ => moves_pure _) fun _ => ?_
  refine moves_bind (moves_attempt (changes_writeFileAtomic (.inl rfl) _)) fun r => ?_
  cases r with
  | error => exact moves_pure _
  | ok =>
    refine moves_bind (moves_attempt hupdate) fun _ => ?_
    refine moves_bind (changes_call (.sethostname requested) rfl rfl) fun _ => ?_
    exact moves_bind (hsystem _ _ _) fun _ => moves_bind (hsystem _ _ _) fun _ => moves_pure _

/-- A command for each of the first groups. -/
theorem changes_allGroups {f : Nat → UInt8 → Prog Exn (Sys ε) Unit} {settings : Option TBytes}
    (hofs : groupRegisters settings ⊆ this.footprint id)
    (hf : ∀ group value, ofsAdcRange + group ∈ this.footprint id →
      Moves (SysChanges pf env id this) (f group value)) :
    Moves (SysChanges pf env id this) (ADC_AllGroups.Go f settings) := by
  refine closed_moves.ofOption_bind fun values hvalues => moves_forM _ fun s hs => hf s.2 s.1 ?_
  obtain ⟨-, hlt, -⟩ := List.mem_zipIdx hs
  refine hofs (List.mem_map_of_mem (List.mem_range.mpr ?_))
  rw [hvalues, Option.getD_some]
  omega

/-! ### Settings -/

/-- A change of `Config` as the only change. -/
theorem changes_config {m : Machine ε} {c : TConfig} (h : ConfigChange id this m.Config c) :
    Changes pf env id this m { m with Config := c } := .single (.Config h)

theorem changes_io {p : Prog Exn (Sys ε) α} (hp : Moves (SysChanges pf env id this) p) :
    Moves (Changes pf env id this) (io p) := by
  refine moves_zoom hp fun m s h => ?_
  have hone : SysChange pf env id this ≤
      Function.onFun (Change pf env id this) fun sys => { m with sys } := fun _ _ h => .sys h
  exact Relation.ReflTransGen.lift _ hone m.sys s h

theorem changes_ioCall (c : SysCall) (hrename : c.isRename = false)
    (hwrite : c.isRegisterWrite = false) : Moves (Changes pf env id this) (io (syscall env c)) :=
  changes_io (changes_call c hrename hwrite)

/-- A setting of one channel that could be written was written there. -/
theorem setDac_some {v v' : Vector UInt32 MAX_DACs} {n : Nat} {x : UInt32}
    (h : setDac v n x = some v') : ∃ ch : Fin MAX_DACs, ch.val = n ∧ v' = v.set ch x ch.isLt := by
  unfold setDac at h
  split at h
  case isTrue hn =>
    cases h
    exact ⟨⟨n, hn⟩, rfl, rfl⟩
  case isFalse => cases h

theorem changes_setDacScale {n : Nat} (x : FloatBits)
    (h : ∀ ch : Fin MAX_DACs, ch.val = n → Cell.dacScale ch ∈ this.writes id) :
    Moves (Changes pf env id this) (setDacScale (ε := ε) n x) := by
  refine moves_update fun m v hv => ?_
  obtain ⟨ch, hch, rfl⟩ := setDac_some hv
  exact changes_config (.dacScale x (h ch hch))

theorem changes_setDacOffset {n : Nat} (x : FloatBits)
    (h : ∀ ch : Fin MAX_DACs, ch.val = n → Cell.dacOffset ch ∈ this.writes id) :
    Moves (Changes pf env id this) (setDacOffset (ε := ε) n x) := by
  refine moves_update fun m v hv => ?_
  obtain ⟨ch, hch, rfl⟩ := setDac_some hv
  exact changes_config (.dacOffset x (h ch hch))

theorem changes_setAdcScale {i : Nat} (hofs : CalKind.scale.register i ∈ this.footprint id)
    (scale : FloatBits) : Moves (Changes pf env id this) (setAdcScale (ε := ε) i scale) :=
  moves_update fun _ _ hv => changes_config (.adcScaleCoefficients hofs hv)

theorem changes_setAdcOffset {i : Nat} (hofs : CalKind.offset.register i ∈ this.footprint id)
    (offset : FloatBits) : Moves (Changes pf env id this) (setAdcOffset (ε := ε) i offset) :=
  moves_update fun _ _ hv => changes_config (.adcOffsetCoefficients hofs hv)

/-! ### The lambdas -/

theorem lambdaChannel_ok {buf : TBytes} {line n : Nat} {m m' : Machine ε}
    (h : (lambdaChannel buf line).exec m = some (.ok n, m')) :
    (buf[0]?).map UInt8.toNat = some n := by
  obtain ⟨b, hb, h⟩ := ofOption_bind_some h
  obtain ⟨-, h⟩ := GuardLemmas.guard_bind_ok h
  cases h
  rw [hb]
  rfl

theorem changes_lambdaChannel (buf : TBytes) (line : Nat) :
    Moves (Changes pf env id this) (lambdaChannel buf line : Prog Exn (Machine ε) Nat) :=
  moves_bind (moves_ofOption _) fun _ =>
    moves_bind (moves_ite (fun _ => moves_pure _) fun _ => moves_throw _) fun _ => moves_pure _

theorem mem_namedChannels {buf : TBytes} {ch : Fin MAX_DACs} :
    ch ∈ namedChannels buf ↔ (buf[0]?).map UInt8.toNat = some ch.val := by
  simp only [namedChannels, List.mem_filter, List.mem_finRange, beq_iff_eq, true_and]

theorem mem_firstChannels {buf : TBytes} {ch : Fin MAX_DACs} :
    ch ∈ firstChannels buf ↔ ch.val < buf.length / 4 := by
  simp only [firstChannels, List.mem_filter, List.mem_finRange, decide_eq_true_eq, true_and]

/-- The channel of a one-channel lambda is the one that its payload names. -/
theorem named_of_eq {buf : TBytes} {n : Nat} (hn : (buf[0]?).map UInt8.toNat = some n)
    {ch : Fin MAX_DACs} (h : ch.val = n) : ch ∈ namedChannels buf :=
  mem_namedChannels.mpr (h ▸ hn)

/-- The same for a channel in the list of a lambda for all channels. -/
theorem first_of_eq {buf : TBytes} {n : Nat} (hn : n < buf.length / 4) {ch : Fin MAX_DACs}
    (h : ch.val = n) : ch ∈ firstChannels buf :=
  mem_firstChannels.mpr (h ▸ hn)

theorem changes_dacScaleFile (dacnum : Nat) (scale : FloatBits) :
    Moves (Changes pf env id this) (io (writeDacScale env pf.fuel dacnum scale)) :=
  changes_io (changes_store (by
    rw [OtherKey, List.take_append_of_le_length (by decide)]
    decide) _)

theorem changes_dacOffsetFile (dacnum : Nat) (offset : FloatBits) :
    Moves (Changes pf env id this) (io (writeDacOffset env pf.fuel dacnum offset)) :=
  changes_io (changes_store (by
    rw [OtherKey, List.take_append_of_le_length (by decide)]
    decide) _)

theorem changes_regBits {buf : TBytes} (hbuf : bufferRegister buf ⊆ this.footprint id)
    (f : UInt32 → UInt32 → UInt32) :
    Moves (Changes pf env id this) (io (REG_Bits.go env f buf)) := by
  refine changes_io (made_regBits closed_moves changes_call (fun ofs hofs => ?_) f)
  refine changes_out (hbuf (List.mem_map_of_mem ?_))
  cases buf with
  | nil => cases hofs
  | cons b buf =>
    cases hofs
    exact List.mem_cons_self

theorem lambda_changes {l : GoLambda} {buf : TBytes} (h : l.writes buf ⊆ this.writes id)
    (hofs : l.footprint buf ⊆ this.footprint id) :
    Moves (Changes pf env id this) (l.run env pf.fuel buf) := by
  cases l with
  | REG_ClearBits | REG_ToggleBits | REG_SetBits => exact changes_regBits hofs _
  | BRD_REBOOT =>
    refine moves_bind (moves_ofOption _) fun low => moves_bind (moves_ofOption _) fun high => ?_
    exact moves_ite (fun _ => moves_modify fun _ => .single .done) fun _ => moves_pure _
  | DAC_Calibrate1 =>
    refine moves_bind_ok (changes_lambdaChannel buf 186) fun n _ _ hn => ?_
    have hwrites (ch : Fin MAX_DACs) (hch : ch.val = n) (cell : Cell)
        (hcell : cell ∈ [Cell.dacScale ch, .dacOffset ch]) : cell ∈ this.writes id :=
      h (List.mem_flatMap.mpr ⟨ch, named_of_eq (lambdaChannel_ok hn) hch, hcell⟩)
    refine moves_bind (moves_ofOption _) fun offset => moves_bind (moves_ofOption _) fun scale => ?_
    refine moves_bind (changes_setDacScale scale fun ch hch =>
      hwrites ch hch _ List.mem_cons_self) fun _ => ?_
    refine moves_bind (changes_setDacOffset offset fun ch hch =>
      hwrites ch hch _ (List.mem_cons_of_mem _ List.mem_cons_self)) fun _ => ?_
    exact moves_bind (changes_dacScaleFile _ _) fun _ =>
      moves_bind (changes_dacOffsetFile _ _) fun _ => moves_pure _
  | DAC_Offset1 =>
    refine moves_bind_ok (changes_lambdaChannel buf 210) fun n _ _ hn => ?_
    refine moves_bind (moves_ofOption _) fun offset => ?_
    refine moves_bind (changes_setDacOffset offset fun ch hch =>
      h (List.mem_map_of_mem (named_of_eq (lambdaChannel_ok hn) hch))) fun _ => ?_
    exact moves_bind (changes_dacOffsetFile _ _) fun _ => moves_pure _
  | DAC_Scale1 =>
    refine moves_bind_ok (changes_lambdaChannel buf 243) fun n _ _ hn => ?_
    refine moves_bind (moves_ofOption _) fun scale => ?_
    refine moves_bind (changes_setDacScale scale fun ch hch =>
      h (List.mem_map_of_mem (named_of_eq (lambdaChannel_ok hn) hch))) fun _ => ?_
    exact moves_bind (changes_dacScaleFile _ _) fun _ => moves_pure _
  | DAC_OffsetAll =>
    refine moves_forM _ fun n hn => moves_bind (moves_ofOption _) fun v => ?_
    refine moves_bind (changes_setDacOffset v fun ch hch =>
      h (List.mem_map_of_mem (first_of_eq (List.mem_range.mp hn) hch))) fun _ => ?_
    exact moves_bind (changes_dacOffsetFile _ _) fun _ => moves_pure _
  | DAC_ScaleAll =>
    refine moves_forM _ fun n hn => moves_bind (moves_ofOption _) fun v => ?_
    have hfirst : n < buf.length / 4 :=
      Nat.lt_of_lt_of_le (List.mem_range.mp hn) (Nat.min_le_left ..)
    refine moves_bind (changes_setDacScale v fun ch hch =>
      h (List.mem_map_of_mem (first_of_eq hfirst hch))) fun _ => ?_
    exact moves_bind (changes_dacScaleFile _ _) fun _ => moves_pure _

/-! ### Items that write to `Config` -/

theorem changes_model (h : this.params = .TBRD_Model) :
    Moves (Changes pf env id this) (TBRD_Model.Go env pf.fuel this.rawBytes) :=
  moves_get_set (fun _ => changes_config (.Model h)) fun _ =>
    moves_bind (changes_io (changes_saveBrdConfig _)) fun _ => moves_pure _

theorem changes_serialNumber (h : this.params = .TBRD_SerialNumber) :
    Moves (Changes pf env id this) (TBRD_SerialNumber.Go env pf.fuel this.rawBytes) :=
  moves_get_set (fun _ => changes_config (.SerialNumber h)) fun _ =>
    moves_bind (changes_io (changes_saveBrdConfig _)) fun _ => moves_pure _

theorem changes_numberOfSubmuxes (value : UInt8) :
    Moves (Changes pf env id this) (TBRD_NumberOfSubmuxes.Go (ε := ε) value) := by
  intro m r m' h
  rw [TBRD_NumberOfSubmuxes.Go, exec_get_bind] at h
  split at h
  case isTrue hvalid =>
    cases h
    exact changes_config (.numberOfSubmuxes hvalid)
  case isFalse =>
    cases h
    exact .refl

theorem changes_getSubmux (table : TConfig → SubmuxTable) (p : GetSubmuxParams) :
    Moves (Changes pf env id this) (GetSubmuxParams.Go (ε := ε) table p) :=
  moves_bind (moves_ofOption _) fun _ => moves_bind (moves_ofOption _) fun _ =>
    moves_bind moves_get fun _ => moves_pure _

theorem changes_range1 {p : DAC_RangeParams} (h : this.params = .TDAC_Range1 p) :
    Moves (Changes pf env id this) (TDAC_Range1.Go env pf.fuel p this.bWrite) := by
  cases hwrite : this.bWrite with
  | false => exact moves_pure _
  | true =>
    have hstore : Moves (SysChanges pf env id this)
        (WriteConfigU32 env pf.fuel (text "DAC_RangeCh" ++ toDecimal p.dacChannel.toNat)
          p.dacRange) :=
      fun _ _ _ hrun => .single (.store (.inr ⟨p, h, hwrite, rfl, rfl⟩) hrun)
    refine moves_bind (changes_io hstore) fun rc => ?_
    intro m r m' hrun
    rw [exec_get_bind] at hrun
    split at hrun
    · obtain ⟨old, -, hrun⟩ := ofOption_bind_some hrun
      cases hrun
      exact .refl
    · obtain ⟨ranges, hranges, hrun⟩ := ofOption_bind_some hrun
      cases hrun
      obtain ⟨ch, hch, rfl⟩ := setDac_some hranges
      exact changes_config (.dacRange h hwrite hch.symm)

theorem changes_calibrateScale {i : Nat} (hofs : CalKind.scale.register i ∈ this.footprint id)
    (scale : FloatBits) : Moves (Changes pf env id this) (calibrateScale env i scale) :=
  moves_bind (changes_io (changes_out hofs _)) fun _ => changes_setAdcScale hofs scale

theorem changes_calibrateOffset {i : Nat} (hofs : CalKind.offset.register i ∈ this.footprint id)
    (offset : FloatBits) : Moves (Changes pf env id this) (calibrateOffset env i offset) :=
  moves_bind (changes_io (changes_out hofs _)) fun _ => changes_setAdcOffset hofs offset

theorem changes_calibrateBoth {i : Nat} (hscale : CalKind.scale.register i ∈ this.footprint id)
    (hoffset : CalKind.offset.register i ∈ this.footprint id) (scale offset : FloatBits) :
    Moves (Changes pf env id this) (calibrateBoth env i scale offset) :=
  moves_bind (changes_io (changes_out hscale _)) fun _ =>
    moves_bind (changes_io (changes_out hoffset _)) fun _ =>
      moves_bind (changes_setAdcScale hscale scale) fun _ => changes_setAdcOffset hoffset offset

theorem mem_calRegisters {β : Type} {kind : CalKind} {values : Option (List β)} {l : List β}
    (hvalues : values = some l) {v : β × Nat} (hv : v ∈ l.zipIdx) :
    kind.register v.2 ∈ calRegisters kind values := by
  obtain ⟨-, hlt, -⟩ := List.mem_zipIdx hv
  refine List.mem_map_of_mem (List.mem_range.mpr ?_)
  rw [hvalues, Option.getD_some]
  omega

theorem changes_streamStart (h : this.params = .TADC_StreamStart) :
    Moves (Changes pf env id this) (TADC_StreamStart.Go env) := by
  have hdma : Moves (Changes pf env id this)
      (io (syscall env .apci_start_dma) >>= fun _ => pure ()) :=
    moves_bind (changes_ioCall _ rfl rfl) fun _ => moves_pure _
  refine moves_bind (changes_ioCall _ rfl rfl) fun status => moves_ite
    (fun _ => moves_bind (moves_ofOption _) fun _ => moves_throw_bind _ _) fun _ => ?_
  refine moves_bind (moves_modify fun _ => .single (.AdcStreamTerminate false)) fun _ => ?_
  refine moves_bind moves_get fun m => ?_
  refine moves_ite (fun _ => moves_bind (changes_ioCall _ rfl rfl) fun rc => ?_) fun _ => hdma
  refine moves_ite (fun _ => moves_throw_bind _ _) fun _ => ?_
  exact moves_bind (moves_modify fun _ => .single (.AdcWorkerThreadID h)) fun _ => hdma

theorem changes_streamStop : Moves (Changes pf env id this) (TADC_StreamStop.Go env) :=
  moves_bind (moves_modify fun _ => .single (.AdcStreamTerminate true)) fun _ =>
    moves_bind (changes_ioCall _ rfl rfl) fun _ => moves_pure _

theorem changes_hostname (hostname : TBytes) :
    Moves (Changes pf env id this) (TCFG_Hostname.Go env hostname) :=
  moves_bind (changes_io (changes_hostnameApply _)) fun _ =>
    moves_ite (fun _ => moves_modify fun _ => changes_config (.Hostname _)) fun _ => moves_pure _

/-! ### Uploads -/

theorem changes_ofsClose : Moves (Changes pf env id this) (ofsClose env) :=
  moves_bind (changes_ioCall _ rfl rfl) fun _ => moves_modify fun _ => .single (.upload _)

theorem changes_ofsOpen (filename : TBytes) :
    Moves (Changes pf env id this) (ofsOpen env filename) :=
  moves_bind (changes_ioCall _ rfl rfl) fun _ => moves_modify fun _ => .single (.upload _)

theorem changes_ofsWrite (data : TBytes) : Moves (Changes pf env id this) (ofsWrite env data) :=
  moves_bind moves_get fun _ => moves_ite
    (fun _ => moves_bind (changes_ioCall _ rfl rfl) fun _ =>
      moves_modify fun _ => .single (.upload _))
    fun _ => moves_pure _

theorem changes_throwIfFailed (what : String) :
    Moves (Changes pf env id this) (throwIfFailed (ε := ε) what) :=
  moves_bind moves_get fun _ => moves_ite (fun _ => moves_throw _) fun _ => moves_pure _

theorem changes_uploadFileName (data : TBytes) :
    Moves (Changes pf env id this) (TSYS_UploadFileName.Go env data) := by
  have hopen : Moves (Changes pf env id this) (do
      modify fun m : Machine ε => { m with upload := { m.upload with filename := data } }
      ofsOpen env data
      throwIfFailed "File Upload process cannot open file ") :=
    moves_bind (moves_modify fun _ => .single (.upload _)) fun _ =>
      moves_bind (changes_ofsOpen data) fun _ => changes_throwIfFailed _
  have hupload : Moves (Changes pf env id this) (uploadFileName env data) :=
    moves_bind moves_get fun _ => moves_ite
      (fun _ => moves_bind changes_ofsClose fun _ =>
        moves_bind (changes_throwIfFailed _) fun _ => hopen)
      fun _ => hopen
  exact moves_bind (moves_attempt hupload) fun _ => moves_pure _

theorem changes_uploadFileData (data : TBytes) :
    Moves (Changes pf env id this) (TSYS_UploadFileData.Go env data) := by
  have hupload : Moves (Changes pf env id this) (uploadFileData env data) := by
    refine moves_bind moves_get fun _ => moves_ite (fun _ => moves_throw_bind _ _) fun _ => ?_
    refine moves_ite (fun _ => ?_) fun _ =>
      moves_bind (changes_ofsWrite data) fun _ => changes_throwIfFailed _
    refine moves_bind changes_ofsClose fun _ => moves_bind (changes_throwIfFailed _) fun _ => ?_
    exact moves_bind moves_get fun _ => moves_ite
      (fun _ => moves_bind (changes_ioCall _ rfl rfl) fun _ => moves_pure _) fun _ => moves_pure _
  exact moves_bind (moves_attempt hupload) fun _ => moves_pure _

end WriteLemmas

/-! ## 3. Go -/

/-- What the `Go` of `this` may do: changes to the machine, and the item comes to
report no cell that it has not reported. -/
structure GoEffect (pf : Platform) (env : Env ε) (id : DataItemIds) (this : TItemBody)
    (s s' : TItemBody × Machine ε) : Prop where
  machine : Changes pf env id this s.2 s'.2
  reports : s'.1.params.reports ⊆ s.1.params.reports

namespace WriteLemmas

variable {α : Type} {id : DataItemIds} {this : TItemBody} {pf : Platform} {env : Env ε}

instance : Std.Refl (α := TItemBody × Machine ε) (GoEffect pf env id this) :=
  ⟨fun _ => ⟨.refl, List.Subset.refl _⟩⟩

instance : IsTrans (TItemBody × Machine ε) (GoEffect pf env id this) :=
  ⟨fun _ _ _ h h' => ⟨h.machine.trans h'.machine, List.Subset.trans h'.reports h.reports⟩⟩

theorem effect_onMachine {p : Prog Exn (Machine ε) α} (hp : Moves (Changes pf env id this) p) :
    Moves (GoEffect pf env id this) (onMachine p) :=
  moves_zoom hp fun _ _ h => ⟨h, List.Subset.refl _⟩

theorem effect_onSys {p : Prog Exn (Sys ε) α} (hp : Moves (SysChanges pf env id this) p) :
    Moves (GoEffect pf env id this) (onSys p) :=
  effect_onMachine (changes_io hp)

theorem effect_updateItem {f : TItemBody → TItemBody} (h : ∀ this, (f this).params = this.params) :
    Moves (GoEffect pf env id this) (updateItem (ε := ε) f) :=
  moves_modify fun s => ⟨.refl, by rw [h]; exact List.Subset.refl _⟩

theorem effect_setParams {params : Params} (h : params.reports = []) :
    Moves (GoEffect pf env id this) (setParams (ε := ε) params) :=
  moves_modify fun _ => ⟨.refl, by
    show params.reports ⊆ _
    rw [h]
    exact List.nil_subset _⟩

theorem mem_parameter {β : Type} {p : Option β} {a : β} (h : p = some a) (f : β → Nat) :
    f a ∈ p.toList.map f := by
  rw [h]
  exact List.mem_cons_self

end WriteLemmas

open WriteLemmas

/-- What a `Go` changes is what its item may change. -/
theorem Go_effect (pf : Platform) (env : Env ε) {id : DataItemIds} {this : TItemBody}
    {m : Machine ε} {r : Except Exn Unit} {s' : TItemBody × Machine ε}
    (h : (Go pf env id).exec (this, m) = some (r, s')) :
    GoEffect pf env id this (this, m) s' := by
  obtain ⟨params, Data, rawBytes, resultCode, bWrite⟩ := this
  rw [Go, exec_get_bind] at h
  -- one case for each class; the registers are those of the footprint by its definition
  cases params <;> dsimp only at h
  case TDataItemRaw =>
    unfold TDataItemBase.Go at h
    cases hlambda : (DIdDict.find id).bind TDIdDictEntry.go with
    | none =>
      rw [hlambda] at h
      exact effect_updateItem (by exact fun _ => rfl) _ _ _ h
    | some l =>
      rw [hlambda] at h
      dsimp only at h
      rw [exec_get_bind] at h
      refine effect_onMachine (lambda_changes ?_ ?_) _ _ _ h
      · simp only [TItemBody.writes, hlambda, Option.elim_some]
        exact List.Subset.refl _
      · simp only [TItemBody.footprint, hlambda, Option.map_some, Option.getD_some]
        exact List.Subset.refl _
  case TDataItemNYI | TBRD_GetModel | TBRD_GetSerialNumber => exact moves_pure _ _ _ _ h
  case TDataItemDoc | TDataItemDocGet | TSYS_Error | TSYS_ItemError =>
    exact effect_updateItem (by exact fun _ => rfl) _ _ _ h
  case TBRD_GetNumberOfAdcChannels | TBRD_GetNumberOfSubmuxes =>
    exact effect_setParams rfl _ _ _ h
  case TBRD_Features =>
    refine moves_bind (effect_onMachine ?_) (fun _ => effect_setParams rfl) _ _ _ h
    exact moves_bind (changes_io (changes_in _)) fun v =>
      moves_bind (moves_modify fun _ => changes_config (.features _)) fun _ => moves_pure _
  case TBRD_Model => exact effect_onMachine (changes_model rfl) _ _ _ h
  case TBRD_SerialNumber => exact effect_onMachine (changes_serialNumber rfl) _ _ _ h
  case TBRD_NumberOfSubmuxes => exact effect_onMachine (changes_numberOfSubmuxes _) _ _ _ h
  case TBRD_SubmuxScale =>
    exact effect_onMachine (moves_modify fun _ => changes_config (.submuxScaleFactors _)) _ _ _ h
  case TBRD_SubmuxOffset =>
    exact effect_onMachine (moves_modify fun _ => changes_config (.submuxOffsets _)) _ _ _ h
  case TBRD_GetSubmuxScale | TBRD_GetSubmuxOffset =>
    exact moves_bind (effect_onMachine (changes_getSubmux _ _)) (fun _ => effect_setParams rfl)
      _ _ _ h
  case TDAC_Range1 p =>
    exact moves_bind (effect_onMachine (changes_range1 rfl)) (fun _ => effect_setParams rfl) _ _ _ h
  case TDAC_Output | TDAC_OutputV =>
    exact effect_onSys (made_dacOutput closed_moves changes_call
      (changes_out List.mem_cons_self) _) _ _ _ h
  case TADC_BaseClock =>
    exact moves_bind (effect_onSys (changes_in _)) (fun _ => effect_setParams rfl) _ _ _ h
  case TBRD_DeviceID | TBRD_FpgaId | TDIO_Input | TREG_Read1 =>
    refine moves_bind (effect_onSys ?_) (fun _ => effect_setParams rfl) _ _ _ h
    exact moves_bind (changes_in _) fun _ => moves_pure _
  case TREG_Write1 =>
    refine moves_bind (effect_onSys ?_) (fun _ => effect_updateItem (by exact fun _ => rfl)) _ _ _ h
    exact made_writes closed_moves changes_call fun w hw =>
      changes_out (List.mem_map.mpr ⟨w, hw, rfl⟩)
  case TREG_ReadBit =>
    refine moves_bind (effect_onSys ?_) (fun _ => effect_setParams rfl) _ _ _ h
    exact moves_bind (moves_ofOption _) fun _ => moves_bind (changes_in _) fun _ =>
      moves_bind (moves_ofOption _) fun _ => moves_pure _
  case TDIO_InputBit =>
    refine moves_bind (effect_onSys ?_) (fun _ => effect_setParams rfl) _ _ _ h
    exact moves_bind (changes_in _) fun _ => moves_bind (moves_ofOption _) fun _ =>
      moves_bind (moves_ofOption _) fun _ => moves_pure _
  case TREG_WriteBit p | TREG_ClearBit p | TREG_SetBit p | TREG_ToggleBit p =>
    refine effect_onSys (closed_moves.ofOption_bind fun a ha => ?_) _ _ _ h
    exact made_modifyBit closed_moves changes_call (changes_out (mem_parameter ha _)) _ _
  case TDIO_ConfigureBit | TDIO_OutputBit | TDIO_ClearBit | TDIO_SetBit | TDIO_ToggleBit =>
    refine effect_onSys (moves_bind (moves_ofOption _) fun _ => ?_) _ _ _ h
    exact made_modifyBit closed_moves changes_call (changes_out List.mem_cons_self) _ _
  case TDIO_Configure | TDIO_Output =>
    refine effect_onSys (moves_bind (moves_ofOption _) fun _ => ?_) _ _ _ h
    exact moves_bind (changes_out List.mem_cons_self _) fun _ => moves_pure _
  case TADC_Differential1 =>
    refine effect_onSys (closed_moves.ofOption_bind fun a ha => ?_) _ _ _ h
    exact made_setSingleEnded closed_moves changes_call (changes_out (mem_parameter ha _)) _
  case TADC_Range1 =>
    refine effect_onSys (closed_moves.ofOption_bind fun a ha => ?_) _ _ _ h
    exact made_setRange closed_moves (changes_out (mem_parameter ha _)) _
  case TADC_DifferentialAll =>
    refine effect_onSys (changes_allGroups (List.Subset.refl _) fun group value hofs => ?_) _ _ _ h
    exact made_setSingleEnded closed_moves changes_call (changes_out hofs) value
  case TADC_RangeAll =>
    refine effect_onSys (changes_allGroups (List.Subset.refl _) fun group value hofs => ?_) _ _ _ h
    exact made_setRange closed_moves (changes_out hofs) value
  case TADC_Scale1 =>
    refine effect_onMachine (closed_moves.ofOption_bind fun a ha => ?_) _ _ _ h
    exact changes_calibrateScale (mem_parameter ha _) _
  case TADC_Offset1 =>
    refine effect_onMachine (closed_moves.ofOption_bind fun a ha => ?_) _ _ _ h
    exact changes_calibrateOffset (mem_parameter ha _) _
  case TADC_Calibration1 p =>
    refine effect_onMachine (closed_moves.ofOption_bind fun a ha => ?_) _ _ _ h
    cases ha
    exact changes_calibrateBoth List.mem_cons_self
      (List.mem_cons_of_mem _ List.mem_cons_self) _ _
  case TADC_ScaleAll =>
    refine effect_onMachine (closed_moves.ofOption_bind fun l hl => ?_) _ _ _ h
    exact moves_forM _ fun v hv => changes_calibrateScale (mem_calRegisters hl hv) v.1
  case TADC_OffsetAll =>
    refine effect_onMachine (closed_moves.ofOption_bind fun l hl => ?_) _ _ _ h
    exact moves_forM _ fun v hv => changes_calibrateOffset (mem_calRegisters hl hv) v.1
  case TADC_CalibrationAll =>
    refine effect_onMachine (closed_moves.ofOption_bind fun l hl => ?_) _ _ _ h
    exact moves_forM _ fun v hv => changes_calibrateBoth
      (List.mem_append_left _ (mem_calRegisters hl hv))
      (List.mem_append_right _ (mem_calRegisters hl hv)) _ _
  case TADC_RawAll | TADC_CountsAll | TADC_VoltsAll =>
    refine moves_bind (effect_onSys ?_) (fun _ => effect_updateItem (by exact fun _ => rfl)) _ _ _ h
    exact made_scan closed_moves changes_call (changes_out List.mem_cons_self)
      (changes_out (List.mem_cons_of_mem _ List.mem_cons_self))
      (changes_out (List.mem_cons_of_mem _ (List.mem_cons_of_mem _ List.mem_cons_self))) _ _
  case TADC_StreamStart => exact effect_onMachine (changes_streamStart rfl) _ _ _ h
  case TADC_StreamStop => exact effect_onMachine changes_streamStop _ _ _ h
  case TCFG_Hostname => exact effect_onMachine (changes_hostname _) _ _ _ h
  case TSYS_UploadFileName => exact effect_onMachine (changes_uploadFileName _) _ _ _ h
  case TSYS_UploadFileData => exact effect_onMachine (changes_uploadFileData _) _ _ _ h

/-! ## 4. What changes keep -/

/-- What holds of each change holds of all. -/
theorem Changes.closed {R : Machine ε → Machine ε → Prop} [Std.Refl R] [IsTrans (Machine ε) R]
    {pf : Platform} {env : Env ε} {id : DataItemIds} {this : TItemBody} {m m' : Machine ε}
    (h : Changes pf env id this m m') (hR : ∀ m m', Change pf env id this m m' → R m m') :
    R m m' := by
  have hall : Relation.ReflTransGen R m m' := Relation.ReflTransGen.mono hR m m' h
  rwa [Relation.reflTransGen_eq_self] at hall

/-- What each change of `Config` keeps, a change of the machine keeps. -/
theorem Change.config_invariant {pf : Platform} {env : Env ε} {id : DataItemIds}
    {this : TItemBody} {m m' : Machine ε} {P : TConfig → Prop} (h : Change pf env id this m m')
    (hP : ∀ c c', ConfigChange id this c c' → P c → P c') (hm : P m.Config) : P m'.Config := by
  cases h with
  | Config hconfig => exact hP _ _ hconfig hm
  | sys | upload | done | AdcStreamTerminate | AdcWorkerThreadID => exact hm

/-- A change leaves the cells alone that its item does not write. -/
theorem ConfigChange.keeps {id : DataItemIds} {this : TItemBody} {c c' : TConfig}
    (h : ConfigChange id this c c') {cell : Cell} (hcell : cell ∉ this.writes id) :
    c.at cell = c'.at cell := by
  have hother {v : Vector UInt32 MAX_DACs} {ch ch' : Fin MAX_DACs} (x : UInt32) (hne : ch' ≠ ch) :
      v[ch'] = (v.set ch x ch.isLt)[ch'] :=
    (Vector.getElem_set_ne _ _ fun heq => hne (Fin.ext heq.symm)).symm
  cases h
  case Model h =>
    cases cell
    case model => exact absurd (by rw [TItemBody.writes, h]; exact List.mem_cons_self) hcell
    all_goals rfl
  case SerialNumber h =>
    cases cell
    case serialNumber => exact absurd (by rw [TItemBody.writes, h]; exact List.mem_cons_self) hcell
    all_goals rfl
  case dacScale ch x h =>
    cases cell
    case dacScale ch' => exact hother x fun heq => hcell (heq ▸ h)
    all_goals rfl
  case dacOffset ch x h =>
    cases cell
    case dacOffset ch' => exact hother x fun heq => hcell (heq ▸ h)
    all_goals rfl
  case dacRange ch p h hwrite hch =>
    cases cell
    case dacRange ch' =>
      refine hother p.dacRange fun heq => hcell ?_
      rw [TItemBody.writes, h]
      simp only [hwrite, if_true]
      refine List.mem_map_of_mem (mem_namedChannels.mpr ?_)
      rw [heq, ← hch]
      rfl
    all_goals rfl
  all_goals cases cell <;> rfl

end EnetTcp
