import EnetTcp.Acceptance
import EnetTcp.AdcCells
import EnetTcp.Calls
import EnetTcp.Serving

/-!
# Failures that a reply does not tell (RunMessage and the `Go`s of the data items)

`RunMessage` answers `E` when a `Go` throws or leaves a result code. Most `Go`s that fail do
neither: they write to the log and return.

1. `FailureKind`, `Fails`: what can go wrong with an item.
2. `Quiet`: programs that throw nothing, and `Go`s that report nothing.
3. `configWrites_run`: the files that an item writes.
4. `failures_reported_iff`: of all failures, the one of a register write that waits for a busy
   device is told.
-/

namespace EnetTcp

open Prog CallLemmas

variable {ε : Type}

/-! ## 1. What can go wrong -/

/-- The submux and the gain group that an item names. -/
def Params.submux : Params → Option (UInt8 × UInt8)
  | .TBRD_SubmuxScale p | .TBRD_SubmuxOffset p => some (p.submuxIndex, p.gainGroupIndex)
  | .TBRD_GetSubmuxScale p | .TBRD_GetSubmuxOffset p => do
    return (← p.submuxIndex, ← p.gainGroupIndex)
  | _ => none

/-- The channel group or the range that an ADC item names. -/
def Params.adcIndex : Params → Option UInt8
  | .TADC_Differential1 p | .TADC_Range1 p => p.map ADC_GroupParams.channelGroup
  | .TADC_Scale1 p | .TADC_Offset1 p => p.map ADC_CalParams.rangeIndex
  | .TADC_Calibration1 p => p.map ADC_Calibration1Params.rangeIndex
  | _ => none

/-- The digital line that an item names. -/
def Params.dioBit : Params → Option UInt8
  | .TDIO_ConfigureBit p | .TDIO_OutputBit p => p.map DIO_BitParams.bitNumber
  | .TDIO_InputBit p => p.bitNumber
  | .TDIO_ClearBit b | .TDIO_SetBit b | .TDIO_ToggleBit b => b
  | _ => none

/-- The register that a lambda works on. -/
def GoLambda.offset (l : GoLambda) (buf : TBytes) : Option Nat :=
  match l with
  | .REG_ClearBits | .REG_ToggleBits | .REG_SetBits => buf.head?.map UInt8.toNat
  | _ => none

/-- The register that an item names. -/
def TItemBody.registerOffset (this : TItemBody) (id : DataItemIds) : Option Nat :=
  match this.params with
  | .TREG_Read1 p => some p.offset
  | .TREG_Write1 Writes => Writes.head?.map fun w => w.offset.toNat
  | .TREG_ReadBit p => p.target.map fun t => t.offset.toNat
  | .TREG_WriteBit p => p.map fun p => p.offset.toNat
  | .TREG_ClearBit p | .TREG_SetBit p | .TREG_ToggleBit p => p.map fun p => p.offset.toNat
  | .TDataItemRaw => ((DIdDict.find id).bind TDIdDictEntry.go).bind fun l => l.offset this.Data
  | _ => none

/-- The busy bit of the device behind a register. -/
def deviceBusyBit (ofs : Nat) : Option (Nat × UInt32) :=
  if ofs = ofsDac then some (ofsDacSpiBusy, bmDacSpiBusy)
  else if ofs = ofsDioDirections ∨ ofs = ofsDioOutputs ∨ ofs = ofsDioInputs then
    some (ofsDioSpiBusy, bmDioSpiBusy)
  else none

/-- The busy bit that an item waits for. -/
def Params.busyBit : Params → Option (Nat × UInt32)
  | .TREG_Write1 Writes => Writes.head?.bind fun w => deviceBusyBit w.offset.toNat
  | .TDAC_Output _ | .TDAC_OutputV _ => deviceBusyBit ofsDac
  | _ => none

def Params.isScan : Params → Bool
  | .TADC_RawAll | .TADC_CountsAll | .TADC_VoltsAll => true
  | _ => false

/-- The keys that `SaveBrdConfig` writes, with their contents. -/
def brdWrites (c : TConfig) : List (TBytes × TBytes) :=
  [(text "BRD_Description", c.Description), (text "BRD_Model", c.Model),
    (text "BRD_NumberOfAdcChannels", to_hex 1 c.adcChannels.toNat),
    (text "BRD_SerialNumber", c.SerialNumber)]

def dacScaleWrite (dacnum : Nat) (scale : FloatBits) : TBytes × TBytes :=
  (text "DAC_ScaleCh" ++ toDecimal dacnum, to_hex 4 scale.toNat)

def dacOffsetWrite (dacnum : Nat) (offset : FloatBits) : TBytes × TBytes :=
  (text "DAC_OffsetCh" ++ toDecimal dacnum, to_hex 4 offset.toNat)

/-- The writes for the channel that the data begins with. -/
def channelWrites (buf : TBytes) (f : Nat → Option (List (TBytes × TBytes))) :
    List (TBytes × TBytes) :=
  match buf with
  | ch :: _ => if ch < 4 then (f ch.toNat).getD [] else []
  | [] => []

/-- One write for each of the first `n` floats of the data. -/
def floatWrites (buf : TBytes) (n : Nat) (f : Nat → FloatBits → TBytes × TBytes) :
    List (TBytes × TBytes) :=
  (List.range n).filterMap fun dacnum => (readU32 buf (dacnum * 4)).map (f dacnum)

/-- The keys that a lambda writes. -/
def GoLambda.configWrites (l : GoLambda) (buf : TBytes) : List (TBytes × TBytes) :=
  match l with
  | .DAC_Calibrate1 => channelWrites buf fun ch => do
    let offset ← readU32 buf 1
    let scale ← readU32 buf 5
    return [dacScaleWrite ch scale, dacOffsetWrite ch offset]
  | .DAC_Offset1 => channelWrites buf fun ch => do
    return [dacOffsetWrite ch (← readU32 buf 1)]
  | .DAC_Scale1 => channelWrites buf fun ch => do
    return [dacScaleWrite ch (← readU32 buf 1)]
  | .DAC_OffsetAll => floatWrites buf (buf.length / 4) dacOffsetWrite
  | .DAC_ScaleAll => floatWrites buf (min (buf.length / 4) 4) dacScaleWrite
  | _ => []

/-- The keys of the current configuration that an item writes. -/
def TItemBody.configWrites (this : TItemBody) (id : DataItemIds) (c : TConfig) :
    List (TBytes × TBytes) :=
  match this.params with
  | .TBRD_Model => brdWrites { c with
      Model := this.rawBytes
      adcChannels := (enet_ai_parse_adc_channel_count (c_str this.rawBytes)).2 }
  | .TBRD_SerialNumber => brdWrites { c with SerialNumber := this.rawBytes }
  | .TDAC_Range1 p =>
    if this.bWrite then
      [(text "DAC_RangeCh" ++ toDecimal p.dacChannel.toNat, to_hex 4 p.dacRange.toNat)]
    else []
  | .TDataItemRaw =>
    (((DIdDict.find id).bind TDIdDictEntry.go).map fun l => l.configWrites this.Data).getD []
  | _ => []

section

variable {σ α : Type}

/-- Write the keys one after the other, and give the results. -/
def writeKeys (env : Env ε) (fuel : Nat) (ws : List (TBytes × TBytes)) :
    Prog Exn (Sys ε) (List Int) :=
  ws.mapM fun w => WriteConfigString env fuel w.1 w.2

/-- The program gives such a value. -/
def Gives (p : Prog Exn σ α) (s : σ) (P : α → Prop) : Prop :=
  ∃ a s', p.exec s = some (.ok a, s') ∧ P a

/-- The program ends with an exception. -/
def Raises (p : Prog Exn σ α) (s : σ) : Prop := ∃ x s', p.exec s = some (.error x, s')

end

/-- What can go wrong with an item. -/
inductive FailureKind
  | submuxIndex | gainGroup | adcIndex | dioBit | registerOffset | modelString | hostname
  | submuxCount | uploadName | busyWait | scan | configFile | hostnameFile | uploadFile

/-- The host name that is asked for. -/
def requestedName (hostname : TBytes) : TBytes := SanitizeHostname (c_str hostname)

/-- What goes wrong with an item that is run on a machine. -/
def Fails (pf : Platform) (env : Env ε) (item : TDataItem) (m : Machine ε) : FailureKind → Prop
  | .submuxIndex => ∃ p, item.params.submux = some p ∧ maxSubmuxes ≤ p.1.toNat
  | .gainGroup => ∃ p, item.params.submux = some p ∧ gainGroupsPerSubmux ≤ p.2.toNat
  | .adcIndex => ∃ i, item.params.adcIndex = some i ∧ 8 ≤ i.toNat
  | .dioBit => ∃ b, item.params.dioBit = some b ∧ 16 ≤ b.toNat
  | .registerOffset => ∃ ofs, item.registerOffset item.DId = some ofs ∧ widthFromOffset ofs = 0
  | .modelString => item.params = .TBRD_Model ∧
    ((enet_ai_parse_dac_count (c_str item.rawBytes)).1 ≠ 0 ∨
      (enet_ai_parse_adc_channel_count (c_str item.rawBytes)).1 ≠ 0)
  | .hostname => ∃ hostname, item.params = .TCFG_Hostname hostname ∧
    IsValidHostname (requestedName hostname) = false
  | .submuxCount => ∃ value, item.params = .TBRD_NumberOfSubmuxes value ∧
    validSubmuxCount m.Config.features value = false
  | .uploadName => item.params = .TSYS_UploadFileName ∧ item.Data = []
  | .busyWait => ∃ b, item.params.busyBit = some b ∧
    Gives (WaitUntilRegisterBitIsLow env b.1 b.2) m.sys fun rc => rc ≠ 0
  | .scan => item.params.isScan = true ∧
    Gives (ADC_AcquireScanRaw env pf.fuel) m.sys fun r => r.1 ≠ 0
  | .configFile =>
    Gives (writeKeys env pf.fuel (item.configWrites item.DId m.Config)) m.sys fun rcs =>
      ∃ rc ∈ rcs, rc ≠ 0
  | .hostnameFile => ∃ hostname, item.params = .TCFG_Hostname hostname ∧
    IsValidHostname (requestedName hostname) = true ∧
    Raises (do
      WriteFileAtomic env (text "/etc/hostname") (requestedName hostname ++ [10])
      UpdateEtcHosts127011 env (requestedName hostname)) m.sys
  | .uploadFile => (item.params = .TSYS_UploadFileName ∧ Raises (uploadFileName env item.Data) m) ∨
    (item.params = .TSYS_UploadFileData ∧ Raises (uploadFileData env item.Data) m)

/-- The `Go` of the item throws or leaves a result code, and `RunMessage` answers `E`. -/
structure Reported (pf : Platform) (env : Env ε) (msg : TMessage) (item : TDataItem)
    (m : Machine ε) : Prop where
  go : ∃ q m', goItem pf env item m = some (q, m') ∧
    ((∃ x, q.1 = .error x) ∨ q.2.resultCode ≠ ERR_SUCCESS)
  reply : ∀ (w w' : World ε) (before after : List TDataItem) (qs : List GoResult)
    (reply : TMessage), msg.DataItems = before ++ item :: after →
    goItems pf env before w.machine = some (qs, m) →
    (RunMessage pf (daemonGo pf env) msg).exec w = some (.ok reply, w') → reply.Id = 69

/-- The item writes a register. -/
def Params.IsWrite1 (params : Params) : Prop := ∃ Writes, params = .TREG_Write1 Writes

/-! ## 2. What throws nothing -/

/-- No run of the program ends with an exception. -/
def Quiet {σ α : Type} (p : Prog Exn σ α) : Prop := Throws (fun _ => False) p

namespace FailureLemmas

section Sys

variable (env : Env ε)

theorem quiet_syscall (c : SysCall) : Quiet (syscall env c) := fun _ _ _ h => by cases h

/-- What is made of calls only throws nothing. -/
theorem quiet_closed : Closed (σ := Sys ε) fun _ p => Quiet p := closed_throws

theorem quiet_call (c : SysCall) (_ : c.isRename = false) (_ : c.isRegisterWrite = false) :
    Quiet (syscall env c) :=
  quiet_syscall env c

theorem quiet_in (ofs : Nat) : Quiet (in_ env ofs) := made_in quiet_closed (quiet_call env) ofs

theorem quiet_out (ofs : Nat) (value : UInt32) : Quiet (out env ofs value) :=
  made_out quiet_closed (fun _ => quiet_syscall env _) (fun _ => quiet_syscall env _) value

theorem quiet_modifyBit (ofs : Nat) (bit : UInt8) (f : UInt32 → UInt32 → UInt32) :
    Quiet (modifyBit env ofs bit f) :=
  made_modifyBit quiet_closed (quiet_call env) (quiet_out env ofs) bit f

theorem quiet_regBits (f : UInt32 → UInt32 → UInt32) (buf : TBytes) :
    Quiet (REG_Bits.go env f buf) :=
  made_regBits quiet_closed (quiet_call env) (fun _ _ => quiet_out env _) f

theorem quiet_scan (fuel : Nat) (reduce : List UInt32 → TAdcScanCfg → TBytes) :
    Quiet (ADC_Scan.Go env fuel reduce) :=
  made_scan quiet_closed (quiet_call env) (quiet_out env _) (quiet_out env _) (quiet_out env _) fuel
    reduce

theorem quiet_writeConfigString (fuel : Nat) (key value : TBytes) :
    Quiet (WriteConfigString env fuel key value) :=
  throws_bind (made_mkdirP quiet_closed (quiet_call env) _) fun _ =>
    made_atomicWrite quiet_closed (quiet_call env) (quiet_syscall env _) fuel value

theorem quiet_hostname (requested : TBytes) : Quiet (TCFG_Hostname.apply env requested) := by
  refine throws_ite (throws_pure _) (throws_bind (throws_attempt _) fun r => ?_)
  cases r with
  | error => exact throws_pure _
  | ok =>
    exact throws_bind (throws_attempt _) fun _ => throws_bind (quiet_syscall env _) fun _ =>
      throws_bind (made_systemIfPresent quiet_closed (quiet_call env) _ _ _) fun _ =>
        throws_bind (made_systemIfPresent quiet_closed (quiet_call env) _ _ _) fun _ =>
          throws_pure _

end Sys

section Machine

variable (env : Env ε)

theorem quiet_io {α : Type} {p : Prog Exn (Sys ε) α} (hp : Quiet p) : Quiet (io p) :=
  throws_zoom hp

theorem quiet_getSubmux (table : TConfig → SubmuxTable) (p : GetSubmuxParams) :
    Quiet (GetSubmuxParams.Go (ε := ε) table p) :=
  throws_bind (throws_ofOption _) fun _ => throws_bind (throws_ofOption _) fun _ =>
    throws_bind throws_get fun _ => throws_pure _

theorem quiet_numberOfSubmuxes (value : UInt8) : Quiet (TBRD_NumberOfSubmuxes.Go (ε := ε) value) :=
  throws_bind throws_get fun _ => throws_ite (throws_set _) (throws_pure _)

theorem quiet_setAdcScale (i : Nat) (scale : FloatBits) : Quiet (setAdcScale (ε := ε) i scale) :=
  throws_bind throws_get fun _ => throws_bind (throws_ofOption _) fun _ => throws_set _

theorem quiet_setAdcOffset (i : Nat) (offset : FloatBits) :
    Quiet (setAdcOffset (ε := ε) i offset) :=
  throws_bind throws_get fun _ => throws_bind (throws_ofOption _) fun _ => throws_set _

theorem quiet_setDacScale (i : Nat) (scale : FloatBits) : Quiet (setDacScale (ε := ε) i scale) :=
  throws_bind throws_get fun _ => throws_bind (throws_ofOption _) fun _ => throws_set _

theorem quiet_setDacOffset (i : Nat) (offset : FloatBits) :
    Quiet (setDacOffset (ε := ε) i offset) :=
  throws_bind throws_get fun _ => throws_bind (throws_ofOption _) fun _ => throws_set _

theorem quiet_calibrateScale (i : Nat) (scale : FloatBits) : Quiet (calibrateScale env i scale) :=
  throws_bind (quiet_io (quiet_out env _ _)) fun _ => quiet_setAdcScale i scale

theorem quiet_calibrateOffset (i : Nat) (offset : FloatBits) :
    Quiet (calibrateOffset env i offset) :=
  throws_bind (quiet_io (quiet_out env _ _)) fun _ => quiet_setAdcOffset i offset

theorem quiet_calibrateBoth (i : Nat) (scale offset : FloatBits) :
    Quiet (calibrateBoth env i scale offset) :=
  throws_bind (quiet_io (quiet_out env _ _)) fun _ =>
    throws_bind (quiet_io (quiet_out env _ _)) fun _ =>
      throws_bind (quiet_setAdcScale i scale) fun _ => quiet_setAdcOffset i offset

theorem quiet_hostnameGo (hostname : TBytes) : Quiet (TCFG_Hostname.Go env hostname) :=
  throws_bind (quiet_io (quiet_hostname env _)) fun _ =>
    throws_ite (throws_modify _) (throws_pure _)

end Machine

end FailureLemmas

/-! ## 3. What a `Go` writes -/

/-- Every run of the program writes these keys, calls nothing else, and ends without an
exception. -/
def Writes (env : Env ε) (fuel : Nat) (ws : List (TBytes × TBytes)) {α : Type}
    (p : Prog Exn (Machine ε) α) : Prop :=
  ∀ m r m', p.exec m = some (r, m') → (∃ a, r = .ok a) ∧
    ∃ rcs, (writeKeys env fuel ws).exec m.sys = some (.ok rcs, m'.sys)

namespace FailureLemmas

variable {env : Env ε} {fuel : Nat} {ws ws' : List (TBytes × TBytes)} {α β : Type}

theorem writeKeys_append {s s₁ s₂ : Sys ε} {rcs rcs' : List Int}
    (h : (writeKeys env fuel ws).exec s = some (.ok rcs, s₁))
    (h' : (writeKeys env fuel ws').exec s₁ = some (.ok rcs', s₂)) :
    (writeKeys env fuel (ws ++ ws')).exec s = some (.ok (rcs ++ rcs'), s₂) := by
  rw [writeKeys] at h h'
  rw [writeKeys, List.mapM_append, exec_bind_ok h, exec_bind, h']
  rfl

theorem writes_bind {p : Prog Exn (Machine ε) α} {f : α → Prog Exn (Machine ε) β}
    (hp : Writes env fuel ws p) (hf : ∀ a, Writes env fuel ws' (f a)) :
    Writes env fuel (ws ++ ws') (p >>= f) := by
  intro m r m' h
  rw [exec_bind, Option.bind_eq_some_iff] at h
  obtain ⟨⟨q, m₁⟩, hq, h⟩ := h
  obtain ⟨⟨a, rfl⟩, rcs, hrcs⟩ := hp m q m₁ hq
  obtain ⟨hr, rcs', hrcs'⟩ := hf a m₁ r m' h
  exact ⟨hr, _, writeKeys_append hrcs hrcs'⟩

/-- A program that leaves the outside alone. -/
theorem writes_none {p : Prog Exn (Machine ε) α} (hp : Quiet p)
    (hsys : ∀ m r m', p.exec m = some (r, m') → m'.sys = m.sys) : Writes env fuel [] p := by
  intro m r m' h
  refine ⟨?_, [], ?_⟩
  · cases r with
    | ok a => exact ⟨a, rfl⟩
    | error x => exact absurd (hp m x m' h) not_false
  · rw [hsys m r m' h]
    rfl

theorem writes_pure (a : α) : Writes env fuel [] (pure a) :=
  writes_none (throws_pure a) fun m r m' h => by
    cases h
    rfl

theorem writes_write (key value : TBytes) :
    Writes env fuel [(key, value)] (io (WriteConfigString env fuel key value)) := by
  intro m r m' h
  rw [io, exec_zoom, Option.map_eq_some_iff] at h
  obtain ⟨⟨q, s⟩, hq, h⟩ := h
  cases h
  cases q with
  | error x => exact absurd (quiet_writeConfigString env fuel key value _ x s hq) not_false
  | ok rc =>
    refine ⟨⟨rc, rfl⟩, [rc], ?_⟩
    rw [writeKeys, List.mapM_cons, exec_bind, hq]
    rfl

theorem io_bind (p : Prog Exn (Sys ε) α) (f : α → Prog Exn (Sys ε) β) :
    io (p >>= f) = io p >>= fun a => io (f a) := by
  refine ext_exec fun m => ?_
  rw [exec_bind, io, io, exec_zoom, exec_zoom, exec_bind]
  cases p.exec m.sys with
  | none => rfl
  | some q =>
    obtain ⟨q, s⟩ := q
    cases q <;> rfl

theorem writes_saveBrdConfig (c : TConfig) :
    Writes env fuel (brdWrites c) (io (SaveBrdConfig env fuel c)) := by
  simp only [SaveBrdConfig, io_bind]
  exact writes_bind (writes_write _ _) fun _ => writes_bind (writes_write _ _) fun _ =>
    writes_bind (writes_write _ _) fun _ => writes_bind (writes_write _ _) fun _ => writes_pure true

theorem exec_setDacScale {i : Nat} (hi : i < MAX_DACs) (scale : FloatBits) (m : Machine ε) :
    (setDacScale i scale).exec m = some (.ok (), { m with Config := { m.Config with
      dacScaleCoefficients := m.Config.dacScaleCoefficients.set i scale hi } }) := by
  have hset : setDac m.Config.dacScaleCoefficients i scale =
      some (m.Config.dacScaleCoefficients.set i scale hi) := dif_pos hi
  rw [setDacScale, exec_get_bind, hset]
  rfl

theorem exec_setDacOffset {i : Nat} (hi : i < MAX_DACs) (offset : FloatBits) (m : Machine ε) :
    (setDacOffset i offset).exec m = some (.ok (), { m with Config := { m.Config with
      dacOffsetCoefficients := m.Config.dacOffsetCoefficients.set i offset hi } }) := by
  have hset : setDac m.Config.dacOffsetCoefficients i offset =
      some (m.Config.dacOffsetCoefficients.set i offset hi) := dif_pos hi
  rw [setDacOffset, exec_get_bind, hset]
  rfl

theorem writes_setDacScale (dacnum : Nat) (scale : FloatBits) :
    Writes env fuel [] (setDacScale dacnum scale) := by
  refine writes_none (quiet_setDacScale dacnum scale) fun m r m' h => ?_
  rw [setDacScale, exec_get_bind] at h
  obtain ⟨v, -, h⟩ := ofOption_bind_some h
  cases h
  rfl

theorem writes_setDacOffset (dacnum : Nat) (offset : FloatBits) :
    Writes env fuel [] (setDacOffset dacnum offset) := by
  refine writes_none (quiet_setDacOffset dacnum offset) fun m r m' h => ?_
  rw [setDacOffset, exec_get_bind] at h
  obtain ⟨v, -, h⟩ := ofOption_bind_some h
  cases h
  rfl

theorem writes_dacScale (dacnum : Nat) (scale : FloatBits) : Writes env fuel
    [dacScaleWrite dacnum scale] (io (writeDacScale env fuel dacnum scale)) :=
  writes_write _ _

theorem writes_dacOffset (dacnum : Nat) (offset : FloatBits) : Writes env fuel
    [dacOffsetWrite dacnum offset] (io (writeDacOffset env fuel dacnum offset)) :=
  writes_write _ _

/-- A loop whose rounds write a key each, where they are defined. -/
theorem writes_forM {step : Nat → Prog Exn (Machine ε) PUnit} {w : Nat → Option (TBytes × TBytes)}
    (xs : List Nat) (hsome : ∀ k kv, w k = some kv → Writes env fuel [kv] (step k))
    (hnone : ∀ k m, w k = none → (step k).exec m = none) :
    Writes env fuel (xs.filterMap w) (xs.forM step) := by
  induction xs with
  | nil => exact writes_pure _
  | cons k xs ih =>
    cases hk : w k with
    | none =>
      intro m r m' h
      have hrun : (k :: xs).forM step = step k >>= fun _ => xs.forM step := rfl
      rw [hrun, exec_bind, hnone k m hk] at h
      cases h
    | some kv =>
      rw [List.filterMap_cons_some hk]
      exact writes_bind (hsome k kv hk) fun _ => ih

theorem writes_offsetAll (buf : TBytes) (n : Nat) : Writes env fuel
    (floatWrites buf n dacOffsetWrite) ((List.range n).forM (DAC_OffsetAll.step env fuel buf)) := by
  refine writes_forM _ (fun k kv hk => ?_) fun k m hk => ?_
  · obtain ⟨offset, hread, rfl⟩ := Option.map_eq_some_iff.mp hk
    rw [DAC_OffsetAll.step, hread]
    exact writes_bind (writes_setDacOffset k offset) fun _ =>
      writes_bind (writes_dacOffset k offset) fun _ => writes_pure _
  · rw [DAC_OffsetAll.step, Option.map_eq_none_iff.mp hk]
    rfl

theorem writes_scaleAll (buf : TBytes) (n : Nat) : Writes env fuel
    (floatWrites buf n dacScaleWrite) ((List.range n).forM (DAC_ScaleAll.step env fuel buf)) := by
  refine writes_forM _ (fun k kv hk => ?_) fun k m hk => ?_
  · obtain ⟨scale, hread, rfl⟩ := Option.map_eq_some_iff.mp hk
    rw [DAC_ScaleAll.step, hread]
    exact writes_bind (writes_setDacScale k scale) fun _ =>
      writes_bind (writes_dacScale k scale) fun _ => writes_pure _
  · rw [DAC_ScaleAll.step, Option.map_eq_none_iff.mp hk]
    rfl

theorem lambdaChannel_pass {σ : Type} {ch : UInt8} (rest : TBytes) (line : Nat) (h : ch < 4) :
    (lambdaChannel (ch :: rest) line : Prog Exn σ Nat) = pure ch.toNat := by
  show (GUARD (decide (ch < 4)) _ _ _ >>= _) = _
  rw [GuardLemmas.guard_pass (decide_eq_true h), pure_bind]

theorem calibrate_go {ch : UInt8} {rest : TBytes} {offset scale : FloatBits} (hch : ch < 4)
    (hoffset : readU32 (ch :: rest) 1 = some offset)
    (hscale : readU32 (ch :: rest) 5 = some scale) :
    DAC_Calibrate1.go env fuel (ch :: rest) = (do
      setDacScale ch.toNat scale
      setDacOffset ch.toNat offset
      let _ ← io (writeDacScale env fuel ch.toNat scale)
      let _ ← io (writeDacOffset env fuel ch.toNat offset)) := by
  rw [DAC_Calibrate1.go, lambdaChannel_pass rest 186 hch, pure_bind, hoffset, hscale]
  rfl

theorem offset1_go {ch : UInt8} {rest : TBytes} {offset : FloatBits} (hch : ch < 4)
    (hoffset : readU32 (ch :: rest) 1 = some offset) :
    DAC_Offset1.go env fuel (ch :: rest) = (do
      setDacOffset ch.toNat offset
      let _ ← io (writeDacOffset env fuel ch.toNat offset)) := by
  rw [DAC_Offset1.go, lambdaChannel_pass rest 210 hch, pure_bind, hoffset]
  rfl

theorem scale1_go {ch : UInt8} {rest : TBytes} {scale : FloatBits} (hch : ch < 4)
    (hscale : readU32 (ch :: rest) 1 = some scale) :
    DAC_Scale1.go env fuel (ch :: rest) = (do
      setDacScale ch.toNat scale
      let _ ← io (writeDacScale env fuel ch.toNat scale)) := by
  rw [DAC_Scale1.go, lambdaChannel_pass rest 243 hch, pure_bind, hscale]
  rfl

/-- Writes of one channel are those of a channel that exists. -/
theorem channelWrites_cases {buf : TBytes} {f : Nat → Option (List (TBytes × TBytes))}
    (h : channelWrites buf f ≠ []) :
    ∃ ch rest ws, buf = ch :: rest ∧ ch < 4 ∧ f ch.toNat = some ws ∧ channelWrites buf f = ws := by
  cases buf with
  | nil => exact absurd rfl h
  | cons ch rest =>
    unfold channelWrites at h ⊢
    dsimp only at h ⊢
    by_cases hch : ch < 4
    · rw [if_pos hch] at h ⊢
      cases hf : f ch.toNat with
      | none => exact absurd (by rw [hf]; rfl) h
      | some ws => exact ⟨ch, rest, ws, rfl, hch, hf, rfl⟩
    · exact absurd (if_neg hch) h

theorem lambda_writes {l : GoLambda} {buf : TBytes} (h : l.configWrites buf ≠ []) :
    Writes env fuel (l.configWrites buf) (l.run env fuel buf) := by
  cases l with
  | BRD_REBOOT | REG_ClearBits | REG_ToggleBits | REG_SetBits => exact absurd rfl h
  | DAC_Calibrate1 =>
    unfold GoLambda.configWrites at h ⊢
    obtain ⟨ch, rest, ws, rfl, hch, hf, hws⟩ := channelWrites_cases h
    obtain ⟨offset, hoffset, hf⟩ := Option.bind_eq_some_iff.mp hf
    obtain ⟨scale, hscale, hf⟩ := Option.bind_eq_some_iff.mp hf
    cases hf
    rw [hws, GoLambda.run, calibrate_go hch hoffset hscale]
    exact writes_bind (writes_setDacScale _ scale) fun _ =>
      writes_bind (writes_setDacOffset _ offset) fun _ =>
        writes_bind (writes_dacScale _ scale) fun _ =>
          writes_bind (writes_dacOffset _ offset) fun _ => writes_pure _
  | DAC_Offset1 =>
    unfold GoLambda.configWrites at h ⊢
    obtain ⟨ch, rest, ws, rfl, hch, hf, hws⟩ := channelWrites_cases h
    obtain ⟨offset, hoffset, hf⟩ := Option.bind_eq_some_iff.mp hf
    cases hf
    rw [hws, GoLambda.run, offset1_go hch hoffset]
    exact writes_bind (writes_setDacOffset _ offset) fun _ =>
      writes_bind (writes_dacOffset _ offset) fun _ => writes_pure _
  | DAC_Scale1 =>
    unfold GoLambda.configWrites at h ⊢
    obtain ⟨ch, rest, ws, rfl, hch, hf, hws⟩ := channelWrites_cases h
    obtain ⟨scale, hscale, hf⟩ := Option.bind_eq_some_iff.mp hf
    cases hf
    rw [hws, GoLambda.run, scale1_go hch hscale]
    exact writes_bind (writes_setDacScale _ scale) fun _ =>
      writes_bind (writes_dacScale _ scale) fun _ => writes_pure _
  | DAC_OffsetAll => exact writes_offsetAll buf _
  | DAC_ScaleAll => exact writes_scaleAll buf _

end FailureLemmas

/-- Every run of the `Go` returns and leaves the result code as it was. -/
def Silent (pf : Platform) (env : Env ε) (id : DataItemIds) (this : TItemBody) (m : Machine ε) :
    Prop :=
  ∀ r s', (Go pf env id).exec (this, m) = some (r, s') →
    (∃ a, r = .ok a) ∧ s'.1.resultCode = this.resultCode

namespace FailureLemmas

variable {pf : Platform} {env : Env ε} {id : DataItemIds} {this : TItemBody} {m : Machine ε}

/-- A `Go` that is a program on the machine, and what it keeps in the item. -/
theorem silent_update {α : Type} {p : Prog Exn (Machine ε) α} {f : α → TItemBody → TItemBody}
    (hp : Quiet p) (hf : ∀ a this, (f a this).resultCode = this.resultCode)
    (hgo : (Go pf env id).exec (this, m) =
      (onMachine p >>= fun a => updateItem (f a)).exec (this, m)) : Silent pf env id this m := by
  intro r s' h
  rw [hgo, exec_bind, onMachine, exec_zoom] at h
  cases hrun : p.exec m with
  | none =>
    rw [hrun] at h
    cases h
  | some q =>
    obtain ⟨q, m'⟩ := q
    rw [hrun] at h
    cases q with
    | error x => exact absurd (hp m x m' hrun) not_false
    | ok a =>
      cases h
      exact ⟨⟨_, rfl⟩, hf a this⟩

theorem silent_onMachine {p : Prog Exn (Machine ε) Unit} (hp : Quiet p)
    (hgo : (Go pf env id).exec (this, m) = (onMachine p).exec (this, m)) :
    Silent pf env id this m := by
  intro r s' h
  rw [hgo, onMachine, exec_zoom, Option.map_eq_some_iff] at h
  obtain ⟨⟨q, m'⟩, hrun, h⟩ := h
  cases h
  cases q with
  | error x => exact absurd (hp m x m' hrun) not_false
  | ok a => exact ⟨⟨a, rfl⟩, rfl⟩

theorem model_writes (rawBytes : TBytes) {r : Except Exn Unit} {m' : Machine ε} {fuel : Nat}
    (h : (TBRD_Model.Go env fuel rawBytes).exec m = some (r, m')) :
    (∃ a, r = .ok a) ∧ ∃ rcs, (writeKeys env fuel (brdWrites { m.Config with
      Model := rawBytes
      adcChannels := (enet_ai_parse_adc_channel_count (c_str rawBytes)).2 })).exec m.sys =
        some (.ok rcs, m'.sys) := by
  rw [TBRD_Model.Go, exec_get_bind, exec_set_bind] at h
  obtain ⟨hr, rcs, hrcs⟩ :=
    writes_bind (writes_saveBrdConfig _) (fun _ => writes_pure ()) _ r m' h
  exact ⟨hr, rcs, hrcs⟩

theorem serialNumber_writes (rawBytes : TBytes) {r : Except Exn Unit} {m' : Machine ε} {fuel : Nat}
    (h : (TBRD_SerialNumber.Go env fuel rawBytes).exec m = some (r, m')) :
    (∃ a, r = .ok a) ∧ ∃ rcs, (writeKeys env fuel (brdWrites { m.Config with
      SerialNumber := rawBytes })).exec m.sys = some (.ok rcs, m'.sys) := by
  rw [TBRD_SerialNumber.Go, exec_get_bind, exec_set_bind] at h
  obtain ⟨hr, rcs, hrcs⟩ :=
    writes_bind (writes_saveBrdConfig _) (fun _ => writes_pure ()) _ r m' h
  exact ⟨hr, rcs, hrcs⟩

theorem range1_writes (p : DAC_RangeParams) {fuel : Nat} : Writes env fuel
    [(text "DAC_RangeCh" ++ toDecimal p.dacChannel.toNat, to_hex 4 p.dacRange.toNat)]
    (TDAC_Range1.Go env fuel p true) := by
  have hkeep (rc : Int) : Writes env fuel [] (do
      let m ← get
      if rc < 0 then
        let old ← Prog.ofOption m.Config.dacRanges[p.dacChannel.toNat]?
        return { p with dacRange := old }
      else
        let dacRanges ← Prog.ofOption (setDac m.Config.dacRanges p.dacChannel.toNat p.dacRange)
        set { m with Config := { m.Config with dacRanges } }
        return p) := by
    refine writes_none (throws_bind throws_get fun _ => throws_ite
      (throws_bind (throws_ofOption _) fun _ => throws_pure _)
      (throws_bind (throws_ofOption _) fun _ => throws_bind (throws_set _) fun _ =>
        throws_pure _)) fun m r m' h => ?_
    rw [exec_get_bind] at h
    split at h
    · obtain ⟨_, -, h⟩ := ofOption_bind_some h
      cases h
      rfl
    · obtain ⟨_, -, h⟩ := ofOption_bind_some h
      cases h
      rfl
  exact writes_bind (writes_write _ _) hkeep

end FailureLemmas

open FailureLemmas

/-- The files of the current configuration that a `Go` writes are those of `configWrites`, and
their results are not told. -/
theorem configWrites_run {pf : Platform} {env : Env ε} {id : DataItemIds} {this : TItemBody}
    {m : Machine ε} {r : Except Exn Unit} {s' : TItemBody × Machine ε}
    (h : (Go pf env id).exec (this, m) = some (r, s'))
    (hne : this.configWrites id m.Config ≠ []) :
    ((∃ a, r = .ok a) ∧ s'.1.resultCode = this.resultCode) ∧
      ∃ rcs, (writeKeys env pf.fuel (this.configWrites id m.Config)).exec m.sys =
        some (.ok rcs, s'.2.sys) := by
  obtain ⟨params, Data, rawBytes, resultCode, bWrite⟩ := this
  rw [Go, exec_get_bind] at h
  cases params <;> dsimp only at h
  case TBRD_Model =>
    rw [onMachine, exec_zoom, Option.map_eq_some_iff] at h
    obtain ⟨⟨q, m'⟩, hrun, h⟩ := h
    cases h
    obtain ⟨hr, hrcs⟩ := model_writes rawBytes hrun
    exact ⟨⟨hr, rfl⟩, hrcs⟩
  case TBRD_SerialNumber =>
    rw [onMachine, exec_zoom, Option.map_eq_some_iff] at h
    obtain ⟨⟨q, m'⟩, hrun, h⟩ := h
    cases h
    obtain ⟨hr, hrcs⟩ := serialNumber_writes rawBytes hrun
    exact ⟨⟨hr, rfl⟩, hrcs⟩
  case TDAC_Range1 p =>
    cases bWrite with
    | false => exact absurd rfl hne
    | true =>
      rw [exec_bind, onMachine, exec_zoom, Option.bind_eq_some_iff] at h
      obtain ⟨⟨q, s₁⟩, hmap, h⟩ := h
      obtain ⟨⟨q', m'⟩, hrun, heq⟩ := Option.map_eq_some_iff.mp hmap
      cases heq
      obtain ⟨⟨p', rfl⟩, hrcs⟩ := range1_writes p m _ m' hrun
      cases h
      exact ⟨⟨⟨_, rfl⟩, rfl⟩, hrcs⟩
  case TDataItemRaw =>
    unfold TDataItemBase.Go at h
    unfold TItemBody.configWrites at hne ⊢
    cases hlambda : (DIdDict.find id).bind TDIdDictEntry.go with
    | none =>
      rw [hlambda] at hne
      exact absurd rfl hne
    | some l =>
      rw [hlambda] at h hne
      dsimp only at h
      rw [exec_get_bind, onMachine, exec_zoom, Option.map_eq_some_iff] at h
      obtain ⟨⟨q, m'⟩, hrun, h⟩ := h
      cases h
      obtain ⟨hr, hrcs⟩ := lambda_writes hne m q m' hrun
      exact ⟨⟨hr, rfl⟩, hrcs⟩
  all_goals exact absurd rfl hne

/-! ## 4. `Go`s that report nothing -/

/-- The class has failures, and no way to tell of them. -/
def Params.mute : Params → Bool
  | .TBRD_Model | .TBRD_NumberOfSubmuxes _ | .TBRD_SubmuxScale _ | .TBRD_SubmuxOffset _
  | .TBRD_GetSubmuxScale _ | .TBRD_GetSubmuxOffset _ | .TREG_Read1 _ | .TREG_ReadBit _
  | .TREG_WriteBit _ | .TREG_ClearBit _ | .TREG_SetBit _ | .TREG_ToggleBit _ | .TDAC_Output _
  | .TDAC_OutputV _ | .TDIO_ConfigureBit _ | .TDIO_InputBit _ | .TDIO_OutputBit _
  | .TDIO_ClearBit _ | .TDIO_SetBit _ | .TDIO_ToggleBit _ | .TADC_Differential1 _
  | .TADC_Range1 _ | .TADC_Scale1 _ | .TADC_Offset1 _ | .TADC_Calibration1 _ | .TADC_RawAll
  | .TADC_CountsAll | .TADC_VoltsAll | .TCFG_Hostname _ | .TSYS_UploadFileName
  | .TSYS_UploadFileData => true
  | _ => false

namespace FailureLemmas

variable {pf : Platform} {env : Env ε} {id : DataItemIds} {this : TItemBody} {m : Machine ε}

theorem quiet_bit (env : Env ε) (f : UInt32 → UInt32 → UInt32) (p : Option REG_BitParams) :
    Quiet (REG_BitParams.Go env f p) :=
  throws_bind (throws_ofOption _) fun _ => quiet_modifyBit env _ _ _

theorem quiet_dioBit (env : Env ε) (ofs : Nat) (p : Option DIO_BitParams) :
    Quiet (DIO_BitParams.Go env ofs p) :=
  throws_bind (throws_ofOption _) fun _ => quiet_modifyBit env _ _ _

theorem quiet_bitNumber (env : Env ε) (f : UInt32 → UInt32 → UInt32) (b : Option UInt8) :
    Quiet (DIO_BitNumber.Go env f b) :=
  throws_bind (throws_ofOption _) fun _ => quiet_modifyBit env _ _ _

theorem silent_scan {p : Prog Exn (Sys ε) TBytes} (hp : Quiet p)
    (hgo : (Go pf env id).exec (this, m) = (onSys p >>= fun rawBytes =>
      updateItem fun this => { this with rawBytes }).exec (this, m)) : Silent pf env id this m :=
  silent_update (quiet_io hp) (by exact fun _ _ => rfl) hgo

theorem silent_mute (h : this.params.mute = true) : Silent pf env id this m := by
  obtain ⟨params, Data, rawBytes, resultCode, bWrite⟩ := this
  cases params
  case TBRD_Model =>
    refine silent_onMachine (p := TBRD_Model.Go env pf.fuel rawBytes) (fun m x m' hrun => ?_) rfl
    obtain ⟨⟨a, ha⟩, -⟩ := model_writes rawBytes hrun
    cases ha
  case TBRD_NumberOfSubmuxes value => exact silent_onMachine (quiet_numberOfSubmuxes value) rfl
  case TBRD_SubmuxScale q =>
    exact silent_onMachine (p := TBRD_SubmuxScale.Go q) (throws_modify _) rfl
  case TBRD_SubmuxOffset q =>
    exact silent_onMachine (p := TBRD_SubmuxOffset.Go q) (throws_modify _) rfl
  case TBRD_GetSubmuxScale q =>
    exact silent_update (quiet_getSubmux TConfig.submuxScaleFactors q) (by exact fun _ _ => rfl) rfl
  case TBRD_GetSubmuxOffset q =>
    exact silent_update (quiet_getSubmux TConfig.submuxOffsets q) (by exact fun _ _ => rfl) rfl
  case TREG_Read1 q =>
    exact silent_update (p := io (TREG_Read1.Go env q))
      (quiet_io (throws_bind (quiet_in env _) fun _ => throws_pure _))
      (by exact fun _ _ => rfl) rfl
  case TREG_ReadBit q =>
    exact silent_update (p := io (TREG_ReadBit.Go env q))
      (quiet_io (throws_bind (throws_ofOption _) fun _ => throws_bind (quiet_in env _) fun _ =>
        throws_bind (throws_ofOption _) fun _ => throws_pure _)) (by exact fun _ _ => rfl) rfl
  case TREG_WriteBit q =>
    exact silent_onMachine (p := io (TREG_WriteBit.Go env q))
      (quiet_io (throws_bind (throws_ofOption _) fun _ => quiet_modifyBit env _ _ _)) rfl
  case TREG_ClearBit q => exact silent_onMachine (quiet_io (quiet_bit env clearMask q)) rfl
  case TREG_SetBit q => exact silent_onMachine (quiet_io (quiet_bit env setMask q)) rfl
  case TREG_ToggleBit q => exact silent_onMachine (quiet_io (quiet_bit env toggleMask q)) rfl
  case TDAC_Output q | TDAC_OutputV q =>
    exact silent_onMachine (p := io (TDAC_Output.Go env q))
      (quiet_io (made_dacOutput quiet_closed (quiet_call env) (quiet_out env _) q)) rfl
  case TDIO_ConfigureBit q =>
    exact silent_onMachine (quiet_io (quiet_dioBit env ofsDioDirections q)) rfl
  case TDIO_OutputBit q =>
    exact silent_onMachine (quiet_io (quiet_dioBit env ofsDioOutputs q)) rfl
  case TDIO_ClearBit b => exact silent_onMachine (quiet_io (quiet_bitNumber env clearMask b)) rfl
  case TDIO_SetBit b => exact silent_onMachine (quiet_io (quiet_bitNumber env setMask b)) rfl
  case TDIO_ToggleBit b => exact silent_onMachine (quiet_io (quiet_bitNumber env toggleMask b)) rfl
  case TDIO_InputBit q =>
    exact silent_update (p := io (TDIO_InputBit.Go env q))
      (quiet_io (throws_bind (quiet_in env _) fun _ => throws_bind (throws_ofOption _) fun _ =>
        throws_bind (throws_ofOption _) fun _ => throws_pure _)) (by exact fun _ _ => rfl) rfl
  case TADC_Differential1 q =>
    exact silent_onMachine (p := io (TADC_Differential1.Go env q))
      (quiet_io (throws_bind (throws_ofOption _) fun _ =>
        made_setSingleEnded quiet_closed (quiet_call env) (quiet_out env _) _)) rfl
  case TADC_Range1 q =>
    exact silent_onMachine (p := io (TADC_Range1.Go env q))
      (quiet_io (throws_bind (throws_ofOption _) fun _ =>
        made_setRange quiet_closed (quiet_out env _) _)) rfl
  case TADC_Scale1 q =>
    exact silent_onMachine (p := TADC_Scale1.Go env q)
      (throws_bind (throws_ofOption _) fun _ => quiet_calibrateScale env _ _) rfl
  case TADC_Offset1 q =>
    exact silent_onMachine (p := TADC_Offset1.Go env q)
      (throws_bind (throws_ofOption _) fun _ => quiet_calibrateOffset env _ _) rfl
  case TADC_Calibration1 q =>
    exact silent_onMachine (p := TADC_Calibration1.Go env q)
      (throws_bind (throws_ofOption _) fun _ => quiet_calibrateBoth env _ _ _) rfl
  case TADC_RawAll =>
    refine silent_scan (p := TADC_RawAll.Go env pf.fuel) (quiet_scan env _ _) ?_
    rw [Go, exec_bind]
    rfl
  case TADC_CountsAll =>
    refine silent_scan (p := TADC_CountsAll.Go env pf.fuel) (quiet_scan env _ _) ?_
    rw [Go, exec_bind]
    rfl
  case TADC_VoltsAll =>
    refine silent_scan (p := TADC_VoltsAll.Go env pf.fuel) (quiet_scan env _ _) ?_
    rw [Go, exec_bind]
    rfl
  case TCFG_Hostname hostname => exact silent_onMachine (quiet_hostnameGo env hostname) rfl
  case TSYS_UploadFileName =>
    exact silent_onMachine (p := TSYS_UploadFileName.Go env Data)
      (throws_bind (throws_attempt _) fun _ => throws_pure _) rfl
  case TSYS_UploadFileData =>
    exact silent_onMachine (p := TSYS_UploadFileData.Go env Data)
      (throws_bind (throws_attempt _) fun _ => throws_pure _) rfl
  all_goals cases h

end FailureLemmas

namespace FailureLemmas

variable {pf : Platform} {env : Env ε} {m : Machine ε}

/-- The constructor leaves no result code. -/
theorem construct_resultCode {cls : ItemClass} {data : TBytes} {g g' : Globals} {body : TItemBody}
    (h : (construct pf cls data).exec g = some (.ok body, g')) : body.resultCode = ERR_SUCCESS := by
  cases cls
  case TBRD_GetNumberOfAdcChannels | TREG_Write1 | TADC_BaseClock | TSYS_UploadFileName
      | TDAC_Output | TDAC_OutputV | TDAC_Range1 | TADC_StreamStart =>
    obtain ⟨_, _, -, h⟩ := bind_exec_ok h
    cases h
    rfl
  all_goals
    cases h
    rfl

/-- A register write that is built names one register, which exists. -/
theorem construct_write1 {cls : ItemClass} {data : TBytes} {g g' : Globals} {body : TItemBody}
    (h : (construct pf cls data).exec g = some (.ok body, g')) {Writes : List REG_Write}
    (hparams : body.params = .TREG_Write1 Writes) :
    ∃ w, Writes = [w] ∧ widthFromOffset w.offset.toNat ≠ 0 := by
  cases cls
  case TREG_Write1 =>
    obtain ⟨_, _, hctor, h⟩ := bind_exec_ok h
    cases h
    cases hparams
    rw [TREG_Write1.ctor] at hctor
    obtain ⟨-, hctor⟩ := GuardLemmas.guard_bind_ok hctor
    obtain ⟨ofs, -, hctor⟩ := ofOption_bind_some hctor
    obtain ⟨hwidth, hctor⟩ := GuardLemmas.guard_bind_ok hctor
    obtain ⟨-, hctor⟩ := GuardLemmas.guard_bind_ok hctor
    obtain ⟨value, -, hctor⟩ := ofOption_bind_some hctor
    cases hctor
    exact ⟨_, rfl, of_decide_eq_true hwidth⟩
  case TBRD_GetNumberOfAdcChannels | TADC_BaseClock | TSYS_UploadFileName | TDAC_Output
      | TDAC_OutputV | TDAC_Range1 | TADC_StreamStart =>
    obtain ⟨_, _, -, h⟩ := bind_exec_ok h
    cases h
    cases hparams
  all_goals
    cases h
    cases hparams

/-- A lambda that works on a register. -/
theorem silent_lambda {id : DataItemIds} {this : TItemBody} {l : GoLambda} {ofs : Nat}
    (hparams : this.params = .TDataItemRaw)
    (hlambda : (DIdDict.find id).bind TDIdDictEntry.go = some l)
    (hofs : l.offset this.Data = some ofs) : Silent pf env id this m := by
  have hquiet : Quiet (l.run env pf.fuel this.Data) := by
    cases l with
    | REG_ClearBits | REG_ToggleBits | REG_SetBits => exact quiet_io (quiet_regBits env _ _)
    | BRD_REBOOT | DAC_Calibrate1 | DAC_Offset1 | DAC_OffsetAll | DAC_Scale1 | DAC_ScaleAll =>
      cases hofs
  obtain ⟨params, Data, rawBytes, resultCode, bWrite⟩ := this
  cases hparams
  refine silent_onMachine hquiet ?_
  rw [Go, exec_get_bind]
  dsimp only
  rw [TDataItemBase.Go, hlambda]
  dsimp only
  rw [exec_get_bind]

theorem mute_of_submux {params : Params} {p : UInt8 × UInt8} (h : params.submux = some p) :
    params.mute = true := by
  cases params <;> first | rfl | cases h

theorem mute_of_adcIndex {params : Params} {i : UInt8} (h : params.adcIndex = some i) :
    params.mute = true := by
  cases params <;> first | rfl | cases h

theorem mute_of_dioBit {params : Params} {b : UInt8} (h : params.dioBit = some b) :
    params.mute = true := by
  cases params <;> first | rfl | cases h

theorem mute_of_scan {params : Params} (h : params.isScan = true) : params.mute = true := by
  cases params <;> first | rfl | cases h

theorem mute_of_busyBit {params : Params} {b : Nat × UInt32} (h : params.busyBit = some b) :
    params.IsWrite1 ∨ params.mute = true := by
  cases params
  case TREG_Write1 Writes => exact .inl ⟨Writes, rfl⟩
  case TDAC_Output | TDAC_OutputV => exact .inr rfl
  all_goals cases h

/-- Registers that do not exist are named by items that cannot tell. -/
theorem silent_registerOffset {id : DataItemIds} {this : TItemBody} {cls : ItemClass}
    {data : TBytes} {g g' : Globals}
    (hrun : (construct pf cls data).exec g = some (.ok this, g')) {ofs : Nat}
    (hofs : this.registerOffset id = some ofs) (hnone : widthFromOffset ofs = 0) :
    Silent pf env id this m := by
  cases hparams : this.params
  case TREG_Write1 Writes =>
    obtain ⟨w, rfl, hwidth⟩ := construct_write1 hrun hparams
    rw [TItemBody.registerOffset, hparams] at hofs
    cases hofs
    exact absurd hnone hwidth
  case TDataItemRaw =>
    rw [TItemBody.registerOffset, hparams] at hofs
    obtain ⟨l, hlambda, hofs⟩ := Option.bind_eq_some_iff.mp hofs
    exact silent_lambda hparams hlambda hofs
  case TREG_Read1 | TREG_ReadBit | TREG_WriteBit | TREG_ClearBit | TREG_SetBit | TREG_ToggleBit =>
    exact silent_mute (by rw [hparams]; rfl)
  all_goals
    rw [TItemBody.registerOffset, hparams] at hofs
    cases hofs

/-- A failure that is not the one of a waiting register write is not told. -/
theorem silent_of_fails {w : WireItem} {g g' : Globals} {item : TDataItem} {k : FailureKind}
    (hbuilds : w.Builds pf g item g') (h : Fails pf env item m k) :
    (k = .busyWait ∧ item.params.IsWrite1) ∨ Silent pf env item.DId item.toTItemBody m := by
  cases k with
  | submuxIndex | gainGroup =>
    obtain ⟨p, hp, -⟩ := h
    exact .inr (silent_mute (mute_of_submux hp))
  | adcIndex =>
    obtain ⟨i, hi, -⟩ := h
    exact .inr (silent_mute (mute_of_adcIndex hi))
  | dioBit =>
    obtain ⟨b, hb, -⟩ := h
    exact .inr (silent_mute (mute_of_dioBit hb))
  | registerOffset =>
    obtain ⟨ofs, hofs, hnone⟩ := h
    obtain ⟨⟨_, -, -, hrun⟩, -⟩ := hbuilds
    exact .inr (silent_registerOffset hrun hofs hnone)
  | modelString | uploadName =>
    obtain ⟨hparams, -⟩ := h
    exact .inr (silent_mute (by rw [hparams]; rfl))
  | hostname | submuxCount =>
    obtain ⟨_, hparams, -⟩ := h
    exact .inr (silent_mute (by rw [hparams]; rfl))
  | hostnameFile =>
    obtain ⟨_, hparams, -, -⟩ := h
    exact .inr (silent_mute (by rw [hparams]; rfl))
  | busyWait =>
    obtain ⟨b, hb, -⟩ := h
    exact (mute_of_busyBit hb).imp (fun hwrite => ⟨rfl, hwrite⟩) silent_mute
  | scan => exact .inr (silent_mute (mute_of_scan h.1))
  | configFile =>
    obtain ⟨rcs, s', hrcs, rc, hrc, -⟩ := h
    refine .inr fun r s hrun => (configWrites_run hrun fun hnil => ?_).1
    rw [hnil] at hrcs
    cases hrcs
    cases hrc
  | uploadFile =>
    rcases h with ⟨hparams, -⟩ | ⟨hparams, -⟩
    · exact .inr (silent_mute (by rw [hparams]; rfl))
    · exact .inr (silent_mute (by rw [hparams]; rfl))

/-- The wait in front of a write. -/
theorem write_waits {w : REG_Write} {b : Nat × UInt32} (hb : deviceBusyBit w.offset.toNat = some b)
    (resultCode : TError) : TREG_Writes.write env resultCode w = do
      let rc ← WaitUntilRegisterBitIsLow env b.1 b.2
      let _ ← out env w.offset.toNat w.value
      return rc := by
  unfold deviceBusyBit at hb
  rw [TREG_Writes.write]
  by_cases hdac : w.offset.toNat = ofsDac
  · rw [if_pos hdac] at hb
    cases hb
    simp only [if_pos hdac]
  · rw [if_neg hdac] at hb
    by_cases hdio : w.offset.toNat = ofsDioDirections ∨ w.offset.toNat = ofsDioOutputs ∨
        w.offset.toNat = ofsDioInputs
    · rw [if_pos hdio] at hb
      cases hb
      simp only [if_neg hdac, if_pos hdio]
    · rw [if_neg hdio] at hb
      cases hb

/-- A register write that has waited in vain says so. -/
theorem write1_code {id : DataItemIds} {this : TItemBody} {w : REG_Write}
    (hparams : this.params = .TREG_Write1 [w]) {b : Nat × UInt32}
    (hb : deviceBusyBit w.offset.toNat = some b)
    (hwait : Gives (WaitUntilRegisterBitIsLow env b.1 b.2) m.sys fun rc => rc ≠ 0) :
    ∃ a s', (Go pf env id).exec (this, m) = some (.ok a, s') ∧ s'.1.resultCode ≠ ERR_SUCCESS := by
  obtain ⟨rc, s₁, hrun, hrc⟩ := hwait
  obtain ⟨status, s₂, hout, -⟩ :=
    AdcCellLemmas.out_registers env w.offset.toNat w.value s₁
  have hwrites : (TREG_Writes.Go env [w]).exec m.sys = some (.ok rc, s₂) := by
    rw [TREG_Writes.Go, List.foldlM_cons, write_waits hb, exec_bind, exec_bind_ok hrun, exec_bind,
      hout]
    rfl
  obtain ⟨params, Data, rawBytes, resultCode, bWrite⟩ := this
  cases hparams
  rw [Go, exec_get_bind]
  dsimp only
  rw [exec_bind, onSys, onMachine, exec_zoom, io, exec_zoom, hwrites]
  exact ⟨_, _, rfl, hrc⟩

end FailureLemmas

/-! ## 5. What is told -/

namespace FailureLemmas

variable {pf : Platform} {env : Env ε} {m : Machine ε}

theorem built_item {ws : List WireItem} {g g' : Globals} {items : List TDataItem}
    (h : Built pf g ws items g') {item : TDataItem} (hitem : item ∈ items) :
    ∃ w g₁ g₂, WireItem.Builds pf w g₁ item g₂ := by
  induction h with
  | nil => cases hitem
  | cons hw _ ih =>
    rcases List.mem_cons.mp hitem with rfl | hitem
    · exact ⟨_, _, _, hw⟩
    · exact ih hitem

/-- A `Go` that has failed makes the reply an error. -/
theorem reply_of_failure {before after : List TDataItem} {item : TDataItem} {msg : TMessage}
    {q : GoResult} {m' : Machine ε} (hgo : goItem pf env item m = some (q, m'))
    (hq : (failure q).isSome = true) {w w' : World ε} {qs : List GoResult} {reply : TMessage}
    (hmsg : msg.DataItems = before ++ item :: after)
    (hbefore : goItems pf env before w.machine = some (qs, m))
    (hrun : (RunMessage pf (daemonGo pf env) msg).exec w = some (.ok reply, w')) :
    reply.Id = 69 := by
  rw [RunMessage_exec, mapM_daemonGo, hmsg, goItems_append, hbefore, Option.bind_some, goItems,
    hgo, Option.bind_some] at hrun
  cases hafter : goItems pf env after m' with
  | none =>
    rw [hafter] at hrun
    cases hrun
  | some rs =>
    rw [hafter] at hrun
    cases hrun
    have hfailed : anyFailed (qs ++ q :: rs.1) = true :=
      List.any_eq_true.mpr ⟨q, List.mem_append_right _ List.mem_cons_self, hq⟩
    show replyMId (anyFailed (qs ++ q :: rs.1)) = 69
    rw [hfailed]
    rfl

end FailureLemmas

/-- A register write that waits in vain is reported. -/
theorem write1_reported {g g' : Globals} {cls : ItemClass} {data : TBytes} {item : TDataItem}
    (hctor : (construct pf cls data).exec g = some (.ok item.toTItemBody, g')) (msg : TMessage)
    (hwrite : item.params.IsWrite1) (h : Fails pf env item m .busyWait) :
    Reported pf env msg item m := by
  obtain ⟨Writes, hparams⟩ := hwrite
  obtain ⟨w, rfl, -⟩ := construct_write1 hctor hparams
  obtain ⟨b, hb, hwait⟩ := h
  rw [hparams] at hb
  have hwaited : ∃ a s', (Go pf env item.DId).exec (item.toTItemBody, m) = some (.ok a, s') ∧
      s'.1.resultCode ≠ ERR_SUCCESS := write1_code hparams hb hwait
  obtain ⟨a, s', hrun, hcode⟩ := hwaited
  have hgo : goItem pf env item m = some ((.ok a, { s'.1 with DId := item.DId }), s'.2) := by
    rw [goItem, hrun]
    rfl
  have hfailure : (failure (.ok a, { s'.1 with DId := item.DId })).isSome = true := by
    rw [failure, if_pos hcode]
    rfl
  exact ⟨⟨_, _, hgo, .inr hcode⟩, fun w w' before after qs reply hmsg hbefore hreply =>
    reply_of_failure hgo hfailure hmsg hbefore hreply⟩

/-- Of the failures of an item of an accepted message, only that of a register write that has
waited in vain is told. -/
theorem failures_reported_iff {pf : Platform} {env : Env ε} {bytes : TBytes} {g g' : Globals}
    {msg : TMessage} (hmsg : (FromBytes pf bytes).exec g = some (.ok (msg, ERR_SUCCESS), g'))
    {item : TDataItem} (hitem : item ∈ msg.DataItems) (m : Machine ε) :
    (∀ k, Fails pf env item m k → Reported pf env msg item m) ↔
      ∀ k, Fails pf env item m k → k = .busyWait ∧ item.params.IsWrite1 := by
  obtain ⟨ws, items, _, hloose, rfl⟩ := FromBytes_succeeds_iff.mp hmsg
  obtain ⟨w, g₁, g₂, hbuilds⟩ := built_item hloose.built hitem
  obtain ⟨⟨e, -, -, hctor⟩, -⟩ := id hbuilds
  refine forall_congr' fun k => ⟨fun h hfails => ?_, fun h hfails => ?_⟩
  · refine (silent_of_fails hbuilds hfails).resolve_right fun hsilent => ?_
    obtain ⟨q, m', hgo, htold⟩ := (h hfails).go
    obtain ⟨⟨r, this', m''⟩, hrun, hq⟩ := Option.map_eq_some_iff.mp hgo
    cases hq
    obtain ⟨⟨a, rfl⟩, hcode⟩ := hsilent _ _ hrun
    rcases htold with ⟨x, hx⟩ | hne
    · cases hx
    · exact hne (hcode.trans (construct_resultCode hctor))
  · obtain ⟨rfl, hwrite⟩ := h hfails
    exact write1_reported hctor _ hwrite hfails

/-- A bit that never goes low is waited for in vain. -/
theorem waits_in_vain {env : Env ε} {ofs : Nat} {mask : UInt32}
    (h : ∀ s, ∃ v s', (in_ env ofs).exec s = some (.ok v, s') ∧ v &&& mask ≠ 0) (s : Sys ε) :
    ∃ s', (WaitUntilRegisterBitIsLow env ofs mask).exec s = some (.ok ETIMEDOUT_neg, s') := by
  have hwait (n : Nat) (s : Sys ε) :
      ∃ s', (waitLow env ofs mask n).exec s = some (.ok ETIMEDOUT_neg, s') := by
    induction n generalizing s with
    | zero =>
      obtain ⟨v, s₁, hread, -⟩ := h s
      rw [waitLow, exec_bind, hread]
      exact ⟨s₁, rfl⟩
    | succ n ih =>
      obtain ⟨v, s₁, hread, hbusy⟩ := h s
      rw [waitLow, exec_bind_ok hread, if_pos hbusy]
      exact ih s₁
  exact hwait 100 s

/-- A query for a fifth submux. -/
def exSubmux : TDataItem :=
  { params := .TBRD_SubmuxScale { submuxIndex := 4, gainGroupIndex := 0, value := float1 }
    rawBytes := [4, 0, 0, 0, 128, 63]
    DId := DataItemIds.BRD_SubmuxScale }

theorem submux_not_reported :
    (FromBytes exPlatform (frameBytes 81 [itemBytes exSubmux.DId exSubmux.rawBytes])).exec
        exGlobals = some (.ok ({ Id := 81, DataItems := [exSubmux] }, ERR_SUCCESS), exGlobals) ∧
      Fails exPlatform exEnv exSubmux exMachine .submuxIndex ∧
      ¬Reported exPlatform exEnv { Id := 81, DataItems := [exSubmux] } exSubmux exMachine := by
  refine ⟨rfl, ⟨_, rfl, by decide⟩, ?_⟩
  rintro ⟨⟨q, m', hgo, htold⟩, -⟩
  cases hgo
  rcases htold with ⟨x, hx⟩ | hcode
  · cases hx
  · exact hcode rfl

/-- A board whose registers read all ones. -/
def exStuckEnv : Env Unit where
  answer c e :=
    match c with
    | .apci_read32 _ => (some (0xFFFFFFFF : UInt32), e)
    | c => exEnv.answer c e

/-- A query that writes the DAC register. -/
def exDacWrite : TDataItem :=
  { params := .TREG_Write1 [{ offset := 0x30, width := 32, value := 1 }]
    rawBytes := [0x30, 1, 0, 0, 0]
    DId := DataItemIds.REG_Write1 }

theorem stuck_write_reported :
    Fails exPlatform exStuckEnv exDacWrite exMachine .busyWait ∧
      Reported exPlatform exStuckEnv { Id := 81, DataItems := [exDacWrite] } exDacWrite
        exMachine := by
  have hmsg : (FromBytes exPlatform
      (frameBytes 81 [itemBytes exDacWrite.DId exDacWrite.rawBytes])).exec exGlobals =
        some (.ok ({ Id := 81, DataItems := [exDacWrite] }, ERR_SUCCESS), exGlobals) := rfl
  have hstuck (s : Sys Unit) : ∃ v s', (in_ exStuckEnv ofsDacSpiBusy).exec s = some (.ok v, s') ∧
      v &&& bmDacSpiBusy ≠ 0 := ⟨0xFFFFFFFF, _, rfl, by decide⟩
  obtain ⟨s', hwait⟩ := waits_in_vain hstuck exMachine.sys
  have hfails : Fails exPlatform exStuckEnv exDacWrite exMachine .busyWait :=
    ⟨_, rfl, _, s', hwait, by decide⟩
  refine ⟨hfails, (failures_reported_iff hmsg (List.mem_singleton.mpr rfl) exMachine).mpr ?_ _
    hfails⟩
  intro k h
  cases k with
  | busyWait => exact ⟨rfl, _, rfl⟩
  | registerOffset =>
    obtain ⟨_, hofs, hnone⟩ := h
    cases hofs
    cases hnone
  | submuxIndex | gainGroup | adcIndex | dioBit | hostname | submuxCount | hostnameFile =>
    obtain ⟨_, hnamed, -⟩ := h
    cases hnamed
  | modelString | uploadName | scan =>
    obtain ⟨hparams, -⟩ := h
    cases hparams
  | configFile =>
    obtain ⟨rcs, s₁, hrcs, rc, hrc, -⟩ := h
    cases hrcs
    cases hrc
  | uploadFile => rcases h with ⟨hparams, -⟩ | ⟨hparams, -⟩ <;> cases hparams

end EnetTcp
