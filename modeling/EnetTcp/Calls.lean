import EnetTcp.ItemGo

/-!
# Which calls a program makes

The programs that a `Go` runs on the world outside make a few kinds of calls. What each of
these calls has, and what the control structures keep, the whole program has: each lemma is
about any `Closed` property `K` of programs that holds of all calls but renames and register
writes. Programs that rename a file or write a register ask for that call by name.
-/

namespace EnetTcp

open Prog

variable {ε : Type}

/-- A file takes the place of another one. -/
def SysCall.isRename : SysCall → Bool
  | .rename .. => true
  | _ => false

namespace CallLemmas

variable {env : Env ε} {K : (α : Type) → Prog Exn (Sys ε) α → Prop} (hK : Closed K)
  (hcall : ∀ c : SysCall, c.isRename = false → c.isRegisterWrite = false →
    K c.Result (syscall env c))

include hK

theorem made_out {ofs : Nat} (h8 : ∀ value, K _ (syscall env (.apci_write8 ofs value)))
    (h32 : ∀ value, K _ (syscall env (.apci_write32 ofs value))) (value : UInt32) :
    K _ (out env ofs value) :=
  Closed.ite (h8 value.toUInt8) (Closed.ite (h32 value) (hK.value _))

include hcall

/-! ## 1. Registers -/

theorem made_in (ofs : Nat) : K _ (in_ env ofs) := by
  refine Closed.ite ?_ (Closed.ite ?_ (hK.value _))
  · exact hK.andThen (hcall (.apci_read8 ofs) rfl rfl) fun _ => hK.value _
  · exact hK.andThen (hcall (.apci_read32 ofs) rfl rfl) fun _ => hK.value _

theorem made_waitLow (ofs : Nat) (mask : UInt32) (n : Nat) : K _ (waitLow env ofs mask n) := by
  induction n with
  | zero => exact hK.andThen (made_in hK hcall ofs) fun _ => hK.value _
  | succ n ih =>
    exact hK.andThen (made_in hK hcall ofs) fun _ => Closed.ite ih (hK.value _)

theorem made_modifyBit {ofs : Nat} (hout : ∀ value, K _ (out env ofs value)) (bit : UInt8)
    (f : UInt32 → UInt32 → UInt32) : K _ (modifyBit env ofs bit f) :=
  hK.andThen (made_in hK hcall ofs) fun _ => hK.andThen (hK.ofOption _) fun _ =>
    hK.andThen (hout _) fun _ => hK.value _

theorem made_regBits {buf : TBytes}
    (hout : ∀ ofs, buf[0]? = some ofs → ∀ value, K _ (out env ofs.toNat value))
    (f : UInt32 → UInt32 → UInt32) : K _ (REG_Bits.go env f buf) :=
  hK.ofOption_bind fun _ hofs => hK.andThen (hK.ofOption _) fun _ =>
    hK.andThen (made_in hK hcall _) fun _ => hK.andThen (hout _ hofs _) fun _ => hK.value _

theorem made_writes {Writes : List REG_Write}
    (hout : ∀ w ∈ Writes, ∀ value, K _ (out env w.offset.toNat value)) :
    K _ (TREG_Writes.Go env Writes) := by
  refine hK.foldlM (fun resultCode action haction => ?_) _
  have hwait (ofs : Nat) (mask : UInt32) : K _ (WaitUntilRegisterBitIsLow env ofs mask) :=
    made_waitLow hK hcall ofs mask 100
  have hwrite (rc : TError) : K _ (out env action.offset.toNat action.value >>= fun _ => pure rc) :=
    hK.andThen (hout action haction _) fun _ => hK.value _
  exact Closed.ite (hK.andThen (hwait _ _) hwrite)
    (Closed.ite (hK.andThen (hwait _ _) hwrite) (hK.andThen (hK.value _) hwrite))

theorem made_dacOutput (hout : ∀ value, K _ (out env ofsDac value)) (p : DAC_OutputParams) :
    K _ (TDAC_Output.Go env p) :=
  hK.andThen (made_waitLow hK hcall _ _ _) fun _ => hK.andThen (hout _) fun _ => hK.value _

theorem made_setSingleEnded {group : Nat}
    (hout : ∀ value, K _ (out env (ofsAdcRange + group) value)) (singleEnded : UInt8) :
    K _ (setSingleEnded env group singleEnded) :=
  hK.andThen (made_in hK hcall _) fun _ => hK.andThen (hout _) fun _ => hK.value _

omit hcall in
theorem made_setRange {group : Nat} (hout : ∀ value, K _ (out env (ofsAdcRange + group) value))
    (range : UInt8) : K _ (setRange env group range) :=
  hK.andThen (hout _) fun _ => hK.value _

/-! ## 2. Scans -/

theorem made_readScanCfg : K _ (ADC_ReadScanCfg env) :=
  hK.andThen (made_in hK hcall _) fun _ => hK.andThen (made_in hK hcall _) fun _ =>
    hK.andThen (made_in hK hcall _) fun _ => Closed.ite (hK.value _) (hK.value _)

theorem made_drainFIFO (fuel : Nat) : K _ (ADC_DrainFIFO env fuel) := by
  induction fuel with
  | zero => exact hK.undefined
  | succ fuel ih =>
    exact hK.andThen (made_in hK hcall _) fun _ =>
      Closed.ite (hK.andThen (made_in hK hcall _) fun _ => ih) (hK.value _)

theorem made_readFifoWords (expected toRead : Nat) (raw : List UInt32) :
    K _ (readFifoWords env expected toRead raw) := by
  induction toRead generalizing raw with
  | zero => exact hK.value _
  | succ toRead ih =>
    exact Closed.ite (hK.andThen (made_in hK hcall _) fun _ => ih _) (hK.value _)

theorem made_drainFifo (expected t0 timeout fuel : Nat) (raw : List UInt32) :
    K _ (drainFifo env expected t0 timeout fuel raw) := by
  induction fuel generalizing raw with
  | zero => exact hK.undefined
  | succ fuel ih =>
    refine Closed.ite (hK.andThen (made_in hK hcall _) fun _ => Closed.ite ?_ ?_) (hK.value _)
    · exact hK.andThen (hcall .steady_clock_now rfl rfl) fun _ => Closed.ite (hK.value _) (ih raw)
    · exact hK.andThen (hcall (.usleep 10) rfl rfl) fun _ =>
        hK.andThen (made_readFifoWords hK hcall _ _ _) fun _ => ih _

theorem made_scan (hover : ∀ value, K _ (out env ofsAdcOversamples value))
    (htrigger : ∀ value, K _ (out env ofsAdcTriggerOptions value))
    (hstart : ∀ value, K _ (out env ofsAdcSoftwareStart value)) (fuel : Nat)
    (reduce : List UInt32 → TAdcScanCfg → TBytes) : K _ (ADC_Scan.Go env fuel reduce) := by
  have hmode : K _ (ADC_SetScanStartMode env) :=
    hK.andThen (htrigger _) fun _ => hK.andThen (hstart _) fun _ => htrigger _
  have hgo : K _ (ADC_StartSoftwareADC env) :=
    hK.andThen (hstart _) fun _ => hK.andThen (hcall (.usleep 10) rfl rfl) fun _ => hK.value _
  have hdrain (expected : Nat) : K _ (ADC_DrainAdcFifoRaw env fuel expected) :=
    hK.andThen (hcall .steady_clock_now rfl rfl) fun _ => made_drainFifo hK hcall _ _ _ _ _
  have hacquire : K _ (ADC_AcquireScanRaw env fuel) := by
    refine hK.andThen (hover _) fun _ => hK.andThen (made_readScanCfg hK hcall) fun cfg => ?_
    refine Closed.ite (hK.value _) (hK.andThen hmode fun _ => ?_)
    refine Closed.ite (hK.value _) (hK.andThen (made_drainFIFO hK hcall fuel) fun _ => ?_)
    exact hK.andThen hgo fun _ => hK.andThen (hdrain _) fun _ => hK.value _
  exact hK.andThen hacquire fun _ => Closed.ite (hK.value _) (hK.value _)

/-! ## 3. Files -/

theorem made_fsyncDir (dir : TBytes) : K _ (FsyncDir env dir) :=
  hK.andThen (hcall (.open_ dir) rfl rfl) fun (dfd : Int) => Closed.ite (hK.value _)
    (hK.andThen (hcall (.fsync dfd) rfl rfl) fun _ =>
      hK.andThen (hcall (.close dfd) rfl rfl) fun _ => hK.value _)

theorem made_mkdirP (path : TBytes) : K _ (MkdirP env path) :=
  hK.andThen (hcall (.exists path) rfl rfl) fun _ => Closed.ite (hK.value _)
    (hK.andThen (hcall (.create_directories path) rfl rfl) fun _ => Closed.ite (hK.value _)
      (made_fsyncDir hK hcall _))

theorem made_writeAll (fd : Int) (fuel : Nat) (bytes : TBytes) :
    K _ (writeAll env fd fuel bytes) := by
  induction fuel generalizing bytes with
  | zero =>
    cases bytes with
    | nil => exact hK.value _
    | cons => exact hK.undefined
  | succ fuel ih =>
    cases bytes with
    | nil => exact hK.value _
    | cons b bytes =>
      exact hK.andThen (hcall (.write fd (b :: bytes)) rfl rfl) fun _ =>
        Closed.ite (hK.value _) (ih _)

theorem made_atomicWrite {path : TBytes}
    (hrename : K _ (syscall env (.rename (path ++ text ".tmp") path))) (fuel : Nat)
    (contents : TBytes) : K _ (AtomicWriteTextFile env fuel path contents) := by
  have hclose (rc : Int) (fd : Int) : K _ (do
      let () ← syscall env (.close fd)
      return rc) := hK.andThen (hcall (.close fd) rfl rfl) fun _ => hK.value _
  refine hK.andThen (hcall (.open_ _) rfl rfl) fun fd => Closed.ite (hK.value _) ?_
  refine hK.andThen (made_writeAll hK hcall fd fuel contents) fun w => ?_
  refine Closed.ite (hclose w fd) ?_
  refine hK.andThen (hcall (.fsync fd) rfl rfl) fun rc => Closed.ite (hclose rc fd) ?_
  refine hK.andThen (hcall (.close fd) rfl rfl) fun _ => hK.andThen hrename fun _ => ?_
  exact Closed.ite (hK.value _) (hK.andThen (made_fsyncDir hK hcall _) fun _ => hK.value _)

theorem made_systemIfPresent (path₁ path₂ command : String) :
    K _ (systemIfPresent env path₁ path₂ command) := by
  have hsystem (present : Bool) : K _ (if present then
      (syscall env (.system (text command)) >>= fun (_ : Int) => pure ()) else pure ()) :=
    Closed.ite (hK.andThen (hcall (.system _) rfl rfl) fun _ => hK.value _) (hK.value _)
  unfold systemIfPresent
  refine hK.andThen (hcall (.access _) rfl rfl) fun (first : Bool) => ?_
  cases first
  · exact hK.andThen (hcall (.access _) rfl rfl) hsystem
  · exact hK.andThen (hK.value _) hsystem

end CallLemmas

end EnetTcp
