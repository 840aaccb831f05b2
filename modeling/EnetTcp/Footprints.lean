import EnetTcp.Registers
import EnetTcp.Serving

/-!
# Which registers an item writes

Each item has a footprint: the registers that its `Go` may write, as far as its data says which.
All other registers stay as they are, whatever comes of the `Go`, and so do the calibration
coefficients of `Config` that belong to other registers.

* `frames_change`: each change that a `Go` makes (`Change`) leaves them alone.
* `Go_footprint`: the footprint of one item.
* `message_footprint`: the footprints of the items of a message.
-/

namespace EnetTcp

open Prog CallLemmas

/-! ## 1. Registers and coefficients -/

/-- A write changes the register that it names, and no other call changes one. -/
structure RegisterFrame {ε : Type} (env : Env ε) (regs : ε → RegisterFile) : Prop where
  write8 : ∀ ofs value e other, widthFromOffset ofs = 8 → other ≠ ofs →
    regs (env.answer (.apci_write8 ofs value) e).2 other = regs e other
  write32 : ∀ ofs value e other, widthFromOffset ofs = 32 → other ≠ ofs →
    regs (env.answer (.apci_write32 ofs value) e).2 other = regs e other
  others : ∀ (c : SysCall) (e : ε), c.isRegisterWrite = false →
    regs (env.answer c e).2 = regs e

theorem RegisterCells.frame {ε : Type} {env : Env ε} {regs : ε → RegisterFile}
    (h : RegisterCells env regs) : RegisterFrame env regs where
  write8 ofs value e other hwidth hne := by
    rw [h.write8 ofs value e hwidth, Function.update_of_ne hne]
  write32 ofs value e other hwidth hne := by
    rw [h.write32 ofs value e hwidth, Function.update_of_ne hne]
  others := h.others

/-- A coefficient of the ADC calibration: it has a register, and an entry of `Config`. -/
structure CalCell where
  kind : CalKind
  range : Fin 8
  deriving DecidableEq

def CalCell.register (cell : CalCell) : Nat := cell.kind.register cell.range

def CalCell.coefficient (cell : CalCell) (c : TConfig) : FloatBits :=
  match cell.kind with
  | .scale => c.adcScaleCoefficients.get cell.range
  | .offset => c.adcOffsetCoefficients.get cell.range

/-! ## 2. Footprints -/

/-- The registers that running an item may write. -/
def TDataItem.footprint (item : TDataItem) : List Nat := item.toTItemBody.footprint item.DId

section Frames

variable {ε : Type} (regs : ε → RegisterFile) (F : List Nat)

/-- Registers outside of `F` stay as they are. -/
def FramesSys (s s' : Sys ε) : Prop := ∀ ofs, ofs ∉ F → regs s'.env ofs = regs s.env ofs

/-- So do the coefficients of such registers. -/
structure Frames (m m' : Machine ε) : Prop where
  registers : FramesSys regs F m.sys m'.sys
  coefficients : ∀ cell : CalCell, cell.register ∉ F →
    cell.coefficient m'.Config = cell.coefficient m.Config

instance : Std.Refl (FramesSys regs F) := ⟨fun _ _ _ => rfl⟩

instance : IsTrans (Sys ε) (FramesSys regs F) :=
  ⟨fun _ _ _ h h' ofs hofs => (h' ofs hofs).trans (h ofs hofs)⟩

instance : Std.Refl (Frames regs F) := ⟨fun _ => ⟨fun _ _ => rfl, fun _ _ => rfl⟩⟩

instance : IsTrans (Machine ε) (Frames regs F) :=
  ⟨fun _ _ _ h h' => ⟨IsTrans.trans _ _ _ h.registers h'.registers,
    fun cell hcell => (h'.coefficients cell hcell).trans (h.coefficients cell hcell)⟩⟩

end Frames

variable {ε : Type} {pf : Platform} {env : Env ε} {regs : ε → RegisterFile} {F : List Nat}

namespace FootprintLemmas

theorem frames_mono {F' : List Nat} (hsub : F ⊆ F') {m m' : Machine ε} (h : Frames regs F m m') :
    Frames regs F' m m' :=
  ⟨fun ofs hofs => h.registers ofs fun hmem => hofs (hsub hmem),
    fun cell hcell => h.coefficients cell fun hmem => hcell (hsub hmem)⟩

/-! ## 3. Changes -/

/-- What leaves the registers and the coefficients of the calibration alone. -/
theorem frames_same {m m' : Machine ε} (hsys : m'.sys = m.sys)
    (hscale : m'.Config.adcScaleCoefficients = m.Config.adcScaleCoefficients)
    (hoffset : m'.Config.adcOffsetCoefficients = m.Config.adcOffsetCoefficients) :
    Frames regs F m m' := by
  refine ⟨fun ofs _ => by rw [hsys], fun cell _ => ?_⟩
  unfold CalCell.coefficient
  rw [hscale, hoffset]

/-- The other entries of a table of coefficients. -/
theorem setAdcCal_others {v v' : Vector FloatBits 8} {i : Nat} {x : FloatBits}
    (h : setAdcCal v i x = some v') {j : Fin 8} (hne : j.val ≠ i) : v'[j] = v[j] := by
  unfold setAdcCal at h
  split at h
  · cases h
    exact Vector.getElem_set_ne _ _ fun heq => hne heq.symm
  · cases h

section Changes

variable (hregs : RegisterFrame env regs)
include hregs

theorem frames_call (c : SysCall) (hwrite : c.isRegisterWrite = false) :
    Moves (FramesSys regs F) (syscall env c) := by
  intro s r s' hrun ofs _
  cases hrun
  exact congrFun (hregs.others c s.env hwrite) ofs

theorem frames_out {ofs : Nat} (hofs : ofs ∈ F) (value : UInt32) :
    Moves (FramesSys regs F) (out env ofs value) := by
  have hne {other : Nat} (hother : other ∉ F) : other ≠ ofs := fun h => hother (h ▸ hofs)
  refine moves_ite (fun hwidth => ?_) fun _ => moves_ite (fun hwidth => ?_) fun _ => moves_pure _
  · intro s r s' hrun other hother
    cases hrun
    exact hregs.write8 ofs value.toUInt8 s.env other hwidth (hne hother)
  · intro s r s' hrun other hother
    cases hrun
    exact hregs.write32 ofs value s.env other hwidth (hne hother)

theorem frames_writeConfig (fuel : Nat) (key value : TBytes) :
    Moves (FramesSys regs F) (WriteConfigString env fuel key value) := by
  have hfile (c : SysCall) (_ : c.isRename = false) (hwrite : c.isRegisterWrite = false) :
      Moves (FramesSys regs F) (syscall env c) := frames_call hregs c hwrite
  exact moves_bind (made_mkdirP closed_moves hfile _) fun _ =>
    made_atomicWrite closed_moves hfile (frames_call hregs _ rfl) fuel value

theorem frames_sysChange {id : DataItemIds} {this : TItemBody} {s s' : Sys ε}
    (h : SysChange pf env id this s s') : FramesSys regs (this.footprint id) s s' := by
  cases h with
  | call _ hwrite hrun => exact frames_call hregs _ hwrite _ _ _ hrun
  | out hofs hrun => exact frames_out hregs hofs _ _ _ _ hrun
  | store _ hrun => exact frames_writeConfig hregs _ _ _ _ _ _ hrun
  | etc _ hrun => exact frames_call hregs _ rfl _ _ _ hrun

/-- A change of the machine leaves the registers outside of the footprint alone, and their
coefficients. -/
theorem frames_change {id : DataItemIds} {this : TItemBody} {m m' : Machine ε}
    (h : Change pf env id this m m') : Frames regs (this.footprint id) m m' := by
  cases h with
  | sys hsys => exact ⟨frames_sysChange hregs hsys, fun _ _ => rfl⟩
  | upload | done | AdcStreamTerminate | AdcWorkerThreadID => exact frames_same rfl rfl rfl
  | Config hconfig =>
    cases hconfig
    case adcScaleCoefficients i x v hofs hset =>
      refine ⟨fun _ _ => rfl, ?_⟩
      rintro ⟨kind, range⟩ hcell
      cases kind with
      | offset => rfl
      | scale =>
        refine setAdcCal_others hset fun heq => hcell ?_
        rw [← heq] at hofs
        exact hofs
    case adcOffsetCoefficients i x v hofs hset =>
      refine ⟨fun _ _ => rfl, ?_⟩
      rintro ⟨kind, range⟩ hcell
      cases kind with
      | scale => rfl
      | offset =>
        refine setAdcCal_others hset fun heq => hcell ?_
        rw [← heq] at hofs
        exact hofs
    all_goals exact frames_same rfl rfl rfl

end Changes

end FootprintLemmas

open FootprintLemmas

/-- A `Go` changes no register outside of the footprint of its item, and no coefficient that
belongs to such a register. -/
theorem Go_footprint (hregs : RegisterFrame env regs) {id : DataItemIds} {this : TItemBody}
    {m : Machine ε} {r : Except Exn Unit} {s' : TItemBody × Machine ε}
    (h : (Go pf env id).exec (this, m) = some (r, s')) :
    Frames regs (this.footprint id) m s'.2 :=
  (Go_effect pf env h).machine.closed fun _ _ => frames_change hregs

/-- The items of a message, one after the other: what is in none of their footprints stays as it
is, even where an item fails and the others are run all the same. -/
theorem message_footprint (hregs : RegisterFrame env regs) {items : List TDataItem}
    {m m' : Machine ε} {qs : List GoResult} (h : goItems pf env items m = some (qs, m')) :
    Frames regs (items.flatMap TDataItem.footprint) m m' :=
  goItems_closed h fun item hitem _ _ hchange =>
    frames_mono (fun _ hofs => List.mem_flatMap.mpr ⟨item, hitem, hofs⟩)
      (frames_change hregs hchange)

/-- Set an output, the scale of a range, and the range of a group that is not there. -/
def exWritingItems : List TDataItem :=
  [{ params := .TDIO_Output (some 5), DId := DataItemIds.DIO_Output },
    { params := .TADC_Scale1 (some { rangeIndex := 2, value := 7 })
      DId := DataItemIds.ADC_Scale1 },
    { params := .TADC_Range1 (some { channelGroup := 9, value := 3 }),
      DId := DataItemIds.ADC_Range1 }]

theorem message_footprint_example :
    exWritingItems.flatMap TDataItem.footprint = [ofsDioOutputs, 0xD0, ofsAdcRange + 9] ∧
    ∃ qs m', goItems exPlatform exRegisterEnv exWritingItems exRegisterMachine = some (qs, m') ∧
      Frames id (exWritingItems.flatMap TDataItem.footprint) exRegisterMachine m' := by
  refine ⟨by decide, ?_⟩
  obtain ⟨⟨qs, m'⟩, hrun⟩ : ∃ q,
      goItems exPlatform exRegisterEnv exWritingItems exRegisterMachine = some q :=
    Option.isSome_iff_exists.mp (by decide +kernel)
  exact ⟨qs, m', hrun, message_footprint exRegister_cells.frame hrun⟩

end EnetTcp
