import EnetTcp.AdcCells
import EnetTcp.ConfigTree
import EnetTcp.Footprints

/-!
# Calibration in `Config` and in the registers (config.cpp, aioenetd.cpp, ADC_.cpp)

The coefficients of the ADC are in `Config` and in registers. The items that set one write both,
and `ApplyConfig` writes to the registers what has been loaded. `main` calls it before
`OpenDevFile`, with a handle that is not open yet.

* `ApplyConfig_inStep`: with an open handle all registers get their coefficients.
* `inStep_iff`: as `main` calls it, a register has its coefficient only if a client has sent it,
  or if it had the value before the start.
-/

namespace EnetTcp

open Prog CallLemmas FootprintLemmas

variable {ε : Type}

/-! ## 1. Start -/

def ApplyAdcCalConfig (env : Env ε) : Prog Exn (Machine ε) PUnit :=
  (List.finRange 8).forM fun cal => do
    let _ ← io (outScale env cal ((← get).Config.adcScaleCoefficients.get cal))
    let _ ← io (outOffset env cal ((← get).Config.adcOffsetCoefficients.get cal))

def ApplyConfig (env : Env ε) : Prog Exn (Machine ε) PUnit := ApplyAdcCalConfig env

/-- `apci` after the loop over the files of the directory; the list has what `open` gives for
each of them. -/
def OpenDevFile (apci : Int) : List Int → Int
  | [] => apci
  | fd :: fds => if 0 ≤ fd then fd else OpenDevFile fd fds

/-- `main` from `LoadConfig` to `OpenDevFile`. `driver` has the calls on each handle. An exception
that is no `std::logic_error` ends the daemon. -/
def main.prepare (driver : Int → Env ε) (tree : ConfigTree) (fds : List Int) (s : Sys ε) :
    Option (Machine ε × Int) :=
  let apci : Int := -1
  ((LoadConfig tree (text CONFIG_CURRENT)).exec InitConfig).bind fun
    | (.ok _, Config) | (.error (.logicError _), Config) =>
      ((ApplyConfig (driver apci)).exec { Config, sys := s }).map fun r =>
        (r.2, OpenDevFile apci fds)
    | _ => none

theorem prepare_apply {driver : Int → Env ε} {tree : ConfigTree} {fds : List Int} {s : Sys ε}
    {m : Machine ε} {apci : Int} (h : main.prepare driver tree fds s = some (m, apci)) :
    apci = OpenDevFile (-1) fds ∧ ∃ Config r,
      (ApplyConfig (driver (-1))).exec { Config, sys := s } = some (r, m) := by
  unfold main.prepare at h
  obtain ⟨⟨r, Config⟩, -, h⟩ := Option.bind_eq_some_iff.mp h
  have happly (h : ((ApplyConfig (driver (-1))).exec { Config, sys := s }).map
      (fun r => (r.2, OpenDevFile (-1) fds)) = some (m, apci)) :
      apci = OpenDevFile (-1) fds ∧ ∃ Config r,
        (ApplyConfig (driver (-1))).exec { Config, sys := s } = some (r, m) := by
    obtain ⟨⟨r', m'⟩, hrun, heq⟩ := Option.map_eq_some_iff.mp h
    obtain ⟨rfl, rfl⟩ := Prod.mk.inj heq
    exact ⟨rfl, Config, r', hrun⟩
  cases r with
  | ok => exact happly h
  | error e =>
    cases e with
    | logicError => exact happly h
    | stdException => cases h
    | unknown => cases h

theorem OpenDevFile_open {fds : List Int} (h : ∃ fd ∈ fds, 0 ≤ fd) (apci : Int) :
    0 ≤ OpenDevFile apci fds := by
  induction fds generalizing apci with
  | nil =>
    obtain ⟨fd, hfd, -⟩ := h
    cases hfd
  | cons fd fds ih =>
    unfold OpenDevFile
    split
    case isTrue hfd => exact hfd
    case isFalse hfd =>
      refine ih ?_ fd
      obtain ⟨fd', hmem, hfd'⟩ := h
      rcases List.mem_cons.mp hmem with rfl | hmem
      · exact absurd hfd' hfd
      · exact ⟨fd', hmem, hfd'⟩

/-! ## 2. Registers in step -/

/-- The register has the coefficient. -/
def CalCell.InStep (regs : RegisterFile) (c : TConfig) (cell : CalCell) : Prop :=
  regs cell.register = (cell.coefficient c).toBitVec.setWidth _

instance (regs : RegisterFile) (c : TConfig) (cell : CalCell) : Decidable (cell.InStep regs c) :=
  inferInstanceAs (Decidable (regs cell.register = (cell.coefficient c).toBitVec.setWidth _))

/-- An item that sets coefficients. -/
def TItemBody.calibrates (this : TItemBody) : Bool :=
  match this.params with
  | .TADC_Scale1 _ | .TADC_Offset1 _ | .TADC_Calibration1 _ => true
  | .TADC_ScaleAll _ | .TADC_OffsetAll _ | .TADC_CalibrationAll _ => true
  | _ => false

/-- The cells whose registers are in `F` are in step, and the others as before. -/
def SetsInStep (regs : ε → RegisterFile) (F : List Nat) (m m' : Machine ε) : Prop :=
  ∀ cell : CalCell, cell.InStep (regs m'.sys.env) m'.Config ↔
    cell.register ∈ F ∨ cell.InStep (regs m.sys.env) m.Config

variable {pf : Platform} {env : Env ε} {regs : ε → RegisterFile}

namespace CalibrationLemmas

theorem register_ne_zero (kind : CalKind) {range : Nat} (h : range < 8) :
    widthFromOffset (kind.register range) ≠ 0 := by
  revert range
  cases kind <;> decide

theorem register_inj {kind kind' : CalKind} {i j : Nat}
    (h : kind.register i = kind'.register j) : kind = kind' ∧ i = j := by
  have hscale (n : Nat) : CalKind.scale.register n = 0xC0 + n * 8 := rfl
  have hoffset (n : Nat) : CalKind.offset.register n = 0xC4 + n * 8 := rfl
  cases kind <;> cases kind' <;> simp only [hscale, hoffset] at h
  case scale.scale | offset.offset => exact ⟨rfl, by omega⟩
  all_goals omega

theorem setsInStep_nil (m : Machine ε) : SetsInStep regs [] m m := fun _ => by
  rw [or_iff_right List.not_mem_nil]

theorem setsInStep_append {F F' : List Nat} {m m₁ m' : Machine ε} (h : SetsInStep regs F m m₁)
    (h' : SetsInStep regs F' m₁ m') : SetsInStep regs (F ++ F') m m' := by
  intro cell
  rw [h', h, List.mem_append, ← or_assoc, or_comm (a := cell.register ∈ F')]

/-- Cells that are framed are as before. -/
theorem frames_inStep {F : List Nat} {m m' : Machine ε} (h : Frames regs F m m') {cell : CalCell}
    (hcell : cell.register ∉ F) :
    cell.InStep (regs m'.sys.env) m'.Config ↔ cell.InStep (regs m.sys.env) m.Config := by
  rw [CalCell.InStep, CalCell.InStep, h.registers _ hcell, h.coefficients cell hcell]

/-- One register after the other. -/
theorem setsInStep_forM {α : Type} {f : α → Prog Exn (Machine ε) Unit} {F : α → List Nat}
    {l : List α} (hf : ∀ a ∈ l, ∀ m r m', (f a).exec m = some (r, m') →
      r = .ok () ∧ SetsInStep regs (F a) m m') {m m' : Machine ε} {r : Except Exn PUnit}
    (h : (l.forM f).exec m = some (r, m')) : SetsInStep regs (l.flatMap F) m m' := by
  induction l generalizing m with
  | nil =>
    cases h
    exact setsInStep_nil _
  | cons a l ih =>
    have hcons : (a :: l).forM f = f a >>= fun _ => l.forM f := rfl
    rw [hcons, exec_bind, Option.bind_eq_some_iff] at h
    obtain ⟨⟨r₁, m₁⟩, hrun, h⟩ := h
    obtain ⟨rfl, hset⟩ := hf a List.mem_cons_self m r₁ m₁ hrun
    rw [List.flatMap_cons]
    exact setsInStep_append hset (ih (fun b hb => hf b (List.mem_cons_of_mem _ hb)) h)

/-! ## 3. Items -/

/-- A register and its coefficient get one value. -/
theorem setsInStep_one {kind : CalKind} {i : Nat} (hi : i < 8) {x : FloatBits} {m m' : Machine ε}
    (hreg : regs m'.sys.env =
      Function.update (regs m.sys.env) (kind.register i) (x.toBitVec.setWidth _))
    (hcoefficient : ∀ cell : CalCell, cell.coefficient m'.Config =
      if cell = ⟨kind, ⟨i, hi⟩⟩ then x else cell.coefficient m.Config) :
    SetsInStep regs [kind.register i] m m' := by
  intro cell
  by_cases hcell : cell = ⟨kind, ⟨i, hi⟩⟩
  · refine iff_of_true ?_ (.inl (List.mem_singleton.mpr (hcell ▸ rfl)))
    rw [CalCell.InStep, hreg, hcoefficient, if_pos hcell]
    subst hcell
    exact Function.update_self _ _ _
  · have hne : cell.register ≠ kind.register i := by
      intro heq
      obtain ⟨kind', range⟩ := cell
      obtain ⟨rfl, hrange⟩ := register_inj heq
      exact hcell (congrArg _ (Fin.ext hrange))
    rw [CalCell.InStep, hreg, hcoefficient, if_neg hcell, Function.update_of_ne hne,
      List.mem_singleton, or_iff_right hne]
    rfl

theorem coefficient_setScale (c : TConfig) {i : Nat} (hi : i < 8) (x : FloatBits) (cell : CalCell) :
    cell.coefficient { c with adcScaleCoefficients := c.adcScaleCoefficients.set i x hi } =
      if cell = ⟨.scale, ⟨i, hi⟩⟩ then x else cell.coefficient c := by
  obtain ⟨kind, range⟩ := cell
  cases kind with
  | scale =>
    show (c.adcScaleCoefficients.set i x hi)[range.val] = _
    simp [CalCell.coefficient, Vector.get, Vector.getElem_set, Fin.ext_iff, eq_comm]
  | offset => simp [CalCell.coefficient]

theorem coefficient_setOffset (c : TConfig) {i : Nat} (hi : i < 8) (x : FloatBits)
    (cell : CalCell) :
    cell.coefficient { c with adcOffsetCoefficients := c.adcOffsetCoefficients.set i x hi } =
      if cell = ⟨.offset, ⟨i, hi⟩⟩ then x else cell.coefficient c := by
  obtain ⟨kind, range⟩ := cell
  cases kind with
  | scale => simp [CalCell.coefficient]
  | offset =>
    show (c.adcOffsetCoefficients.set i x hi)[range.val] = _
    simp [CalCell.coefficient, Vector.get, Vector.getElem_set, Fin.ext_iff, eq_comm]

section Cells

variable (hregs : RegisterCells env regs)
include hregs

theorem io_out_cells (kind : CalKind) {i : Nat} (hi : i < 8) (x : FloatBits) (m : Machine ε) :
    ∃ rc s', (io (out env (kind.register i) x)).exec m = some (.ok rc, { m with sys := s' }) ∧
      regs s'.env = Function.update (regs m.sys.env) (kind.register i) (x.toBitVec.setWidth _) := by
  obtain ⟨rc, s', hout, hcell⟩ :=
    RegisterLemmas.out_cells hregs (register_ne_zero kind hi) x m.sys
  refine ⟨rc, s', ?_, hcell⟩
  rw [io, exec_zoom, hout]
  rfl

theorem calibrateScale_inStep {i : Nat} {x : FloatBits} {m m' : Machine ε} {r : Except Exn Unit}
    (h : (calibrateScale env i x).exec m = some (r, m')) :
    r = .ok () ∧ SetsInStep regs [CalKind.scale.register i] m m' := by
  have hi : i < 8 := by
    by_contra hi
    cases (AdcCellLemmas.calibrateScale_undefined hi x m).symm.trans h
  obtain ⟨rc, s', hout, hcell⟩ := io_out_cells hregs .scale hi x m
  have hrun : (calibrateScale env i x).exec m = some (.ok (), { m with
      sys := s'
      Config := { m.Config with
        adcScaleCoefficients := m.Config.adcScaleCoefficients.set i x hi } }) := by
    refine (exec_bind_ok hout).trans ?_
    rw [setAdcScale, exec_get_bind, setAdcCal, dif_pos hi]
    rfl
  cases hrun.symm.trans h
  exact ⟨rfl, setsInStep_one hi hcell (coefficient_setScale m.Config hi x)⟩

theorem calibrateOffset_inStep {i : Nat} {x : FloatBits} {m m' : Machine ε} {r : Except Exn Unit}
    (h : (calibrateOffset env i x).exec m = some (r, m')) :
    r = .ok () ∧ SetsInStep regs [CalKind.offset.register i] m m' := by
  have hi : i < 8 := by
    by_contra hi
    cases (AdcCellLemmas.calibrateOffset_undefined hi x m).symm.trans h
  obtain ⟨rc, s', hout, hcell⟩ := io_out_cells hregs .offset hi x m
  have hrun : (calibrateOffset env i x).exec m = some (.ok (), { m with
      sys := s'
      Config := { m.Config with
        adcOffsetCoefficients := m.Config.adcOffsetCoefficients.set i x hi } }) := by
    refine (exec_bind_ok hout).trans ?_
    rw [setAdcOffset, exec_get_bind, setAdcCal, dif_pos hi]
    rfl
  cases hrun.symm.trans h
  exact ⟨rfl, setsInStep_one hi hcell (coefficient_setOffset m.Config hi x)⟩

theorem calibrateBoth_inStep {i : Nat} {x y : FloatBits} {m m' : Machine ε} {r : Except Exn Unit}
    (h : (calibrateBoth env i x y).exec m = some (r, m')) :
    r = .ok () ∧
      SetsInStep regs [CalKind.scale.register i, CalKind.offset.register i] m m' := by
  have hi : i < 8 := by
    by_contra hi
    cases (AdcCellLemmas.calibrateBoth_undefined hi x y m).symm.trans h
  obtain ⟨rc, s₁, hout, hcell⟩ := io_out_cells hregs .scale hi x m
  obtain ⟨rc', s₂, hout', hcell'⟩ := io_out_cells hregs .offset hi y { m with sys := s₁ }
  let scaled : TConfig :=
    { m.Config with adcScaleCoefficients := m.Config.adcScaleCoefficients.set i x hi }
  let both : TConfig :=
    { scaled with adcOffsetCoefficients := scaled.adcOffsetCoefficients.set i y hi }
  have hrun : (calibrateBoth env i x y).exec m =
      some (.ok (), { m with sys := s₂, Config := both }) := by
    refine (exec_bind_ok hout).trans ((exec_bind_ok hout').trans ?_)
    have hscale : (setAdcScale i x).exec { m with sys := s₂ } =
        some (.ok (), { m with sys := s₂, Config := scaled }) := by
      rw [setAdcScale, exec_get_bind, setAdcCal, dif_pos hi]
      rfl
    rw [exec_bind_ok hscale, setAdcOffset, exec_get_bind, setAdcCal, dif_pos hi]
    rfl
  cases hrun.symm.trans h
  -- as if the scale had been set before the second register is written
  have hset : SetsInStep regs [CalKind.scale.register i] m
      { m with sys := s₁, Config := scaled } :=
    setsInStep_one hi hcell (coefficient_setScale m.Config hi x)
  exact ⟨rfl, setsInStep_append hset
    (setsInStep_one hi hcell' (coefficient_setOffset scaled hi y))⟩

/-- What `ApplyConfig` writes are the coefficients of `Config`. -/
theorem apply_inStep {cal : Fin 8} {m m' : Machine ε} {r : Except Exn Unit}
    (h : (do
      let _ ← io (outScale env cal ((← get).Config.adcScaleCoefficients.get cal))
      let _ ← io (outOffset env cal ((← get).Config.adcOffsetCoefficients.get cal))
        : Prog Exn (Machine ε) Unit).exec m = some (r, m')) :
    r = .ok () ∧
      SetsInStep regs [CalKind.scale.register cal, CalKind.offset.register cal] m m' := by
  obtain ⟨rc, s₁, hout, hcell⟩ :=
    io_out_cells hregs .scale cal.isLt (m.Config.adcScaleCoefficients.get cal) m
  obtain ⟨rc', s₂, hout', hcell'⟩ :=
    io_out_cells hregs .offset cal.isLt (m.Config.adcOffsetCoefficients.get cal)
      { m with sys := s₁ }
  have hscale : (io (outScale env cal (m.Config.adcScaleCoefficients.get cal))).exec m =
      some (.ok rc, { m with sys := s₁ }) := hout
  have hoffset : (io (outOffset env cal (m.Config.adcOffsetCoefficients.get cal))).exec
      { m with sys := s₁ } = some (.ok rc', { m with sys := s₂ }) := hout'
  rw [exec_get_bind, exec_bind_ok hscale, exec_get_bind, exec_bind_ok hoffset] at h
  cases h
  have hsame (kind : CalKind) (cell : CalCell) : cell.coefficient m.Config =
      if cell = ⟨kind, cal⟩ then CalCell.coefficient ⟨kind, cal⟩ m.Config
      else cell.coefficient m.Config := by
    split
    case isTrue h => rw [h]
    case isFalse => rfl
  have hset : SetsInStep regs [CalKind.scale.register cal] m { m with sys := s₁ } :=
    setsInStep_one cal.isLt hcell (hsame .scale)
  exact ⟨rfl, setsInStep_append hset (setsInStep_one cal.isLt hcell' (hsame .offset))⟩

end Cells

theorem onMachine_run {α : Type} {p : Prog Exn (Machine ε) α} {this : TItemBody} {m : Machine ε}
    {r : Except Exn α} {s' : TItemBody × Machine ε}
    (h : (onMachine p).exec (this, m) = some (r, s')) : p.exec m = some (r, s'.2) := by
  rw [onMachine, exec_zoom, Option.map_eq_some_iff] at h
  obtain ⟨⟨r', m'⟩, hrun, heq⟩ := h
  cases heq
  exact hrun

/-- The registers of a list of values are those of its indices. -/
theorem calRegisters_sub {α : Type} {kind : CalKind} {values : List α} {F : α × Nat → List Nat}
    (hF : ∀ v, kind.register v.2 ∈ F v) :
    calRegisters kind (some values) ⊆ values.zipIdx.flatMap F := by
  intro ofs hofs
  obtain ⟨i, hi, rfl⟩ := List.mem_map.mp hofs
  have hlt : i < values.length := List.mem_range.mp hi
  have hmem : (values[i], i) ∈ values.zipIdx := by
    rw [List.mk_mem_zipIdx_iff_getElem?]
    exact List.getElem?_eq_getElem hlt
  exact List.mem_flatMap.mpr ⟨_, hmem, hF _⟩

end CalibrationLemmas

open CalibrationLemmas

/-- With an open handle `ApplyConfig` gives all registers their coefficients. -/
theorem ApplyConfig_inStep (hregs : RegisterCells env regs) {m m' : Machine ε}
    {r : Except Exn PUnit} (h : (ApplyConfig env).exec m = some (r, m')) (cell : CalCell) :
    cell.InStep (regs m'.sys.env) m'.Config := by
  have hset := setsInStep_forM (fun _ _ _ _ _ hrun => apply_inStep hregs hrun) h
  refine (hset cell).mpr (.inl (List.mem_flatMap.mpr ⟨cell.range, List.mem_finRange _, ?_⟩))
  obtain ⟨kind, range⟩ := cell
  cases kind with
  | scale => exact List.mem_cons_self
  | offset => exact List.mem_cons_of_mem _ List.mem_cons_self

/-- An item that sets coefficients has their registers in step. -/
theorem Go_inStep (hregs : RegisterCells env regs) {id : DataItemIds} {this : TItemBody}
    {m : Machine ε} {r : Except Exn Unit} {s' : TItemBody × Machine ε}
    (h : (Go pf env id).exec (this, m) = some (r, s')) (hcal : this.calibrates = true)
    {cell : CalCell} (hcell : cell.register ∈ this.footprint id) :
    cell.InStep (regs s'.2.sys.env) s'.2.Config := by
  obtain ⟨params, Data, rawBytes, resultCode, bWrite⟩ := this
  rw [Go, exec_get_bind] at h
  cases params
  case TADC_Scale1 p =>
    obtain ⟨a, rfl, hrun⟩ := ofOption_bind_some (onMachine_run h)
    exact ((calibrateScale_inStep hregs hrun).2 cell).mpr (.inl hcell)
  case TADC_Offset1 p =>
    obtain ⟨a, rfl, hrun⟩ := ofOption_bind_some (onMachine_run h)
    exact ((calibrateOffset_inStep hregs hrun).2 cell).mpr (.inl hcell)
  case TADC_Calibration1 p =>
    obtain ⟨a, rfl, hrun⟩ := ofOption_bind_some (onMachine_run h)
    exact ((calibrateBoth_inStep hregs hrun).2 cell).mpr (.inl hcell)
  case TADC_ScaleAll scales =>
    obtain ⟨l, rfl, hrun⟩ := ofOption_bind_some (onMachine_run h)
    have hset := setsInStep_forM (fun _ _ _ _ _ hrun => calibrateScale_inStep hregs hrun) hrun
    exact (hset cell).mpr (.inl (calRegisters_sub (fun _ => List.mem_cons_self) hcell))
  case TADC_OffsetAll offsets =>
    obtain ⟨l, rfl, hrun⟩ := ofOption_bind_some (onMachine_run h)
    have hset := setsInStep_forM (fun _ _ _ _ _ hrun => calibrateOffset_inStep hregs hrun) hrun
    exact (hset cell).mpr (.inl (calRegisters_sub (fun _ => List.mem_cons_self) hcell))
  case TADC_CalibrationAll pairs =>
    obtain ⟨l, rfl, hrun⟩ := ofOption_bind_some (onMachine_run h)
    have hset := setsInStep_forM (fun _ _ _ _ _ hrun => calibrateBoth_inStep hregs hrun) hrun
    refine (hset cell).mpr (.inl ?_)
    rcases List.mem_append.mp hcell with hscale | hoffset
    · exact calRegisters_sub (fun _ => List.mem_cons_self) hscale
    · exact calRegisters_sub (fun _ => List.mem_cons_of_mem _ List.mem_cons_self) hoffset
  all_goals cases hcal

/-! ## 4. From the start on -/

/-- Items one after the other, of which those that write the register of the cell are there for
calibration. -/
theorem goItems_inStep (hregs : RegisterCells env regs) {items : List TDataItem}
    {m m' : Machine ε} {qs : List GoResult} (h : goItems pf env items m = some (qs, m'))
    {cell : CalCell}
    (hpoke : ∀ item ∈ items, cell.register ∈ item.footprint → item.calibrates = true) :
    cell.InStep (regs m'.sys.env) m'.Config ↔
      (∃ item ∈ items, cell.register ∈ item.footprint) ∨
        cell.InStep (regs m.sys.env) m.Config := by
  induction items generalizing m qs with
  | nil =>
    cases h
    simp
  | cons item items ih =>
    rw [goItems, Option.bind_eq_some_iff] at h
    obtain ⟨⟨q, m₁⟩, hq, h⟩ := h
    obtain ⟨⟨qs', m₂⟩, hqs, hr⟩ := Option.map_eq_some_iff.mp h
    obtain ⟨-, rfl⟩ := Prod.mk.inj hr
    rw [goItem, Option.map_eq_some_iff] at hq
    obtain ⟨⟨r, s'⟩, hrun, hr⟩ := hq
    obtain ⟨-, rfl⟩ := Prod.mk.inj hr
    obtain ⟨hitem, hitems⟩ := List.forall_mem_cons.mp hpoke
    rw [ih hqs hitems, List.exists_mem_cons_iff]
    by_cases hcell : cell.register ∈ item.footprint
    · have hset : cell.InStep (regs s'.2.sys.env) s'.2.Config :=
        Go_inStep hregs hrun (hitem hcell) hcell
      exact iff_of_true (.inr hset) (.inl (.inl hcell))
    · rw [frames_inStep (Go_footprint hregs.frame hrun) hcell, or_iff_right hcell]

/-- A call on the handle that is not open changes no register. -/
theorem ApplyConfig_closed (hclosed : ∀ c e, regs (env.answer c e).2 = regs e) {m m' : Machine ε}
    {r : Except Exn PUnit} (h : (ApplyConfig env).exec m = some (r, m')) : Frames regs [] m m' := by
  have hcall (c : SysCall) : Moves (FramesSys regs []) (syscall env c) := by
    intro s r s' hrun ofs _
    cases hrun
    exact congrFun (hclosed c s.env) ofs
  have hout (ofs : Nat) (value : UInt32) : Moves (Frames regs []) (io (out env ofs value)) :=
    moves_zoom (CallLemmas.made_out closed_moves (fun _ => hcall _) (fun _ => hcall _) value)
      fun _ _ h => ⟨h, fun _ _ => rfl⟩
  refine moves_forM _ (fun cal _ => ?_) _ _ _ h
  exact moves_bind moves_get fun _ => moves_bind (hout _ _) fun _ =>
    moves_bind moves_get fun _ => moves_bind (hout _ _) fun _ => moves_pure _

/-- Registers and coefficients, whatever items come behind the start: `ApplyConfig` has done
nothing for any of them. -/
theorem inStep_iff {driver : Int → Env ε}
    (hclosed : ∀ c e, regs ((driver (-1)).answer c e).2 = regs e)
    (hopen : ∀ fd, 0 ≤ fd → RegisterCells (driver fd) regs) {tree : ConfigTree} {fds : List Int}
    (hdevice : ∃ fd ∈ fds, 0 ≤ fd) {s : Sys ε} {m m' : Machine ε} {apci : Int}
    (hstart : main.prepare driver tree fds s = some (m, apci)) {items : List TDataItem}
    {qs : List GoResult} (h : goItems pf (driver apci) items m = some (qs, m')) {cell : CalCell}
    (hpoke : ∀ item ∈ items, cell.register ∈ item.footprint → item.calibrates = true) :
    cell.InStep (regs m'.sys.env) m'.Config ↔
      (∃ item ∈ items, cell.register ∈ item.footprint) ∨ cell.InStep (regs s.env) m.Config := by
  obtain ⟨rfl, Config, r, happly⟩ := prepare_apply hstart
  have hframe := ApplyConfig_closed hclosed happly
  rw [goItems_inStep (hopen _ (OpenDevFile_open hdevice _)) h hpoke, CalCell.InStep,
    hframe.registers _ List.not_mem_nil]
  rfl

/-- Calls on a handle that is not open fail. -/
def exDriver (apci : Int) : Env RegisterFile :=
  if 0 ≤ apci then exRegisterEnv else { answer := fun c r => ((exEnv.answer c ()).1, r) }

/-- Without files all scales are 1.0, and the registers are 0. Then one scale is set. -/
theorem inStep_iff_example : ∃ m qs m',
    main.prepare exDriver (fun _ => .absent) [-1, 3] { env := fun _ => 0, calls := [] } =
      some (m, 3) ∧
    goItems exPlatform (exDriver 3) exWritingItems m = some (qs, m') ∧
    CalCell.InStep m'.sys.env m'.Config ⟨.scale, 2⟩ ∧
      ¬CalCell.InStep m'.sys.env m'.Config ⟨.scale, 1⟩ := by
  let s : Sys RegisterFile := { env := fun _ => 0, calls := [] }
  have hrun : ((main.prepare exDriver (fun _ => .absent) [-1, 3] s).bind fun p =>
      (goItems exPlatform (exDriver 3) exWritingItems p.1).map fun _ =>
        decide (p.2 = 3 ∧ ¬CalCell.InStep s.env p.1.Config ⟨.scale, 1⟩)) = some true := by
    decide +kernel
  obtain ⟨⟨m, apci⟩, hstart, hrun⟩ := Option.bind_eq_some_iff.mp hrun
  obtain ⟨⟨qs, m'⟩, hgo, hrun⟩ := Option.map_eq_some_iff.mp hrun
  obtain ⟨rfl, hscale⟩ := of_decide_eq_true hrun
  have hopen : ∀ fd, 0 ≤ fd → RegisterCells (exDriver fd) id := by
    intro fd hfd
    rw [exDriver, if_pos hfd]
    exact exRegister_cells
  have hstep (cell : CalCell) (hpoke : ∀ item ∈ exWritingItems,
      cell.register ∈ item.footprint → item.calibrates = true) :=
    inStep_iff (fun _ _ => rfl) hopen ⟨3, by simp, by decide⟩ hstart hgo hpoke
  refine ⟨m, qs, m', hstart, hgo, (hstep ⟨.scale, 2⟩ (by decide)).mpr (.inl (by decide)), ?_⟩
  intro h
  rcases (hstep ⟨.scale, 1⟩ (by decide)).mp h with hitems | hbefore
  · revert hitems
    decide
  · exact hscale hbefore

end EnetTcp
