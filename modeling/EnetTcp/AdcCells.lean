import EnetTcp.Accepted
import EnetTcp.Crashes
import EnetTcp.ItemGo
import EnetTcp.RoundTrip

/-!
# Which registers the ADC setup items write (ADC_.cpp)

Five items set up one channel group or the calibration of one range. The group or the range
is a byte of the payload, which nothing checks: it is added to a register offset, and the
range is an index into arrays of `Config`.

`keepsToCells_iff`: an item stays with its own registers and coefficients when its byte is
below 8. A group from 8 on does no harm where there is no register.
-/

namespace EnetTcp

open Prog

variable {pf : Platform} {ε : Type} {env : Env ε}

/-! ## 1. Registers that are written -/

/-- The register that a call writes. -/
def SysCall.writtenRegister : SysCall → Option Nat
  | .apci_write8 offset _ | .apci_write32 offset _ => some offset
  | _ => none

/-- The registers written so far, oldest first. -/
def Sys.writtenRegisters (s : Sys ε) : List Nat := s.calls.filterMap SysCall.writtenRegister

/-- What a call of `out` writes: nothing when the offset is no register. -/
def outRegisters (offset : Nat) : List Nat := if widthFromOffset offset = 0 then [] else [offset]

/-- The items that set up a channel group. -/
def adcGroupItems : List DataItemIds := [DataItemIds.ADC_Differential1, DataItemIds.ADC_Range1]

/-- The items that calibrate a range. -/
def adcRangeItems : List DataItemIds :=
  [DataItemIds.ADC_Scale1, DataItemIds.ADC_Offset1, DataItemIds.ADC_Calibration1]

/-- The eight range registers, or the eight calibration slots. -/
def OwnRegister (id : DataItemIds) (offset : Nat) : Prop :=
  if id ∈ adcGroupItems then ofsAdcRange ≤ offset ∧ offset ≤ ofsAdcRange + 7
  else ∃ i < 8, offset = ofsAdcCalScale + i * ofsAdcCalScaleStride ∨
    offset = ofsAdcCalOffset + i * ofsAdcCalOffsetStride

/-- From `m` to `m'`, an item has written its own registers only, and changed nothing but
the ADC coefficients, or nothing at all. -/
structure StaysInCells (id : DataItemIds) (m m' : Machine ε) : Prop where
  registers : ∃ offsets, m'.sys.writtenRegisters = m.sys.writtenRegisters ++ offsets ∧
    ∀ offset ∈ offsets, OwnRegister id offset
  Config : id ∈ adcGroupItems → m'.Config = m.Config
  others : m' = { m with
    sys := m'.sys
    Config := { m.Config with
      adcScaleCoefficients := m'.Config.adcScaleCoefficients
      adcOffsetCoefficients := m'.Config.adcOffsetCoefficients } }

/-- Running the item from `m` is defined and stays in its cells. -/
def KeepsToCells (pf : Platform) (env : Env ε) (item : TDataItem) (m : Machine ε) : Prop :=
  ∃ r this' m', (Go pf env item.DId).exec (item.toTItemBody, m) = some (r, (this', m')) ∧
    StaysInCells item.DId m m'

namespace AdcCellLemmas

theorem in_registers (env : Env ε) (offset : Nat) (s : Sys ε) :
    ∃ v s', (in_ env offset).exec s = some (.ok v, s') ∧
      s'.writtenRegisters = s.writtenRegisters := by
  have hread (c : SysCall) (hc : c.writtenRegister = none) (e : ε) :
      (Sys.mk e (s.calls ++ [c])).writtenRegisters = s.writtenRegisters := by
    rw [Sys.writtenRegisters, List.filterMap_append, List.filterMap_cons_none hc,
      List.filterMap_nil, List.append_nil]
    rfl
  unfold in_
  split
  · exact ⟨_, _, rfl, hread (.apci_read8 offset) rfl _⟩
  · split
    · exact ⟨_, _, rfl, hread (.apci_read32 offset) rfl _⟩
    · exact ⟨_, _, rfl, rfl⟩

theorem out_registers (env : Env ε) (offset : Nat) (value : UInt32) (s : Sys ε) :
    ∃ v s', (out env offset value).exec s = some (.ok v, s') ∧
      s'.writtenRegisters = s.writtenRegisters ++ outRegisters offset := by
  have hwrite (c : SysCall) (hc : c.writtenRegister = some offset) (e : ε)
      (hreg : widthFromOffset offset ≠ 0) :
      (Sys.mk e (s.calls ++ [c])).writtenRegisters = s.writtenRegisters ++ outRegisters offset := by
    rw [Sys.writtenRegisters, List.filterMap_append, List.filterMap_cons_some hc,
      List.filterMap_nil, outRegisters, if_neg hreg]
    rfl
  rcases RoundTripLemmas.widthFromOffset_cases offset with hw | hw | hw
  · have hout : out env offset value = pure 0xFFFFFFFF :=
      (if_neg (by rw [hw]; decide)).trans (if_neg (by rw [hw]; decide))
    rw [hout, outRegisters, if_pos hw]
    exact ⟨_, s, rfl, (List.append_nil _).symm⟩
  · have hout : out env offset value = syscall env (.apci_write8 offset value.toUInt8) := if_pos hw
    rw [hout]
    exact ⟨_, _, rfl, hwrite (.apci_write8 offset value.toUInt8) rfl _ (by rw [hw]; decide)⟩
  · have hout : out env offset value = syscall env (.apci_write32 offset value) :=
      (if_neg (by rw [hw]; decide)).trans (if_pos hw)
    rw [hout]
    exact ⟨_, _, rfl, hwrite (.apci_write32 offset value) rfl _ (by rw [hw]; decide)⟩

theorem setSingleEnded_registers (g : Nat) (singleEnded : UInt8) (s : Sys ε) :
    ∃ s', (setSingleEnded env g singleEnded).exec s = some (.ok (), s') ∧
      s'.writtenRegisters = s.writtenRegisters ++ outRegisters (ofsAdcRange + g) := by
  obtain ⟨v, s₁, hin, hread⟩ := in_registers env (ofsAdcRange + g) s
  let reg := if singleEnded ≠ 0 then v.toUInt8 ||| 8 else v.toUInt8 &&& 0xF7
  obtain ⟨rc, s₂, hout, hwrite⟩ := out_registers env (ofsAdcRange + g) reg.toUInt32 s₁
  refine ⟨s₂, ?_, hread ▸ hwrite⟩
  rw [setSingleEnded, exec_bind_ok hin, exec_bind]
  show Option.bind ((out env (ofsAdcRange + g) reg.toUInt32).exec s₁) _ = _
  rw [hout]
  rfl

theorem setRange_registers (g : Nat) (range : UInt8) (s : Sys ε) :
    ∃ s', (setRange env g range).exec s = some (.ok (), s') ∧
      s'.writtenRegisters = s.writtenRegisters ++ outRegisters (ofsAdcRange + g) := by
  obtain ⟨rc, s', hout, hwrite⟩ := out_registers env (ofsAdcRange + g) range.toUInt32 s
  refine ⟨s', ?_, hwrite⟩
  rw [setRange, exec_bind, hout]
  rfl

theorem not_group {id : DataItemIds} (hid : id ∈ adcRangeItems) : id ∉ adcGroupItems := by
  revert hid
  simp only [adcRangeItems, adcGroupItems, List.mem_cons, List.not_mem_nil, or_false]
  rintro (rfl | rfl | rfl) <;> decide

/-- A group command writes the register of its group. -/
theorem outRegisters_group {g : Nat} {id : DataItemIds} (hid : id ∈ adcGroupItems) :
    (∀ offset ∈ outRegisters (ofsAdcRange + g), OwnRegister id offset) ↔
      g < 8 ∨ widthFromOffset (ofsAdcRange + g) = 0 := by
  have hown (offset : Nat) :
      OwnRegister id offset ↔ ofsAdcRange ≤ offset ∧ offset ≤ ofsAdcRange + 7 := by
    rw [OwnRegister, if_pos hid]
  unfold outRegisters
  split
  case isTrue hw => exact iff_of_true (fun _ h => absurd h List.not_mem_nil) (.inr hw)
  case isFalse hw =>
    rw [List.forall_mem_singleton, hown, or_iff_left hw]
    omega

/-! ### Calibration -/

theorem mem_outRegisters {offset o : Nat} (h : o ∈ outRegisters offset) : o = offset := by
  unfold outRegisters at h
  split at h
  · cases h
  · exact List.mem_singleton.mp h

theorem own_slot {i : Nat} (hi : i < 8) {id : DataItemIds} (hid : id ∈ adcRangeItems) :
    OwnRegister id (ofsAdcCalScale + i * ofsAdcCalScaleStride) ∧
      OwnRegister id (ofsAdcCalOffset + i * ofsAdcCalOffsetStride) := by
  unfold OwnRegister
  rw [if_neg (not_group hid), if_neg (not_group hid)]
  exact ⟨⟨i, hi, .inl rfl⟩, ⟨i, hi, .inr rfl⟩⟩

/-- Every run of the program returns and stays in the cells of the item. -/
def RunsInCells {α : Type} (id : DataItemIds) (p : Prog Exn (Machine ε) α) : Prop :=
  ∀ m, ∃ a m', p.exec m = some (.ok a, m') ∧ StaysInCells id m m'

theorem StaysInCells.trans {id : DataItemIds} {m m₁ m₂ : Machine ε} (h : StaysInCells id m m₁)
    (h' : StaysInCells id m₁ m₂) : StaysInCells id m m₂ := by
  obtain ⟨os, hos, hown⟩ := h.registers
  obtain ⟨os', hos', hown'⟩ := h'.registers
  refine ⟨⟨os ++ os', ?_, List.forall_mem_append.mpr ⟨hown, hown'⟩⟩,
    fun hid => (h'.Config hid).trans (h.Config hid), ?_⟩
  · rw [hos', hos, List.append_assoc]
  · rw [h'.others, h.others]

theorem runsInCells_bind {α β : Type} {id : DataItemIds} {p : Prog Exn (Machine ε) α}
    {f : α → Prog Exn (Machine ε) β} (hp : RunsInCells id p) (hf : ∀ a, RunsInCells id (f a)) :
    RunsInCells id (p >>= f) := by
  intro m
  obtain ⟨a, m₁, hrun, hstays⟩ := hp m
  obtain ⟨b, m₂, hrun', hstays'⟩ := hf a m₁
  refine ⟨b, m₂, ?_, StaysInCells.trans hstays hstays'⟩
  rw [exec_bind_ok hrun, hrun']

theorem out_runsInCells {id : DataItemIds} {offset : Nat}
    (h : ∀ o ∈ outRegisters offset, OwnRegister id o) (value : UInt32) :
    RunsInCells id (io (out env offset value)) := by
  intro m
  obtain ⟨rc, s', hout, hwrite⟩ := out_registers env offset value m.sys
  refine ⟨rc, { m with sys := s' }, ?_, ⟨_, hwrite, h⟩, fun _ => rfl, rfl⟩
  rw [io, exec_zoom, hout]
  rfl

theorem setAdcScale_runsInCells {id : DataItemIds} (hid : id ∈ adcRangeItems) {i : Nat}
    (hi : i < 8) (x : FloatBits) : RunsInCells (ε := ε) id (setAdcScale i x) := by
  intro m
  refine ⟨(), { m with Config := { m.Config with
      adcScaleCoefficients := m.Config.adcScaleCoefficients.set i x hi } }, ?_,
    ⟨[], (List.append_nil _).symm, fun o h => absurd h List.not_mem_nil⟩,
    fun hgroup => absurd hgroup (not_group hid), rfl⟩
  rw [setAdcScale, exec_get_bind, setAdcCal, dif_pos hi]
  rfl

theorem setAdcOffset_runsInCells {id : DataItemIds} (hid : id ∈ adcRangeItems) {i : Nat}
    (hi : i < 8) (x : FloatBits) : RunsInCells (ε := ε) id (setAdcOffset i x) := by
  intro m
  refine ⟨(), { m with Config := { m.Config with
      adcOffsetCoefficients := m.Config.adcOffsetCoefficients.set i x hi } }, ?_,
    ⟨[], (List.append_nil _).symm, fun o h => absurd h List.not_mem_nil⟩,
    fun hgroup => absurd hgroup (not_group hid), rfl⟩
  rw [setAdcOffset, exec_get_bind, setAdcCal, dif_pos hi]
  rfl

section

variable {id : DataItemIds} (hid : id ∈ adcRangeItems) {i : Nat} (hi : i < 8)

include hid hi

theorem outScale_runsInCells (x : FloatBits) : RunsInCells id (io (outScale env i x)) :=
  out_runsInCells (fun _ h => mem_outRegisters h ▸ (own_slot hi hid).1) x

theorem outOffset_runsInCells (x : FloatBits) : RunsInCells id (io (outOffset env i x)) :=
  out_runsInCells (fun _ h => mem_outRegisters h ▸ (own_slot hi hid).2) x

theorem calibrateScale_runsInCells (x : FloatBits) : RunsInCells id (calibrateScale env i x) :=
  runsInCells_bind (outScale_runsInCells hid hi x) fun _ => setAdcScale_runsInCells hid hi x

theorem calibrateOffset_runsInCells (x : FloatBits) : RunsInCells id (calibrateOffset env i x) :=
  runsInCells_bind (outOffset_runsInCells hid hi x) fun _ => setAdcOffset_runsInCells hid hi x

theorem calibrateBoth_runsInCells (scale offset : FloatBits) :
    RunsInCells id (calibrateBoth env i scale offset) :=
  runsInCells_bind (outScale_runsInCells hid hi scale) fun _ =>
    runsInCells_bind (outOffset_runsInCells hid hi offset) fun _ =>
      runsInCells_bind (setAdcScale_runsInCells hid hi scale) fun _ =>
        setAdcOffset_runsInCells hid hi offset

end

/-- Behind the arrays there is nothing to write to. -/
theorem setAdcScale_undefined {i : Nat} (hi : ¬i < 8) (x : FloatBits) (m : Machine ε) :
    (setAdcScale i x).exec m = none := by
  rw [setAdcScale, exec_get_bind, setAdcCal, dif_neg hi]
  rfl

theorem setAdcOffset_undefined {i : Nat} (hi : ¬i < 8) (x : FloatBits) (m : Machine ε) :
    (setAdcOffset i x).exec m = none := by
  rw [setAdcOffset, exec_get_bind, setAdcCal, dif_neg hi]
  rfl

/-- A program that starts with a register write and gets to something undefined. -/
theorem out_undefined {f : TError → Prog Exn (Machine ε) Unit}
    (hf : ∀ rc m, (f rc).exec m = none) (offset : Nat) (value : UInt32) (m : Machine ε) :
    (io (out env offset value) >>= f).exec m = none := by
  obtain ⟨rc, s', hout, -⟩ := out_registers env offset value m.sys
  rw [exec_bind, io, exec_zoom, hout]
  exact hf rc _

theorem calibrateScale_undefined {i : Nat} (hi : ¬i < 8) (x : FloatBits) (m : Machine ε) :
    (calibrateScale env i x).exec m = none :=
  out_undefined (fun _ m => setAdcScale_undefined hi x m) _ _ m

theorem calibrateOffset_undefined {i : Nat} (hi : ¬i < 8) (x : FloatBits) (m : Machine ε) :
    (calibrateOffset env i x).exec m = none :=
  out_undefined (fun _ m => setAdcOffset_undefined hi x m) _ _ m

theorem calibrateBoth_undefined {i : Nat} (hi : ¬i < 8) (scale offset : FloatBits)
    (m : Machine ε) : (calibrateBoth env i scale offset).exec m = none := by
  refine out_undefined (fun _ m => out_undefined (fun _ m => ?_) _ _ m) _ _ m
  rw [exec_bind, setAdcScale_undefined hi]
  rfl

/-! ### Items -/

theorem keepsToCells_onMachine {item : TDataItem} {p : Prog Exn (Machine ε) Unit} {m : Machine ε}
    (hgo : (Go pf env item.DId).exec (item.toTItemBody, m) =
      (onMachine p).exec (item.toTItemBody, m)) :
    KeepsToCells pf env item m ↔
      ∃ r m', p.exec m = some (r, m') ∧ StaysInCells item.DId m m' := by
  rw [KeepsToCells, hgo, onMachine, exec_zoom]
  constructor
  · rintro ⟨r, this', m', hrun, hstays⟩
    obtain ⟨⟨r', m₁⟩, hp, heq⟩ := Option.map_eq_some_iff.mp hrun
    cases heq
    exact ⟨_, _, hp, hstays⟩
  · rintro ⟨r, m', hp, hstays⟩
    refine ⟨r, item.toTItemBody, m', ?_, hstays⟩
    rw [hp]
    rfl

/-- An item without parameters is undefined. -/
theorem keepsToCells_undefined {item : TDataItem} {p : Prog Exn (Machine ε) Unit} {m : Machine ε}
    (hgo : (Go pf env item.DId).exec (item.toTItemBody, m) =
      (onMachine p).exec (item.toTItemBody, m)) (hp : p.exec m = none) :
    ¬KeepsToCells pf env item m := by
  rw [keepsToCells_onMachine hgo, hp]
  rintro ⟨r, m', h, -⟩
  cases h

/-- A group command. -/
theorem keepsToCells_group {item : TDataItem} (hid : item.DId ∈ adcGroupItems)
    {f : Nat → UInt8 → Prog Exn (Sys ε) Unit}
    (hf : ∀ g v s, ∃ s', (f g v).exec s = some (.ok (), s') ∧
      s'.writtenRegisters = s.writtenRegisters ++ outRegisters (ofsAdcRange + g))
    {p : ADC_GroupParams} {m : Machine ε}
    (hgo : (Go pf env item.DId).exec (item.toTItemBody, m) =
      (onSys (ADC_GroupParams.Go f (some p))).exec (item.toTItemBody, m)) :
    KeepsToCells pf env item m ↔ p.channelGroup.toNat < 8 ∨
      widthFromOffset (ofsAdcRange + p.channelGroup.toNat) = 0 := by
  obtain ⟨s', hrun, hwrite⟩ := hf p.channelGroup.toNat p.value m.sys
  have hexec : (io (ADC_GroupParams.Go f (some p))).exec m =
      some (.ok (), { m with sys := s' }) := by
    rw [io, exec_zoom]
    show Option.map _ ((f p.channelGroup.toNat p.value).exec m.sys) = _
    rw [hrun]
    rfl
  rw [keepsToCells_onMachine hgo, hexec, ← outRegisters_group hid]
  constructor
  · rintro ⟨r, m', h, ⟨offsets, hoffsets, hown⟩, -, -⟩
    cases h
    have hsame := List.append_cancel_left (hwrite.symm.trans hoffsets)
    exact hsame ▸ hown
  · intro hown
    exact ⟨_, _, rfl, ⟨_, hwrite, hown⟩, fun _ => rfl, rfl⟩

/-- A calibration command. -/
theorem keepsToCells_range {item : TDataItem} {p : Prog Exn (Machine ε) Unit} {i : Nat}
    {m : Machine ε}
    (hgo : (Go pf env item.DId).exec (item.toTItemBody, m) =
      (onMachine p).exec (item.toTItemBody, m))
    (hin : i < 8 → RunsInCells item.DId p) (hout : ¬i < 8 → p.exec m = none) :
    KeepsToCells pf env item m ↔ i < 8 := by
  constructor
  · intro hkeeps
    by_contra hi
    exact keepsToCells_undefined hgo (hout hi) hkeeps
  · intro hi
    obtain ⟨a, m', hrun, hstays⟩ := hin hi m
    exact (keepsToCells_onMachine hgo).mpr ⟨_, m', hrun, hstays⟩

end AdcCellLemmas

open AdcCellLemmas

/-! ## 2. The byte that nothing checks -/

/-- There is data, and its first byte is a group or a range that there is, or a group whose
register does not exist. -/
def OwnIndex (id : DataItemIds) (data : TBytes) : Prop :=
  data ≠ [] ∧ ((data.headD 0).toNat < 8 ∨
    (id ∈ adcGroupItems ∧ widthFromOffset (ofsAdcRange + (data.headD 0).toNat) = 0))

namespace AdcCellLemmas

theorem group_iff {item : TDataItem} (hid : item.DId ∈ adcGroupItems)
    {f : Nat → UInt8 → Prog Exn (Sys ε) Unit}
    (hf : ∀ g v s, ∃ s', (f g v).exec s = some (.ok (), s') ∧
      s'.writtenRegisters = s.writtenRegisters ++ outRegisters (ofsAdcRange + g))
    {data : TBytes} (hlen : data = [] ∨ (2 ≤ data.length ∧ data.length ≤ 2)) {m : Machine ε}
    (hgo : (Go pf env item.DId).exec (item.toTItemBody, m) =
      (onSys (ADC_GroupParams.Go f (ADC_GroupParams.ctor data))).exec (item.toTItemBody, m)) :
    KeepsToCells pf env item m ↔ OwnIndex item.DId data := by
  match data, hlen with
  | [], _ => exact iff_of_false (keepsToCells_undefined hgo rfl) fun h => h.1 rfl
  | [_], hlen => rcases hlen with h | ⟨h, -⟩ <;> simp at h
  | g :: v :: rest, _ =>
    rw [OwnIndex, and_iff_right (List.cons_ne_nil _ _), and_iff_right hid]
    exact keepsToCells_group hid hf hgo

/-- A calibration command on data that is not empty, by what it does on each range. -/
theorem range_iff {item : TDataItem} (hid : item.DId ∈ adcRangeItems) {data : TBytes}
    {p : Prog Exn (Machine ε) Unit} {m : Machine ε}
    (hgo : (Go pf env item.DId).exec (item.toTItemBody, m) =
      (onMachine p).exec (item.toTItemBody, m))
    (hnil : data = [] → p.exec m = none)
    (hin : data ≠ [] → (data.headD 0).toNat < 8 → RunsInCells item.DId p)
    (hout : data ≠ [] → ¬(data.headD 0).toNat < 8 → p.exec m = none) :
    KeepsToCells pf env item m ↔ OwnIndex item.DId data := by
  have hgroup := not_group hid
  unfold OwnIndex
  by_cases hdata : data = []
  · exact iff_of_false (keepsToCells_undefined hgo (hnil hdata)) fun h => h.1 hdata
  · rw [keepsToCells_range hgo (hin hdata) (hout hdata)]
    simp only [ne_eq, hdata, not_false_eq_true, true_and, hgroup, false_and, or_false]

theorem cal_ctor {data : TBytes} (h : data = [] ∨ (5 ≤ data.length ∧ data.length ≤ 5))
    (hdata : data ≠ []) : ∃ v, ADC_CalParams.ctor data = some ⟨data.headD 0, v⟩ := by
  obtain ⟨hmin, -⟩ := h.resolve_left hdata
  obtain ⟨v, hv⟩ := Option.isSome_iff_exists.mp (EndLemmas.readU32_isSome data 1 hmin)
  obtain ⟨i, rest, rfl⟩ := List.exists_cons_of_ne_nil hdata
  refine ⟨v, ?_⟩
  show (readU32 (i :: rest) 1).bind _ = _
  rw [hv]
  rfl

theorem calibration1_ctor {data : TBytes} (h : data = [] ∨ (9 ≤ data.length ∧ data.length ≤ 9))
    (hdata : data ≠ []) : ∃ s o, TADC_Calibration1.ctor data = some ⟨data.headD 0, s, o⟩ := by
  obtain ⟨hmin, -⟩ := h.resolve_left hdata
  obtain ⟨s, hs⟩ := Option.isSome_iff_exists.mp (EndLemmas.readU32_isSome data 1 (by omega))
  obtain ⟨o, ho⟩ := Option.isSome_iff_exists.mp (EndLemmas.readU32_isSome data 5 hmin)
  obtain ⟨i, rest, rfl⟩ := List.exists_cons_of_ne_nil hdata
  refine ⟨s, o, ?_⟩
  show (readU32 (i :: rest) 1).bind _ = _
  rw [hs, Option.bind_some, ho]
  rfl

end AdcCellLemmas

/-- The ADC setup items that stay in their cells. -/
theorem keepsToCells_iff {g g' : Globals} {w : WireItem} {xs : TBytes} {item : TDataItem}
    (h : Accepts pf g (w.bytes ++ xs) item g') (hid : w.DId ∈ adcGroupItems ++ adcRangeItems)
    (env : Env ε) (m : Machine ε) :
    KeepsToCells pf env item m ↔ OwnIndex w.DId w.data := by
  obtain ⟨⟨e, he, hadmits, hrun⟩, hitem⟩ := accepts_item.mp h
  rw [← hitem] at he hid ⊢
  rcases List.mem_append.mp hid with hgroup | hrange
  · have hids := hgroup
    simp only [adcGroupItems, List.mem_cons, List.not_mem_nil, or_false] at hids
    rcases hids with hid' | hid'
    · obtain ⟨hcls, hmin, hmax⟩ := entry_of_find he (x := (.TADC_Differential1, 2, 2)) (hid' ▸ rfl)
      rw [hcls] at hrun
      rw [TDIdDictEntry.Admits, hmin, hmax] at hadmits
      exact group_iff hgroup setSingleEnded_registers hadmits (by rw [body_of_pure hrun]; rfl)
    · obtain ⟨hcls, hmin, hmax⟩ := entry_of_find he (x := (.TADC_Range1, 2, 2)) (hid' ▸ rfl)
      rw [hcls] at hrun
      rw [TDIdDictEntry.Admits, hmin, hmax] at hadmits
      exact group_iff hgroup setRange_registers hadmits (by rw [body_of_pure hrun]; rfl)
  · have hids := hrange
    simp only [adcRangeItems, List.mem_cons, List.not_mem_nil, or_false] at hids
    rcases hids with hid' | hid' | hid'
    · obtain ⟨hcls, hmin, hmax⟩ := entry_of_find he (x := (.TADC_Scale1, 5, 5)) (hid' ▸ rfl)
      rw [hcls] at hrun
      rw [TDIdDictEntry.Admits, hmin, hmax] at hadmits
      refine range_iff hrange (p := TADC_Scale1.Go env (ADC_CalParams.ctor w.data))
        (by rw [body_of_pure hrun]; rfl) (fun hnil => by rw [hnil]; rfl) ?_ ?_
      · intro hdata hi
        obtain ⟨v, hv⟩ := cal_ctor hadmits hdata
        rw [hv]
        exact calibrateScale_runsInCells hrange hi v
      · intro hdata hi
        obtain ⟨v, hv⟩ := cal_ctor hadmits hdata
        rw [hv]
        exact calibrateScale_undefined hi v m
    · obtain ⟨hcls, hmin, hmax⟩ := entry_of_find he (x := (.TADC_Offset1, 5, 5)) (hid' ▸ rfl)
      rw [hcls] at hrun
      rw [TDIdDictEntry.Admits, hmin, hmax] at hadmits
      refine range_iff hrange (p := TADC_Offset1.Go env (ADC_CalParams.ctor w.data))
        (by rw [body_of_pure hrun]; rfl) (fun hnil => by rw [hnil]; rfl) ?_ ?_
      · intro hdata hi
        obtain ⟨v, hv⟩ := cal_ctor hadmits hdata
        rw [hv]
        exact calibrateOffset_runsInCells hrange hi v
      · intro hdata hi
        obtain ⟨v, hv⟩ := cal_ctor hadmits hdata
        rw [hv]
        exact calibrateOffset_undefined hi v m
    · obtain ⟨hcls, hmin, hmax⟩ := entry_of_find he (x := (.TADC_Calibration1, 9, 9)) (hid' ▸ rfl)
      rw [hcls] at hrun
      rw [TDIdDictEntry.Admits, hmin, hmax] at hadmits
      refine range_iff hrange (p := TADC_Calibration1.Go env (TADC_Calibration1.ctor w.data))
        (by rw [body_of_pure hrun]; rfl) (fun hnil => by rw [hnil]; rfl) ?_ ?_
      · intro hdata hi
        obtain ⟨scale, offset, hv⟩ := calibration1_ctor hadmits hdata
        rw [hv]
        exact calibrateBoth_runsInCells hrange hi scale offset
      · intro hdata hi
        obtain ⟨scale, offset, hv⟩ := calibration1_ctor hadmits hdata
        rw [hv]
        exact calibrateBoth_undefined hi scale offset m

/-- The machine of a daemon that has just started. -/
def exMachine : Machine Unit := (exWorld []).machine

/-- `ADC_Range1` on the third group. -/
def exRange1 : TDataItem where
  DId := DataItemIds.ADC_Range1
  params := .TADC_Range1 (some ⟨2, 1⟩)
  rawBytes := [2, 1]

theorem range1_keeps_to_cells : KeepsToCells exPlatform exEnv exRange1 exMachine :=
  have haccepts : Accepts exPlatform exGlobals (itemBytes DataItemIds.ADC_Range1 [2, 1] ++ [])
      exRange1 exGlobals := rfl
  (keepsToCells_iff (w := ⟨DataItemIds.ADC_Range1, [2, 1], by decide⟩) haccepts (by decide) exEnv
    exMachine).mpr ⟨List.cons_ne_nil _ _, .inl (by decide)⟩

/-- `ADC_Range1` on a group that there is not. Its register is that of the DAC. -/
def exStrayRange1 : TDataItem where
  DId := DataItemIds.ADC_Range1
  params := .TADC_Range1 (some ⟨0x2F, 1⟩)
  rawBytes := [0x2F, 1]

theorem range1_writes_dac :
    Accepts exPlatform exGlobals (itemBytes DataItemIds.ADC_Range1 [0x2F, 1]) exStrayRange1
      exGlobals ∧ ¬KeepsToCells exPlatform exEnv exStrayRange1 exMachine := by
  refine ⟨rfl, fun hkeeps => ?_⟩
  have hgroup := (keepsToCells_group (f := setRange exEnv) (p := ⟨0x2F, 1⟩) (by decide)
    setRange_registers rfl).mp hkeeps
  revert hgroup
  decide

end EnetTcp
