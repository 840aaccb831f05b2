import EnetTcp.Lib.Bits
import EnetTcp.RoundTrip
import EnetTcp.Serving

/-!
# Registers as memory, and items that run on it

* `RegisterCells`: each register is a cell of the width that `widthFromOffset` gives.
* `Performs`, `PerformsAll`: what comes of an item on the wire, and of several of them.
-/

namespace EnetTcp

open Prog

variable {ε : Type}

/-! ## 1. Cells -/

/-- The contents of all registers. -/
abbrev RegisterFile : Type := BitMemory.Memory widthFromOffset

/-- A read gives what was written last, and no other call changes a register. -/
structure RegisterCells (env : Env ε) (regs : ε → RegisterFile) : Prop where
  read8 : ∀ ofs e, widthFromOffset ofs = 8 →
    (env.answer (.apci_read8 ofs) e).1 = some (UInt8.ofBitVec ((regs e ofs).setWidth 8))
  read32 : ∀ ofs e, widthFromOffset ofs = 32 →
    (env.answer (.apci_read32 ofs) e).1 = some (UInt32.ofBitVec ((regs e ofs).setWidth 32))
  write8 : ∀ ofs value e, widthFromOffset ofs = 8 →
    regs (env.answer (.apci_write8 ofs value) e).2 =
      Function.update (regs e) ofs (value.toBitVec.setWidth (widthFromOffset ofs))
  write32 : ∀ ofs value e, widthFromOffset ofs = 32 →
    regs (env.answer (.apci_write32 ofs value) e).2 =
      Function.update (regs e) ofs (value.toBitVec.setWidth (widthFromOffset ofs))
  others : ∀ (c : SysCall) (e : ε), c.isRegisterWrite = false →
    regs (env.answer c e).2 = regs e

namespace RegisterLemmas

/-- A narrow cell is read as a byte. -/
theorem toUInt32_cell {n : Nat} (hn : n ≤ 8) (x : BitVec n) :
    (UInt8.ofBitVec (x.setWidth 8)).toUInt32 = UInt32.ofBitVec (x.setWidth 32) := by
  refine UInt32.toBitVec_inj.mp (BitVec.eq_of_getLsbD_eq fun i hi => ?_)
  simp only [UInt8.toBitVec_toUInt32, BitVec.getLsbD_setWidth, hi, decide_true, Bool.true_and]
  by_cases hi8 : i < 8
  · simp [hi8]
  · simp [hi8, BitVec.getLsbD_of_ge x i (by omega)]

/-- The lowest byte is all that a narrow cell takes. -/
theorem toUInt8_cell {n : Nat} (hn : n ≤ 8) (value : UInt32) :
    value.toUInt8.toBitVec.setWidth n = value.toBitVec.setWidth n := by
  refine BitVec.eq_of_getLsbD_eq fun i hi => ?_
  have hi8 : i < 8 := Nat.lt_of_lt_of_le hi hn
  simp [hi, hi8]

variable {env : Env ε} {regs : ε → RegisterFile} (hregs : RegisterCells env regs)
include hregs

/-- Reading a register gives its cell, with zeros in front. -/
theorem in_cells {ofs : Nat} (hofs : widthFromOffset ofs ≠ 0) (s : Sys ε) :
    ∃ s', (in_ env ofs).exec s =
        some (.ok (UInt32.ofBitVec ((regs s.env ofs).setWidth 32)), s') ∧
      regs s'.env = regs s.env := by
  rcases RoundTripLemmas.widthFromOffset_cases ofs with hwidth | hwidth | hwidth
  · exact absurd hwidth hofs
  · have hin : in_ env ofs = (do
        let value ← syscall env (.apci_read8 ofs)
        return ((value : Option UInt8).getD 0xFF).toUInt32) := if_pos hwidth
    let s' : Sys ε := ⟨(env.answer (.apci_read8 ofs) s.env).2, s.calls ++ [.apci_read8 ofs]⟩
    have hrun : (in_ env ofs).exec s = some (.ok ((Option.getD
        (env.answer (.apci_read8 ofs) s.env).1 (0xFF : UInt8)).toUInt32), s') := by
      rw [hin]
      rfl
    refine ⟨s', ?_, hregs.others (.apci_read8 ofs) s.env rfl⟩
    rw [hrun, hregs.read8 ofs s.env hwidth, Option.getD_some, toUInt32_cell hwidth.le]
  · have hin : in_ env ofs = (do
        let value ← syscall env (.apci_read32 ofs)
        return (value : Option UInt32).getD 0xFFFFFFFF) :=
      (if_neg (by omega)).trans (if_pos hwidth)
    let s' : Sys ε := ⟨(env.answer (.apci_read32 ofs) s.env).2, s.calls ++ [.apci_read32 ofs]⟩
    have hrun : (in_ env ofs).exec s = some (.ok (Option.getD
        (env.answer (.apci_read32 ofs) s.env).1 (0xFFFFFFFF : UInt32)), s') := by
      rw [hin]
      rfl
    refine ⟨s', ?_, hregs.others (.apci_read32 ofs) s.env rfl⟩
    rw [hrun, hregs.read32 ofs s.env hwidth]
    rfl

/-- Writing a register sets its cell to the lowest bits of the value. -/
theorem out_cells {ofs : Nat} (hofs : widthFromOffset ofs ≠ 0) (value : UInt32) (s : Sys ε) :
    ∃ rc s', (out env ofs value).exec s = some (.ok rc, s') ∧
      regs s'.env =
        Function.update (regs s.env) ofs (value.toBitVec.setWidth (widthFromOffset ofs)) := by
  rcases RoundTripLemmas.widthFromOffset_cases ofs with hwidth | hwidth | hwidth
  · exact absurd hwidth hofs
  · have hout : out env ofs value =
        (syscall env (.apci_write8 ofs value.toUInt8) : Prog Exn (Sys ε) TError) := if_pos hwidth
    rw [hout]
    refine ⟨_, _, rfl, (hregs.write8 ofs value.toUInt8 s.env hwidth).trans ?_⟩
    rw [toUInt8_cell hwidth.le]
  · have hout : out env ofs value =
        (syscall env (.apci_write32 ofs value) : Prog Exn (Sys ε) TError) :=
      (if_neg (by omega)).trans (if_pos hwidth)
    rw [hout]
    exact ⟨_, _, rfl, hregs.write32 ofs value s.env hwidth⟩

end RegisterLemmas

/-! ## 2. Items -/

section Items

variable (pf : Platform) (env : Env ε)

/-- An item that is built from `w` is run on the machine. -/
def Performs (w : WireItem) (m : Machine ε) (q : GoResult) (m' : Machine ε) : Prop :=
  ∃ g item g', w.Builds pf g item g' ∧ goItem pf env item m = some (q, m')

/-- One item after the other. -/
inductive PerformsAll : List WireItem → Machine ε → Machine ε → Prop
  | nil {m : Machine ε} : PerformsAll [] m m
  | cons {w : WireItem} {ws : List WireItem} {m m₁ m' : Machine ε} {q : GoResult} :
      Performs pf env w m q m₁ → PerformsAll ws m₁ m' → PerformsAll (w :: ws) m m'

end Items

variable {pf : Platform} {env : Env ε}

namespace RegisterLemmas

/-- What comes of an item whose constructor looks at its data only. -/
theorem performs_iff {w : WireItem} {e : TDIdDictEntry} {body : TItemBody}
    (he : DIdDict.find w.DId = some e) (hadmits : e.Admits w.data)
    (hctor : ∀ g, (construct pf e.Construct w.data).exec g = some (.ok body, g)) {m m' : Machine ε}
    {q : GoResult} :
    Performs pf env w m q m' ↔ goItem pf env { body with DId := w.DId } m = some (q, m') := by
  constructor
  · rintro ⟨g, item, g', ⟨⟨e', he', -, hrun⟩, hid⟩, hgo⟩
    cases he.symm.trans he'
    cases (hctor g).symm.trans hrun
    rwa [← hid]
  · intro hgo
    exact ⟨exGlobals, { body with DId := w.DId }, exGlobals,
      ⟨⟨e, he, hadmits, hctor exGlobals⟩, rfl⟩, hgo⟩

/-- A `Go` that works on the machine only. -/
theorem goItem_onMachine {item : TDataItem} {p : Prog Exn (Machine ε) Unit} {m : Machine ε}
    (h : (Go pf env item.DId).exec (item.toTItemBody, m) =
      (onMachine p).exec (item.toTItemBody, m)) :
    goItem pf env item m = (p.exec m).map fun r => ((r.1, item), r.2) := by
  rw [goItem, h, onMachine, exec_zoom, Option.map_map]
  rfl

end RegisterLemmas

/-! ## 3. Registers in memory -/

/-- Registers as cells. Every other call is answered as in `exEnv`. -/
def exRegisterEnv : Env RegisterFile where
  answer c r :=
    match c with
    | .apci_read8 ofs => (some (UInt8.ofBitVec ((r ofs).setWidth 8)), r)
    | .apci_read32 ofs => (some (UInt32.ofBitVec ((r ofs).setWidth 32)), r)
    | .apci_write8 ofs value =>
      ((0 : TError), Function.update r ofs (value.toBitVec.setWidth (widthFromOffset ofs)))
    | .apci_write32 ofs value =>
      ((0 : TError), Function.update r ofs (value.toBitVec.setWidth (widthFromOffset ofs)))
    | c => ((exEnv.answer c ()).1, r)

theorem exRegister_cells : RegisterCells exRegisterEnv id where
  read8 _ _ _ := rfl
  read32 _ _ _ := rfl
  write8 _ _ _ _ := rfl
  write32 _ _ _ _ := rfl
  others c r h := by
    cases c
    case apci_write8 => cases h
    case apci_write32 => cases h
    all_goals rfl

/-- All registers are zero. -/
def exRegisterMachine : Machine RegisterFile where
  Config := InitConfig
  sys := { env := fun _ => 0, calls := [] }

end EnetTcp
