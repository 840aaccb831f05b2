import EnetTcp.Greeting
import EnetTcp.Registers

/-!
# Items that change one bit (REG_.cpp, DIO_.cpp)

Nine items read a register, change the mask of one bit in it, and write it back. With registers
that are memory cells each of them changes its bit, and nothing else.

* `modifyBit_cells`: one round of reading and writing changes one bit of one cell.
* `bit_items`: what follows for the items as they come over the wire.
-/

namespace EnetTcp

open Prog BitMemory RegisterLemmas GreetingLemmas

variable {ε : Type}

/-! ## 1. The items -/

/-- What is done with a bit. -/
inductive BitAction
  | assign (value : UInt8)
  | set
  | clear
  | toggle
  deriving DecidableEq

namespace BitAction

def apply : BitAction → Bool → Bool
  | assign value, _ => decide (value ≠ 0)
  | set, _ => true
  | clear, _ => false
  | toggle, old => !old

/-- The same on the mask of the bit. -/
def mask : BitAction → UInt32 → UInt32 → UInt32
  | assign value => assignMask value
  | set => setMask
  | clear => clearMask
  | toggle => toggleMask

end BitAction

/-- The items that change one bit, with their parameters. -/
inductive BitCommand
  | REG_WriteBit (offset bitIndex value : UInt8)
  | REG_SetBit (offset bitIndex : UInt8)
  | REG_ClearBit (offset bitIndex : UInt8)
  | REG_ToggleBit (offset bitIndex : UInt8)
  | DIO_ConfigureBit (bitNumber direction : UInt8)
  | DIO_OutputBit (bitNumber value : UInt8)
  | DIO_SetBit (bitNumber : UInt8)
  | DIO_ClearBit (bitNumber : UInt8)
  | DIO_ToggleBit (bitNumber : UInt8)
  deriving DecidableEq

namespace BitCommand

def DId : BitCommand → DataItemIds
  | REG_WriteBit .. => DataItemIds.REG_WriteBit
  | REG_SetBit .. => DataItemIds.REG_SetBit
  | REG_ClearBit .. => DataItemIds.REG_ClearBit
  | REG_ToggleBit .. => DataItemIds.REG_ToggleBit
  | DIO_ConfigureBit .. => DataItemIds.DIO_ConfigureBit
  | DIO_OutputBit .. => DataItemIds.DIO_OutputBit
  | DIO_SetBit _ => DataItemIds.DIO_SetBit
  | DIO_ClearBit _ => DataItemIds.DIO_ClearBit
  | DIO_ToggleBit _ => DataItemIds.DIO_ToggleBit

def data : BitCommand → TBytes
  | REG_WriteBit o b v => [o, b, v]
  | REG_SetBit o b | REG_ClearBit o b | REG_ToggleBit o b => [o, b]
  | DIO_ConfigureBit b v | DIO_OutputBit b v => [b, v]
  | DIO_SetBit b | DIO_ClearBit b | DIO_ToggleBit b => [b]

/-- The command as an item of a message. -/
def wire (c : BitCommand) : WireItem := ⟨c.DId, c.data, by cases c <;> simp [data]⟩

def register : BitCommand → UInt8
  | REG_WriteBit o _ _ | REG_SetBit o _ | REG_ClearBit o _ | REG_ToggleBit o _ => o
  | DIO_ConfigureBit .. => UInt8.ofNat ofsDioDirections
  | DIO_OutputBit .. | DIO_SetBit _ | DIO_ClearBit _ | DIO_ToggleBit _ => UInt8.ofNat ofsDioOutputs

def bitIndex : BitCommand → UInt8
  | REG_WriteBit _ b _ | REG_SetBit _ b | REG_ClearBit _ b | REG_ToggleBit _ b
  | DIO_ConfigureBit b _ | DIO_OutputBit b _ | DIO_SetBit b | DIO_ClearBit b | DIO_ToggleBit b => b

def action : BitCommand → BitAction
  | REG_WriteBit _ _ v | DIO_ConfigureBit _ v | DIO_OutputBit _ v => .assign v
  | REG_SetBit .. | DIO_SetBit _ => .set
  | REG_ClearBit .. | DIO_ClearBit _ => .clear
  | REG_ToggleBit .. | DIO_ToggleBit _ => .toggle

/-- The bit is one of the register. -/
def Valid (c : BitCommand) : Prop := c.bitIndex.toNat < widthFromOffset c.register.toNat

/-- An assignment of one or zero, and the item that sets or clears the same bit. -/
inductive SameBit : BitCommand → BitCommand → Prop
  | regSet {o b : UInt8} : SameBit (REG_WriteBit o b 1) (REG_SetBit o b)
  | regClear {o b : UInt8} : SameBit (REG_WriteBit o b 0) (REG_ClearBit o b)
  | dioSet {b : UInt8} : SameBit (DIO_OutputBit b 1) (DIO_SetBit b)
  | dioClear {b : UInt8} : SameBit (DIO_OutputBit b 0) (DIO_ClearBit b)

/-- The parameters of the item that is built. -/
def params : BitCommand → Params
  | REG_WriteBit o b v => .TREG_WriteBit (some { offset := o, bitIndex := b, value := v })
  | REG_SetBit o b => .TREG_SetBit (some ⟨o, b⟩)
  | REG_ClearBit o b => .TREG_ClearBit (some ⟨o, b⟩)
  | REG_ToggleBit o b => .TREG_ToggleBit (some ⟨o, b⟩)
  | DIO_ConfigureBit b v => .TDIO_ConfigureBit (some ⟨b, v⟩)
  | DIO_OutputBit b v => .TDIO_OutputBit (some ⟨b, v⟩)
  | DIO_SetBit b => .TDIO_SetBit (some b)
  | DIO_ClearBit b => .TDIO_ClearBit (some b)
  | DIO_ToggleBit b => .TDIO_ToggleBit (some b)

def item (c : BitCommand) : TDataItem :=
  { params := c.params, rawBytes := c.data, DId := c.DId }

end BitCommand

/-- `REG_ReadBit` on the wire. -/
def readBitWire (offset bitIndex : UInt8) : WireItem :=
  ⟨DataItemIds.REG_ReadBit, [offset, bitIndex], by simp⟩

/-! ## 2. One bit of a cell -/

namespace BitLemmas

theorem width_le (ofs : Nat) : widthFromOffset ofs ≤ 32 := by
  rcases RoundTripLemmas.widthFromOffset_cases ofs with h | h | h <;> rw [h] <;> decide

/-- The mask of a bit that the register has is defined. -/
theorem lt_of_width {ofs : Nat} {b : UInt8} (hb : b.toNat < widthFromOffset ofs) : b < 32 :=
  UInt8.lt_iff_toNat_lt.mpr (Nat.lt_of_lt_of_le hb (width_le ofs))

/-- A shift by so many bits. -/
theorem shift_toNat {b : UInt8} (hb : b < 32) : (b.toUInt32.toBitVec % 32).toNat = b.toNat := by
  have hlt : b.toNat < 32 := UInt8.lt_iff_toNat_lt.mp hb
  rw [BitVec.toNat_umod]
  show b.toUInt32.toNat % 32 = b.toNat
  rw [UInt8.toNat_toUInt32, Nat.mod_eq_of_lt hlt]

/-- A mask has one bit. -/
theorem toBitVec_mask {b : UInt8} (hb : b < 32) :
    ((1 : UInt32) <<< b.toUInt32).toBitVec = BitVec.twoPow 32 b.toNat := by
  rw [UInt32.toBitVec_shiftLeft, BitVec.shiftLeft_eq', shift_toNat hb, BitVec.twoPow_eq]
  rfl

/-- A mask changes its bit. -/
theorem getLsbD_mask (action : BitAction) {b : UInt8} (hb : b < 32) (x : UInt32) {j : Nat}
    (hj : j < 32) :
    (action.mask x (1 <<< b.toUInt32)).toBitVec.getLsbD j =
      if j = b.toNat then action.apply (x.toBitVec.getLsbD j) else x.toBitVec.getLsbD j := by
  have hmask : ((1 : UInt32) <<< b.toUInt32).toBitVec.getLsbD j = decide (j = b.toNat) := by
    rw [toBitVec_mask hb, BitVec.getLsbD_twoPow]
    by_cases hjb : j = b.toNat
    · simp [← hjb, hj]
    · simp [hjb, Ne.symm hjb]
  have hclear : (clearMask x (1 <<< b.toUInt32)).toBitVec.getLsbD j =
      if j = b.toNat then false else x.toBitVec.getLsbD j := by
    unfold clearMask
    rw [UInt32.toBitVec_and, UInt32.toBitVec_not, BitVec.getLsbD_and, BitVec.getLsbD_not, hmask]
    by_cases hjb : j = b.toNat <;> simp [hjb, hj]
  have hset (y : UInt32) : (setMask y (1 <<< b.toUInt32)).toBitVec.getLsbD j =
      if j = b.toNat then true else y.toBitVec.getLsbD j := by
    unfold setMask
    rw [UInt32.toBitVec_or, BitVec.getLsbD_or, hmask]
    by_cases hjb : j = b.toNat <;> simp [hjb]
  cases action with
  | assign value =>
    show (assignMask value x (1 <<< b.toUInt32)).toBitVec.getLsbD j = _
    unfold assignMask
    -- the bit is cleared in any case, and set again for a value other than zero
    by_cases hvalue : value ≠ 0
    · rw [if_pos hvalue]
      refine (hset _).trans ?_
      split
      · simp [BitAction.apply, hvalue]
      · rename_i hjb
        exact hclear.trans (if_neg hjb)
    · rw [if_neg hvalue]
      refine hclear.trans ?_
      simp [BitAction.apply, hvalue]
  | set => exact hset x
  | clear => exact hclear
  | toggle =>
    show (toggleMask x (1 <<< b.toUInt32)).toBitVec.getLsbD j = _
    unfold toggleMask
    rw [UInt32.toBitVec_xor, BitVec.getLsbD_xor, hmask]
    by_cases hjb : j = b.toNat <;> simp [BitAction.apply, hjb]

/-- One round of reading and writing changes one bit of one cell. -/
theorem modifyBit_cells {env : Env ε} {regs : ε → RegisterFile} (hregs : RegisterCells env regs)
    (action : BitAction) {ofs : Nat} {b : UInt8} (hb : b.toNat < widthFromOffset ofs) (s : Sys ε) :
    ∃ s', (modifyBit env ofs b action.mask).exec s = some (.ok (), s') ∧
      regs s'.env = change (regs s.env) ofs b.toNat action.apply := by
  have hofs : widthFromOffset ofs ≠ 0 := Nat.ne_of_gt (Nat.zero_lt_of_lt hb)
  have hwidth := width_le ofs
  have hb32 := lt_of_width hb
  obtain ⟨s₁, hin, hregs₁⟩ := in_cells hregs hofs s
  let x : UInt32 := UInt32.ofBitVec ((regs s.env ofs).setWidth 32)
  obtain ⟨rc, s₂, hout, hregs₂⟩ := out_cells hregs hofs (action.mask x (1 <<< b.toUInt32)) s₁
  refine ⟨s₂, ?_, ?_⟩
  · rw [modifyBit, exec_bind_ok hin, shl1, if_pos hb32]
    exact exec_bind_ok hout
  · rw [hregs₂, hregs₁, change]
    congr 1
    refine BitVec.eq_of_getLsbD_eq fun j hj => ?_
    have hj32 : j < 32 := Nat.lt_of_lt_of_le hj hwidth
    have hx : x.toBitVec.getLsbD j = (regs s.env ofs).getLsbD j := by
      simp [x, hj32]
    rw [BitVec.getLsbD_setWidth, getLsbD_mask action hb32 x hj32, hx, getLsbD_changeBit _ hb]
    simp only [hj, decide_true, Bool.true_and]
    split
    case isTrue hjb => rw [hjb]
    case isFalse => rfl

end BitLemmas

open BitLemmas

/-! ## 3. The items -/

namespace BitLemmas

variable {pf : Platform} {env : Env ε}

/-- A bit item is one round of reading and writing. -/
theorem performs_bit (c : BitCommand) {m m' : Machine ε} {q : GoResult} :
    Performs pf env c.wire m q m' ↔
      ((modifyBit env c.register.toNat c.bitIndex c.action.mask).exec m.sys).map
        (fun r => ((r.1, c.item), { m with sys := r.2 })) = some (q, m') := by
  have hdirections : (UInt8.ofNat ofsDioDirections).toNat = ofsDioDirections := by decide
  have houtputs : (UInt8.ofNat ofsDioOutputs).toNat = ofsDioOutputs := by decide
  have hgo {ofs : Nat} (hofs : c.register.toNat = ofs)
      (h : (Go pf env c.item.DId).exec (c.item.toTItemBody, m) =
        (onMachine (io (modifyBit env ofs c.bitIndex c.action.mask))).exec
          (c.item.toTItemBody, m)) : goItem pf env c.item m =
      ((modifyBit env c.register.toNat c.bitIndex c.action.mask).exec m.sys).map
        fun r => ((r.1, c.item), { m with sys := r.2 }) := by
    rw [hofs, goItem_onMachine h, io, exec_zoom, Option.map_map]
    rfl
  cases c with
  | REG_WriteBit | REG_SetBit | REG_ClearBit | REG_ToggleBit =>
    rw [← hgo rfl rfl]
    exact performs_iff rfl (.inr ⟨Nat.le_refl _, Nat.le_refl _⟩) fun _ => rfl
  | DIO_ConfigureBit =>
    rw [← hgo hdirections rfl]
    exact performs_iff rfl (.inr ⟨Nat.le_refl _, Nat.le_refl _⟩) fun _ => rfl
  | DIO_OutputBit | DIO_SetBit | DIO_ClearBit | DIO_ToggleBit =>
    rw [← hgo houtputs rfl]
    exact performs_iff rfl (.inr ⟨Nat.le_refl _, Nat.le_refl _⟩) fun _ => rfl

/-- The machine that it leaves. -/
theorem performs_machine (c : BitCommand) {m m' : Machine ε} :
    (∃ q, Performs pf env c.wire m q m') ↔
      ((modifyBit env c.register.toNat c.bitIndex c.action.mask).exec m.sys).map
        (fun r => { m with sys := r.2 }) = some m' := by
  simp only [performs_bit]
  cases (modifyBit env c.register.toNat c.bitIndex c.action.mask).exec m.sys with
  | none => simp
  | some r => simp

/-- A bit item changes its bit. -/
theorem bit_run {regs : ε → RegisterFile} (hregs : RegisterCells env regs) {c : BitCommand}
    (hc : c.Valid) {m m' : Machine ε} {q : GoResult} (h : Performs pf env c.wire m q m') :
    q.1 = .ok () ∧ m' = { m with sys := m'.sys } ∧ regs m'.sys.env =
      change (regs m.sys.env) c.register.toNat c.bitIndex.toNat c.action.apply := by
  obtain ⟨s', hrun, hregs'⟩ := modifyBit_cells hregs c.action hc m.sys
  rw [performs_bit, hrun] at h
  cases h
  exact ⟨rfl, rfl, hregs'⟩

/-- Two bit items. -/
theorem bit_run_two {regs : ε → RegisterFile} (hregs : RegisterCells env regs)
    {c c' : BitCommand} (hc : c.Valid) (hc' : c'.Valid) {m m' : Machine ε}
    (h : PerformsAll pf env [c.wire, c'.wire] m m') : regs m'.sys.env =
      change (change (regs m.sys.env) c.register.toNat c.bitIndex.toNat c.action.apply)
        c'.register.toNat c'.bitIndex.toNat c'.action.apply := by
  cases h with
  | cons hfirst hrest =>
    cases hrest with
    | cons hsecond hnil =>
      cases hnil
      rw [(bit_run hregs hc' hsecond).2.2, (bit_run hregs hc hfirst).2.2]

/-- Assigning one or zero is setting or clearing. -/
theorem action_same {c c' : BitCommand} (h : c.SameBit c') :
    c'.register = c.register ∧ c'.bitIndex = c.bitIndex ∧ c'.action.mask = c.action.mask := by
  have hset (x mask : UInt32) : setMask x mask = assignMask 1 x mask := by
    refine UInt32.toBitVec_inj.mp (BitVec.eq_of_getLsbD_eq fun j hj => ?_)
    unfold setMask assignMask
    rw [if_pos (by decide)]
    simp only [UInt32.toBitVec_or, UInt32.toBitVec_and, UInt32.toBitVec_not, BitVec.getLsbD_or,
      BitVec.getLsbD_and, BitVec.getLsbD_not, hj, decide_true, Bool.true_and]
    cases x.toBitVec.getLsbD j <;> cases mask.toBitVec.getLsbD j <;> rfl
  cases h with
  | regSet | dioSet => exact ⟨rfl, rfl, funext fun x => funext fun mask => hset x mask⟩
  | regClear | dioClear => exact ⟨rfl, rfl, rfl⟩

/-- Reading a bit. -/
theorem readBit_run {regs : ε → RegisterFile} (hregs : RegisterCells env regs) {o b : UInt8}
    (hb : b.toNat < widthFromOffset o.toNat) (m : Machine ε) :
    ∃ q₀ m₀, (∀ q m', Performs pf env (readBitWire o b) m q m' ↔ (q, m') = (q₀, m₀)) ∧
      q₀.1 = .ok () ∧ calcPayload m₀.Config true q₀.2.toTItemBody =
        some [o, b, if bit (regs m.sys.env) o.toNat b.toNat then 1 else 0] ∧
      regs m₀.sys.env = regs m.sys.env := by
  have hofs : widthFromOffset o.toNat ≠ 0 := Nat.ne_of_gt (Nat.zero_lt_of_lt hb)
  obtain ⟨s', hin, hregs'⟩ := in_cells hregs hofs m.sys
  let p : REG_ReadBitParams := ⟨some ⟨o, b⟩, none⟩
  let x : UInt32 := UInt32.ofBitVec ((regs m.sys.env o.toNat).setWidth 32)
  let p' : REG_ReadBitParams := { p with bitValue := some ((x >>> b.toUInt32) &&& 1).toUInt8 }
  have hread : (TREG_ReadBit.Go env p).exec m.sys = some (.ok p', s') := by
    have hbit : bitOf x b = some ((x >>> b.toUInt32) &&& 1).toUInt8 := if_pos (lt_of_width hb)
    show ((in_ env o.toNat) >>= fun v => _).exec m.sys = _
    rw [exec_bind_ok hin, hbit]
    rfl
  let item : TDataItem :=
    { params := .TREG_ReadBit p, rawBytes := [o, b], DId := DataItemIds.REG_ReadBit }
  have hgo : goItem pf env item m =
      some ((.ok (), { item with params := .TREG_ReadBit p' }), { m with sys := s' }) := by
    have hio : (io (TREG_ReadBit.Go env p)).exec m = some (.ok p', { m with sys := s' }) := by
      rw [io, exec_zoom, hread]
      rfl
    exact goItem_register Params.TREG_ReadBit rfl hio
  refine ⟨(.ok (), { item with params := .TREG_ReadBit p' }), { m with sys := s' },
    fun q m' => ?_, rfl, ?_, hregs'⟩
  · rw [readBitWire, performs_iff rfl (.inr ⟨Nat.le_refl _, Nat.le_refl _⟩) fun _ => rfl]
    exact (iff_of_eq (congrArg (· = some (q, m')) hgo)).trans
      ((Option.some_inj).trans eq_comm)
  have hvalue : ((x >>> b.toUInt32) &&& 1).toUInt8 =
      if bit (regs m.sys.env) o.toNat b.toNat then 1 else 0 := by
    have hb32 : b.toNat < 32 := Nat.lt_of_lt_of_le hb (width_le _)
    have hshift : (x >>> b.toUInt32).toBitVec.getLsbD 0 =
        (regs m.sys.env o.toNat).getLsbD b.toNat := by
      rw [UInt32.toBitVec_shiftRight, BitVec.ushiftRight_eq', shift_toNat (lt_of_width hb),
        BitVec.getLsbD_ushiftRight]
      simp [x, hb32]
    refine UInt8.toBitVec_inj.mp ?_
    rw [UInt32.toBitVec_toUInt8, UInt32.toBitVec_and]
    show ((x >>> b.toUInt32).toBitVec &&& 1#32).setWidth 8 = _
    rw [BitVec.and_one_eq_setWidth_ofBool_getLsbD, hshift, bit]
    cases (regs m.sys.env o.toNat).getLsbD b.toNat <;> rfl
  rw [← hvalue]
  rfl

end BitLemmas

/-- What holds of the bit items when registers are cells. -/
structure BitLaws (pf : Platform) (env : Env ε) (regs : ε → RegisterFile) : Prop where
  runs : ∀ c : BitCommand, c.Valid → ∀ m, ∃ q m', Performs pf env c.wire m q m'
  /-- The bit of the item is changed, and nothing else. -/
  one_bit : ∀ c : BitCommand, c.Valid → ∀ m q m', Performs pf env c.wire m q m' →
    q.1 = .ok () ∧ m' = { m with sys := m'.sys } ∧
    ∀ o b, bit (regs m'.sys.env) o b =
      if o = c.register.toNat ∧ b = c.bitIndex.toNat then
        c.action.apply (bit (regs m.sys.env) o b)
      else bit (regs m.sys.env) o b
  same : ∀ c c' : BitCommand, c.SameBit c' → ∀ m m',
    (∃ q, Performs pf env c.wire m q m') ↔ ∃ q, Performs pf env c'.wire m q m'
  toggle_twice : ∀ c : BitCommand, c.Valid → c.action = .toggle → ∀ m m',
    PerformsAll pf env [c.wire, c.wire] m m' → regs m'.sys.env = regs m.sys.env
  commute : ∀ c c' : BitCommand, c.Valid → c'.Valid →
    (c.register, c.bitIndex) ≠ (c'.register, c'.bitIndex) → ∀ m m₁ m₂,
    PerformsAll pf env [c.wire, c'.wire] m m₁ → PerformsAll pf env [c'.wire, c.wire] m m₂ →
    regs m₁.sys.env = regs m₂.sys.env
  /-- `REG_ReadBit` gives the bit that an item has left. -/
  read_back : ∀ c : BitCommand, c.Valid → ∀ m q m', Performs pf env c.wire m q m' →
    (∃ q₁ m₁, Performs pf env (readBitWire c.register c.bitIndex) m' q₁ m₁) ∧
    ∀ q₁ m₁, Performs pf env (readBitWire c.register c.bitIndex) m' q₁ m₁ →
      q₁.1 = .ok () ∧ regs m₁.sys.env = regs m'.sys.env ∧
      calcPayload m₁.Config true q₁.2.toTItemBody =
        some [c.register, c.bitIndex,
          if c.action.apply (bit (regs m.sys.env) c.register.toNat c.bitIndex.toNat) then 1 else 0]

/-- The laws hold for every platform, whatever else the calls do. -/
theorem bit_items (pf : Platform) {env : Env ε} {regs : ε → RegisterFile}
    (hregs : RegisterCells env regs) : BitLaws pf env regs where
  runs c hc m := by
    obtain ⟨s', hrun, -⟩ := modifyBit_cells hregs c.action hc m.sys
    refine ⟨(.ok (), c.item), { m with sys := s' }, (performs_bit c).mpr ?_⟩
    rw [hrun]
    rfl
  one_bit c hc m q m' h := by
    obtain ⟨hok, hsys, hregs'⟩ := bit_run hregs hc h
    refine ⟨hok, hsys, fun o b => ?_⟩
    rw [hregs', bit_change _ hc]
    split
    case isTrue heq => rw [heq.1, heq.2]
    case isFalse => rfl
  same c c' h m m' := by
    obtain ⟨hregister, hbit, hmask⟩ := action_same h
    rw [performs_machine, performs_machine, hregister, hbit, hmask]
  toggle_twice c hc haction m m' h := by
    rw [bit_run_two hregs hc hc h, change_change _ hc, haction]
    have hid : BitAction.apply .toggle ∘ BitAction.apply .toggle = id := funext Bool.not_not
    rw [hid, change_id _ hc]
  commute c c' hc hc' hne m m₁ m₂ h₁ h₂ := by
    rw [bit_run_two hregs hc hc' h₁, bit_run_two hregs hc' hc h₂]
    refine change_comm _ hc hc' (fun heq => hne ?_) _ _
    obtain ⟨hregister, hbit⟩ := Prod.mk.inj heq
    rw [UInt8.toNat_inj.mp hregister, UInt8.toNat_inj.mp hbit]
  read_back c hc m q m' h := by
    obtain ⟨q₀, m₀, hiff, hok, hpayload, hregs₀⟩ :=
      @readBit_run ε pf env regs hregs c.register c.bitIndex hc m'
    refine ⟨⟨q₀, m₀, (hiff _ _).mpr rfl⟩, fun q₁ m₁ hread => ?_⟩
    cases (hiff _ _).mp hread
    refine ⟨hok, hregs₀, hpayload.trans ?_⟩
    rw [(bit_run hregs hc h).2.2]
    simp only [bit_change _ hc, and_self, if_true]

/-- Bit 5 of the outputs is set, and is read back. -/
theorem exRegister_bits :
    ∃ q m q₁ m₁, Performs exPlatform exRegisterEnv (BitCommand.DIO_SetBit 5).wire
        exRegisterMachine q m ∧ q.1 = .ok () ∧
      (∀ o b, bit m.sys.env o b = decide (o = ofsDioOutputs ∧ b = 5)) ∧
      Performs exPlatform exRegisterEnv (readBitWire (UInt8.ofNat ofsDioOutputs) 5) m q₁ m₁ ∧
      calcPayload m₁.Config true q₁.2.toTItemBody =
        some [UInt8.ofNat ofsDioOutputs, 5, 1] := by
  have hlaws : BitLaws exPlatform exRegisterEnv id := bit_items exPlatform exRegister_cells
  have hvalid : (BitCommand.DIO_SetBit 5).Valid := Nat.lt_of_succ_le (by decide)
  obtain ⟨q, m, hq⟩ := hlaws.runs (.DIO_SetBit 5) hvalid exRegisterMachine
  obtain ⟨hok, -, hbits⟩ := hlaws.one_bit (.DIO_SetBit 5) hvalid exRegisterMachine q m hq
  obtain ⟨⟨q₁, m₁, hread⟩, hback⟩ :=
    hlaws.read_back (.DIO_SetBit 5) hvalid exRegisterMachine q m hq
  refine ⟨q, m, q₁, m₁, hq, hok, fun o b => (hbits o b).trans ?_, hread,
    (hback q₁ m₁ hread).2.2⟩
  have hclear : bit exRegisterMachine.sys.env o b = false := BitVec.getLsbD_zero
  split
  case isTrue heq => exact (decide_eq_true heq).symm
  case isFalse hne => exact hclear.trans (decide_eq_false hne).symm

end EnetTcp
