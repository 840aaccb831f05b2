import EnetTcp.Failures

/-!
# Writes behind a busy bit (utilities.cpp, REG_.cpp, DAC_.cpp)

The DAC and the DIO sit behind serial busses. Before one of their registers is written, its busy
bit is polled 100 times at most.

* `wait_polls`: the polls of a wait and what it returns.
* `go_waits`: each `Go` that writes such a register waits, and then writes.
* `writes_when_ready_iff`: when the write keeps off the busy device.
-/

namespace EnetTcp

open Prog FailureLemmas

/-! ## 1. Polls -/

/-- What `in` returns when it is called for the `k`-th time, counted from 0. -/
def Env.poll {ε : Type} (env : Env ε) (ofs : Nat) : (k : Nat) → ε → UInt32
  | 0, e => ((env.answer (.apci_read32 ofs) e).1 : Option UInt32).getD 0xFFFFFFFF
  | k + 1, e => env.poll ofs k (env.answer (.apci_read32 ofs) e).2

/-- What `in` has returned for a register in the course of these calls. -/
def Env.polls {ε : Type} (env : Env ε) (ofs : Nat) : List SysCall → ε → List UInt32
  | [], _ => []
  | c :: calls, e =>
    (if c = .apci_read32 ofs then [env.poll ofs 0 e] else []) ++
      env.polls ofs calls (env.answer c e).2

section Busy

variable {ε : Type} (env : Env ε)

/-- The calls write no register while the bit is high, and none at all when the wait for it times
out. -/
structure WritesWhenReady (b : Nat × UInt32) (s : Sys ε) (calls : List SysCall) : Prop where
  ready : ∀ before w after, calls = before ++ w :: after → w.isRegisterWrite = true →
    ∃ v, (env.polls b.1 before s.env).getLast? = some v ∧ v &&& b.2 = 0
  timeout : Gives (WaitUntilRegisterBitIsLow env b.1 b.2) s (fun rc => rc ≠ 0) →
    ∀ c ∈ calls, c.isRegisterWrite = false

namespace BusyLemmas

variable {env}

theorem polls_replicate (ofs k : Nat) (e : ε) :
    env.polls ofs (List.replicate k (.apci_read32 ofs)) e =
      (List.range k).map fun j => env.poll ofs j e := by
  induction k generalizing e with
  | zero => rfl
  | succ k ih =>
    rw [List.replicate_succ, Env.polls, if_pos rfl, ih, List.range_succ_eq_map, List.map_cons,
      List.map_map]
    rfl

theorem in_poll {ofs : Nat} (h : widthFromOffset ofs = 32) (s : Sys ε) :
    (in_ env ofs).exec s = some (.ok (env.poll ofs 0 s.env),
      ⟨(env.answer (.apci_read32 ofs) s.env).2, s.calls ++ [.apci_read32 ofs]⟩) := by
  rw [in_, if_neg (by rw [h]; decide), if_pos h]
  rfl

/-- The polls of a wait with `n` attempts, and one more when it times out. -/
theorem waitLow_polls {ofs : Nat} (h : widthFromOffset ofs = 32) (mask : UInt32) (n : Nat)
    (s : Sys ε) : ∃ k rc s', (waitLow env ofs mask n).exec s = some (.ok rc, s') ∧
      s'.calls = s.calls ++ List.replicate (k + 1) (.apci_read32 ofs) ∧
      (k < n ∧ rc = 0 ∧ env.poll ofs k s.env &&& mask = 0 ∨
        k = n ∧ rc = ETIMEDOUT_neg ∧ ∀ j < n, env.poll ofs j s.env &&& mask ≠ 0) := by
  induction n generalizing s with
  | zero =>
    rw [waitLow, exec_bind, in_poll h]
    have hnone : ∀ j < 0, env.poll ofs j s.env &&& mask ≠ 0 := fun j hj =>
      absurd hj (Nat.not_lt_zero j)
    exact ⟨0, ETIMEDOUT_neg, _, rfl, rfl, .inr ⟨rfl, rfl, hnone⟩⟩
  | succ n ih =>
    rw [waitLow, exec_bind_ok (in_poll h s)]
    by_cases hbusy : env.poll ofs 0 s.env &&& mask ≠ 0
    · rw [if_pos hbusy]
      obtain ⟨k, rc, s', hrun, hcalls, hcases⟩ :=
        ih ⟨(env.answer (.apci_read32 ofs) s.env).2, s.calls ++ [.apci_read32 ofs]⟩
      refine ⟨k + 1, rc, s', hrun, ?_, hcases.imp ?_ ?_⟩
      · rw [hcalls, List.append_assoc]
        rfl
      · rintro ⟨hk, hrc, hlow⟩
        exact ⟨Nat.succ_lt_succ hk, hrc, hlow⟩
      · rintro ⟨hk, hrc, hhigh⟩
        refine ⟨congrArg (· + 1) hk, hrc, ?_⟩
        intro j hj
        cases j with
        | zero => exact hbusy
        | succ j => exact hhigh j (Nat.lt_of_succ_lt_succ hj)
    · rw [if_neg hbusy]
      exact ⟨0, 0, _, rfl, rfl, .inl ⟨Nat.succ_pos n, rfl, not_not.mp hbusy⟩⟩

theorem out_write {ofs : Nat} (h : widthFromOffset ofs = 32) (value : UInt32) (s : Sys ε) :
    ∃ status s', (out env ofs value).exec s = some (.ok status, s') ∧
      s'.calls = s.calls ++ [.apci_write32 ofs value] := by
  have hout : out env ofs value = (syscall env (.apci_write32 ofs value) :
      Prog Exn (Sys ε) UInt32) := (if_neg (by rw [h]; decide)).trans (if_pos h)
  rw [hout]
  exact ⟨_, _, rfl, rfl⟩

theorem deviceBusyBit_width {ofs : Nat} {b : Nat × UInt32} (h : deviceBusyBit ofs = some b) :
    widthFromOffset ofs = 32 ∧ widthFromOffset b.1 = 32 := by
  unfold deviceBusyBit at h
  split at h
  · rename_i hofs
    cases h
    exact ⟨by rw [hofs]; rfl, rfl⟩
  · split at h
    · rename_i hofs
      cases h
      rcases hofs with hofs | hofs | hofs <;> exact ⟨by rw [hofs]; rfl, rfl⟩
    · cases h

theorem busyBit_width {params : Params} {b : Nat × UInt32} (h : params.busyBit = some b) :
    widthFromOffset b.1 = 32 := by
  cases params
  case TREG_Write1 Writes =>
    obtain ⟨w, -, hb⟩ := Option.bind_eq_some_iff.mp h
    exact (deviceBusyBit_width hb).2
  case TDAC_Output | TDAC_OutputV => exact (deviceBusyBit_width h).2
  all_goals cases h

/-- The write is the last call. -/
theorem split_last {n : Nat} {c w w' : SysCall} {before after : List SysCall} (hne : w ≠ c)
    (h : List.replicate n c ++ [w'] = before ++ w :: after) : before = List.replicate n c := by
  induction n generalizing before with
  | zero =>
    cases before with
    | nil => rfl
    | cons c' before => exact absurd (List.cons.inj h).2.symm (List.append_ne_nil_of_right_ne_nil _
        (List.cons_ne_nil _ _))
  | succ n ih =>
    cases before with
    | nil => exact absurd (List.cons.inj h).1.symm hne
    | cons c' before =>
      obtain ⟨rfl, htail⟩ := List.cons.inj h
      rw [ih htail, List.replicate_succ]

end BusyLemmas

open BusyLemmas

variable {env}

/-- The polls of a wait. -/
theorem wait_polls {ofs : Nat} (h : widthFromOffset ofs = 32) (mask : UInt32) (s : Sys ε) :
    ∃ k rc s', (WaitUntilRegisterBitIsLow env ofs mask).exec s = some (.ok rc, s') ∧
      s'.calls = s.calls ++ List.replicate (k + 1) (.apci_read32 ofs) ∧
      (k < 100 ∧ rc = 0 ∧ env.poll ofs k s.env &&& mask = 0 ∨
        k = 100 ∧ rc = ETIMEDOUT_neg ∧ ∀ j < 100, env.poll ofs j s.env &&& mask ≠ 0) :=
  waitLow_polls h mask 100 s

/-! ## 2. Items -/

/-- The item waits for its busy bit and then writes, whatever the wait says. -/
theorem go_waits {pf : Platform} {cls : ItemClass} {data : TBytes} {g g' : Globals}
    {this : TItemBody} (hctor : (construct pf cls data).exec g = some (.ok this, g'))
    {b : Nat × UInt32} (hb : this.params.busyBit = some b) (id : DataItemIds) (m : Machine ε) :
    ∃ rc s₁ s' w, (WaitUntilRegisterBitIsLow env b.1 b.2).exec m.sys = some (.ok rc, s₁) ∧
      (Go pf env id).exec (this, m) = some (.ok (), s') ∧ w.isRegisterWrite = true ∧
      s'.2.sys.calls = s₁.calls ++ [w] := by
  have hruns {ofs : Nat} (hofs : deviceBusyBit ofs = some b) (value : UInt32) :
      ∃ rc s₁ s₂ status, (WaitUntilRegisterBitIsLow env b.1 b.2).exec m.sys = some (.ok rc, s₁) ∧
        (out env ofs value).exec s₁ = some (.ok status, s₂) ∧
          s₂.calls = s₁.calls ++ [.apci_write32 ofs value] := by
    obtain ⟨-, rc, s₁, hwait, -, -⟩ :=
      @wait_polls ε env _ (deviceBusyBit_width hofs).2 b.2 m.sys
    obtain ⟨status, s₂, hout, hcalls⟩ :=
      @out_write ε env _ (deviceBusyBit_width hofs).1 value s₁
    exact ⟨rc, s₁, s₂, status, hwait, hout, hcalls⟩
  cases hparams : this.params
  case TREG_Write1 Writes =>
    obtain ⟨w, rfl, -⟩ := construct_write1 hctor hparams
    rw [hparams] at hb
    obtain ⟨rc, s₁, s₂, status, hwait, hout, hcalls⟩ := hruns hb w.value
    have hwrites : (TREG_Writes.Go env [w]).exec m.sys = some (.ok rc, s₂) := by
      rw [TREG_Writes.Go, List.foldlM_cons, write_waits hb, exec_bind, exec_bind_ok hwait,
        exec_bind, hout]
      rfl
    have hGo : (Go pf env id).exec (this, m) = (do
        let resultCode ← onSys (TREG_Writes.Go env [w])
        updateItem fun this => { this with resultCode }).exec (this, m) := by
      rw [Go, exec_get_bind]
      dsimp only
      rw [hparams]
    refine ⟨rc, s₁, ({ this with resultCode := rc }, { m with sys := s₂ }), _, hwait, ?_, rfl,
      hcalls⟩
    rw [hGo, exec_bind, onSys, onMachine, exec_zoom, io, exec_zoom, hwrites]
    rfl
  case TDAC_Output p | TDAC_OutputV p =>
    rw [hparams] at hb
    obtain ⟨rc, s₁, s₂, status, hwait, hout, hcalls⟩ := hruns hb
      ((0x00300000 : UInt32) ||| p.dacChannel.toUInt32 <<< 16 ||| p.dacCounts.toUInt32)
    cases hb
    have hgo : (TDAC_Output.Go env p).exec m.sys = some (.ok (), s₂) := by
      rw [TDAC_Output.Go, exec_bind_ok hwait, exec_bind, hout]
      rfl
    refine ⟨rc, s₁, (this, { m with sys := s₂ }), _, hwait, ?_, rfl, hcalls⟩
    rw [Go, exec_get_bind]
    dsimp only
    rw [hparams]
    dsimp only
    rw [onSys, onMachine, exec_zoom, io, exec_zoom, hgo]
    rfl
  all_goals
    rw [hparams] at hb
    cases hb

/-- No register is written while its device is busy. -/
def KeepsOffBusy (pf : Platform) (env : Env ε) (id : DataItemIds) (this : TItemBody)
    (b : Nat × UInt32) (m : Machine ε) : Prop :=
  ∀ r s', (Go pf env id).exec (this, m) = some (r, s') →
    ∃ calls, s'.2.sys.calls = m.sys.calls ++ calls ∧ WritesWhenReady env b m.sys calls

/-- The write comes too early when the first 100 polls find the device busy, and only then. -/
theorem writes_when_ready_iff {pf : Platform} {cls : ItemClass} {data : TBytes} {g g' : Globals}
    {this : TItemBody} (hctor : (construct pf cls data).exec g = some (.ok this, g'))
    {b : Nat × UInt32} (hb : this.params.busyBit = some b) (id : DataItemIds) (m : Machine ε) :
    KeepsOffBusy pf env id this b m ↔ ∃ k < 100, env.poll b.1 k m.sys.env &&& b.2 = 0 := by
  obtain ⟨rc, s₁, s', w, hwait, hgo, hw, hcalls⟩ := @go_waits ε env _ _ _ _ _ _ hctor _ hb id m
  obtain ⟨k, rc', s₁', hwait', hpolls, hcases⟩ :=
    @wait_polls ε env _ (busyBit_width hb) b.2 m.sys
  rw [hwait] at hwait'
  cases hwait'
  rw [hpolls, List.append_assoc] at hcalls
  constructor
  · intro h
    obtain ⟨calls, hcalls', hready⟩ := h _ _ hgo
    rw [hcalls] at hcalls'
    cases List.append_cancel_left hcalls'
    rcases hcases with ⟨hk, -, hlow⟩ | ⟨-, hrc, -⟩
    · exact ⟨k, hk, hlow⟩
    · have htimeout : rc ≠ 0 := by
        rw [hrc]
        decide
      have hnone := hready.timeout ⟨rc, s₁, hwait, htimeout⟩ w
        (List.mem_append_right _ List.mem_cons_self)
      rw [hw] at hnone
      cases hnone
  · rintro ⟨j, hj, hlow⟩ r t hrun
    rw [hgo] at hrun
    cases hrun
    rcases hcases with ⟨hk, hrc, hlow'⟩ | ⟨-, -, hhigh⟩
    · refine ⟨_, hcalls, ?_, ?_⟩
      · intro before w' after hsplit hw'
        have hne : w' ≠ .apci_read32 b.1 := fun heq => by
          rw [heq] at hw'
          cases hw'
        rw [split_last hne hsplit, polls_replicate, List.range_succ, List.map_append,
          List.getLast?_append]
        exact ⟨_, rfl, hlow'⟩
      · intro htimeout
        obtain ⟨rc', s₁', hwait', hrc'⟩ := htimeout
        rw [hwait] at hwait'
        cases hwait'
        exact absurd hrc hrc'
    · exact absurd hlow (hhigh j hj)

theorem exDacWrite_constructed : (construct exPlatform .TREG_Write1 exDacWrite.rawBytes).exec
    exGlobals = some (.ok exDacWrite.toTItemBody, exGlobals) := rfl

/-- The registers read 0, so the first poll ends the wait. -/
theorem write_when_ready : KeepsOffBusy exPlatform exEnv exDacWrite.DId exDacWrite.toTItemBody
    (ofsDacSpiBusy, bmDacSpiBusy) exMachine :=
  (writes_when_ready_iff exDacWrite_constructed rfl _ _).mpr ⟨0, by decide, by decide⟩

/-- The item writes the DAC though the busy bit never goes low. -/
theorem write_while_busy : ¬KeepsOffBusy exPlatform exStuckEnv exDacWrite.DId
    exDacWrite.toTItemBody (ofsDacSpiBusy, bmDacSpiBusy) exMachine := by
  intro h
  have hstuck (s : Sys Unit) : ∃ v s', (in_ exStuckEnv ofsDacSpiBusy).exec s = some (.ok v, s') ∧
      v &&& bmDacSpiBusy ≠ 0 := ⟨0xFFFFFFFF, _, rfl, by decide⟩
  obtain ⟨s₁, hwait⟩ := waits_in_vain hstuck exMachine.sys
  obtain ⟨rc, s₂, s', w, -, hgo, hw, hcalls⟩ :=
    @go_waits Unit exStuckEnv _ _ _ _ _ _ exDacWrite_constructed _ rfl exDacWrite.DId exMachine
  obtain ⟨calls, hcalls', hready⟩ := h _ _ hgo
  have hmem : w ∈ calls := by
    have hnil : exMachine.sys.calls ++ calls = calls := rfl
    rw [← hnil, ← hcalls', hcalls]
    exact List.mem_append_right _ List.mem_cons_self
  have hnone := hready.timeout ⟨_, s₁, hwait, by decide⟩ w hmem
  rw [hw] at hnone
  cases hnone

end Busy

end EnetTcp
