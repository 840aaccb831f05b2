import Mathlib.Data.Nat.Count
import EnetTcp.Items.AdcScan
import EnetTcp.Lib.Views

/-!
# Acquiring a scan (ADC_.cpp, ADC_AcquireScanRaw)

The FIFO is read until it is empty, one scan is started, and the FIFO is read until the scan is
complete. A `Device` says what each read gives.

* `drainFIFO_shows`, `drainFIFO_hangs`: the first loop ends with the first empty FIFO.
* `drainFifo_cases`: how the second loop ends.
* `acquires_iff`: when a scan comes to an end, and what it has read by then.
-/

namespace EnetTcp

open Prog

/-! ## 1. Devices -/

/-- The values of the two FIFO registers and of the clock, each in the order of the reads. A read
that fails gives `none`. -/
structure Device where
  fifoCount : Nat → Option UInt32
  fifoData : Nat → Option UInt32
  clock : Nat → Nat
  /-- The answers to all other calls. -/
  other : (c : SysCall) → c.Result

/-- How many of them have been read. -/
structure Device.Reads where
  counts : Nat
  words : Nat
  clocks : Nat

namespace Device

variable (dev : Device)

def env : Env Reads where
  answer c r :=
    match c with
    | .apci_read32 offset =>
      if offset = ofsAdcFifoCount then (dev.fifoCount r.counts, { r with counts := r.counts + 1 })
      else if offset = ofsAdcDataFifo then
        (dev.fifoData r.words, { r with words := r.words + 1 })
      else (dev.other (.apci_read32 offset), r)
    | .steady_clock_now => (dev.clock r.clocks, { r with clocks := r.clocks + 1 })
    | c => (dev.other c, r)

/-- What `in` returns for the FIFO registers. -/
def count (k : Nat) : UInt32 := (dev.fifoCount k).getD 0xFFFFFFFF
def word (k : Nat) : UInt32 := (dev.fifoData k).getD 0xFFFFFFFF

/-- The words with INV clear among `n` words. -/
def validWords (first n : Nat) : List UInt32 :=
  ((List.range' first n).map dev.word).filter fun v => !AdcRawInvalid v

/-- The number of empty FIFOs among `n` polls. -/
def empties (poll n : Nat) : Nat := Nat.count (fun k => dev.count (poll + k) = 0) n

def startCh : UInt8 := (dev.other (.apci_read8 ofsAdcStartChannel) : Option UInt8).getD 0xFF
def endCh : UInt8 := (dev.other (.apci_read8 ofsAdcStopChannel) : Option UInt8).getD 0xFF
def oversamples : UInt8 := (dev.other (.apci_read8 ofsAdcOversamples) : Option UInt8).getD 0xFF

/-- The number of words of a scan. -/
def expected : Nat := (dev.endCh.toNat - dev.startCh.toNat + 1) * (dev.oversamples.toNat + 1)

/-- What the registers make of a scan. -/
def scanCfg : TAdcScanCfg :=
  if dev.startCh ≤ dev.endCh then
    { startCh := dev.startCh
      endCh := dev.endCh
      oversamples := dev.oversamples
      nChannels := dev.endCh.toNat - dev.startCh.toNat + 1
      perChannel := dev.oversamples.toNat + 1
      expected := dev.expected }
  else { startCh := dev.startCh, endCh := dev.endCh, oversamples := dev.oversamples }

/-- What the driver says to the choice of the scan mode. -/
def scanModeStatus : UInt32 := dev.other (.apci_write8 ofsAdcTriggerOptions 0x04)

/-- The clock passes any bound in the end. -/
def ClockPasses : Prop := ∀ bound, ∃ n, ∀ m ≥ n, bound < dev.clock m

/-- Among the polls from `poll` on there is an empty FIFO when the time is over. Each empty FIFO
costs one look at the clock. -/
def TimesOut (t0 timeout poll clock : Nat) : Prop :=
  ∃ n, dev.count (poll + n) = 0 ∧ timeout < dev.clock (clock + dev.empties poll n) - t0

/-- The FIFO has enough words, sooner or later. -/
def Delivers (expected first : Nat) : Prop := ∃ n, expected ≤ (dev.validWords first n).length

/-- The channels are out of order, or the driver rejects the scan mode; or the FIFO is once empty
and after that all words of the scan arrive, or it is once empty when the time is over. -/
def EndsScan (r : Reads) : Prop :=
  dev.endCh < dev.startCh ∨ dev.scanModeStatus ≠ 0 ∨
    ∃ k, (∀ j < k, dev.count (r.counts + j) ≠ 0) ∧ dev.count (r.counts + k) = 0 ∧
      (dev.Delivers dev.expected (r.words + k) ∨
        dev.TimesOut (dev.clock r.clocks) ((2 + dev.expected) * 1000000) (r.counts + k + 1)
          (r.clocks + 1))

end Device

/-- `ADC_AcquireScanRaw` returns, and when it returns 0 it has the words of the scan. -/
structure AcquiresScan (dev : Device) (s : Sys Device.Reads) : Prop where
  returns : ∃ fuel result s', (ADC_AcquireScanRaw dev.env fuel).exec s = some (.ok result, s')
  complete : ∀ fuel raw cfg s',
    (ADC_AcquireScanRaw dev.env fuel).exec s = some (.ok (0, raw, cfg), s') →
      raw.length = cfg.expected ∧ (∀ v ∈ raw, AdcRawInvalid v = false) ∧
        ∃ first n, s'.env.words = first + n ∧ raw = dev.validWords first n

/-! ## 2. The loops -/

namespace AcquiringLemmas

variable {dev : Device} {r : Device.Reads}

theorem in_count : Shows Sys.env (in_ dev.env ofsAdcFifoCount) r (dev.count r.counts)
    { r with counts := r.counts + 1 } := by
  rintro s rfl
  exact ⟨_, rfl, rfl⟩

theorem in_data : Shows Sys.env (in_ dev.env ofsAdcDataFifo) r (dev.word r.words)
    { r with words := r.words + 1 } := by
  rintro s rfl
  exact ⟨_, rfl, rfl⟩

theorem steady_clock_now : Shows Sys.env (syscall dev.env .steady_clock_now) r
    (dev.clock r.clocks) { r with clocks := r.clocks + 1 } := by
  rintro s rfl
  exact ⟨_, rfl, rfl⟩

theorem usleep (us : Nat) : Shows Sys.env (syscall dev.env (.usleep us)) r () r := by
  rintro s rfl
  exact ⟨_, rfl, rfl⟩

/-- One round of the first loop. -/
theorem drainFIFO_round (fuel : Nat) (h : dev.count r.counts ≠ 0) :
    GoesOn Sys.env (ADC_DrainFIFO dev.env (fuel + 1)) r (ADC_DrainFIFO dev.env fuel)
      { r with counts := r.counts + 1, words := r.words + 1 } := by
  have hpos : 0 < dev.count r.counts := UInt32.pos_iff_ne_zero.mpr h
  rw [ADC_DrainFIFO]
  refine goesOn_bind in_count ?_
  rw [if_pos hpos]
  exact goesOn_bind in_data (goesOn_refl _)

theorem add_one_add (n j : Nat) : n + 1 + j = n + (j + 1) := by omega

/-- The first empty FIFO ends the loop. -/
theorem drainFIFO_shows {k fuel : Nat} (hk : k < fuel)
    (hfull : ∀ j < k, dev.count (r.counts + j) ≠ 0) (hempty : dev.count (r.counts + k) = 0) :
    Shows Sys.env (ADC_DrainFIFO dev.env fuel) r ()
      { r with counts := r.counts + k + 1, words := r.words + k } := by
  induction fuel generalizing k r with
  | zero => exact absurd hk (Nat.not_lt_zero k)
  | succ fuel ih =>
    cases k with
    | zero =>
      rw [ADC_DrainFIFO]
      refine shows_bind in_count ?_
      rw [Nat.add_zero] at hempty
      rw [if_neg (by rw [hempty]; exact Nat.lt_irrefl 0)]
      exact shows_pure _
    | succ k =>
      have hrest := ih (r := { r with counts := r.counts + 1, words := r.words + 1 })
        (Nat.lt_of_succ_lt_succ hk)
        (fun j hj => by rw [add_one_add]; exact hfull (j + 1) (Nat.succ_lt_succ hj))
        (by rwa [add_one_add])
      have hround := (drainFIFO_round fuel (hfull 0 (Nat.succ_pos k))).shows hrest
      rw [add_one_add, add_one_add] at hround
      exact hround

/-- Without an empty FIFO the loop does not end. -/
theorem drainFIFO_hangs {fuel : Nat} (hfull : ∀ j < fuel, dev.count (r.counts + j) ≠ 0) :
    Hangs Sys.env (ADC_DrainFIFO dev.env fuel) r := by
  induction fuel generalizing r with
  | zero => exact hangs_undefined
  | succ fuel ih =>
    refine (drainFIFO_round fuel (hfull 0 (Nat.succ_pos fuel))).hangs (ih fun j hj => ?_)
    rw [add_one_add]
    exact hfull (j + 1) (Nat.succ_lt_succ hj)

theorem validWords_succ (first n : Nat) : dev.validWords first (n + 1) =
    (if AdcRawInvalid (dev.word first) then [] else [dev.word first]) ++
      dev.validWords (first + 1) n := by
  rw [Device.validWords, Device.validWords, List.range'_succ, List.map_cons, List.filter_cons]
  cases AdcRawInvalid (dev.word first) <;> rfl

theorem append_validWords_zero (raw : List UInt32) (first : Nat) :
    raw ++ dev.validWords first 0 = raw := List.append_nil raw

theorem validWords_append (first n m : Nat) :
    dev.validWords first n ++ dev.validWords (first + n) m = dev.validWords first (n + m) := by
  rw [Device.validWords, Device.validWords, Device.validWords, ← List.filter_append,
    ← List.map_append, List.range'_append_1]

/-- The inner loop reads at least one word, and no more valid words than are missing. -/
theorem readFifoWords_shows {expected : Nat} (toRead : Nat) {raw : List UInt32}
    (hraw : raw.length ≤ expected) : ∃ n,
      Shows Sys.env (readFifoWords dev.env expected toRead raw) r
        (raw ++ dev.validWords r.words n) { r with words := r.words + n } ∧
      (raw ++ dev.validWords r.words n).length ≤ expected ∧
      (raw.length < expected → 0 < toRead → 0 < n) := by
  have hnone : raw ++ dev.validWords r.words 0 = raw := append_validWords_zero raw r.words
  induction toRead generalizing raw r with
  | zero =>
    refine ⟨0, ?_, hnone.symm ▸ hraw, fun _ h => h⟩
    rw [hnone]
    exact shows_pure raw
  | succ toRead ih =>
    rw [readFifoWords]
    by_cases hmore : raw.length < expected
    · have hone : (raw ++
          if AdcRawInvalid (dev.word r.words) then [] else [dev.word r.words]).length
          ≤ expected := by
        rw [List.length_append]
        split
        · exact hraw
        · exact hmore
      obtain ⟨n, hrun, hlen, -⟩ :=
        ih (r := { r with words := r.words + 1 }) hone (append_validWords_zero _ _)
      refine ⟨n + 1, ?_, ?_, fun _ _ => Nat.succ_pos n⟩
      · rw [if_pos hmore, validWords_succ, ← List.append_assoc]
        refine shows_bind in_data ?_
        rw [Nat.add_comm n 1, ← Nat.add_assoc]
        have hpush : (if AdcRawInvalid (dev.word r.words) then raw
            else raw ++ [dev.word r.words]) =
            raw ++ if AdcRawInvalid (dev.word r.words) then [] else [dev.word r.words] := by
          split
          · exact (List.append_nil raw).symm
          · rfl
        rw [hpush]
        exact hrun
      · rw [validWords_succ, ← List.append_assoc]
        exact hlen
    · refine ⟨0, ?_, hnone.symm ▸ hraw, fun h => absurd h hmore⟩
      rw [if_neg hmore, hnone]
      exact shows_pure raw

theorem empties_succ (poll n : Nat) : dev.empties poll (n + 1) =
    (if dev.count poll = 0 then 1 else 0) + dev.empties (poll + 1) n := by
  rw [Device.empties, Nat.count_succ', Nat.add_comm, Device.empties]
  simp only [add_one_add, Nat.add_zero]

/-- After `fuel` rounds of the second loop from `r`, there are words missing, and there has been
no timeout. -/
structure Waiting (dev : Device) (expected t0 timeout : Nat) (raw : List UInt32)
    (r : Device.Reads) (fuel : Nat) : Prop where
  inTime : ∀ n < fuel, dev.count (r.counts + n) = 0 →
    ¬timeout < dev.clock (r.clocks + dev.empties r.counts n) - t0
  /-- Each round but the last has either found the FIFO empty or read a word. -/
  missing : fuel = 0 ∨ ∃ m, fuel ≤ m + dev.empties r.counts (fuel - 1) + 1 ∧
    (raw ++ dev.validWords r.words m).length < expected

/-- What the second loop has done when it ends with `result`. -/
structure Drained (dev : Device) (expected t0 timeout : Nat) (raw : List UInt32)
    (r : Device.Reads) (result : TError × List UInt32) (r' : Device.Reads) : Prop where
  max : result.2.length ≤ expected
  reads : ∃ m, r'.words = r.words + m ∧ result.2 = raw ++ dev.validWords r.words m
  outcome : result.1 = 0 ∧ expected ≤ result.2.length ∨
    result.1 ≠ 0 ∧ dev.TimesOut t0 timeout r.counts r.clocks

/-- What a round has read that goes on to the next one. -/
def next (dev : Device) (n : Nat) (r : Device.Reads) : Device.Reads where
  counts := r.counts + 1
  words := r.words + n
  clocks := r.clocks + if dev.count r.counts = 0 then 1 else 0

section Rounds

variable {expected t0 timeout : Nat} {raw : List UInt32}

/-- One round: the loop ends, or goes on with `n` more words. -/
theorem drainFifo_round (fuel : Nat) (hraw : raw.length < expected) :
    (∃ r', Shows Sys.env (drainFifo dev.env expected t0 timeout (fuel + 1) raw) r
      (0xFFFFFFFF, raw) r' ∧ Drained dev expected t0 timeout raw r (0xFFFFFFFF, raw) r') ∨
    ∃ n, GoesOn Sys.env (drainFifo dev.env expected t0 timeout (fuel + 1) raw) r
        (drainFifo dev.env expected t0 timeout fuel (raw ++ dev.validWords r.words n))
        (next dev n r) ∧
      (raw ++ dev.validWords r.words n).length ≤ expected ∧
      if dev.count r.counts = 0 then ¬timeout < dev.clock r.clocks - t0 else 0 < n := by
  have hnone : raw ++ dev.validWords r.words 0 = raw := append_validWords_zero raw r.words
  rw [drainFifo, if_pos hraw]
  by_cases hempty : dev.count r.counts = 0
  · by_cases htime : timeout < dev.clock r.clocks - t0
    · refine .inl ⟨{ r with counts := r.counts + 1, clocks := r.clocks + 1 }, ?_,
        Nat.le_of_lt hraw, ⟨0, rfl, hnone.symm⟩, .inr ⟨nofun, 0, hempty, htime⟩⟩
      refine shows_bind in_count ?_
      rw [if_pos hempty]
      refine shows_bind steady_clock_now ?_
      rw [if_pos htime]
      exact shows_pure _
    · refine .inr ⟨0, ?_, hnone.symm ▸ Nat.le_of_lt hraw, by rwa [if_pos hempty]⟩
      rw [hnone, next, if_pos hempty]
      refine goesOn_bind in_count ?_
      rw [if_pos hempty]
      refine goesOn_bind steady_clock_now ?_
      rw [if_neg htime]
      exact goesOn_refl _
  · obtain ⟨n, hrun, hlen, hn⟩ := readFifoWords_shows
      (r := { r with counts := r.counts + 1 }) (dev.count r.counts).toNat (Nat.le_of_lt hraw)
    have hpos : 0 < (dev.count r.counts).toNat :=
      UInt32.lt_iff_toNat_lt.mp (UInt32.pos_iff_ne_zero.mpr hempty)
    refine .inr ⟨n, ?_, hlen, ?_⟩
    · rw [next, if_neg hempty]
      refine goesOn_bind in_count ?_
      rw [if_neg hempty]
      exact goesOn_bind (usleep 10) (goesOn_bind hrun (goesOn_refl _))
    · rw [if_neg hempty]
      exact hn hraw hpos

theorem timesOut_next {n : Nat} (h : dev.TimesOut t0 timeout (next dev n r).counts
    (next dev n r).clocks) : dev.TimesOut t0 timeout r.counts r.clocks := by
  obtain ⟨k, hempty, htime⟩ := h
  refine ⟨k + 1, by rwa [← add_one_add], ?_⟩
  rw [empties_succ, ← Nat.add_assoc]
  exact htime

theorem drained_next {n : Nat} {result : TError × List UInt32} {r' : Device.Reads}
    (h : Drained dev expected t0 timeout (raw ++ dev.validWords r.words n) (next dev n r) result
      r') : Drained dev expected t0 timeout raw r result r' := by
  obtain ⟨m, hr', hresult⟩ := h.reads
  refine ⟨h.max, ⟨n + m, hr'.trans (Nat.add_assoc _ _ _), ?_⟩,
    h.outcome.imp_right fun h => ⟨h.1, timesOut_next h.2⟩⟩
  rw [hresult, List.append_assoc]
  exact congrArg (raw ++ ·) (validWords_append _ _ _)

theorem waiting_next {n fuel : Nat} (hraw : raw.length < expected)
    (hround : if dev.count r.counts = 0 then ¬timeout < dev.clock r.clocks - t0 else 0 < n)
    (h : Waiting dev expected t0 timeout (raw ++ dev.validWords r.words n) (next dev n r) fuel) :
    Waiting dev expected t0 timeout raw r (fuel + 1) := by
  refine ⟨fun k hk hempty => ?_, .inr ?_⟩
  · cases k with
    | zero =>
      rw [Nat.add_zero] at hempty
      rwa [if_pos hempty] at hround
    | succ k =>
      have hrest := h.inTime k (Nat.lt_of_succ_lt_succ hk) (by rwa [← add_one_add] at hempty)
      rw [empties_succ, ← Nat.add_assoc]
      exact hrest
  · rcases h.missing with rfl | ⟨m, hm, hmissing⟩
    · exact ⟨0, Nat.le_add_left 1 _, by rwa [append_validWords_zero]⟩
    · refine ⟨n + m, ?_, ?_⟩
      · cases fuel with
        | zero => exact Nat.le_add_left 1 _
        | succ fuel =>
          rw [Nat.add_sub_cancel, empties_succ]
          rw [Nat.add_sub_cancel] at hm
          have hempties : dev.empties (next dev n r).counts fuel =
              dev.empties (r.counts + 1) fuel :=
            rfl
          split at hround <;> simp only [*, if_true, if_false] at hm ⊢ <;> omega
      · rw [List.append_assoc] at hmissing
        rw [← validWords_append]
        exact hmissing

/-- The second loop ends, or is still waiting when the fuel is used up. -/
theorem drainFifo_cases (fuel : Nat) (hraw : raw.length ≤ expected) :
    (∃ result r', Shows Sys.env (drainFifo dev.env expected t0 timeout fuel raw) r result r' ∧
      Drained dev expected t0 timeout raw r result r') ∨
    Hangs Sys.env (drainFifo dev.env expected t0 timeout fuel raw) r ∧
      Waiting dev expected t0 timeout raw r fuel := by
  induction fuel generalizing raw r with
  | zero => exact .inr ⟨hangs_undefined, nofun, .inl rfl⟩
  | succ fuel ih =>
    by_cases hmore : raw.length < expected
    · rcases drainFifo_round fuel hmore with ⟨r', hrun, hdrained⟩ | ⟨n, hgo, hlen, hround⟩
      · exact .inl ⟨_, r', hrun, hdrained⟩
      · rcases ih hlen with ⟨result, r', hrun, hdrained⟩ | ⟨hhang, hwait⟩
        · exact .inl ⟨result, r', hgo.shows hrun, drained_next hdrained⟩
        · exact .inr ⟨hgo.hangs hhang, waiting_next hmore hround hwait⟩
    · refine .inl ⟨(0, raw), r, ?_, hraw, ⟨0, rfl, (append_validWords_zero raw _).symm⟩,
        .inl ⟨rfl, Nat.le_of_not_lt hmore⟩⟩
      rw [drainFifo, if_neg hmore]
      exact shows_pure _

end Rounds

theorem length_validWords_mono (first : Nat) {n m : Nat} (h : n ≤ m) :
    (dev.validWords first n).length ≤ (dev.validWords first m).length := by
  obtain ⟨k, rfl⟩ := Nat.exists_eq_add_of_le h
  rw [← validWords_append, List.length_append]
  exact Nat.le_add_right _ _

/-- Each number of empty FIFOs has been reached by an empty FIFO. -/
theorem exists_empty {poll k n : Nat} (h : k < dev.empties poll n) :
    ∃ j < n, dev.count (poll + j) = 0 ∧ dev.empties poll j = k := by
  induction n with
  | zero => exact absurd h (by rw [Device.empties, Nat.count_zero]; exact Nat.not_lt_zero k)
  | succ n ih =>
    by_cases hlt : k < dev.empties poll n
    · obtain ⟨j, hj, hempty⟩ := ih hlt
      exact ⟨j, Nat.lt_succ_of_lt hj, hempty⟩
    · rw [Device.empties, Nat.count_succ] at h
      split at h
      · exact ⟨n, Nat.lt_succ_self n, ‹_›,
          Nat.le_antisymm (Nat.le_of_not_lt hlt) (Nat.le_of_lt_succ h)⟩
      · exact absurd h hlt

/-- The second loop ends when it gets its words, or has no more time. -/
theorem drainFifo_ends (hclock : dev.ClockPasses) {expected t0 timeout : Nat}
    (h : dev.Delivers expected r.words ∨ dev.TimesOut t0 timeout r.counts r.clocks) :
    ∃ enough, ∀ fuel ≥ enough, ∃ result r',
      Shows Sys.env (drainFifo dev.env expected t0 timeout fuel []) r result r' ∧
        Drained dev expected t0 timeout [] r result r' := by
  rcases h with ⟨n, hn⟩ | ⟨n, hempty, htime⟩
  · obtain ⟨late, hlate⟩ := hclock (timeout + t0)
    refine ⟨n + late + 2, ?_⟩
    intro fuel hfuel
    refine (drainFifo_cases fuel (Nat.zero_le expected)).resolve_right fun ⟨_, hwait⟩ => ?_
    rcases hwait.missing with rfl | ⟨m, hm, hmissing⟩
    · exact absurd hfuel (Nat.not_succ_le_zero _)
    · have hmn : m < n := by
        by_contra hle
        exact absurd (Nat.le_trans hn (length_validWords_mono _ (Nat.le_of_not_lt hle)))
          (Nat.not_le.mpr hmissing)
      -- the FIFO has been empty so often that the last look at the clock comes too late
      obtain ⟨j, hj, hempty, hempties⟩ := @exists_empty dev r.counts late
        (fuel - 1) (by omega)
      have hover := hlate (r.clocks + dev.empties r.counts j) (by omega)
      exact hwait.inTime j (by omega) hempty (by omega)
  · refine ⟨n + 1, ?_⟩
    intro fuel hfuel
    exact (drainFifo_cases fuel (Nat.zero_le expected)).resolve_right fun ⟨_, hwait⟩ =>
      hwait.inTime n hfuel hempty htime

theorem in_register {offset : Nat} (h : widthFromOffset offset = 8) :
    Shows Sys.env (in_ dev.env offset) r
      ((dev.other (.apci_read8 offset) : Option UInt8).getD 0xFF).toUInt32 r := by
  rintro s rfl
  rw [in_, if_pos h]
  exact ⟨_, rfl, rfl⟩

theorem out_register {offset : Nat} (value : UInt32) (h : widthFromOffset offset = 8) :
    Shows Sys.env (out dev.env offset value) r (dev.other (.apci_write8 offset value.toUInt8))
      r := by
  have heq : out dev.env offset value = (syscall dev.env (.apci_write8 offset value.toUInt8) :
      Prog Exn (Sys Device.Reads) UInt32) := if_pos h
  rintro s rfl
  rw [heq]
  exact ⟨_, rfl, rfl⟩

theorem readScanCfg : Shows Sys.env (ADC_ReadScanCfg dev.env) r dev.scanCfg r := by
  rw [ADC_ReadScanCfg]
  refine shows_bind (a := dev.startCh.toUInt32) (in_register rfl) ?_
  refine shows_bind (a := dev.endCh.toUInt32) (in_register rfl) ?_
  refine shows_bind (a := dev.oversamples.toUInt32) (in_register rfl) ?_
  simp only [UInt8.toUInt8_toUInt32]
  rw [Device.scanCfg]
  split <;> exact shows_pure _

theorem scanCfg_expected :
    dev.scanCfg.expected = if dev.endCh < dev.startCh then 0 else dev.expected := by
  rw [Device.scanCfg]
  by_cases horder : dev.startCh ≤ dev.endCh
  · rw [if_pos horder, if_neg (UInt8.not_lt.mpr horder)]
  · rw [if_neg horder, if_pos (UInt8.not_le.mp horder)]

theorem setScanStartMode :
    Shows Sys.env (ADC_SetScanStartMode dev.env) r dev.scanModeStatus r :=
  shows_bind (out_register 0 rfl) (shows_bind (out_register 0 rfl) (out_register 0x04 rfl))

theorem startSoftwareADC : Shows Sys.env (ADC_StartSoftwareADC dev.env) r () r :=
  shows_bind (out_register 0x00 rfl) (shows_bind (usleep 10) (shows_pure ()))

/-- A scan whose channels are out of order, or whose mode is rejected, ends at once. -/
theorem acquire_rejected (fuel : Nat) (h : dev.endCh < dev.startCh ∨ dev.scanModeStatus ≠ 0) :
    ∃ err ≠ 0, Shows Sys.env (ADC_AcquireScanRaw dev.env fuel) r (err, [], dev.scanCfg) r := by
  rw [ADC_AcquireScanRaw]
  by_cases hempty : dev.scanCfg.expected = 0
  · refine ⟨0xFFFFFFFF, nofun, shows_bind (out_register 0 rfl) (shows_bind readScanCfg ?_)⟩
    rw [if_pos hempty]
    exact shows_pure _
  · have hmode : dev.scanModeStatus ≠ 0 :=
      h.resolve_left fun horder => hempty (by rw [scanCfg_expected, if_pos horder])
    refine ⟨dev.scanModeStatus, hmode,
      shows_bind (out_register 0 rfl) (shows_bind readScanCfg ?_)⟩
    rw [if_neg hempty]
    refine shows_bind setScanStartMode ?_
    rw [if_pos hmode]
    exact shows_pure _

/-- Any other scan goes on with the two loops. -/
theorem acquire_goesOn (fuel : Nat) (h : ¬(dev.endCh < dev.startCh ∨ dev.scanModeStatus ≠ 0)) :
    GoesOn Sys.env (ADC_AcquireScanRaw dev.env fuel) r (do
      ADC_DrainFIFO dev.env fuel
      ADC_StartSoftwareADC dev.env
      let result ← ADC_DrainAdcFifoRaw dev.env fuel dev.expected
      return (result.1, result.2, dev.scanCfg)) r := by
  obtain ⟨horder, hmode⟩ := not_or.mp h
  have hexpected := @scanCfg_expected dev
  rw [if_neg horder] at hexpected
  have hpos : dev.scanCfg.expected ≠ 0 := by
    rw [hexpected]
    exact Nat.mul_ne_zero (Nat.succ_ne_zero _) (Nat.succ_ne_zero _)
  rw [ADC_AcquireScanRaw]
  refine goesOn_bind (out_register 0 rfl) (goesOn_bind readScanCfg ?_)
  rw [if_neg hpos]
  refine goesOn_bind setScanStartMode ?_
  rw [if_neg hmode, hexpected]
  exact goesOn_refl _

theorem drainAdcFifoRaw (fuel expected : Nat) :
    GoesOn Sys.env (ADC_DrainAdcFifoRaw dev.env fuel expected) r
      (drainFifo dev.env expected (dev.clock r.clocks) ((2 + expected) * 1000000) fuel [])
      { r with clocks := r.clocks + 1 } :=
  goesOn_bind steady_clock_now (goesOn_refl _)

/-- The part of a scan behind the first loop. -/
theorem acquire_behind {fuel k : Nat} (hk : k < fuel)
    (hfull : ∀ j < k, dev.count (r.counts + j) ≠ 0) (hempty : dev.count (r.counts + k) = 0)
    (h : ¬(dev.endCh < dev.startCh ∨ dev.scanModeStatus ≠ 0)) :
    GoesOn Sys.env (ADC_AcquireScanRaw dev.env fuel) r (do
      let result ← drainFifo dev.env dev.expected (dev.clock r.clocks)
        ((2 + dev.expected) * 1000000) fuel []
      return (result.1, result.2, dev.scanCfg))
      ⟨r.counts + k + 1, r.words + k, r.clocks + 1⟩ :=
  (acquire_goesOn fuel h).trans <| goesOn_bind (drainFIFO_shows hk hfull hempty) <|
    goesOn_bind startSoftwareADC <| (drainAdcFifoRaw fuel dev.expected).bind _

/-- A run of a scan. -/
theorem acquire_cases (fuel : Nat) :
    (∃ err raw r', Shows Sys.env (ADC_AcquireScanRaw dev.env fuel) r (err, raw, dev.scanCfg) r' ∧
      dev.EndsScan r ∧ (err = 0 → raw.length = dev.scanCfg.expected ∧
        ∃ first n, r'.words = first + n ∧ raw = dev.validWords first n)) ∨
    Hangs Sys.env (ADC_AcquireScanRaw dev.env fuel) r := by
  by_cases hstart : dev.endCh < dev.startCh ∨ dev.scanModeStatus ≠ 0
  · obtain ⟨err, herr, hrun⟩ := acquire_rejected (r := r) fuel hstart
    exact .inl ⟨err, [], r, hrun, hstart.imp_right .inl, fun h => absurd h herr⟩
  by_cases hdrain : ∃ k, dev.count (r.counts + k) = 0 ∧ k < fuel
  · have hfull : ∀ j < Nat.find hdrain, dev.count (r.counts + j) ≠ 0 := fun j hj hempty =>
      Nat.find_min hdrain hj ⟨hempty, Nat.lt_trans hj (Nat.find_spec hdrain).2⟩
    obtain ⟨hempty, hk⟩ := Nat.find_spec hdrain
    generalize Nat.find hdrain = k at hfull hempty hk
    have hbehind := acquire_behind hk hfull hempty hstart
    have hnone : ([] : List UInt32).length ≤ dev.expected := Nat.zero_le _
    rcases drainFifo_cases fuel hnone with ⟨⟨err, raw⟩, r', hrun, hdrained⟩ | ⟨hhang, -⟩
    · obtain ⟨m, hr', hraw⟩ := hdrained.reads
      refine .inl ⟨err, raw, r', hbehind.shows (shows_bind hrun (shows_pure _)),
        .inr (.inr ⟨k, hfull, hempty, ?_⟩), fun h => ⟨?_, r.words + k, m, hr', hraw⟩⟩
      · refine hdrained.outcome.imp (fun h => ⟨m, ?_⟩) And.right
        rw [hraw] at h
        exact h.2
      · have hlen := (hdrained.outcome.resolve_right fun hout => hout.1 h).2
        rw [scanCfg_expected, if_neg (not_or.mp hstart).1]
        exact Nat.le_antisymm hdrained.max hlen
    · exact .inr (hbehind.hangs (hangs_bind _ hhang))
  · refine .inr ((acquire_goesOn fuel hstart).hangs (hangs_bind _ (drainFIFO_hangs ?_)))
    exact fun j hj hempty => hdrain ⟨j, hempty, hj⟩

/-- With enough fuel a scan ends. -/
theorem acquire_ends (hclock : dev.ClockPasses) (h : dev.EndsScan r) : ∃ fuel result r',
    Shows Sys.env (ADC_AcquireScanRaw dev.env fuel) r result r' := by
  by_cases hstart : dev.endCh < dev.startCh ∨ dev.scanModeStatus ≠ 0
  · obtain ⟨err, -, hrun⟩ := acquire_rejected (r := r) 0 hstart
    exact ⟨0, _, r, hrun⟩
  · have hloops := (h.resolve_left (not_or.mp hstart).1).resolve_left (not_or.mp hstart).2
    obtain ⟨k, hfull, hempty, hends⟩ := hloops
    obtain ⟨enough, henough⟩ := drainFifo_ends
      (r := ⟨r.counts + k + 1, r.words + k, r.clocks + 1⟩) hclock hends
    obtain ⟨result, r', hrun, -⟩ := henough (max (k + 1) enough) (Nat.le_max_right _ _)
    have hbehind := acquire_behind (Nat.le_max_left (k + 1) enough) hfull hempty hstart
    exact ⟨_, _, r', hbehind.shows (shows_bind hrun (shows_pure _))⟩

end AcquiringLemmas

open AcquiringLemmas

/-! ## 3. Scans that come to an end -/

/-- Neither loop has a bound of its own when the FIFO is never empty. -/
theorem acquires_iff {dev : Device} (hclock : dev.ClockPasses) (s : Sys Device.Reads) :
    AcquiresScan dev s ↔ dev.EndsScan s.env := by
  refine ⟨fun h => ?_, fun h => ⟨?_, fun fuel raw cfg s' hrun => ?_⟩⟩
  · obtain ⟨fuel, result, s', hrun⟩ := h.returns
    rcases @acquire_cases dev s.env fuel with ⟨_, _, _, -, hends, -⟩ | hhang
    · exact hends
    · rw [hhang s rfl] at hrun
      cases hrun
  · obtain ⟨fuel, result, r', hrun⟩ := acquire_ends hclock h
    obtain ⟨s', hs', -⟩ := hrun s rfl
    exact ⟨fuel, result, s', hs'⟩
  · rcases @acquire_cases dev s.env fuel with
      ⟨err, raw', r', hshow, -, hwords⟩ | hhang
    · obtain ⟨heq, hr'⟩ := hshow.exec_eq rfl hrun
      cases heq
      obtain ⟨hlen, first, n, hfirst, hraw⟩ := hwords rfl
      refine ⟨hlen, ?_, first, n, hr' ▸ hfirst, hraw⟩
      intro v hv
      rw [hraw] at hv
      exact Bool.not_eq_true' _ ▸ (List.mem_filter.mp hv).2
    · rw [hhang s rfl] at hrun
      cases hrun

/-- The FIFO has two old words, is empty once, and then always has one more word. A scan has two
words for each of the channels 2 to 4, and INV is set in every third word. -/
def exDevice : Device where
  fifoCount k := some (if k = 2 then 0 else 1)
  fifoData k := some (if k % 3 = 0 then 0x80000000 else UInt32.ofNat k)
  clock n := n
  other c :=
    match c with
    | .apci_read8 offset => some
        (if offset = ofsAdcStartChannel then 2 else if offset = ofsAdcStopChannel then 4 else 1)
    | c => (exEnv.answer c ()).1

theorem exDevice_clock : exDevice.ClockPasses := fun bound => ⟨bound + 1, fun _ h => h⟩

/-- The old words and those with INV are not among the six of the scan. -/
theorem six_words_acquired : AcquiresScan exDevice ⟨⟨0, 0, 0⟩, []⟩ ∧
    ∃ cfg s', (ADC_AcquireScanRaw exDevice.env 20).exec ⟨⟨0, 0, 0⟩, []⟩ =
      some (.ok (0, [2, 4, 5, 7, 8, 10], cfg), s') ∧ cfg.expected = 6 := by
  have hempty : ∀ j < 2, exDevice.count (0 + j) ≠ 0 := by decide
  have hdelivers : exDevice.Delivers exDevice.expected (0 + 2) := ⟨9, by decide⟩
  have hscan : AcquiresScan exDevice ⟨⟨0, 0, 0⟩, []⟩ :=
    (acquires_iff exDevice_clock _).mpr (.inr (.inr ⟨2, hempty, rfl, .inl hdelivers⟩))
  have hrun : (((ADC_AcquireScanRaw exDevice.env 20).exec ⟨⟨0, 0, 0⟩, []⟩).bind fun r =>
      r.1.toOption.map fun q => (q.1, q.2.1)) = some (0, [2, 4, 5, 7, 8, 10]) := by
    decide +kernel
  obtain ⟨⟨r, s'⟩, hexec, hr⟩ := Option.bind_eq_some_iff.mp hrun
  obtain ⟨⟨err, raw, cfg⟩, hok, hraw⟩ := Option.map_eq_some_iff.mp hr
  obtain ⟨rfl, rfl⟩ := Prod.mk.inj hraw
  have hresult : r = .ok (0, [2, 4, 5, 7, 8, 10], cfg) := by
    cases r with
    | error e => cases hok
    | ok q => exact congrArg Except.ok (Option.some.inj hok)
  subst hresult
  exact ⟨hscan, cfg, s', hexec, (hscan.complete _ _ _ _ hexec).1.symm⟩

/-- The registers of the FIFO cannot be read. -/
def exStuckDevice : Device where
  fifoCount _ := none
  fifoData _ := none
  clock n := n
  other c := (exEnv.answer c ()).1

theorem stuck_scan : exStuckDevice.ClockPasses ∧ ¬AcquiresScan exStuckDevice ⟨⟨0, 0, 0⟩, []⟩ := by
  refine ⟨fun bound => ⟨bound + 1, fun _ h => h⟩, ?_⟩
  intro h
  obtain ⟨fuel, result, s', hrun⟩ := h.returns
  have hhang : Hangs Sys.env (ADC_DrainFIFO exStuckDevice.env fuel) ⟨0, 0, 0⟩ :=
    drainFIFO_hangs fun j _ => nofun
  have hstart : ¬(exStuckDevice.endCh < exStuckDevice.startCh ∨
      exStuckDevice.scanModeStatus ≠ 0) := by decide
  rw [(acquire_goesOn fuel hstart).hangs (hangs_bind _ hhang) _ rfl] at hrun
  cases hrun

end EnetTcp
