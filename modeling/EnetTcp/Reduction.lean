import Mathlib.Tactic.IntervalCases
import EnetTcp.Items.AdcScan
import EnetTcp.Lib.Means
import EnetTcp.Lib.NotANumber

/-!
# Reducing a scan to one value for each channel (ADC_.cpp, AccumulateByChannel)

One pass over the FIFO words keeps an accumulator for each channel. Words of other channels,
words with INV and words beyond the number that a channel has are skipped.

* `accumulator_eq`: an accumulator sums up the words of its channel.
* `counts_reduction`: the counts of a channel are the rounded mean of the words that count.
* `scans_agree`: the raw words and the voltages of a scan go with the counts.
-/

namespace EnetTcp

open Floats Mean

/-! ## 1. The words of a channel -/

/-- What `ADC_ReadScanCfg` makes of a range of channels. -/
structure TAdcScanCfg.Valid (cfg : TAdcScanCfg) : Prop where
  order : cfg.startCh ≤ cfg.endCh
  nChannels : cfg.nChannels = cfg.endCh.toNat - cfg.startCh.toNat + 1
  perChannel : cfg.perChannel = cfg.oversamples.toNat + 1

namespace TAdcScanCfg

variable (cfg : TAdcScanCfg)

/-- The words with INV clear for the channel at place `i`. -/
def channelWords (i : Nat) (raw : List UInt32) : List UInt32 :=
  raw.filter fun v => !AdcRawInvalid v && (AdcRawChannel v).toNat == cfg.startCh.toNat + i

/-- The first of them, as many as a channel has. -/
def takenWords (i : Nat) (raw : List UInt32) : List UInt32 :=
  (cfg.channelWords i raw).take cfg.perChannel

/-- The counts that contribute to the mean: with more than one oversample, the first word does
not. -/
def contributing (words : List UInt32) : List Nat :=
  (if cfg.oversamples ≤ 1 then words else words.drop 1).map fun v => (AdcRawCounts v).toNat

end TAdcScanCfg

/-- `ADC_AverageCountsForChannel`: the words of a channel lie side by side. The reads stay in the
vector when there are `per` words from `base` on. -/
def ADC_AverageCountsForChannel (raw : List UInt32) (base per : Nat) (oversamples : UInt8) :
    Option UInt16 :=
  if oversamples = 0 then (raw[base]?).map AdcRawCounts
  else if oversamples = 1 then do
    let c0 := AdcRawCounts (← raw[base + 0]?)
    let c1 := AdcRawCounts (← raw[base + 1]?)
    return UInt16.ofNat ((c0.toNat + c1.toNat + 1) / 2)
  else do
    let words ← (List.range' 1 (per - 1)).mapM fun k => raw[base + k]?
    let sum := (words.map fun v => (AdcRawCounts v).toNat).sum
    let n := per - 1
    if n = 0 then none else return UInt16.ofNat ((sum + n / 2) / n)

/-! ## 2. The accumulators -/

/-- What an accumulator holds after these words of its channel. -/
def TPerChAccum.of (cfg : TAdcScanCfg) (words : List UInt32) : TPerChAccum where
  «meta» := (words.head?.map AdcRawMeta).getD 0x80000000
  sum := if cfg.oversamples = 0 then 0 else (cfg.contributing words).sum
  seen := words.length
  included := if cfg.oversamples = 0 then 0 else (cfg.contributing words).length
  first := if cfg.oversamples = 0 then (words.head?.map AdcRawCounts).getD 0 else 0
  firstSet := cfg.oversamples == 0 && !words.isEmpty

namespace ReductionLemmas

theorem invalid_meta (v : UInt32) : AdcRawInvalid (AdcRawMeta v) = AdcRawInvalid v := by
  unfold AdcRawMeta AdcRawInvalid
  rw [UInt32.and_assoc]
  rfl

/-- The mark of an accumulator without words is not the meta part of a valid word. -/
theorem meta_ne {v : UInt32} (h : AdcRawInvalid v = false) : AdcRawMeta v ≠ 0x80000000 := by
  intro heq
  rw [← invalid_meta, heq] at h
  cases h

theorem accumulate_length (cfg : TAdcScanCfg) (raw : List UInt32) (acc : List TPerChAccum) :
    (raw.foldl (accumulateWord cfg) acc).length = acc.length := by
  induction raw generalizing acc with
  | nil => rfl
  | cons v raw ih =>
    rw [List.foldl_cons, ih, accumulateWord]
    split
    · rfl
    · dsimp only
      split
      · rfl
      · exact List.length_modify _ _ _

/-- A word reaches the accumulator of its channel and no other. -/
theorem accumulateWord_getElem? {cfg : TAdcScanCfg} (h : cfg.Valid) {i : Nat}
    (hi : i < cfg.nChannels) (acc : List TPerChAccum) (v : UInt32) :
    (accumulateWord cfg acc v)[i]? =
      if !AdcRawInvalid v && (AdcRawChannel v).toNat == cfg.startCh.toNat + i then
        acc[i]?.map (TPerChAccum.add cfg v)
      else acc[i]? := by
  have hstart : cfg.startCh.toNat ≤ cfg.endCh.toNat := UInt8.le_iff_toNat_le.mp h.order
  have hn := h.nChannels
  rw [accumulateWord]
  by_cases hinv : AdcRawInvalid v = true
  · rw [if_pos hinv, hinv]
    rfl
  rw [if_neg hinv, Bool.not_eq_true] at *
  rw [hinv, Bool.not_false, Bool.true_and]
  dsimp only
  by_cases hrange : AdcRawChannel v < cfg.startCh ∨ cfg.endCh < AdcRawChannel v
  · rw [if_pos hrange, if_neg]
    rw [UInt8.lt_iff_toNat_lt, UInt8.lt_iff_toNat_lt] at hrange
    rw [beq_iff_eq]
    omega
  · rw [if_neg hrange, List.getElem?_modify]
    rw [UInt8.lt_iff_toNat_lt, UInt8.lt_iff_toNat_lt] at hrange
    by_cases hch : (AdcRawChannel v).toNat = cfg.startCh.toNat + i
    · have hplace : (AdcRawChannel v).toNat - cfg.startCh.toNat = i := by omega
      rw [if_pos (beq_iff_eq.mpr hch)]
      simp only [hplace, if_true]
      rfl
    · have hplace : ¬(AdcRawChannel v).toNat - cfg.startCh.toNat = i := by omega
      rw [if_neg (by rwa [beq_iff_eq])]
      simp only [hplace, if_false]
      exact Option.map_id'

theorem accumulate_getElem? {cfg : TAdcScanCfg} (h : cfg.Valid) {i : Nat}
    (hi : i < cfg.nChannels) (raw : List UInt32) (acc : List TPerChAccum) :
    (raw.foldl (accumulateWord cfg) acc)[i]? =
      acc[i]?.map fun a =>
        (cfg.channelWords i raw).foldl (fun a v => TPerChAccum.add cfg v a) a := by
  induction raw generalizing acc with
  | nil => exact Option.map_id'.symm
  | cons v raw ih =>
    have hfilter : cfg.channelWords i (v :: raw) =
        if !AdcRawInvalid v && (AdcRawChannel v).toNat == cfg.startCh.toNat + i then
          v :: cfg.channelWords i raw
        else cfg.channelWords i raw := List.filter_cons
    rw [List.foldl_cons, ih, accumulateWord_getElem? h hi, hfilter]
    split
    · rw [Option.map_map]
      rfl
    · rfl

theorem of_nil (cfg : TAdcScanCfg) : TPerChAccum.of cfg [] = {} := by
  simp [TPerChAccum.of, TAdcScanCfg.contributing]

theorem oversamples_le_one (cfg : TAdcScanCfg) :
    cfg.oversamples ≤ 1 ↔ cfg.oversamples = 0 ∨ cfg.oversamples = 1 := by
  rw [UInt8.le_iff_toNat_le, ← UInt8.toNat_inj, ← UInt8.toNat_inj]
  exact Nat.le_one_iff_eq_zero_or_eq_one

/-- One more word of the channel. -/
theorem add_of {cfg : TAdcScanCfg} (hper : cfg.perChannel = cfg.oversamples.toNat + 1)
    {words : List UInt32} (hwords : ∀ v ∈ words, AdcRawInvalid v = false)
    (hlen : words.length < cfg.perChannel) (v : UInt32) :
    TPerChAccum.add cfg v (.of cfg words) = .of cfg (words ++ [v]) := by
  have hseen : ¬cfg.perChannel ≤ (TPerChAccum.of cfg words).seen := Nat.not_le.mpr hlen
  rw [TPerChAccum.add, if_neg hseen]
  cases words with
  | nil =>
    by_cases h0 : cfg.oversamples = 0
    · simp [TPerChAccum.of, h0, hper]
    by_cases h1 : cfg.oversamples = 1
    · simp [TPerChAccum.of, TAdcScanCfg.contributing, h1]
    · simp [TPerChAccum.of, TAdcScanCfg.contributing, oversamples_le_one, h0, h1]
  | cons w words =>
    have hmeta := meta_ne (hwords w List.mem_cons_self)
    by_cases h0 : cfg.oversamples = 0
    · rw [hper, h0] at hlen
      exact absurd hlen (by simp)
    by_cases h1 : cfg.oversamples = 1
    · simp [TPerChAccum.of, TAdcScanCfg.contributing, h1, hmeta, Nat.add_assoc]
    · simp [TPerChAccum.of, TAdcScanCfg.contributing, oversamples_le_one, h0, h1, hmeta]

/-- The words that an accumulator has seen, and more words of its channel. -/
theorem foldl_of {cfg : TAdcScanCfg} (hper : cfg.perChannel = cfg.oversamples.toNat + 1)
    {seen words : List UInt32} (hwords : ∀ v ∈ seen ++ words, AdcRawInvalid v = false) :
    words.foldl (fun a v => TPerChAccum.add cfg v a) (.of cfg (seen.take cfg.perChannel)) =
      .of cfg ((seen ++ words).take cfg.perChannel) := by
  induction words generalizing seen with
  | nil => rw [List.append_nil, List.foldl_nil]
  | cons v words ih =>
    have hstep : TPerChAccum.add cfg v (.of cfg (seen.take cfg.perChannel)) =
        .of cfg ((seen ++ [v]).take cfg.perChannel) := by
      by_cases hlen : seen.length < cfg.perChannel
      · have hvalid : ∀ w ∈ seen, AdcRawInvalid w = false := fun w hw =>
          hwords w (List.mem_append_left _ hw)
        have hlen' : (seen ++ [v]).length ≤ cfg.perChannel := by
          rw [List.length_append]
          exact hlen
        rw [List.take_of_length_le (Nat.le_of_lt hlen), List.take_of_length_le hlen',
          add_of hper hvalid hlen]
      · have hfull : cfg.perChannel ≤ seen.length := Nat.le_of_not_lt hlen
        rw [List.take_append_of_le_length hfull]
        refine if_pos ?_
        show cfg.perChannel ≤ (seen.take cfg.perChannel).length
        rw [List.length_take, Nat.min_eq_left hfull]
    rw [List.foldl_cons, hstep, ih (by rwa [List.append_assoc]), List.append_assoc]
    rfl

end ReductionLemmas

open ReductionLemmas

/-- An accumulator sums up the first words of its channel. -/
theorem accumulator_eq {cfg : TAdcScanCfg} (h : cfg.Valid) {i : Nat} (hi : i < cfg.nChannels)
    (raw : List UInt32) :
    (AccumulateByChannel raw cfg)[i]? = some (.of cfg (cfg.takenWords i raw)) := by
  have hvalid : ∀ v ∈ cfg.channelWords i raw, AdcRawInvalid v = false := fun v hv => by
    have hv' := (List.mem_filter.mp hv).2
    rw [Bool.and_eq_true, Bool.not_eq_true'] at hv'
    exact hv'.1
  have hfold : (cfg.channelWords i raw).foldl (fun a v => TPerChAccum.add cfg v a)
      (.of cfg (List.take cfg.perChannel [])) = .of cfg (cfg.takenWords i raw) :=
    foldl_of h.perChannel hvalid
  rw [List.take_nil, of_nil] at hfold
  rw [AccumulateByChannel, accumulate_getElem? h hi, List.getElem?_replicate_of_lt hi,
    Option.map_some, hfold]

/-! ## 3. The mean -/

/-- `c` is what these words of a channel are reduced to. -/
structure ReducesTo (cfg : TAdcScanCfg) (words : List UInt32) (c : UInt16) : Prop where
  /-- Without oversamples, the counts of the first word. -/
  single : cfg.oversamples = 0 → c = (words.head?.map AdcRawCounts).getD 0
  /-- The mean is not cut to 16 bits. -/
  mean : cfg.contributing words ≠ [] → (c.toNat : ℤ) =
    round (((cfg.contributing words).sum : ℚ) / (cfg.contributing words).length)
  none : cfg.contributing words = [] → c = 0
  least : cfg.contributing words ≠ [] → ∃ x ∈ cfg.contributing words, x ≤ c.toNat
  greatest : cfg.contributing words ≠ [] → ∃ x ∈ cfg.contributing words, c.toNat ≤ x
  /-- With all its words, the channel has the average that is taken of words side by side. -/
  average : words.length = cfg.perChannel → ∀ before after : List UInt32,
    ADC_AverageCountsForChannel (before ++ words ++ after) before.length cfg.perChannel
      cfg.oversamples = some c

namespace ReductionLemmas

theorem contributing_lt {cfg : TAdcScanCfg} {words : List UInt32} :
    ∀ x ∈ cfg.contributing words, x < 2 ^ 16 := by
  intro x hx
  obtain ⟨v, -, rfl⟩ := List.mem_map.mp hx
  exact UInt16.toNat_lt _

theorem toNat_roundedMean {cfg : TAdcScanCfg} {words : List UInt32}
    (hne : cfg.contributing words ≠ []) :
    (UInt16.ofNat (roundedMean (cfg.contributing words))).toNat =
      roundedMean (cfg.contributing words) := by
  obtain ⟨x, hx, hle⟩ := exists_roundedMean_le hne
  exact UInt16.toNat_ofNat_of_lt (Nat.lt_of_le_of_lt hle (contributing_lt x hx))

theorem contributing_zero {cfg : TAdcScanCfg} (h0 : cfg.oversamples = 0) (words : List UInt32) :
    cfg.contributing words = words.map fun v => (AdcRawCounts v).toNat := by
  rw [TAdcScanCfg.contributing, if_pos ((oversamples_le_one cfg).mpr (.inl h0))]

/-- The end of the reduction of a channel. -/
theorem finalize_eq {cfg : TAdcScanCfg} (hper : cfg.perChannel = cfg.oversamples.toNat + 1)
    {words : List UInt32} (hlen : words.length ≤ cfg.perChannel) :
    FinalizeAvgCounts (.of cfg words) cfg =
      if cfg.contributing words = [] then 0
      else UInt16.ofNat (roundedMean (cfg.contributing words)) := by
  rw [FinalizeAvgCounts]
  by_cases h0 : cfg.oversamples = 0
  · rw [hper, h0] at hlen
    rw [if_pos h0, contributing_zero h0]
    match words, hlen with
    | [], _ => simp [TPerChAccum.of, h0]
    | [v], _ => simp [TPerChAccum.of, h0, roundedMean_singleton]
  · have hsum : (TPerChAccum.of cfg words).sum = (cfg.contributing words).sum := if_neg h0
    have hincluded : (TPerChAccum.of cfg words).included = (cfg.contributing words).length :=
      if_neg h0
    rw [if_neg h0, hsum, hincluded]
    simp only [List.length_eq_zero_iff]
    rfl

/-- Reading words one after the other. -/
theorem mapM_read (raw : List UInt32) (base start n : Nat) (h : base + start + n ≤ raw.length) :
    (List.range' start n).mapM (fun k => raw[base + k]?) =
      some ((raw.drop (base + start)).take n) := by
  induction n generalizing start with
  | zero => rfl
  | succ n ih =>
    have hlt : base + start < raw.length := by omega
    rw [List.range'_succ, List.mapM_cons, List.getElem?_eq_getElem hlt, ih (start + 1) (by omega),
      List.drop_eq_getElem_cons hlt, List.take_succ_cons]
    rfl

theorem average_eq {cfg : TAdcScanCfg} (hper : cfg.perChannel = cfg.oversamples.toNat + 1)
    {words : List UInt32} (hlen : words.length = cfg.perChannel) (before after : List UInt32) :
    ADC_AverageCountsForChannel (before ++ words ++ after) before.length cfg.perChannel
      cfg.oversamples = some (UInt16.ofNat (roundedMean (cfg.contributing words))) := by
  have hread (k : Nat) (hk : k < words.length) :
      (before ++ words ++ after)[before.length + k]? = words[k]? := by
    rw [List.append_assoc, List.getElem?_append_right (Nat.le_add_right _ _),
      Nat.add_sub_cancel_left, List.getElem?_append_left hk]
  rw [ADC_AverageCountsForChannel]
  by_cases h0 : cfg.oversamples = 0
  · rw [if_pos h0, contributing_zero h0]
    rw [hper, h0] at hlen
    obtain ⟨v, rfl⟩ := List.length_eq_one_iff.mp hlen
    have hfirst := hread 0 Nat.one_pos
    rw [Nat.add_zero] at hfirst
    rw [hfirst]
    simp [roundedMean_singleton]
  rw [if_neg h0]
  by_cases h1 : cfg.oversamples = 1
  · rw [hper, h1] at hlen
    obtain ⟨v, w, rfl⟩ := List.length_eq_two.mp hlen
    rw [if_pos h1, hread 0 Nat.two_pos, hread 1 Nat.one_lt_two]
    simp [TAdcScanCfg.contributing, h1, roundedMean]
  · obtain ⟨w, rest, rfl⟩ := List.exists_cons_of_length_eq_add_one (hlen.trans hper)
    have hrest : rest.length = cfg.perChannel - 1 := Nat.eq_sub_of_add_eq hlen
    have hpos : rest.length ≠ 0 := fun hzero => by
      rw [hrest, hper, Nat.add_sub_cancel] at hzero
      exact h0 (UInt8.toNat_inj.mp hzero)
    have hlong : before.length + 1 + rest.length ≤ (before ++ w :: rest ++ after).length := by
      simp only [List.length_append, List.length_cons]
      omega
    have hwords : ((before ++ w :: rest ++ after).drop (before.length + 1)).take rest.length =
        rest := by
      rw [List.append_assoc, List.drop_append, Nat.add_sub_cancel_left,
        List.drop_of_length_le (Nat.le_add_right _ 1), List.nil_append]
      exact List.take_left
    have hcounts : cfg.contributing (w :: rest) = rest.map fun v => (AdcRawCounts v).toNat := by
      have hle : ¬cfg.oversamples ≤ 1 := fun hle => ((oversamples_le_one cfg).mp hle).elim h0 h1
      rw [TAdcScanCfg.contributing, if_neg hle]
      rfl
    rw [if_neg h1, ← hrest, mapM_read _ _ _ _ hlong, hwords, hcounts, roundedMean, List.length_map]
    show (if rest.length = 0 then none else _) = _
    rw [if_neg hpos]
    rfl

end ReductionLemmas

/-- The counts of a scan. -/
theorem counts_reduction {cfg : TAdcScanCfg} (h : cfg.Valid) (raw : List UInt32) :
    (ADC_ReduceRawToCountsPerChannel raw cfg).length = cfg.nChannels ∧
      ∀ i < cfg.nChannels, ∃ c, (ADC_ReduceRawToCountsPerChannel raw cfg)[i]? = some c ∧
        ReducesTo cfg (cfg.takenWords i raw) c := by
  constructor
  · rw [ADC_ReduceRawToCountsPerChannel, List.length_map, AccumulateByChannel, accumulate_length,
      List.length_replicate]
  · intro i hi
    have hlen : (cfg.takenWords i raw).length ≤ cfg.perChannel := by
      rw [TAdcScanCfg.takenWords, List.length_take]
      exact Nat.min_le_left _ _
    refine ⟨_, by rw [ADC_ReduceRawToCountsPerChannel, List.getElem?_map, accumulator_eq h hi,
      Option.map_some], ?_⟩
    have hfinal := finalize_eq h.perChannel hlen
    refine ⟨fun h0 => (if_pos h0).trans ?_, fun hne => ?_, fun hnil => ?_, fun hne => ?_,
      fun hne => ?_, fun hfull before after => ?_⟩
    · cases cfg.takenWords i raw <;> simp [TPerChAccum.of, h0]
    · rw [hfinal, if_neg hne, toNat_roundedMean hne, roundedMean_eq_round hne]
    · rw [hfinal, if_pos hnil]
    · rw [hfinal, if_neg hne, toNat_roundedMean hne]
      exact exists_le_roundedMean hne
    · rw [hfinal, if_neg hne, toNat_roundedMean hne]
      exact exists_roundedMean_le hne
    · rw [average_eq h.perChannel hfull, hfinal]
      split
      case isTrue hnil =>
        rw [hnil]
        rfl
      case isFalse => rfl

/-- Two channels with two words each, of which the second one misses one. -/
def exScan : TAdcScanCfg where
  startCh := 2
  endCh := 3
  oversamples := 1
  nChannels := 2
  perChannel := 2
  expected := 4

/-- A foreign channel, INV, and one word too many. -/
def exScanWords : List UInt32 :=
  [0x00200010, 0x00700000, 0x80000000, 0x00300007, 0x00200013, 0x00200099]

theorem exScan_valid : exScan.Valid := ⟨by decide, rfl, rfl⟩

theorem two_channels_reduced : ∃ c, (ADC_ReduceRawToCountsPerChannel exScanWords exScan)[0]? =
    some c ∧ ReducesTo exScan [0x00200010, 0x00200013] c :=
  (counts_reduction exScan_valid exScanWords).2 0 (by decide)

/-! ## 4. Raw words and voltages -/

def FloatBits.IsNaN (v : FloatBits) : Prop := (Float32.ofBits v).isNaN = true

instance (v : FloatBits) : Decidable v.IsNaN := inferInstanceAs (Decidable (_ = true))

/-- `w`, `c` and `volts` are the replies for a channel with these valid words. -/
structure Agree (words : List UInt32) (channel : Nat) (w : UInt32) (c : UInt16)
    (volts : FloatBits) : Prop where
  invalid : w = 0x80000000 ↔ words = []
  converted : volts = AdcRawToVolts w
  isNaN : volts.IsNaN ↔ words = []
  first : ∀ v ∈ words.head?, AdcRawCounts w = c ∧ AdcRawMeta w = AdcRawMeta v ∧
    AdcRawInvalid w = false ∧ (AdcRawChannel w).toNat = channel

namespace ReductionLemmas

theorem counts_or (v : UInt32) (c : UInt16) : AdcRawCounts (AdcRawMeta v ||| c.toUInt32) = c := by
  unfold AdcRawCounts AdcRawMeta
  apply UInt16.eq_of_toBitVec_eq
  ext i hi
  simp

theorem meta_or (v : UInt32) (c : UInt16) :
    AdcRawMeta (AdcRawMeta v ||| c.toUInt32) = AdcRawMeta v := by
  unfold AdcRawMeta
  apply UInt32.eq_of_toBitVec_eq
  ext i hi
  simp
  interval_cases i <;> simp

theorem channel_meta (v : UInt32) : AdcRawChannel (AdcRawMeta v) = AdcRawChannel v := by
  unfold AdcRawChannel AdcRawMeta
  apply UInt8.eq_of_toBitVec_eq
  ext i hi
  simp
  interval_cases i <;> simp

/-- INV and the channel are read off the meta bits. -/
theorem invalid_of_meta {v w : UInt32} (h : AdcRawMeta w = AdcRawMeta v) :
    AdcRawInvalid w = AdcRawInvalid v := by
  rw [← invalid_meta w, h, invalid_meta]

theorem channel_of_meta {v w : UInt32} (h : AdcRawMeta w = AdcRawMeta v) :
    AdcRawChannel w = AdcRawChannel v := by
  rw [← channel_meta w, h, channel_meta]

/-- A full scale is neither zero nor infinite. -/
theorem isProper_fsVolts (gainCode : UInt32) : IsProper (if gainCode = 0 then 10.0
    else if gainCode = 1 then 5.0 else if gainCode = 2 then 2.0 else 1.0) := by
  split_ifs <;> exact ⟨_, _, _, _, rfl⟩

theorem not_isNaN_volts {raw : UInt32} (h : AdcRawInvalid raw = false) :
    ¬(AdcRawToVolts raw).IsNaN := by
  have hcounts := isNaN_toFloat (AdcRawCounts raw)
  have hvolts := isProper_fsVolts ((raw >>> 28) &&& 3)
  rw [AdcRawToVolts, h, FloatBits.IsNaN, if_neg Bool.false_ne_true, isNaN_narrow,
    Bool.not_eq_true]
  split
  · exact isNaN_div (isNaN_mul hcounts hvolts) ⟨_, _, _, _, rfl⟩
  · exact isNaN_div (isNaN_mul (isNaN_sub hcounts ⟨_, _, _, _, rfl⟩) hvolts) ⟨_, _, _, _, rfl⟩

theorem of_meta (cfg : TAdcScanCfg) (words : List UInt32) :
    (TPerChAccum.of cfg words).meta = (words.head?.map AdcRawMeta).getD 0x80000000 := rfl

theorem takenWords_head? {cfg : TAdcScanCfg} (h : cfg.Valid) (i : Nat) (raw : List UInt32) :
    (cfg.takenWords i raw).head? = (cfg.channelWords i raw).head? := by
  rw [TAdcScanCfg.takenWords, h.perChannel]
  cases cfg.channelWords i raw <;> rfl

end ReductionLemmas

/-- The three replies of a scan agree. -/
theorem scans_agree {cfg : TAdcScanCfg} (h : cfg.Valid) (raw : List UInt32) :
    ∀ i < cfg.nChannels, ∃ w c volts,
      (ADC_ReduceRawToRawPerChannel raw cfg)[i]? = some w ∧
      (ADC_ReduceRawToCountsPerChannel raw cfg)[i]? = some c ∧
      (ADC_ReduceRawToVoltsPerChannel raw cfg)[i]? = some volts ∧
      Agree (cfg.channelWords i raw) (cfg.startCh.toNat + i) w c volts := by
  intro i hi
  have hacc := accumulator_eq h hi raw
  have hmeta := of_meta cfg (cfg.takenWords i raw)
  rw [takenWords_head? h] at hmeta
  refine ⟨_, _, _, by rw [ADC_ReduceRawToRawPerChannel, List.getElem?_map, hacc, Option.map_some],
    by rw [ADC_ReduceRawToCountsPerChannel, List.getElem?_map, hacc, Option.map_some],
    by rw [ADC_ReduceRawToVoltsPerChannel, List.getElem?_map, hacc, Option.map_some], ?_⟩
  generalize FinalizeAvgCounts (.of cfg (cfg.takenWords i raw)) cfg = c
  cases hwords : cfg.channelWords i raw with
  | nil =>
    have hnone : (TPerChAccum.of cfg (cfg.takenWords i raw)).meta = 0x80000000 := by
      rw [hmeta, hwords]
      rfl
    rw [if_pos hnone, if_pos hnone]
    refine ⟨⟨fun _ => rfl, fun _ => rfl⟩, rfl, ⟨fun _ => rfl, fun _ => ?_⟩, fun v hv => ?_⟩
    · show FloatBits.IsNaN quietNaN
      decide
    · cases hv
  | cons v words =>
    have hv : v ∈ cfg.channelWords i raw := hwords ▸ List.mem_cons_self
    have hprops := (List.mem_filter.mp hv).2
    rw [Bool.and_eq_true, Bool.not_eq_true', beq_iff_eq] at hprops
    obtain ⟨hvalid, hchannel⟩ := hprops
    have hsome : (TPerChAccum.of cfg (cfg.takenWords i raw)).meta = AdcRawMeta v := by
      rw [hmeta, hwords]
      rfl
    rw [hsome, if_neg (meta_ne hvalid), if_neg (meta_ne hvalid)]
    have hw := meta_or v c
    have hinv : AdcRawInvalid (AdcRawMeta v ||| c.toUInt32) = false := by
      rw [invalid_of_meta hw, hvalid]
    refine ⟨⟨fun heq => ?_, nofun⟩, rfl, ⟨fun hnan => ?_, nofun⟩, fun v' hv' => ?_⟩
    · rw [heq] at hinv
      cases hinv
    · exact absurd hnan (not_isNaN_volts hinv)
    · cases hv'
      exact ⟨counts_or v c, hw, hinv, by rw [channel_of_meta hw, hchannel]⟩

theorem two_channels_agree : ∃ w c volts,
    (ADC_ReduceRawToRawPerChannel exScanWords exScan)[1]? = some w ∧
    (ADC_ReduceRawToCountsPerChannel exScanWords exScan)[1]? = some c ∧
    (ADC_ReduceRawToVoltsPerChannel exScanWords exScan)[1]? = some volts ∧
    Agree (exScan.channelWords 1 exScanWords) 3 w c volts :=
  scans_agree exScan_valid exScanWords 1 (by decide)

end EnetTcp
