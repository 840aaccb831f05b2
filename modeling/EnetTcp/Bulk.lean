import EnetTcp.AtomicWrites
import EnetTcp.Failures
import EnetTcp.Reencoding
import EnetTcp.Registers

/-!
# Items for all channels, and items for one (ADC_.cpp, DIdDict)

Seven items hold a value for each of several channels. Each has a sibling that holds the value of
one. `DAC_Calibrate1` holds two values of one channel.

* `BulkItem.singles`: the items for one that an item for all stands for.
* `lawful_of_rounds`: a loop with one round for each value, and the items one after the other.
* `calibrate_same`: the two values in one item, and in two.
* `bulk_items`: what holds of the items as they come over the wire.
-/

namespace EnetTcp

open Prog CallLemmas FailureLemmas RegisterLemmas ReencodeLemmas EndLemmas RestoreLemmas
  AtomicLemmas

variable {ε : Type}

/-! ## 1. The items -/

/-- The index, and the bytes that the payload of an item for all has for it. -/
def singleData (width i : Nat) (data : TBytes) : TBytes :=
  UInt8.ofNat i :: (data.drop (width * i)).take width

/-- An item for all, its sibling for one, and the number of bytes for each index. -/
structure BulkItem where
  all : DataItemIds
  one : DataItemIds
  width : Nat
  narrow : width ≤ 8

namespace BulkItem

theorem fits (x : BulkItem) (i : Nat) (data : TBytes) :
    (singleData x.width i data).length < 2 ^ 16 := by
  have hwidth := x.narrow
  have htake := List.length_take_le x.width (data.drop (x.width * i))
  rw [singleData, List.length_cons]
  omega

/-- One item for each index that has all its bytes. -/
def singles (x : BulkItem) (data : TBytes) : List WireItem :=
  (List.range (data.length / x.width)).map fun i =>
    ⟨x.one, singleData x.width i data, x.fits i data⟩

end BulkItem

open DataItemIds in
def bulkItems : List BulkItem :=
  [⟨ADC_RangeAll, ADC_Range1, 1, by decide⟩,
    ⟨ADC_DifferentialAll, ADC_Differential1, 1, by decide⟩,
    ⟨ADC_ScaleAll, ADC_Scale1, 4, by decide⟩,
    ⟨ADC_OffsetAll, ADC_Offset1, 4, by decide⟩,
    ⟨ADC_CalibrationAll, ADC_Calibration1, 8, by decide⟩,
    ⟨DAC_ScaleAll, DAC_Scale1, 4, by decide⟩,
    ⟨DAC_OffsetAll, DAC_Offset1, 4, by decide⟩]

/-- The two items that a `DAC_Calibrate1` stands for. -/
def calibrateSingles (data : TBytes) : List WireItem :=
  [⟨DataItemIds.DAC_Offset1, data.take 5, by rw [List.length_take]; omega⟩,
    ⟨DataItemIds.DAC_Scale1, data.take 1 ++ (data.drop 5).take 4, by
      rw [List.length_append, List.length_take, List.length_take]
      omega⟩]

/-- The payload is as long as the dictionary wants it. -/
def WireItem.WithinBounds (w : WireItem) : Prop :=
  ∃ e, DIdDict.find w.DId = some e ∧ e.minLen ≤ w.data.length ∧ w.data.length ≤ e.maxLen

/-! ## 2. Rounds of a loop -/

/-- The program can lead from one machine to the other. -/
def Leads {α : Type} (p : Prog Exn (Machine ε) α) (m m' : Machine ε) : Prop :=
  ∃ r, p.exec m = some (r, m')

/-- Every run of the program returns. -/
abbrev Terminates {σ α : Type} (p : Prog Exn σ α) : Prop :=
  Returns (fun _ => True) (fun _ => True) p

/-- An item of this kind takes `lo` to `hi` bytes and is run as `p` of them. -/
def RunsAs (pf : Platform) (env : Env ε) (id : DataItemIds) (lo hi : Nat)
    (p : TBytes → Prog Exn (Machine ε) Unit) : Prop :=
  ∃ e, DIdDict.find id = some e ∧ e.minLen = lo ∧ e.maxLen = hi ∧ ∀ data, ∃ body,
    (∀ g, (construct pf e.Construct data).exec g = some (.ok body, g)) ∧
      ∀ m, (Go pf env id).exec (body, m) = (onMachine (p data)).exec (body, m)

/-- An item for all does what its items for one do. It has a run where files can be written. -/
structure BulkItem.Lawful (pf : Platform) (env : Env ε) (x : BulkItem) : Prop where
  same : ∀ w : WireItem, w.DId = x.all → w.WithinBounds → ∀ m m',
    (∃ q, Performs pf env w m q m') ↔ PerformsAll pf env (x.singles w.data) m m'
  runs : WritesGoOn env → 8 ≤ pf.fuel → ∀ w : WireItem, w.DId = x.all → w.WithinBounds → ∀ m,
    ∃ q m', Performs pf env w m q m'

namespace BulkLemmas

section

variable {pf : Platform} {env : Env ε}

theorem leads_pure (m m' : Machine ε) :
    Leads (pure ⟨⟩ : Prog Exn (Machine ε) PUnit) m m' ↔ m = m' := by
  constructor
  · rintro ⟨r, hrun⟩
    cases hrun
    rfl
  · rintro rfl
    exact ⟨_, rfl⟩

/-- A program that throws nothing, and what comes after it. -/
theorem leads_bind {p q : Prog Exn (Machine ε) PUnit} (hp : Quiet p) (m m' : Machine ε) :
    Leads (p >>= fun _ => q) m m' ↔ ∃ m₁, Leads p m m₁ ∧ Leads q m₁ m' := by
  constructor
  · rintro ⟨r, hrun⟩
    rw [exec_bind, Option.bind_eq_some_iff] at hrun
    obtain ⟨⟨r₁, m₁⟩, hrun₁, hrun⟩ := hrun
    cases r₁ with
    | error x => exact absurd (hp m x m₁ hrun₁) not_false
    | ok a => exact ⟨m₁, ⟨_, hrun₁⟩, ⟨r, hrun⟩⟩
  · rintro ⟨m₁, ⟨r₁, hrun₁⟩, ⟨r, hrun⟩⟩
    cases r₁ with
    | error x => exact absurd (hp m x m₁ hrun₁) not_false
    | ok a => exact ⟨r, (exec_bind_ok hrun₁).trans hrun⟩

/-- A loop whose rounds are items. -/
theorem leads_forM {g : Nat → Prog Exn (Machine ε) PUnit} {one : Nat → WireItem} {ks : List Nat}
    (hquiet : ∀ i ∈ ks, Quiet (g i))
    (hone : ∀ i ∈ ks, ∀ m m', (∃ q, Performs pf env (one i) m q m') ↔ Leads (g i) m m')
    (m m' : Machine ε) : Leads (ks.forM g) m m' ↔ PerformsAll pf env (ks.map one) m m' := by
  -- a round throws nothing, so the next one begins in the machine that it leaves
  induction ks generalizing m with
  | nil =>
    refine (leads_pure m m').trans ⟨?_, ?_⟩
    · rintro rfl
      exact .nil
    · intro h
      cases h
      rfl
  | cons k ks ih =>
    have hrest : ∀ m₁, Leads (ks.forM g) m₁ m' ↔ PerformsAll pf env (ks.map one) m₁ m' :=
      ih (fun i hi => hquiet i (List.mem_cons_of_mem k hi))
        fun i hi => hone i (List.mem_cons_of_mem k hi)
    have hfirst := hone k List.mem_cons_self m
    refine (leads_bind (hquiet k List.mem_cons_self) m m').trans ⟨?_, ?_⟩
    · rintro ⟨m₁, hk, hks⟩
      obtain ⟨q, hq⟩ := (hfirst m₁).mpr hk
      exact .cons hq ((hrest m₁).mp hks)
    · intro h
      cases h with
      | cons hq hall => exact ⟨_, (hfirst _).mp ⟨_, hq⟩, (hrest _).mpr hall⟩

theorem terminates_forM {σ α : Type} {xs : List α} {g : α → Prog Exn σ PUnit}
    (h : ∀ x ∈ xs, Terminates (g x)) : Terminates (xs.forM g) := by
  induction xs with
  | nil => exact returns_pure trivial
  | cons x xs ih =>
    exact returns_bind (h x List.mem_cons_self) fun _ _ =>
      ih fun y hy => h y (List.mem_cons_of_mem x hy)

theorem mapM_some {α β : Type} {f : α → Option β} {as : List α}
    (hsome : ∀ a ∈ as, (f a).isSome = true) : ∃ bs, as.mapM f = some bs := by
  induction as with
  | nil => exact ⟨[], rfl⟩
  | cons a as ih =>
    obtain ⟨b, hb⟩ := Option.isSome_iff_exists.mp (hsome a List.mem_cons_self)
    obtain ⟨bs, hbs⟩ := ih fun a' ha' => hsome a' (List.mem_cons_of_mem a ha')
    refine ⟨b :: bs, ?_⟩
    rw [List.mapM_cons, hb, hbs]
    rfl

theorem forM_values_from {α : Type} {f : Nat → Option α} (g : Nat → α → Prog Exn (Machine ε) PUnit)
    {k n : Nat} (hsome : ∀ i ∈ List.range' k n, (f i).isSome = true) :
    (ofOption ((List.range' k n).mapM f) >>= fun vs => (vs.zipIdx k).forM fun s => g s.2 s.1) =
      (List.range' k n).forM fun i => ofOption (f i) >>= g i := by
  induction n generalizing k with
  | zero => rfl
  | succ n ih =>
    rw [List.range'_succ] at hsome ⊢
    obtain ⟨v, hv⟩ := Option.isSome_iff_exists.mp (hsome k List.mem_cons_self)
    have hrest : ∀ i ∈ List.range' (k + 1) n, (f i).isSome = true :=
      fun i hi => hsome i (List.mem_cons_of_mem k hi)
    obtain ⟨vs, hvs⟩ := mapM_some hrest
    have hloop := ih hrest
    rw [hvs] at hloop
    have hcons : ((k :: List.range' (k + 1) n).forM fun i => ofOption (f i) >>= g i) =
        (ofOption (f k) >>= g k) >>= fun _ =>
          (List.range' (k + 1) n).forM fun i => ofOption (f i) >>= g i := rfl
    rw [List.mapM_cons, hcons, ← hloop, hv, hvs]
    rfl

/-- A loop over values that are read before, and one that reads them on the way. -/
theorem forM_values {α : Type} {f : Nat → Option α} (g : Nat → α → Prog Exn (Machine ε) PUnit)
    {n : Nat} (hsome : ∀ i, i < n → (f i).isSome = true) :
    (ofOption ((List.range n).mapM f) >>= fun vs => vs.zipIdx.forM fun s => g s.2 s.1) =
      (List.range n).forM fun i => ofOption (f i) >>= g i := by
  rw [List.range_eq_range']
  refine forM_values_from g fun i hi => hsome i ?_
  rw [List.mem_range'_1, Nat.zero_add] at hi
  exact hi.2

theorem performs_leads {id : DataItemIds} {lo hi : Nat}
    {p : TBytes → Prog Exn (Machine ε) Unit} (hp : RunsAs pf env id lo hi p) {w : WireItem}
    (hid : w.DId = id) (hlo : lo ≤ w.data.length) (hhi : w.data.length ≤ hi) (m m' : Machine ε) :
    (∃ q, Performs pf env w m q m') ↔ Leads (p w.data) m m' := by
  subst hid
  obtain ⟨e, he, rfl, rfl, hdata⟩ := hp
  obtain ⟨body, hctor, hgo⟩ := hdata w.data
  have hitem : goItem pf env { body with DId := w.DId } m =
      ((p w.data).exec m).map fun r => ((r.1, { body with DId := w.DId }), r.2) :=
    goItem_onMachine (hgo m)
  simp only [performs_iff he (.inr ⟨hlo, hhi⟩) hctor, hitem, Leads]
  cases (p w.data).exec m with
  | none => simp
  | some r =>
    obtain ⟨r, s⟩ := r
    simp

theorem length_of_runsAs {id : DataItemIds} {lo hi : Nat}
    {p : TBytes → Prog Exn (Machine ε) Unit} (hp : RunsAs pf env id lo hi p) {w : WireItem}
    (hid : w.DId = id) (hbounds : w.WithinBounds) : lo ≤ w.data.length ∧ w.data.length ≤ hi := by
  obtain ⟨e, he, hlo, hhi⟩ := hbounds
  obtain ⟨e', he', rfl, rfl, -⟩ := hp
  cases he.symm.trans ((congrArg DIdDict.find hid).trans he')
  exact ⟨hlo, hhi⟩

theorem runs_of_terminates {id : DataItemIds} {lo hi : Nat}
    {p : TBytes → Prog Exn (Machine ε) Unit} (hp : RunsAs pf env id lo hi p) {w : WireItem}
    (hid : w.DId = id) (hbounds : w.WithinBounds) (hrun : Terminates (p w.data)) (m : Machine ε) :
    ∃ q m', Performs pf env w m q m' := by
  obtain ⟨hlo, hhi⟩ := length_of_runsAs hp hid hbounds
  obtain ⟨a, m', hrun, -⟩ := hrun m trivial
  obtain ⟨q, hq⟩ := (performs_leads hp hid hlo hhi m m').mpr ⟨.ok a, hrun⟩
  exact ⟨q, m', hq⟩

theorem length_singleData {width i : Nat} {data : TBytes} (h : i < data.length / width) :
    (singleData width i data).length = width + 1 := by
  have hmul : width * (i + 1) ≤ data.length :=
    (Nat.mul_le_mul_left width h).trans (Nat.mul_div_le data.length width)
  rw [Nat.mul_succ] at hmul
  rw [singleData, List.length_cons, List.length_take_of_le (by rw [List.length_drop]; omega)]

/-- An item for all whose program is a loop, with one round for each index. -/
theorem lawful_of_rounds {x : BulkItem} {lo hi : Nat} {p p₁ : TBytes → Prog Exn (Machine ε) Unit}
    {g : TBytes → Nat → Prog Exn (Machine ε) PUnit} (hall : RunsAs pf env x.all lo hi p)
    (hone : RunsAs pf env x.one (x.width + 1) (x.width + 1) p₁)
    (hquiet : ∀ data i, Quiet (g data i))
    (hloop : ∀ data, lo ≤ data.length → data.length ≤ hi →
      p data = (List.range (data.length / x.width)).forM (g data))
    (hround : ∀ data i, data.length ≤ hi → i < data.length / x.width →
      p₁ (singleData x.width i data) = g data i)
    (hruns : WritesGoOn env → 8 ≤ pf.fuel → ∀ data i, lo ≤ data.length → data.length ≤ hi →
      i < data.length / x.width → Terminates (g data i)) : x.Lawful pf env where
  same w hid hbounds m m' := by
    obtain ⟨hlo, hhi⟩ := length_of_runsAs hall hid hbounds
    rw [performs_leads hall hid hlo hhi, hloop w.data hlo hhi, BulkItem.singles]
    refine leads_forM (fun i _ => hquiet w.data i) (fun i hi m m' => ?_) m m'
    have hlen := length_singleData (List.mem_range.mp hi)
    rw [performs_leads hone rfl hlen.ge hlen.le, hround w.data i hhi (List.mem_range.mp hi)]
  runs hwrites hfuel w hid hbounds m := by
    obtain ⟨hlo, hhi⟩ := length_of_runsAs hall hid hbounds
    refine runs_of_terminates hall hid hbounds ?_ m
    rw [hloop w.data hlo hhi]
    exact terminates_forM fun i hi =>
      hruns hwrites hfuel w.data i hlo hhi (List.mem_range.mp hi)

/-! ### Payloads -/

theorem toNat_index {data : TBytes} {width i hi : Nat} (hhi : data.length ≤ hi) (h256 : hi < 256)
    (h : i < data.length / width) : (UInt8.ofNat i).toNat = i := by
  have hdiv : data.length / width ≤ data.length := Nat.div_le_self _ _
  exact UInt8.toNat_ofNat_of_lt' (show i < 256 by omega)

theorem readU32_single {width k : Nat} (hk : k + 4 ≤ width) (i : Nat) (data : TBytes) :
    readU32 (singleData width i data) (k + 1) = readU32 data (width * i + k) :=
  readU32_window data hk

theorem io_ofOption {α : Type} (o : Option α) : io (ε := ε) (ofOption o) = ofOption o := by
  cases o <;> rfl

theorem io_forM {α : Type} (xs : List α) (g : α → Prog Exn (Sys ε) PUnit) :
    io (xs.forM g) = xs.forM fun a => io (g a) := by
  induction xs with
  | nil => rfl
  | cons a as ih =>
    have hio := io_bind (g a) fun _ => as.forM g
    exact hio.trans (congrArg (io (g a) >>= ·) (funext fun _ => ih))

/-! ### What returns -/

theorem terminates_value {σ α : Type} {o : Option α} {g : α → Prog Exn σ PUnit}
    (ho : o.isSome = true) (hg : ∀ v, Terminates (g v)) : Terminates (ofOption o >>= g) := by
  obtain ⟨v, rfl⟩ := Option.isSome_iff_exists.mp ho
  exact returns_bind (returns_ofOption (Q := fun _ => True) trivial) fun v _ => hg v

theorem terminates_io {α : Type} {p : Prog Exn (Sys ε) α} (hp : Terminates p) :
    Terminates (io p) := by
  intro m _
  obtain ⟨a, s', hrun, -⟩ := hp m.sys trivial
  refine ⟨a, { m with sys := s' }, ?_, trivial, trivial⟩
  rw [io, exec_zoom, hrun]
  rfl

theorem terminates_in (ofs : Nat) : Terminates (in_ env ofs) := by
  unfold in_
  split
  · exact returns_bind (returns_any (.apci_read8 ofs)) fun _ _ => returns_pure trivial
  split
  · exact returns_bind (returns_any (.apci_read32 ofs)) fun _ _ => returns_pure trivial
  · exact returns_pure trivial

theorem terminates_out (ofs : Nat) (value : UInt32) : Terminates (out env ofs value) := by
  rcases RoundTripLemmas.widthFromOffset_cases ofs with hwidth | hwidth | hwidth
  · have hout : out env ofs value = pure 0xFFFFFFFF :=
      (if_neg (by omega)).trans (if_neg (by omega))
    rw [hout]
    exact returns_pure trivial
  · have hout : out env ofs value = (syscall env (.apci_write8 ofs value.toUInt8)) :=
      if_pos hwidth
    rw [hout]
    exact returns_any (.apci_write8 ofs value.toUInt8)
  · have hout : out env ofs value = (syscall env (.apci_write32 ofs value)) :=
      (if_neg (by omega)).trans (if_pos hwidth)
    rw [hout]
    exact returns_any (.apci_write32 ofs value)

theorem terminates_setRange (i : Nat) (range : UInt8) : Terminates (io (setRange env i range)) :=
  terminates_io (returns_bind (terminates_out _ _) fun _ _ => returns_pure trivial)

theorem terminates_setSingleEnded (i : Nat) (singleEnded : UInt8) :
    Terminates (io (setSingleEnded env i singleEnded)) :=
  terminates_io (returns_bind (terminates_in _) fun _ _ =>
    returns_bind (terminates_out _ _) fun _ _ => returns_pure trivial)

theorem terminates_setAdcScale {i : Nat} (hi : i < 8) (scale : FloatBits) :
    Terminates (setAdcScale (ε := ε) i scale) := by
  intro m _
  have hset : setAdcCal m.Config.adcScaleCoefficients i scale =
      some (m.Config.adcScaleCoefficients.set i scale hi) := dif_pos hi
  rw [setAdcScale, exec_get_bind, hset]
  exact ⟨_, _, rfl, trivial, trivial⟩

theorem terminates_setAdcOffset {i : Nat} (hi : i < 8) (offset : FloatBits) :
    Terminates (setAdcOffset (ε := ε) i offset) := by
  intro m _
  have hset : setAdcCal m.Config.adcOffsetCoefficients i offset =
      some (m.Config.adcOffsetCoefficients.set i offset hi) := dif_pos hi
  rw [setAdcOffset, exec_get_bind, hset]
  exact ⟨_, _, rfl, trivial, trivial⟩

theorem terminates_calibrateScale {i : Nat} (hi : i < 8) (scale : FloatBits) :
    Terminates (calibrateScale env i scale) :=
  returns_bind (terminates_io (terminates_out _ _)) fun _ _ => terminates_setAdcScale hi scale

theorem terminates_calibrateOffset {i : Nat} (hi : i < 8) (offset : FloatBits) :
    Terminates (calibrateOffset env i offset) :=
  returns_bind (terminates_io (terminates_out _ _)) fun _ _ => terminates_setAdcOffset hi offset

theorem terminates_calibrateBoth {i : Nat} (hi : i < 8) (scale offset : FloatBits) :
    Terminates (calibrateBoth env i scale offset) :=
  returns_bind (terminates_io (terminates_out _ _)) fun _ _ =>
    returns_bind (terminates_io (terminates_out _ _)) fun _ _ =>
      returns_bind (terminates_setAdcScale hi scale) fun _ _ => terminates_setAdcOffset hi offset

theorem terminates_setDacScale {i : Nat} (hi : i < 4) (scale : FloatBits) :
    Terminates (setDacScale (ε := ε) i scale) :=
  fun m _ => ⟨_, _, exec_setDacScale hi scale m, trivial, trivial⟩

theorem terminates_setDacOffset {i : Nat} (hi : i < 4) (offset : FloatBits) :
    Terminates (setDacOffset (ε := ε) i offset) :=
  fun m _ => ⟨_, _, exec_setDacOffset hi offset m, trivial, trivial⟩

/-- A coefficient is eight bytes of text. -/
theorem terminates_writeConfigU32 (hwrites : WritesGoOn env) {fuel : Nat} (hfuel : 8 ≤ fuel)
    (key : TBytes) (value : UInt32) : Terminates (io (WriteConfigU32 env fuel key value)) := by
  have hlen : (to_hex 4 value.toNat).length ≤ fuel := by
    rw [to_hex, List.length_map, List.length_range]
    exact hfuel
  exact terminates_io (returns_bind (returns_MkdirP_any env _) fun _ _ =>
    returns_atomicWrite_any hwrites _ hlen)

theorem terminates_dacOffset (hwrites : WritesGoOn env) {fuel : Nat}
    (hfuel : 8 ≤ fuel) {i : Nat} (hi : i < 4) (offset : FloatBits) : Terminates (do
      setDacOffset i offset
      let _ ← io (writeDacOffset env fuel i offset)) :=
  returns_bind (terminates_setDacOffset hi offset) fun _ _ =>
    returns_bind (terminates_writeConfigU32 hwrites hfuel _ _) fun _ _ => returns_pure trivial

theorem terminates_dacScale (hwrites : WritesGoOn env) {fuel : Nat}
    (hfuel : 8 ≤ fuel) {i : Nat} (hi : i < 4) (scale : FloatBits) : Terminates (do
      setDacScale i scale
      let _ ← io (writeDacScale env fuel i scale)) :=
  returns_bind (terminates_setDacScale hi scale) fun _ _ =>
    returns_bind (terminates_writeConfigU32 hwrites hfuel _ _) fun _ _ => returns_pure trivial

/-! ### Rows -/

open DataItemIds

/-- One group. -/
theorem group_single {f : Nat → UInt8 → Prog Exn (Sys ε) Unit} {data : TBytes} {i : Nat}
    (hhi : data.length ≤ 8) (h : i < data.length / 1) :
    io (ADC_GroupParams.Go f (ADC_GroupParams.ctor (singleData 1 i data))) =
      ofOption data[i]? >>= fun v => io (f i v) := by
  have hi : i < data.length := by rwa [Nat.div_one] at h
  have htail : (data.drop (1 * i)).take 1 = [data[i]] := by
    rw [Nat.one_mul, List.drop_eq_getElem_cons hi, List.take_succ_cons, List.take_zero]
  rw [singleData, htail, List.getElem?_eq_getElem hi]
  show io (f (UInt8.ofNat i).toNat data[i]) = io (f i data[i])
  rw [toNat_index hhi (by decide) h]

theorem group_isSome {data : TBytes} {i : Nat} (h : i < data.length / 1) :
    (data[i]?).isSome = true := by
  rw [Nat.div_one] at h
  rw [List.getElem?_eq_getElem h, Option.isSome_some]

theorem groups_loop {f : Nat → UInt8 → Prog Exn (Sys ε) Unit} {data : TBytes}
    (hlo : 8 ≤ data.length) (hhi : data.length ≤ 8) :
    io (ADC_AllGroups.Go f (bytesAt 8 data)) =
      (List.range (data.length / 1)).forM fun i => ofOption data[i]? >>= fun v => io (f i v) := by
  have hn : data.length / 1 = 8 := by omega
  rw [hn, ← forM_values (fun i v => io (f i v)) fun i hi => group_isSome (hn ▸ hi)]
  unfold ADC_AllGroups.Go bytesAt
  simp only [io_bind, io_ofOption, io_forM]

theorem range_lawful : BulkItem.Lawful pf env ⟨ADC_RangeAll, ADC_Range1, 1, by decide⟩ :=
  lawful_of_rounds (g := fun data i => ofOption data[i]? >>= fun v => io (setRange env i v))
    ⟨_, rfl, rfl, rfl, fun _ => ⟨_, fun _ => rfl, fun _ => rfl⟩⟩
    ⟨_, rfl, rfl, rfl, fun _ => ⟨_, fun _ => rfl, fun _ => rfl⟩⟩
    (fun _ _ => throws_bind (throws_ofOption _) fun _ =>
      quiet_io (made_setRange quiet_closed (quiet_out env _) _))
    (fun _ => groups_loop) (fun _ _ => group_single)
    fun _ _ _ _ _ _ h => terminates_value (group_isSome h) fun _ => terminates_setRange _ _

theorem differential_lawful :
    BulkItem.Lawful pf env ⟨ADC_DifferentialAll, ADC_Differential1, 1, by decide⟩ :=
  lawful_of_rounds (g := fun data i => ofOption data[i]? >>= fun v => io (setSingleEnded env i v))
    ⟨_, rfl, rfl, rfl, fun _ => ⟨_, fun _ => rfl, fun _ => rfl⟩⟩
    ⟨_, rfl, rfl, rfl, fun _ => ⟨_, fun _ => rfl, fun _ => rfl⟩⟩
    (fun _ _ => throws_bind (throws_ofOption _) fun _ =>
      quiet_io (made_setSingleEnded quiet_closed (quiet_call env) (quiet_out env _) _))
    (fun _ => groups_loop) (fun _ _ => group_single)
    fun _ _ _ _ _ _ h => terminates_value (group_isSome h) fun _ => terminates_setSingleEnded _ _

/-- One coefficient. -/
theorem coefficient_single {f : Nat → FloatBits → Prog Exn (Machine ε) Unit} {data : TBytes}
    {i : Nat} (hhi : data.length ≤ 32) (h : i < data.length / 4) :
    (ofOption (ADC_CalParams.ctor (singleData 4 i data)) >>= fun p =>
      f p.rangeIndex.toNat p.value) =
      ofOption (readU32 data (4 * i)) >>= f i := by
  have hread : readU32 (singleData 4 i data) 1 = readU32 data (4 * i) :=
    readU32_single (Nat.le_refl 4) i data
  have hindex := toNat_index hhi (by decide) h
  rw [ADC_CalParams.ctor, hread]
  cases readU32 data (4 * i) with
  | none => rfl
  | some v =>
    show f (UInt8.ofNat i).toNat v = f i v
    rw [hindex]

theorem coefficient_isSome {data : TBytes} {i : Nat} (h : i < data.length / 4) :
    (readU32 data (4 * i)).isSome = true :=
  readU32_isSome data (4 * i) (by omega)

theorem coefficients_loop {f : Nat → FloatBits → Prog Exn (Machine ε) Unit} {data : TBytes}
    (hlo : 32 ≤ data.length) (hhi : data.length ≤ 32) :
    (ofOption (floatsAt 8 data) >>= fun vs => vs.zipIdx.forM fun s => f s.2 s.1) =
      (List.range (data.length / 4)).forM fun i => ofOption (readU32 data (4 * i)) >>= f i := by
  have hn : data.length / 4 = 8 := by omega
  rw [hn, ← forM_values f fun i hi => coefficient_isSome (hn ▸ hi), floatsAt]

theorem scale_lawful : BulkItem.Lawful pf env ⟨ADC_ScaleAll, ADC_Scale1, 4, by decide⟩ :=
  lawful_of_rounds (g := fun data i => ofOption (readU32 data (4 * i)) >>= calibrateScale env i)
    ⟨_, rfl, rfl, rfl, fun _ => ⟨_, fun _ => rfl, fun _ => rfl⟩⟩
    ⟨_, rfl, rfl, rfl, fun _ => ⟨_, fun _ => rfl, fun _ => rfl⟩⟩
    (fun _ i => throws_bind (throws_ofOption _) fun _ => quiet_calibrateScale env i _)
    (fun _ => coefficients_loop) (fun _ _ => coefficient_single)
    fun _ _ data i _ (hhi : data.length ≤ 32) (h : i < data.length / 4) =>
      terminates_value (coefficient_isSome h) fun _ =>
        terminates_calibrateScale (show i < 8 by omega) _

theorem offset_lawful : BulkItem.Lawful pf env ⟨ADC_OffsetAll, ADC_Offset1, 4, by decide⟩ :=
  lawful_of_rounds (g := fun data i => ofOption (readU32 data (4 * i)) >>= calibrateOffset env i)
    ⟨_, rfl, rfl, rfl, fun _ => ⟨_, fun _ => rfl, fun _ => rfl⟩⟩
    ⟨_, rfl, rfl, rfl, fun _ => ⟨_, fun _ => rfl, fun _ => rfl⟩⟩
    (fun _ i => throws_bind (throws_ofOption _) fun _ => quiet_calibrateOffset env i _)
    (fun _ => coefficients_loop) (fun _ _ => coefficient_single)
    fun _ _ data i _ (hhi : data.length ≤ 32) (h : i < data.length / 4) =>
      terminates_value (coefficient_isSome h) fun _ =>
        terminates_calibrateOffset (show i < 8 by omega) _

/-- The pair of a range in the payload for all ranges. -/
def pairAt (data : TBytes) (i : Nat) : Option (FloatBits × FloatBits) := do
  let scale ← readU32 data (8 * i)
  let offset ← readU32 data (8 * i + 4)
  return (scale, offset)

theorem pair_single {data : TBytes} {i : Nat} (hhi : data.length ≤ 64) (h : i < data.length / 8) :
    TADC_Calibration1.Go env (TADC_Calibration1.ctor (singleData 8 i data)) =
      ofOption (pairAt data i) >>= fun p => calibrateBoth env i p.1 p.2 := by
  have hscale : readU32 (singleData 8 i data) 1 = readU32 data (8 * i) :=
    readU32_single (by decide) i data
  have hoffset : readU32 (singleData 8 i data) 5 = readU32 data (8 * i + 4) :=
    readU32_single (Nat.le_refl 8) i data
  have hindex := toNat_index hhi (by decide) h
  rw [TADC_Calibration1.ctor, hscale, hoffset, pairAt]
  cases readU32 data (8 * i) with
  | none => rfl
  | some scale =>
    cases readU32 data (8 * i + 4) with
    | none => rfl
    | some offset =>
      show calibrateBoth env (UInt8.ofNat i).toNat scale offset = calibrateBoth env i scale offset
      rw [hindex]

theorem pair_isSome {data : TBytes} {i : Nat} (h : i < data.length / 8) :
    (pairAt data i).isSome = true := by
  obtain ⟨scale, hscale⟩ := Option.isSome_iff_exists.mp (readU32_isSome data (8 * i) (by omega))
  obtain ⟨offset, hoffset⟩ :=
    Option.isSome_iff_exists.mp (readU32_isSome data (8 * i + 4) (by omega))
  rw [pairAt, hscale, hoffset]
  rfl

theorem pairs_loop {data : TBytes} (hlo : 64 ≤ data.length) (hhi : data.length ≤ 64) :
    TADC_CalibrationAll.Go env (TADC_CalibrationAll.ctor data) =
      (List.range (data.length / 8)).forM fun i =>
        ofOption (pairAt data i) >>= fun p => calibrateBoth env i p.1 p.2 := by
  have hn : data.length / 8 = 8 := by omega
  have hsome : ∀ i, i < 8 → (pairAt data i).isSome = true :=
    fun i hi => pair_isSome (hi.trans_eq hn.symm)
  rw [hn, ← forM_values (fun i p => calibrateBoth env i p.1 p.2) hsome]
  rfl

theorem calibration_lawful :
    BulkItem.Lawful pf env ⟨ADC_CalibrationAll, ADC_Calibration1, 8, by decide⟩ :=
  lawful_of_rounds
    (g := fun data i => ofOption (pairAt data i) >>= fun p => calibrateBoth env i p.1 p.2)
    ⟨_, rfl, rfl, rfl, fun _ => ⟨_, fun _ => rfl, fun _ => rfl⟩⟩
    ⟨_, rfl, rfl, rfl, fun _ => ⟨_, fun _ => rfl, fun _ => rfl⟩⟩
    (fun _ i => throws_bind (throws_ofOption _) fun _ => quiet_calibrateBoth env i _ _)
    (fun _ => pairs_loop) (fun _ _ => pair_single)
    fun _ _ data i _ (hhi : data.length ≤ 64) (h : i < data.length / 8) =>
      terminates_value (pair_isSome h) fun _ =>
        terminates_calibrateBoth (show i < 8 by omega) _ _

theorem channel_index {data : TBytes} {i : Nat} (hhi : data.length ≤ 16)
    (h : i < data.length / 4) : UInt8.ofNat i < 4 ∧ (UInt8.ofNat i).toNat = i := by
  have hindex := toNat_index hhi (by decide) h
  refine ⟨UInt8.lt_iff_toNat_lt.mpr ?_, hindex⟩
  rw [hindex]
  show i < 4
  omega

theorem dacScale_single {fuel : Nat} {data : TBytes} {i : Nat} (hhi : data.length ≤ 16)
    (h : i < data.length / 4) :
    DAC_Scale1.go env fuel (singleData 4 i data) = DAC_ScaleAll.step env fuel data i := by
  obtain ⟨hch, hindex⟩ := channel_index hhi h
  have hread : readU32 (singleData 4 i data) 1 = readU32 data (i * 4) := by
    rw [Nat.mul_comm i 4]
    exact readU32_single (Nat.le_refl 4) i data
  unfold DAC_Scale1.go DAC_ScaleAll.step
  rw [hread, singleData, lambdaChannel_pass _ 243 hch, pure_bind, hindex]

theorem dacOffset_single {fuel : Nat} {data : TBytes} {i : Nat} (hhi : data.length ≤ 16)
    (h : i < data.length / 4) :
    DAC_Offset1.go env fuel (singleData 4 i data) = DAC_OffsetAll.step env fuel data i := by
  obtain ⟨hch, hindex⟩ := channel_index hhi h
  have hread : readU32 (singleData 4 i data) 1 = readU32 data (i * 4) := by
    rw [Nat.mul_comm i 4]
    exact readU32_single (Nat.le_refl 4) i data
  unfold DAC_Offset1.go DAC_OffsetAll.step
  rw [hread, singleData, lambdaChannel_pass _ 210 hch, pure_bind, hindex]

theorem quiet_scaleStep (fuel : Nat) (data : TBytes) (i : Nat) :
    Quiet (DAC_ScaleAll.step env fuel data i) :=
  throws_bind (throws_ofOption _) fun _ => throws_bind (quiet_setDacScale i _) fun _ =>
    throws_bind (quiet_io (quiet_writeConfigString env _ _ _)) fun _ => throws_pure _

theorem quiet_offsetStep (fuel : Nat) (data : TBytes) (i : Nat) :
    Quiet (DAC_OffsetAll.step env fuel data i) :=
  throws_bind (throws_ofOption _) fun _ => throws_bind (quiet_setDacOffset i _) fun _ =>
    throws_bind (quiet_io (quiet_writeConfigString env _ _ _)) fun _ => throws_pure _

theorem terminates_scaleStep (hwrites : WritesGoOn env) (hfuel : 8 ≤ pf.fuel) (data : TBytes)
    (i : Nat) (_ : 8 ≤ data.length) (hhi : data.length ≤ 16) (h : i < data.length / 4) :
    Terminates (DAC_ScaleAll.step env pf.fuel data i) :=
  terminates_value (readU32_isSome data (i * 4) (by omega)) fun v =>
    terminates_dacScale hwrites hfuel (show i < 4 by omega) v

theorem terminates_offsetStep (hwrites : WritesGoOn env) (hfuel : 8 ≤ pf.fuel) (data : TBytes)
    (i : Nat) (_ : 8 ≤ data.length) (hhi : data.length ≤ 16) (h : i < data.length / 4) :
    Terminates (DAC_OffsetAll.step env pf.fuel data i) :=
  terminates_value (readU32_isSome data (i * 4) (by omega)) fun v =>
    terminates_dacOffset hwrites hfuel (show i < 4 by omega) v

theorem dacScale_lawful : BulkItem.Lawful pf env ⟨DAC_ScaleAll, DAC_Scale1, 4, by decide⟩ := by
  refine lawful_of_rounds (g := DAC_ScaleAll.step env pf.fuel)
    ⟨_, rfl, rfl, rfl, fun _ => ⟨_, fun _ => rfl, fun _ => rfl⟩⟩
    ⟨_, rfl, rfl, rfl, fun _ => ⟨_, fun _ => rfl, fun _ => rfl⟩⟩
    (quiet_scaleStep pf.fuel) (fun data _ (hhi : data.length ≤ 16) => ?_)
    (fun _ _ => dacScale_single) terminates_scaleStep
  -- the dictionary takes no more than four floats, so nothing is cut off
  have hmin : min (data.length / 4) 4 = data.length / 4 := Nat.min_eq_left (by omega)
  show DAC_ScaleAll.go env pf.fuel data = _
  rw [DAC_ScaleAll.go, hmin]

theorem dacOffset_lawful : BulkItem.Lawful pf env ⟨DAC_OffsetAll, DAC_Offset1, 4, by decide⟩ :=
  lawful_of_rounds (g := DAC_OffsetAll.step env pf.fuel)
    ⟨_, rfl, rfl, rfl, fun _ => ⟨_, fun _ => rfl, fun _ => rfl⟩⟩
    ⟨_, rfl, rfl, rfl, fun _ => ⟨_, fun _ => rfl, fun _ => rfl⟩⟩
    (quiet_offsetStep pf.fuel) (fun _ _ _ => rfl) (fun _ _ => dacOffset_single)
    terminates_offsetStep

theorem bulkItems_lawful {x : BulkItem} (hx : x ∈ bulkItems) : x.Lawful pf env := by
  simp only [bulkItems, List.mem_cons, List.not_mem_nil, or_false] at hx
  rcases hx with rfl | rfl | rfl | rfl | rfl | rfl | rfl
  · exact range_lawful
  · exact differential_lawful
  · exact scale_lawful
  · exact offset_lawful
  · exact calibration_lawful
  · exact dacScale_lawful
  · exact dacOffset_lawful

end

end BulkLemmas

open BulkLemmas

/-! ## 3. DAC_Calibrate1 -/

/-- Every run of the program makes this change to `Config`, and none to a register. -/
def Sets {α : Type} (regs : ε → RegisterFile) (f : TConfig → TConfig)
    (p : Prog Exn (Machine ε) α) : Prop :=
  ∀ m m', Leads p m m' → m'.Config = f m.Config ∧ regs m'.sys.env = regs m.sys.env

namespace BulkLemmas

section

variable {pf : Platform} {env : Env ε} {regs : ε → RegisterFile} {f g : TConfig → TConfig}
  {α β : Type}

theorem sets_pure (a : α) : Sets (ε := ε) regs id (pure a) := by
  rintro m m' ⟨r, hrun⟩
  cases hrun
  exact ⟨rfl, rfl⟩

theorem sets_bind {p : Prog Exn (Machine ε) α} {q : α → Prog Exn (Machine ε) β} (hquiet : Quiet p)
    (hp : Sets regs f p) (hq : ∀ a, Sets regs g (q a)) : Sets regs (g ∘ f) (p >>= q) := by
  rintro m m' ⟨r, hrun⟩
  rw [exec_bind, Option.bind_eq_some_iff] at hrun
  obtain ⟨⟨r₁, m₁⟩, hrun₁, hrun⟩ := hrun
  obtain ⟨hconfig, hregs⟩ := hp m m₁ ⟨r₁, hrun₁⟩
  cases r₁ with
  | error x => exact absurd (hquiet m x m₁ hrun₁) not_false
  | ok a =>
    obtain ⟨hconfig', hregs'⟩ := hq a m₁ m' ⟨r, hrun⟩
    exact ⟨by rw [hconfig', hconfig, Function.comp_apply], hregs'.trans hregs⟩

/-- Set a coefficient of one DAC channel. -/
def withDacScale {i : Nat} (hi : i < 4) (scale : FloatBits) (c : TConfig) : TConfig :=
  { c with dacScaleCoefficients := c.dacScaleCoefficients.set i scale hi }

def withDacOffset {i : Nat} (hi : i < 4) (offset : FloatBits) (c : TConfig) : TConfig :=
  { c with dacOffsetCoefficients := c.dacOffsetCoefficients.set i offset hi }

theorem sets_dacScale {i : Nat} (hi : i < 4) (scale : FloatBits) :
    Sets (ε := ε) regs (withDacScale hi scale) (setDacScale i scale) := by
  rintro m m' ⟨r, hrun⟩
  rw [exec_setDacScale hi] at hrun
  cases hrun
  exact ⟨rfl, rfl⟩

theorem sets_dacOffset {i : Nat} (hi : i < 4) (offset : FloatBits) :
    Sets (ε := ε) regs (withDacOffset hi offset) (setDacOffset i offset) := by
  rintro m m' ⟨r, hrun⟩
  rw [exec_setDacOffset hi] at hrun
  cases hrun
  exact ⟨rfl, rfl⟩

/-- Files are no registers. -/
theorem sets_writeConfig (hregs : RegisterCells env regs) (fuel : Nat) (key : TBytes)
    (value : UInt32) : Sets regs id (io (WriteConfigU32 env fuel key value)) := by
  let R : Sys ε → Sys ε → Prop := fun s s' => regs s'.env = regs s.env
  have : Std.Refl R := ⟨fun _ => rfl⟩
  have : IsTrans (Sys ε) R := ⟨fun _ _ _ h h' => h'.trans h⟩
  have hcall (c : SysCall) (hc : c.isRegisterWrite = false) : Moves R (syscall env c) := by
    intro s r s' hrun
    cases hrun
    exact hregs.others c s.env hc
  have hfile (c : SysCall) (_ : c.isRename = false) (hc : c.isRegisterWrite = false) :
      Moves R (syscall env c) := hcall c hc
  have hwrite : Moves R (WriteConfigU32 env fuel key value) :=
    moves_bind (made_mkdirP closed_moves hfile _) fun _ =>
      made_atomicWrite closed_moves hfile (hcall _ rfl) fuel _
  rintro m m' ⟨r, hrun⟩
  rw [io, exec_zoom, Option.map_eq_some_iff] at hrun
  obtain ⟨⟨r', s'⟩, hrun, heq⟩ := hrun
  cases heq
  exact ⟨rfl, hwrite m.sys r' s' hrun⟩

theorem calibrate_runsAs :
    RunsAs pf env DataItemIds.DAC_Calibrate1 9 9 (DAC_Calibrate1.go env pf.fuel) :=
  ⟨_, rfl, rfl, rfl, fun _ => ⟨_, fun _ => rfl, fun _ => rfl⟩⟩

theorem offset1_runsAs :
    RunsAs pf env DataItemIds.DAC_Offset1 5 5 (DAC_Offset1.go env pf.fuel) :=
  ⟨_, rfl, rfl, rfl, fun _ => ⟨_, fun _ => rfl, fun _ => rfl⟩⟩

theorem scale1_runsAs :
    RunsAs pf env DataItemIds.DAC_Scale1 5 5 (DAC_Scale1.go env pf.fuel) :=
  ⟨_, rfl, rfl, rfl, fun _ => ⟨_, fun _ => rfl, fun _ => rfl⟩⟩

/-- The two items for one that a `DAC_Calibrate1` stands for are run one after the other. -/
theorem performsAll_calibrate {data : TBytes} (hlen : data.length = 9) (m m' : Machine ε) :
    PerformsAll pf env (calibrateSingles data) m m' ↔
      ∃ m₁, Leads (DAC_Offset1.go env pf.fuel (data.take 5)) m m₁ ∧
        Leads (DAC_Scale1.go env pf.fuel (data.take 1 ++ (data.drop 5).take 4)) m₁ m' := by
  have hoffset : (data.take 5).length = 5 := by
    rw [List.length_take, hlen]
    rfl
  have hscale : (data.take 1 ++ (data.drop 5).take 4).length = 5 := by
    rw [List.length_append, List.length_take, List.length_take, List.length_drop, hlen]
    rfl
  have hfirst := performs_leads (@offset1_runsAs ε pf env)
    (w := ⟨DataItemIds.DAC_Offset1, data.take 5, by omega⟩) rfl hoffset.ge hoffset.le
  have hsecond := performs_leads (@scale1_runsAs ε pf env)
    (w := ⟨DataItemIds.DAC_Scale1, data.take 1 ++ (data.drop 5).take 4, by omega⟩) rfl
      hscale.ge hscale.le
  constructor
  · intro h
    cases h with
    | cons hq hrest =>
      cases hrest with
      | cons hq' hnil =>
        cases hnil
        exact ⟨_, (hfirst _ _).mp ⟨_, hq⟩, (hsecond _ _).mp ⟨_, hq'⟩⟩
  · rintro ⟨m₁, h₁, h₂⟩
    obtain ⟨q, hq⟩ := (hfirst m m₁).mpr h₁
    obtain ⟨q', hq'⟩ := (hsecond m₁ m').mpr h₂
    exact .cons hq (.cons hq' .nil)

/-- A channel that does not exist. -/
theorem leads_badChannel {ch : UInt8} (hch : ¬ch < 4) (rest : TBytes) (line : Nat)
    (k : Nat → Prog Exn (Machine ε) α) (m m' : Machine ε) :
    Leads (lambdaChannel (ch :: rest) line >>= k) m m' ↔ m' = m := by
  have hguard : (lambdaChannel (ch :: rest) line : Prog Exn (Machine ε) Nat) =
      GUARD false ERR_DId_BAD_PARAM ch.toUInt32 (lambdaSite line) >>= fun _ => pure ch.toNat := by
    rw [← decide_eq_false hch]
    rfl
  rw [hguard]
  constructor
  · rintro ⟨r, hrun⟩
    cases hrun
    rfl
  · rintro rfl
    exact ⟨_, rfl⟩

/-- The channel, the offset and the scale in the payload. -/
theorem calibrate_payload {data : TBytes} (hlen : data.length = 9) :
    ∃ ch rest offset scale, data = ch :: rest ∧ readU32 rest 0 = some offset ∧
      readU32 rest 4 = some scale := by
  cases data with
  | nil => cases hlen
  | cons ch rest =>
    have hrest : rest.length = 8 := Nat.succ.inj hlen
    obtain ⟨offset, hoffset⟩ := Option.isSome_iff_exists.mp (readU32_isSome rest 0 (by omega))
    obtain ⟨scale, hscale⟩ := Option.isSome_iff_exists.mp (readU32_isSome rest 4 (by omega))
    exact ⟨ch, rest, offset, scale, rfl, hoffset, hscale⟩

/-- They are the same in the payloads of the two items for one. -/
theorem singles_payload {rest : TBytes} {offset scale : FloatBits}
    (hoffset : readU32 rest 0 = some offset) (hscale : readU32 rest 4 = some scale) :
    readU32 (rest.take 4) 0 = some offset ∧ readU32 ((rest.drop 4).take 4) 0 = some scale :=
  ⟨(readU32_window rest (i := 0) (Nat.le_refl 4)).trans hoffset,
    (readU32_window rest (Nat.le_refl 4)).trans hscale⟩

theorem toNat_lt_four {ch : UInt8} (hch : ch < 4) : ch.toNat < 4 := UInt8.lt_iff_toNat_lt.mp hch

theorem sets_calibrate (hregs : RegisterCells env regs) {fuel : Nat} {ch : UInt8} (hch : ch < 4)
    {rest : TBytes} {offset scale : FloatBits} (hoffset : readU32 rest 0 = some offset)
    (hscale : readU32 rest 4 = some scale) :
    Sets regs (withDacOffset (toNat_lt_four hch) offset ∘ withDacScale (toNat_lt_four hch) scale)
      (DAC_Calibrate1.go env fuel (ch :: rest)) := by
  rw [calibrate_go hch hoffset hscale]
  exact sets_bind (quiet_setDacScale _ _) (sets_dacScale _ scale) fun _ =>
    sets_bind (quiet_setDacOffset _ _) (sets_dacOffset _ offset) fun _ =>
      sets_bind (quiet_io (quiet_writeConfigString env _ _ _)) (sets_writeConfig hregs _ _ _)
        fun _ => sets_bind (quiet_io (quiet_writeConfigString env _ _ _))
          (sets_writeConfig hregs _ _ _) fun _ => sets_pure ()

theorem sets_offset1 (hregs : RegisterCells env regs) {fuel : Nat} {ch : UInt8} (hch : ch < 4)
    {rest : TBytes} {offset : FloatBits} (hoffset : readU32 rest 0 = some offset) :
    Sets regs (withDacOffset (toNat_lt_four hch) offset)
      (DAC_Offset1.go env fuel (ch :: rest)) := by
  rw [offset1_go hch hoffset]
  exact sets_bind (quiet_setDacOffset _ _) (sets_dacOffset _ offset) fun _ =>
    sets_bind (quiet_io (quiet_writeConfigString env _ _ _)) (sets_writeConfig hregs _ _ _)
      fun _ => sets_pure ()

theorem sets_scale1 (hregs : RegisterCells env regs) {fuel : Nat} {ch : UInt8} (hch : ch < 4)
    {rest : TBytes} {scale : FloatBits} (hscale : readU32 rest 0 = some scale) :
    Sets regs (withDacScale (toNat_lt_four hch) scale) (DAC_Scale1.go env fuel (ch :: rest)) := by
  rw [scale1_go hch hscale]
  exact sets_bind (quiet_setDacScale _ _) (sets_dacScale _ scale) fun _ =>
    sets_bind (quiet_io (quiet_writeConfigString env _ _ _)) (sets_writeConfig hregs _ _ _)
      fun _ => sets_pure ()

theorem calibrate_same (hregs : RegisterCells env regs) {w : WireItem}
    (hid : w.DId = DataItemIds.DAC_Calibrate1) (hbounds : w.WithinBounds) {m m₁ m₂ : Machine ε}
    {q : GoResult} (hq : Performs pf env w m q m₁)
    (hall : PerformsAll pf env (calibrateSingles w.data) m m₂) :
    m₁.Config = m₂.Config ∧ regs m₁.sys.env = regs m₂.sys.env := by
  obtain ⟨hlo, hhi⟩ := length_of_runsAs (@calibrate_runsAs ε pf env) hid hbounds
  have hlen : w.data.length = 9 := Nat.le_antisymm hhi hlo
  have hrun := (performs_leads calibrate_runsAs hid hlo hhi m m₁).mp ⟨q, hq⟩
  obtain ⟨m', hrun₁, hrun₂⟩ := (performsAll_calibrate hlen m m₂).mp hall
  obtain ⟨ch, rest, offset, scale, hdata, hoffset, hscale⟩ := calibrate_payload hlen
  obtain ⟨hoffset', hscale'⟩ := singles_payload hoffset hscale
  rw [hdata] at hrun hrun₁ hrun₂
  -- a channel from 4 on is refused by all three items
  by_cases hch : ch < 4
  · obtain ⟨hconfig, henv⟩ := sets_calibrate hregs hch hoffset hscale m m₁ hrun
    obtain ⟨hconfig₁, henv₁⟩ := sets_offset1 hregs hch hoffset' m m' hrun₁
    obtain ⟨hconfig₂, henv₂⟩ := sets_scale1 hregs hch hscale' m' m₂ hrun₂
    refine ⟨?_, henv.trans (henv₂.trans henv₁).symm⟩
    rw [hconfig, hconfig₂, hconfig₁]
    rfl
  · cases (leads_badChannel hch rest 186 _ m m₁).mp hrun
    cases (leads_badChannel hch _ 210 _ m m').mp hrun₁
    cases (leads_badChannel hch _ 243 _ m m₂).mp hrun₂
    exact ⟨rfl, rfl⟩

theorem leads_of_terminates {p : Prog Exn (Machine ε) α} (hp : Terminates p) (m : Machine ε) :
    ∃ m', Leads p m m' := by
  obtain ⟨a, m', hrun, -⟩ := hp m trivial
  exact ⟨m', .ok a, hrun⟩

theorem calibrate_runs (hwrites : WritesGoOn env) (hfuel : 8 ≤ pf.fuel) {w : WireItem}
    (hid : w.DId = DataItemIds.DAC_Calibrate1) (hbounds : w.WithinBounds) (m : Machine ε) :
    (∃ q m₁, Performs pf env w m q m₁) ∧
      ∃ m₂, PerformsAll pf env (calibrateSingles w.data) m m₂ := by
  obtain ⟨hlo, hhi⟩ := length_of_runsAs (@calibrate_runsAs ε pf env) hid hbounds
  have hlen : w.data.length = 9 := Nat.le_antisymm hhi hlo
  obtain ⟨ch, rest, offset, scale, hdata, hoffset, hscale⟩ := calibrate_payload hlen
  obtain ⟨hoffset', hscale'⟩ := singles_payload hoffset hscale
  suffices h : (∃ m₁, Leads (DAC_Calibrate1.go env pf.fuel w.data) m m₁) ∧
      ∃ m₂ m₁, Leads (DAC_Offset1.go env pf.fuel (w.data.take 5)) m m₁ ∧
        Leads (DAC_Scale1.go env pf.fuel (w.data.take 1 ++ (w.data.drop 5).take 4)) m₁ m₂ by
    obtain ⟨⟨m₁, h₁⟩, m₂, h₂⟩ := h
    obtain ⟨q, hq⟩ := (performs_leads calibrate_runsAs hid hlo hhi m m₁).mpr h₁
    exact ⟨⟨q, m₁, hq⟩, m₂, (performsAll_calibrate hlen m m₂).mpr h₂⟩
  rw [hdata]
  show (∃ m₁, Leads (DAC_Calibrate1.go env pf.fuel (ch :: rest)) m m₁) ∧
    ∃ m₂ m₁, Leads (DAC_Offset1.go env pf.fuel (ch :: rest.take 4)) m m₁ ∧
      Leads (DAC_Scale1.go env pf.fuel (ch :: (rest.drop 4).take 4)) m₁ m₂
  by_cases hch : ch < 4
  · have hi := toNat_lt_four hch
    rw [calibrate_go hch hoffset hscale, offset1_go hch hoffset', scale1_go hch hscale']
    obtain ⟨m₁, h₁⟩ := leads_of_terminates (terminates_dacOffset hwrites hfuel hi offset) m
    obtain ⟨m₂, h₂⟩ := leads_of_terminates (terminates_dacScale hwrites hfuel hi scale) m₁
    refine ⟨leads_of_terminates ?_ m, m₂, m₁, h₁, h₂⟩
    exact returns_bind (terminates_setDacScale hi scale) fun _ _ =>
      returns_bind (terminates_setDacOffset hi offset) fun _ _ =>
        returns_bind (terminates_writeConfigU32 hwrites hfuel _ _) fun _ _ =>
          returns_bind (terminates_writeConfigU32 hwrites hfuel _ _) fun _ _ =>
            returns_pure trivial
  · exact ⟨⟨m, (leads_badChannel hch rest 186 _ m m).mpr rfl⟩, m, m,
      (leads_badChannel hch _ 210 _ m m).mpr rfl, (leads_badChannel hch _ 243 _ m m).mpr rfl⟩

end

end BulkLemmas

/-! ## 4. All of them -/

/-- What holds of the items for all channels and of `DAC_Calibrate1`. Where files can be written
each of them has a run. -/
structure BulkLaws (pf : Platform) (env : Env ε) (regs : ε → RegisterFile) : Prop where
  bulk : ∀ x ∈ bulkItems, x.Lawful pf env
  calibrate : ∀ w : WireItem, w.DId = DataItemIds.DAC_Calibrate1 → w.WithinBounds →
    ∀ m m₁ m₂ q, Performs pf env w m q m₁ → PerformsAll pf env (calibrateSingles w.data) m m₂ →
      m₁.Config = m₂.Config ∧ regs m₁.sys.env = regs m₂.sys.env
  calibrate_runs : WritesGoOn env → 8 ≤ pf.fuel → ∀ w : WireItem,
    w.DId = DataItemIds.DAC_Calibrate1 → w.WithinBounds → ∀ m,
      (∃ q m₁, Performs pf env w m q m₁) ∧
        ∃ m₂, PerformsAll pf env (calibrateSingles w.data) m m₂

/-- An item for all leaves the machine as its items for one leave it. `DAC_Calibrate1` leaves
`Config` and the registers as `DAC_Offset1` and `DAC_Scale1` leave them. -/
theorem bulk_items (pf : Platform) {env : Env ε} {regs : ε → RegisterFile}
    (hregs : RegisterCells env regs) : BulkLaws pf env regs where
  bulk _ hx := bulkItems_lawful hx
  calibrate _ hid hbounds _ _ _ _ hq hall := calibrate_same hregs hid hbounds hq hall
  calibrate_runs hwrites hfuel _ hid hbounds m := calibrate_runs hwrites hfuel hid hbounds m

/-- A range for each of the eight groups. -/
def exRangeAll : WireItem := ⟨DataItemIds.ADC_RangeAll, [0, 1, 2, 3, 4, 5, 6, 7], by decide⟩

/-- The item that is built from it. -/
def exRangeAllItem : TDataItem :=
  { params := .TADC_RangeAll (some exRangeAll.data), rawBytes := exRangeAll.data,
    DId := DataItemIds.ADC_RangeAll }

/-- The range of one of them. -/
def exRangeOf (group : UInt8) : WireItem := ⟨DataItemIds.ADC_Range1, [group, group], by simp⟩

theorem exRegister_bulk :
    ∃ q m, Performs exPlatform exRegisterEnv exRangeAll exRegisterMachine q m ∧
      PerformsAll exPlatform exRegisterEnv ([0, 1, 2, 3, 4, 5, 6, 7].map exRangeOf)
        exRegisterMachine m ∧
      (List.range 8).map (fun i => (m.sys.env (ofsAdcRange + i)).toNat) =
        [0, 1, 2, 3, 4, 5, 6, 7] := by
  have hcells : ((goItem exPlatform exRegisterEnv exRangeAllItem exRegisterMachine).map fun r =>
      (List.range 8).map fun i => (r.2.sys.env (ofsAdcRange + i)).toNat) =
        some [0, 1, 2, 3, 4, 5, 6, 7] := by decide +kernel
  obtain ⟨⟨q, m⟩, hrun, hranges⟩ := Option.map_eq_some_iff.mp hcells
  have hbuilt : exRangeAll.Builds exPlatform exGlobals exRangeAllItem exGlobals :=
    ⟨⟨_, rfl, .inr ⟨by decide, by decide⟩, rfl⟩, rfl⟩
  have hq : Performs exPlatform exRegisterEnv exRangeAll exRegisterMachine q m :=
    ⟨_, _, _, hbuilt, hrun⟩
  have hlaw : BulkItem.Lawful exPlatform exRegisterEnv
      ⟨DataItemIds.ADC_RangeAll, DataItemIds.ADC_Range1, 1, by decide⟩ :=
    (bulk_items exPlatform exRegister_cells).bulk _ (.head _)
  have hall := (hlaw.same exRangeAll rfl ⟨_, rfl, by decide, by decide⟩ _ m).mp ⟨q, hq⟩
  exact ⟨q, m, hq, hall, hranges⟩

end EnetTcp
