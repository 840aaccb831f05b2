import EnetTcp.Accepted
import EnetTcp.Bulk
import EnetTcp.RoundTrip

/-!
# What the lambdas of the dictionary read

Nine entries of `DIdDict` have a lambda, which gets the data of a raw item and reads it at
fixed offsets. An empty payload passes the length check of every entry.

* `GoLambda.accesses` lists the bytes of the data and the elements of `Config` that a lambda
  gets at, in the order of the source.
* `accesses_exist`: all of them exist when the data is as long as the lambda needs it.
* `run_undefined`, `run_defined`: the lambda is undefined where one of them does not exist, and
  nowhere else.
* `lambdaAccesses_exist_iff`: the same for an item that has been accepted.
-/

namespace EnetTcp

open Prog BulkLemmas EndLemmas

/-! ## 1. Accesses -/

/-- A byte of the data of an item, or an element of an array of `Config`, and how many
there are. -/
inductive LambdaAccess
  | Data (index size : Nat)
  | Config (index size : Nat)
  deriving DecidableEq

def LambdaAccess.Exists : LambdaAccess → Prop
  | .Data index size | .Config index size => index < size

instance : DecidablePred LambdaAccess.Exists
  | .Data _ _ | .Config _ _ => inferInstanceAs (Decidable (_ < _))

/-- `count` bytes of the data from `first` on. -/
def dataBytes (buf : TBytes) (first count : Nat) : List LambdaAccess :=
  (List.range' first count).map (.Data · buf.length)

/-- The register offset, and the bits as `regextract` reads them. -/
def REG_Bits.accesses (buf : TBytes) : List LambdaAccess :=
  dataBytes buf 0 1 ++
    match buf with
    | [] => []
    | ofs :: _ => dataBytes buf 1 (widthFromOffset ofs.toNat / 8)

/-- The channel, then the coefficients behind it when the GUARD lets it pass. -/
def DAC_Channel.accesses (coefficients : Nat) (buf : TBytes) : List LambdaAccess :=
  dataBytes buf 0 1 ++
    match buf with
    | [] => []
    | dacnum :: _ =>
      if dacnum < 4 then
        dataBytes buf 1 (4 * coefficients) ++
          List.replicate coefficients (.Config dacnum.toNat MAX_DACs)
      else []

/-- A coefficient for each of `n` channels. -/
def DAC_All.accesses (n : Nat) (buf : TBytes) : List LambdaAccess :=
  (List.range n).flatMap fun dacnum => dataBytes buf (dacnum * 4) 4 ++ [.Config dacnum MAX_DACs]

def GoLambda.accesses (l : GoLambda) (buf : TBytes) : List LambdaAccess :=
  match l with
  | .BRD_REBOOT => dataBytes buf 0 8
  | .REG_ClearBits | .REG_ToggleBits | .REG_SetBits => REG_Bits.accesses buf
  | .DAC_Calibrate1 => DAC_Channel.accesses 2 buf
  | .DAC_Offset1 | .DAC_Scale1 => DAC_Channel.accesses 1 buf
  | .DAC_OffsetAll => DAC_All.accesses (buf.length / 4) buf
  | .DAC_ScaleAll => DAC_All.accesses (min (buf.length / 4) 4) buf

/-- What running an item gets at through a lambda. -/
def TDataItem.lambdaAccesses (item : TDataItem) : List LambdaAccess :=
  match (DIdDict.find item.DId).bind TDIdDictEntry.go with
  | some l => l.accesses item.Data
  | none => []

/-- The data has a first byte, unless the lambda goes by the length, and bits as wide as the
register that they are for. -/
def GoLambda.Supplied (l : GoLambda) (buf : TBytes) : Prop :=
  match l with
  | .DAC_OffsetAll | .DAC_ScaleAll => True
  | .BRD_REBOOT | .DAC_Calibrate1 | .DAC_Offset1 | .DAC_Scale1 => buf ≠ []
  | .REG_ClearBits | .REG_ToggleBits | .REG_SetBits =>
    buf ≠ [] ∧ (widthFromOffset (buf.headD 0).toNat = 32 → buf.length = 5)

namespace LambdaLemmas

theorem dataBytes_exist {buf : TBytes} {first count : Nat} :
    (∀ a ∈ dataBytes buf first count, a.Exists) ↔ count = 0 ∨ first + count ≤ buf.length := by
  have hrange : (∀ a ∈ dataBytes buf first count, a.Exists) ↔
      ∀ i, first ≤ i → i < first + count → i < buf.length := by
    simp only [dataBytes, List.forall_mem_map, List.mem_range'_1, and_imp]
    rfl
  rw [hrange]
  constructor
  · intro h
    cases count with
    | zero => exact .inl rfl
    | succ n => exact .inr (h (first + n) (Nat.le_add_right ..) (Nat.lt_succ_self _))
  · rintro (rfl | h) i hfirst hlast
    · exact absurd hlast (Nat.not_lt_of_le hfirst)
    · exact Nat.lt_of_lt_of_le hlast h

/-- Nothing can be read of empty data. -/
theorem first_missing (more : List LambdaAccess) :
    ¬∀ a ∈ dataBytes [] 0 1 ++ more, a.Exists := by
  intro h
  rw [List.forall_mem_append, dataBytes_exist] at h
  obtain ⟨h | h, -⟩ := h <;> cases h

theorem regBits_exist {buf : TBytes} (h : buf = [] ∨ (2 ≤ buf.length ∧ buf.length ≤ 5)) :
    (∀ a ∈ REG_Bits.accesses buf, a.Exists) ↔
      buf ≠ [] ∧ (widthFromOffset (buf.headD 0).toNat = 32 → buf.length = 5) := by
  cases buf with
  | nil => exact iff_of_false (first_missing _) fun h => h.1 rfl
  | cons ofs rest =>
    obtain ⟨hmin, hmax⟩ := h.resolve_left (List.cons_ne_nil _ _)
    rw [and_iff_right (List.cons_ne_nil _ _), REG_Bits.accesses, List.forall_mem_append,
      dataBytes_exist, dataBytes_exist, and_iff_right (.inr (by omega)), List.headD_cons]
    rcases RoundTripLemmas.widthFromOffset_cases ofs.toNat with hw | hw | hw
    · rw [hw]
      exact iff_of_true (.inl rfl) fun h => by cases h
    · rw [hw]
      exact iff_of_true (.inr hmin) fun h => by cases h
    · rw [hw]
      show 32 / 8 = 0 ∨ 1 + 32 / 8 ≤ _ ↔ (32 = 32 → _)
      omega

theorem readU32_eq_none {bs : TBytes} {i : Nat} (h : bs.length < i + 4) : readU32 bs i = none := by
  rw [readU32, List.getElem?_eq_none (i := i + 3) (by omega)]
  cases bs[i]? with
  | none => rfl
  | some b0 =>
    cases bs[i + 1]? with
    | none => rfl
    | some b1 => cases bs[i + 2]? <;> rfl

theorem regBits_undefined {ε : Type} (env : Env ε) (f : UInt32 → UInt32 → UInt32) {buf : TBytes}
    (hmax : buf.length ≤ 5)
    (h : ¬(buf ≠ [] ∧ (widthFromOffset (buf.headD 0).toNat = 32 → buf.length = 5)))
    (m : Machine ε) : (io (REG_Bits.go env f buf)).exec m = none := by
  cases buf with
  | nil => rfl
  | cons ofs rest =>
    rw [and_iff_right (List.cons_ne_nil _ _), Classical.not_imp, List.headD_cons] at h
    obtain ⟨hwidth, hlen⟩ := h
    have hrest : rest.length < 0 + 4 := by
      rw [List.length_cons] at hmax hlen
      omega
    have hbits : regextract ((ofs :: rest).drop 1) ofs.toNat = none := by
      rw [regextract, hwidth]
      exact readU32_eq_none hrest
    rw [io, exec_zoom, REG_Bits.go]
    show Option.map _
      ((Prog.ofOption (regextract ((ofs :: rest).drop 1) ofs.toNat) >>= _).exec _) = _
    rw [hbits]
    rfl

theorem regBits_terminates {ε : Type} (env : Env ε) (f : UInt32 → UInt32 → UInt32) {buf : TBytes}
    (hmin : 2 ≤ buf.length)
    (h : buf ≠ [] ∧ (widthFromOffset (buf.headD 0).toNat = 32 → buf.length = 5)) :
    Terminates (io (REG_Bits.go env f buf)) := by
  cases buf with
  | nil => exact absurd rfl h.1
  | cons ofs rest =>
    rw [List.length_cons] at hmin
    have hbits : (regextract rest ofs.toNat).isSome = true := by
      unfold regextract
      split
      · rw [Option.isSome_map, List.getElem?_eq_getElem (by omega)]
        rfl
      split
      case isTrue hwidth =>
        have hlen : (ofs :: rest).length = 5 := h.2 hwidth
        rw [List.length_cons] at hlen
        exact readU32_isSome rest 0 (by omega)
      · rfl
    refine terminates_io ?_
    show Terminates (ofOption (regextract rest ofs.toNat) >>= _)
    exact terminates_value hbits fun bits =>
      returns_bind (terminates_in _) fun _ _ =>
        returns_bind (terminates_out _ _) fun _ _ => returns_pure trivial

/-- A lambda that begins with the channel: the rest matters when the GUARD lets it pass. -/
theorem leads_channel {ε : Type} {buf : TBytes} (hbuf : buf ≠ []) {line : Nat}
    {k : Nat → Prog Exn (Machine ε) Unit} (hk : ∀ n < 4, Terminates (k n)) (m : Machine ε) :
    ∃ m', Leads (lambdaChannel buf line >>= k) m m' := by
  cases buf with
  | nil => exact absurd rfl hbuf
  | cons ch rest =>
    by_cases hch : ch < 4
    · rw [FailureLemmas.lambdaChannel_pass rest line hch, pure_bind]
      exact leads_of_terminates (hk ch.toNat (toNat_lt_four hch)) m
    · exact ⟨m, (leads_badChannel hch rest line k m m).mpr rfl⟩

theorem channel_exist {buf : TBytes} {coefficients : Nat}
    (h : buf = [] ∨ buf.length = 1 + 4 * coefficients) :
    (∀ a ∈ DAC_Channel.accesses coefficients buf, a.Exists) ↔ buf ≠ [] := by
  cases buf with
  | nil => exact iff_of_false (first_missing _) fun h => h rfl
  | cons dacnum rest =>
    have hlen := h.resolve_left (List.cons_ne_nil _ _)
    refine iff_of_true ?_ (List.cons_ne_nil _ _)
    rw [DAC_Channel.accesses, List.forall_mem_append, dataBytes_exist]
    refine ⟨.inr (by omega), ?_⟩
    by_cases hguard : dacnum < 4
    · simp only [if_pos hguard]
      rw [List.forall_mem_append, dataBytes_exist]
      refine ⟨.inr (by omega), fun a ha => ?_⟩
      obtain rfl := List.eq_of_mem_replicate ha
      exact hguard
    · simp only [if_neg hguard]
      exact fun a ha => absurd ha List.not_mem_nil

theorem all_exist {buf : TBytes} {n : Nat} (hn : n ≤ buf.length / 4) (hdacs : n ≤ MAX_DACs) :
    ∀ a ∈ DAC_All.accesses n buf, a.Exists := by
  intro a ha
  obtain ⟨dacnum, hmem, ha⟩ := List.mem_flatMap.mp ha
  have hlt := List.mem_range.mp hmem
  rcases List.mem_append.mp ha with ha | ha
  · exact dataBytes_exist.mpr (.inr (by omega)) a ha
  · obtain rfl := List.mem_singleton.mp ha
    exact Nat.lt_of_lt_of_le hlt hdacs

end LambdaLemmas

open LambdaLemmas

/-! ## 2. Which payloads are enough -/

/-- The lengths of the data that a lambda is for. -/
def GoLambda.bounds : GoLambda → Nat × Nat
  | .BRD_REBOOT => (8, 8)
  | .REG_ClearBits | .REG_ToggleBits | .REG_SetBits => (2, 5)
  | .DAC_Calibrate1 => (9, 9)
  | .DAC_Offset1 | .DAC_Scale1 => (5, 5)
  | .DAC_OffsetAll | .DAC_ScaleAll => (8, 16)

theorem lambda_bounds {e : TDIdDictEntry} (he : e ∈ DIdDict) {l : GoLambda} (hgo : e.go = some l) :
    e.minLen = l.bounds.1 ∧ e.maxLen = l.bounds.2 := by
  have hall : ∀ e ∈ DIdDict, ∀ l ∈ e.go, e.minLen = l.bounds.1 ∧ e.maxLen = l.bounds.2 := by
    decide +kernel
  exact hall e he l hgo

theorem length_le_of_admits {e : TDIdDictEntry} (he : e ∈ DIdDict) {l : GoLambda}
    (hgo : e.go = some l) {buf : TBytes} (hadmits : e.Admits buf) : buf.length ≤ l.bounds.2 := by
  rw [← (lambda_bounds he hgo).2]
  rcases hadmits with rfl | ⟨-, hmax⟩
  · exact Nat.zero_le _
  · exact hmax

theorem accesses_exist {e : TDIdDictEntry} (he : e ∈ DIdDict) {l : GoLambda} (hgo : e.go = some l)
    {buf : TBytes} (hadmits : e.Admits buf) :
    (∀ a ∈ l.accesses buf, a.Exists) ↔ l.Supplied buf := by
  have hlen := length_le_of_admits he hgo hadmits
  obtain ⟨hmin, hmax⟩ := lambda_bounds he hgo
  rw [TDIdDictEntry.Admits, hmin, hmax] at hadmits
  cases l with
  | BRD_REBOOT =>
    cases buf with
    | nil =>
      refine iff_of_false (fun h => ?_) fun h => h rfl
      rcases dataBytes_exist.mp h with h | h <;> cases h
    | cons b buf =>
      have hlen := hadmits.resolve_left (List.cons_ne_nil _ _)
      refine iff_of_true (dataBytes_exist.mpr (.inr ?_)) (List.cons_ne_nil _ _)
      exact hlen.1
  | REG_ClearBits => exact regBits_exist hadmits
  | REG_ToggleBits => exact regBits_exist hadmits
  | REG_SetBits => exact regBits_exist hadmits
  | DAC_Calibrate1 => exact channel_exist (hadmits.imp_right fun h => Nat.le_antisymm h.2 h.1)
  | DAC_Offset1 => exact channel_exist (hadmits.imp_right fun h => Nat.le_antisymm h.2 h.1)
  | DAC_Scale1 => exact channel_exist (hadmits.imp_right fun h => Nat.le_antisymm h.2 h.1)
  | DAC_OffsetAll =>
    refine iff_of_true (all_exist (Nat.le_refl _) ?_) trivial
    exact Nat.div_le_div_right (c := 4) hlen
  | DAC_ScaleAll => exact iff_of_true (all_exist (Nat.min_le_left ..) (Nat.min_le_right ..)) trivial

/-- A lambda whose accesses do not all exist is undefined. -/
theorem run_undefined {ε : Type} (env : Env ε) (fuel : Nat) {e : TDIdDictEntry} (he : e ∈ DIdDict)
    {l : GoLambda} (hgo : e.go = some l) {buf : TBytes} (hadmits : e.Admits buf)
    (h : ¬∀ a ∈ l.accesses buf, a.Exists) (m : Machine ε) :
    (l.run env fuel buf).exec m = none := by
  rw [accesses_exist he hgo hadmits] at h
  have hmax := length_le_of_admits he hgo hadmits
  cases l with
  | BRD_REBOOT =>
    obtain rfl := Decidable.not_not.mp h
    rfl
  | REG_ClearBits => exact regBits_undefined env clearMask hmax h m
  | REG_ToggleBits => exact regBits_undefined env toggleMask hmax h m
  | REG_SetBits => exact regBits_undefined env setMask hmax h m
  | DAC_Calibrate1 =>
    obtain rfl := Decidable.not_not.mp h
    rfl
  | DAC_Offset1 =>
    obtain rfl := Decidable.not_not.mp h
    rfl
  | DAC_Scale1 =>
    obtain rfl := Decidable.not_not.mp h
    rfl
  | DAC_OffsetAll => exact absurd trivial h
  | DAC_ScaleAll => exact absurd trivial h

/-- A lambda whose accesses all exist comes to an end, where files can be written. -/
theorem run_defined {ε : Type} {env : Env ε} (hwrites : WritesGoOn env) {fuel : Nat}
    (hfuel : 8 ≤ fuel) {e : TDIdDictEntry} (he : e ∈ DIdDict) {l : GoLambda} (hgo : e.go = some l)
    {buf : TBytes} (hadmits : e.Admits buf) (h : ∀ a ∈ l.accesses buf, a.Exists) (m : Machine ε) :
    ∃ m', Leads (l.run env fuel buf) m m' := by
  rw [accesses_exist he hgo hadmits] at h
  have hlen := length_le_of_admits he hgo hadmits
  obtain ⟨hmin, hmax⟩ := lambda_bounds he hgo
  rw [TDIdDictEntry.Admits, hmin, hmax] at hadmits
  cases l with
  | BRD_REBOOT =>
    have hlen : 8 ≤ buf.length := (hadmits.resolve_left h).1
    refine leads_of_terminates (terminates_value (readU32_isSome buf 0 (by omega)) fun low =>
      terminates_value (readU32_isSome buf 4 (by omega)) fun high => ?_) m
    split
    · exact fun m _ => ⟨_, _, rfl, trivial, trivial⟩
    · exact returns_pure trivial
  | REG_ClearBits =>
    exact leads_of_terminates (regBits_terminates env clearMask (hadmits.resolve_left h.1).1 h) m
  | REG_ToggleBits =>
    exact leads_of_terminates (regBits_terminates env toggleMask (hadmits.resolve_left h.1).1 h) m
  | REG_SetBits =>
    exact leads_of_terminates (regBits_terminates env setMask (hadmits.resolve_left h.1).1 h) m
  | DAC_Calibrate1 =>
    have hlen : 9 ≤ buf.length := (hadmits.resolve_left h).1
    refine leads_channel h (fun n hn => ?_) m
    exact terminates_value (readU32_isSome buf 1 (by omega)) fun offset =>
      terminates_value (readU32_isSome buf 5 (by omega)) fun scale =>
        returns_bind (terminates_setDacScale hn scale) fun _ _ =>
          returns_bind (terminates_setDacOffset hn offset) fun _ _ =>
            returns_bind (terminates_writeConfigU32 hwrites hfuel _ _) fun _ _ =>
              returns_bind (terminates_writeConfigU32 hwrites hfuel _ _) fun _ _ =>
                returns_pure trivial
  | DAC_Offset1 =>
    have hlen : 5 ≤ buf.length := (hadmits.resolve_left h).1
    refine leads_channel h (fun n hn => ?_) m
    exact terminates_value (readU32_isSome buf 1 (by omega)) fun offset =>
      terminates_dacOffset hwrites hfuel hn offset
  | DAC_Scale1 =>
    have hlen : 5 ≤ buf.length := (hadmits.resolve_left h).1
    refine leads_channel h (fun n hn => ?_) m
    exact terminates_value (readU32_isSome buf 1 (by omega)) fun scale =>
      terminates_dacScale hwrites hfuel hn scale
  | DAC_OffsetAll =>
    refine leads_of_terminates (terminates_forM fun i hi => ?_) m
    have hi := List.mem_range.mp hi
    have hdacs : buf.length / 4 ≤ 4 := Nat.div_le_div_right (c := 4) hlen
    exact terminates_value (readU32_isSome buf (i * 4) (by omega)) fun v =>
      terminates_dacOffset hwrites hfuel (by omega) v
  | DAC_ScaleAll =>
    refine leads_of_terminates (terminates_forM fun i hi => ?_) m
    have hi := List.mem_range.mp hi
    exact terminates_value (readU32_isSome buf (i * 4) (by omega)) fun v =>
      terminates_dacScale hwrites hfuel (by omega) v

/-- An accepted item is run without reading outside its data, or indexing outside the arrays,
when its lambda is supplied with all it reads. -/
theorem lambdaAccesses_exist_iff {pf : Platform} {g g' : Globals} {bytes : TBytes}
    {item : TDataItem} (h : Accepts pf g bytes item g') {l : GoLambda}
    (hgo : (DIdDict.find item.DId).bind TDIdDictEntry.go = some l) :
    (∀ a ∈ item.lambdaAccesses, a.Exists) ↔ l.Supplied item.Data := by
  obtain ⟨w, xs, -, ⟨⟨e, hfind, hadmits, hrun⟩, hid⟩⟩ := accepts_iff.mp h
  rw [hid, hfind] at hgo
  have hmem := (find_some hfind).1
  have hraw := lambda_raw hmem (Option.isSome_of_eq_some hgo)
  have hdata : item.Data = w.data := by
    rw [hraw] at hrun
    exact congrArg TItemBody.Data (Except.ok.inj (congrArg Prod.fst (Option.some.inj hrun))).symm
  rw [TDataItem.lambdaAccesses, hid, hfind, hgo, hdata]
  exact accesses_exist hmem hgo hadmits

/-- `REG_SetBits` on an 8-bit register, with one byte of bits. -/
def exSetBits : TDataItem where
  DId := DataItemIds.REG_SetBits
  params := .TDataItemRaw
  Data := [0x00, 0x01]
  rawBytes := [0x00, 0x01]

theorem setBits_accesses_exist :
    Accepts exPlatform exGlobals (itemBytes DataItemIds.REG_SetBits [0x00, 0x01]) exSetBits
        exGlobals ∧
      ∀ a ∈ exSetBits.lambdaAccesses, a.Exists := by
  have haccepts : Accepts exPlatform exGlobals (itemBytes DataItemIds.REG_SetBits [0x00, 0x01])
      exSetBits exGlobals := rfl
  exact ⟨haccepts, (lambdaAccesses_exist_iff haccepts (l := .REG_SetBits) rfl).mpr
    ⟨List.cons_ne_nil _ _, by decide⟩⟩

/-- `REG_ClearBits` on a 32-bit register, with one byte of bits. -/
def exShortBits : TDataItem where
  DId := DataItemIds.REG_ClearBits
  params := .TDataItemRaw
  Data := [0x30, 0x01]
  rawBytes := [0x30, 0x01]

theorem short_bits_read_outside :
    Accepts exPlatform exGlobals (itemBytes DataItemIds.REG_ClearBits [0x30, 0x01]) exShortBits
      exGlobals ∧ ¬∀ a ∈ exShortBits.lambdaAccesses, a.Exists :=
  ⟨rfl, by decide⟩

end EnetTcp
