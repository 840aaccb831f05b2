import EnetTcp.Wire

/-!
# What the parser does

One spec for each function of the reading side, each an equivalence between a
run of the function and a description in terms of `WireItem`.

* `construct_stateless`: only an output item of the DAC reads a global when it
  is built, and only a claim on the ADC stream changes one.
* `fromBytes_item`: the factory on a complete item.
* `parsePayload_iff`: a run of the loop is a run of items that are all built
  (`Built`) up to a place where the loop ends (`Stops`).
* `FromBytes_exec`, `FromBytes_iff`: what `FromBytes` adds to the loop.
-/

namespace EnetTcp

open Prog

variable {pf : Platform}

/-! ## 1. Constructors -/

namespace ConstructLemmas

variable {σ : Type}

theorem stateless_guard (b : Bool) (rc : TError) (info : UInt32) (site : GuardSite) :
    Stateless (GUARD b rc info site : Prog Exn σ Unit) :=
  stateless_ite (stateless_pure _) (stateless_throw _)

theorem stateless_write1 (buf : TBytes) :
    Stateless (TREG_Write1.ctor buf : Prog Exn σ (List REG_Write)) :=
  stateless_bind (stateless_guard ..) fun _ =>
  stateless_bind (stateless_ofOption _) fun _ =>
  stateless_bind (stateless_guard ..) fun _ =>
  stateless_bind (stateless_guard ..) fun _ =>
  stateless_bind (stateless_ofOption _) fun _ => stateless_pure _

theorem stateless_range1 (bytes : TBytes) :
    Stateless (TDAC_Range1.ctor bytes : Prog Exn σ (DAC_RangeParams × Bool)) := by
  cases bytes with
  | nil => exact stateless_pure _
  | cons ch bytes =>
    refine stateless_bind (stateless_guard ..) fun _ => stateless_ite ?_ (stateless_pure _)
    refine stateless_bind (stateless_ofOption _) fun rangeCode => ?_
    exact stateless_ite (stateless_pure _) (stateless_pure _)

theorem stateless_uploadFileName (buf : TBytes) :
    Stateless (TSYS_UploadFileName.ctor pf buf : Prog Exn σ TBytes) := by
  have habs : Stateless (absolutePath pf.currentPath buf : Prog Exn σ TBytes) := by
    unfold absolutePath
    split
    · exact stateless_throw _
    · exact stateless_ite (stateless_pure _) (stateless_ite (stateless_pure _) (stateless_pure _))
  refine stateless_bind (stateless_ite (stateless_pure _) ?_) fun _ => stateless_pure _
  exact stateless_bind habs fun _ => stateless_ite (stateless_pure _) (stateless_pure _)

end ConstructLemmas

open ConstructLemmas

/-- The classes whose constructor meets a global. -/
def ItemClass.usesGlobals : ItemClass → Bool
  | .TDAC_Output | .TDAC_OutputV | .TADC_StreamStart => true
  | _ => false

/-- All other constructors look at their bytes only. -/
theorem construct_stateless {cls : ItemClass} (h : cls.usesGlobals = false) (data : TBytes) :
    Stateless (construct pf cls data) := by
  cases cls
  case TDAC_Output | TDAC_OutputV | TADC_StreamStart => cases h
  case TREG_Write1 => exact stateless_bind (stateless_write1 data) fun _ => stateless_pure _
  case TDAC_Range1 => exact stateless_bind (stateless_range1 data) fun _ => stateless_pure _
  case TADC_BaseClock | TBRD_GetNumberOfAdcChannels =>
    exact stateless_bind (stateless_bind (stateless_guard ..) fun _ => stateless_pure _)
      fun _ => stateless_pure _
  case TSYS_UploadFileName =>
    exact stateless_bind (stateless_uploadFileName data) fun _ => stateless_pure _
  all_goals exact stateless_pure _

/-- The channel that an output item names. -/
def dacChannelOf (data : TBytes) : Fin MAX_DACs := Fin.ofNat _ (data.headD 0).toNat

/-- The settings that an output item on `data` is scaled with. Counts do without
the range, and data of another size does without any. -/
def dacView (data : TBytes) (c : TConfig) : FloatBits × FloatBits × UInt32 :=
  let ch := dacChannelOf data
  if data.headD 0 < 4 then
    if data.length = 3 then (c.dacScaleCoefficients[ch], c.dacOffsetCoefficients[ch], 0)
    else if data.length = 5 then
      (c.dacScaleCoefficients[ch], c.dacOffsetCoefficients[ch], c.dacRanges[ch])
    else (0, 0, 0)
  else (0, 0, 0)

open ConstructLemmas in
/-- The constructor of an output item reads no other settings. -/
theorem dacOutput_exec (pf : Platform) (lineChannel lineSize : Nat) (data : TBytes) :
    ∃ f : FloatBits × FloatBits × UInt32 → Option (Except Exn (DAC_OutputParams × Bool)),
      ∀ g, (DAC_Output.parseBytes pf lineChannel lineSize data).exec g =
        (f (dacView data g.Config)).map (·, g) := by
  let b0 := data.headD 0
  -- what follows the look at `Config`, as a function of what was seen there
  let scaled (v : FloatBits × FloatBits × UInt32) : Prog Exn Globals (DAC_OutputParams × Bool) :=
    if data.length = 3 then do
      let inCounts ← Prog.ofOption (readU16 data 1)
      return ({ dacChannel := b0, dacCounts := scaleCounts pf inCounts v.1 v.2.1 }, true)
    else if data.length = 5 then do
      let volts ← Prog.ofOption (readU32 data 1)
      let countsNom ← Prog.ofOption
        ((DacRangeIndexFromCode v.2.2).map fun ri => voltsToCounts pf ri (Floats.widen volts))
      return ({ dacChannel := b0, dacCounts := scaleCounts pf countsNom v.1 v.2.1 }, true)
    else do
      GUARD (decide (data.length = 1)) ERR_DId_BAD_PARAM (UInt32.ofNat data.length)
        (TDAC_Output.site lineSize)
      return ({ dacChannel := b0 }, false)
  have hscaled (v) : Stateless (scaled v) := by
    refine stateless_ite ?_ (stateless_ite ?_ ?_)
    · exact stateless_bind (stateless_ofOption _) fun _ => stateless_pure _
    · exact stateless_bind (stateless_ofOption _) fun _ =>
        stateless_bind (stateless_ofOption _) fun _ => stateless_pure _
    · exact stateless_bind (stateless_guard ..) fun _ => stateless_pure _
  choose f hf using hscaled
  cases hguard : data.isEmpty || decide (b0 < 4)
  case false =>
    refine ⟨fun _ => some (.error (.logicError (guardWhat (TDAC_Output.site lineChannel)
      ERR_DId_BAD_PARAM b0.toUInt32))), fun g => ?_⟩
    rw [DAC_Output.parseBytes, exec_bind, hguard]
    rfl
  case true =>
    refine ⟨f, fun g => ?_⟩
    have hseen : scaled (g.Config.dacScaleCoefficients[dacChannelOf data],
        g.Config.dacOffsetCoefficients[dacChannelOf data], g.Config.dacRanges[dacChannelOf data]) =
        scaled (dacView data g.Config) := by
      have hchannel (hlen : data.length ≠ 0) : data.headD 0 < 4 := by
        rw [List.isEmpty_eq_false_iff.mpr (List.length_pos_iff.mp (Nat.pos_of_ne_zero hlen)),
          Bool.false_or] at hguard
        exact of_decide_eq_true hguard
      unfold dacView
      by_cases h3 : data.length = 3
      · have hlt := hchannel (by omega)
        simp only [scaled, hlt, h3, if_true]
      · by_cases h5 : data.length = 5
        · have hlt := hchannel (by omega)
          rw [if_pos hlt, if_neg h3, if_pos h5]
        · simp only [scaled, h3, h5, if_false]
    rw [DAC_Output.parseBytes, exec_bind, hguard, ← hf, ← hseen]
    rfl

/-- Four bytes claim the ADC stream when it is free. -/
theorem streamStart_exec (data : TBytes) (g : Globals) :
    (construct pf .TADC_StreamStart data).exec g =
      if data.length = 4 ∧ g.AdcStreamingConnection ≠ -1 then
        some (.error (.logicError (text "ADC Busy already on Connection: " ++
          intToDecimal g.AdcStreamingConnection.toInt)), g)
      else some (.ok { params := .TADC_StreamStart, rawBytes := data },
        if data.length = 4 then
          { g with AdcStreamingConnection := (ReadU32LE data 0).toInt32 }
        else g) := by
  have hctor : (TADC_StreamStart.ctor data).exec g =
      if data.length = 4 ∧ g.AdcStreamingConnection ≠ -1 then
        some (.error (.logicError (text "ADC Busy already on Connection: " ++
          intToDecimal g.AdcStreamingConnection.toInt)), g)
      else some (.ok (), if data.length = 4 then
          { g with AdcStreamingConnection := (ReadU32LE data 0).toInt32 } else g) := by
    by_cases hlen : data.length = 4
    · obtain ⟨b0, b1, b2, b3, rfl⟩ := List.length_eq_four.mp hlen
      by_cases hfree : g.AdcStreamingConnection = -1
      · simp [TADC_StreamStart.ctor, hfree, ReadU32LE, readU32]
      · simp [TADC_StreamStart.ctor, hfree, readU32]
    · simp [TADC_StreamStart.ctor, hlen]
  have hitem : construct pf .TADC_StreamStart data =
      TADC_StreamStart.ctor data >>= fun _ =>
        return { params := .TADC_StreamStart, rawBytes := data } := rfl
  rw [hitem, exec_bind, hctor]
  split <;> rfl

/-- The constructor of both DAC output classes: the parsed parameters in the item. -/
theorem dacItem_exec {cls : ItemClass} (hcls : cls = .TDAC_Output ∨ cls = .TDAC_OutputV)
    (pf : Platform) (data : TBytes) :
    ∃ f : FloatBits × FloatBits × UInt32 → Option (Except Exn TItemBody),
      ∀ g, (construct pf cls data).exec g =
        (f (dacView data g.Config)).map (·, g) := by
  have hmap (lineChannel lineSize : Nat) (item : DAC_OutputParams × Bool → TItemBody) :
      ∃ f : FloatBits × FloatBits × UInt32 → Option (Except Exn TItemBody), ∀ g,
        (DAC_Output.parseBytes pf lineChannel lineSize data >>= fun p => return item p).exec g =
          (f (dacView data g.Config)).map (·, g) := by
    obtain ⟨f, hf⟩ := dacOutput_exec pf lineChannel lineSize data
    refine ⟨fun v => (f v).map (Except.map item), fun g => ?_⟩
    rw [exec_bind, hf]
    show _ = ((f (dacView data g.Config)).map (Except.map item)).map (·, g)
    cases f (dacView data g.Config) with
    | none => rfl
    | some r => cases r <;> rfl
  rcases hcls with rfl | rfl
  · exact hmap 56 93 _
  · exact hmap 137 174 _

/-- A constructor leaves the globals alone, but for a claim on a free ADC stream. -/
theorem construct_globals {cls : ItemClass} {data : TBytes} {g g' : Globals}
    {r : Except Exn TItemBody} (h : (construct pf cls data).exec g = some (r, g')) :
    g' = g ∨ ((∃ body, r = .ok body) ∧ cls = .TADC_StreamStart ∧ data.length = 4 ∧
      g.AdcStreamingConnection = -1 ∧
      g' = { g with AdcStreamingConnection := (ReadU32LE data 0).toInt32 }) := by
  have hdac (hcls : cls = .TDAC_Output ∨ cls = .TDAC_OutputV) : g' = g := by
    obtain ⟨f, hf⟩ := dacItem_exec hcls pf data
    rw [hf, Option.map_eq_some_iff] at h
    obtain ⟨_, -, hr⟩ := h
    exact (congrArg Prod.snd hr).symm
  by_cases huses : cls.usesGlobals = false
  · exact .inl ((construct_stateless huses data).exec_eq h).1
  · cases cls
    case TDAC_Output => exact .inl (hdac (.inl rfl))
    case TDAC_OutputV => exact .inl (hdac (.inr rfl))
    case TADC_StreamStart =>
      rw [streamStart_exec] at h
      split at h
      case isTrue =>
        cases h
        exact .inl rfl
      case isFalse hfree =>
        cases h
        by_cases hlen : data.length = 4
        · rw [if_pos hlen]
          exact .inr ⟨⟨_, rfl⟩, rfl, hlen, Decidable.not_not.mp fun hne => hfree ⟨hlen, hne⟩, rfl⟩
        · rw [if_neg hlen]
          exact .inl rfl
    all_goals exact absurd rfl huses

theorem construct_config {cls : ItemClass} {data : TBytes} {g g' : Globals}
    {r : Except Exn TItemBody} (h : (construct pf cls data).exec g = some (r, g')) :
    g'.Config = g.Config := by
  rcases construct_globals h with rfl | ⟨-, -, -, -, rfl⟩ <;> rfl

theorem construct_throw {cls : ItemClass} {data : TBytes} {g g' : Globals} {e : Exn}
    (h : (construct pf cls data).exec g = some (.error e, g')) : g' = g := by
  rcases construct_globals h with rfl | ⟨⟨_, hok⟩, -⟩
  · rfl
  · cases hok

/-! ## 2. The factory -/

/-- The lengths that the factory takes: an empty payload always, any other within the bounds. -/
def TDIdDictEntry.Admits (e : TDIdDictEntry) (data : TBytes) : Prop :=
  data = [] ∨ (e.minLen ≤ data.length ∧ data.length ≤ e.maxLen)

instance (e : TDIdDictEntry) (data : TBytes) : Decidable (e.Admits data) :=
  inferInstanceAs (Decidable (_ ∨ _))

/-- The item `w` is built from the globals `g`. -/
structure WireItem.Builds (pf : Platform) (w : WireItem) (g : Globals) (item : TDataItem)
    (g' : Globals) : Prop where
  entry : ∃ e, DIdDict.find w.DId = some e ∧ e.Admits w.data ∧
    (construct pf e.Construct w.data).exec g = some (.ok item.toTItemBody, g')
  id : item.DId = w.DId

/-- The length check of the factory, the exception for an empty payload included. -/
theorem validate_eq (e : TDIdDictEntry) (w : WireItem) :
    (if w.data.length = 0 then ERR_SUCCESS else validateDataItemPayload e w.data) =
      if e.Admits w.data then ERR_SUCCESS else ERR_MSG_PAYLOAD_DATAITEM_LEN_MISMATCH := by
  have hlen : w.data.length % 65536 = w.data.length := Nat.mod_eq_of_lt w.fits
  simp only [validateDataItemPayload, TDIdDictEntry.Admits, hlen, List.length_eq_zero_iff]
  by_cases hnil : w.data = []
  · simp only [hnil, if_true, true_or]
  · simp only [hnil, if_false, false_or]

/-- What the factory makes of a complete item with a known id. -/
theorem fromBytes_item {w : WireItem} {e : TDIdDictEntry} (he : DIdDict.find w.DId = some e)
    (xs : TBytes) :
    fromBytes pf (w.bytes ++ xs) =
      if e.Admits w.data then do
        let body ← construct pf e.Construct w.data
        return ({ body with DId := w.DId }, ERR_SUCCESS)
      else return ({ params := .TDataItemNYI, DId := DataItemIds.INVALID },
        ERR_MSG_PAYLOAD_DATAITEM_LEN_MISMATCH) := by
  have hlong : (decide (sizeofTDataItemHeader ≤ (w.bytes ++ xs).length)) = true := by
    rw [List.length_append, WireItem.length_bytes, sizeofTDataItemHeader]
    exact decide_eq_true (by omega)
  have hvalid : isValidDataItemID w.DId = true := by rw [isValidDataItemID, he]; rfl
  have hall : ¬(w.bytes ++ xs).length < sizeofTDataItemHeader + w.data.length := by
    rw [List.length_append, WireItem.length_bytes, sizeofTDataItemHeader]
    omega
  have hdata : ((w.bytes ++ xs).drop sizeofTDataItemHeader).take w.data.length = w.data := by
    rw [w.bytes_eq, List.append_assoc, List.append_assoc]
    exact List.take_left
  unfold fromBytes
  rw [GuardLemmas.guard_pass hlong, w.readU16_id, w.readU16_length]
  apply ext_exec
  intro g
  simp only [exec_bind, exec_pure, exec_ofOption_some, Option.bind_some, resume_ok, hvalid,
    GuardLemmas.guard_pass,
    he, w.toNat_lengthField, if_neg hall, hdata, validate_eq]
  by_cases hadmits : e.Admits w.data
  · simp only [if_pos hadmits, ne_eq, not_true_eq_false, if_false, (find_some he).2]
  · have hne : ERR_MSG_PAYLOAD_DATAITEM_LEN_MISMATCH ≠ ERR_SUCCESS := by decide
    simp only [if_neg hadmits, if_pos hne]

/-- The text of the exception for an id that the dictionary does not have. -/
def unknownIdWhat (id : DataItemIds) : TBytes :=
  guardWhat (fromBytesSite 545) ERR_DId_INVALID id.toUInt32

theorem fromBytes_unknown {bytes : TBytes} {id : DataItemIds} (hlen : 4 ≤ bytes.length)
    (hid : readU16 bytes 0 = some id) (hfind : DIdDict.find id = none) :
    fromBytes pf bytes = throw (.logicError (unknownIdWhat id)) := by
  have hinvalid : isValidDataItemID id = false := by rw [isValidDataItemID, hfind]; rfl
  unfold fromBytes
  rw [GuardLemmas.guard_pass (decide_eq_true hlen), hid]
  apply ext_exec
  intro g
  simp only [exec_bind, exec_pure, exec_ofOption_some, Option.bind_some, resume_ok,
    GuardLemmas.guard_exec, hinvalid, Bool.false_eq_true, if_false, resume_error]
  rfl

theorem fromBytes_cut {bytes : TBytes} {id l : UInt16} {e : TDIdDictEntry}
    (hlen : 4 ≤ bytes.length) (hid : readU16 bytes 0 = some id) (hl : readU16 bytes 2 = some l)
    (he : DIdDict.find id = some e) (hcut : bytes.length < 4 + l.toNat) (g : Globals) :
    (fromBytes pf bytes).exec g = none := by
  have hvalid : isValidDataItemID id = true := by rw [isValidDataItemID, he]; rfl
  unfold fromBytes
  rw [GuardLemmas.guard_pass (decide_eq_true hlen), hid, hl]
  simp only [exec_bind, exec_pure, exec_ofOption_some, Option.bind_some, resume_ok, hvalid,
    GuardLemmas.guard_pass, he, if_pos hcut, exec_undefined, Option.bind_none]

/-- The header at the front of a string, and how much of its item is there. -/
theorem header_cases {bytes : TBytes} {l : UInt16} (hl : readU16 bytes 2 = some l) :
    4 ≤ bytes.length ∧ ∃ id, readU16 bytes 0 = some id ∧
      (bytes.length < 4 + l.toNat ∨
        ∃ w xs, bytes = WireItem.bytes w ++ xs ∧ w.DId = id ∧ w.data.length = l.toNat) := by
  match bytes, hl with
  | d0 :: d1 :: l0 :: l1 :: xs, hl =>
    have hl' : l = UInt16.ofNat (Bytes.ofLe [l0, l1]) := by
      have hread := (readU16_append [d0, d1] (l0 :: l1 :: xs) 0).trans (readU16_cons l0 l1 xs)
      exact Option.some.inj (hl.symm.trans hread)
    have hnat : l.toNat = Bytes.ofLe [l0, l1] := by
      rw [hl', UInt16.toNat_ofNat', Nat.mod_eq_of_lt (WireLemmas.ofLe_pair_lt l0 l1)]
    refine ⟨by simp only [List.length_cons]; omega, _, readU16_cons .., ?_⟩
    by_cases hle : Bytes.ofLe [l0, l1] ≤ xs.length
    · refine .inr ⟨_, _, WireItem.eq_of_peel (if_pos hle), rfl, ?_⟩
      rw [List.length_take_of_le hle, hnat]
    · refine .inl ?_
      simp only [List.length_cons]
      omega

/-! ## 3. The loop -/

/-- The items `ws` are built one after the other, from the globals `g` on. -/
inductive Built (pf : Platform) : Globals → List WireItem → List TDataItem → Globals → Prop
  | nil {g : Globals} : Built pf g [] [] g
  | cons {g g₁ g₂ : Globals} {w : WireItem} {ws : List WireItem} {item : TDataItem}
      {items : List TDataItem} :
      w.Builds pf g item g₁ → Built pf g₁ ws items g₂ → Built pf g (w :: ws) (item :: items) g₂

/-- The item is a claim on the ADC stream for a connection. -/
def WireItem.ClaimsStream (w : WireItem) : Prop :=
  w.DId = DataItemIds.ADC_StreamStart ∧ w.data.length = 4 ∧ (ReadU32LE w.data 0).toInt32 ≠ -1

/-- One id of the dictionary has the class that claims the stream. -/
theorem streamStart_entry {e : TDIdDictEntry} (he : e ∈ DIdDict) :
    e.Construct = .TADC_StreamStart ↔ e.DId = DataItemIds.ADC_StreamStart := by
  revert e
  decide +kernel

/-- Two ids have a class that looks at the settings of the DAC. -/
theorem dacOutput_entry {e : TDIdDictEntry} (he : e ∈ DIdDict) :
    e.Construct = .TDAC_Output ∨ e.Construct = .TDAC_OutputV ↔
      e.DId = DataItemIds.DAC_Output1 ∨ e.DId = DataItemIds.DAC_Output1V := by
  revert e
  decide +kernel

/-- Building an item changes the globals when it claims the stream, and only then. -/
theorem WireItem.Builds.globals {w : WireItem} {g g' : Globals} {item : TDataItem}
    (h : w.Builds pf g item g') :
    (¬w.ClaimsStream ∧ g' = g) ∨
      (w.ClaimsStream ∧ g.AdcStreamingConnection = -1 ∧ g'.AdcStreamingConnection ≠ -1) := by
  obtain ⟨⟨e, he, -, hrun⟩, -⟩ := h
  obtain ⟨hmem, hid⟩ := find_some he
  by_cases hclaims : w.ClaimsStream
  · obtain ⟨hstart, hlen, hcid⟩ := hclaims
    have hcls := (streamStart_entry hmem).mpr (hid.trans hstart)
    rw [hcls, streamStart_exec] at hrun
    split at hrun
    · cases hrun
    · rename_i hfree
      simp only [Option.some.injEq, Prod.mk.injEq] at hrun
      obtain ⟨-, rfl⟩ := hrun
      exact .inr ⟨⟨hstart, hlen, hcid⟩,
        Decidable.not_not.mp fun hne => hfree ⟨hlen, hne⟩, hcid⟩
  · refine .inl ⟨hclaims, ?_⟩
    rcases construct_globals hrun with hsame | ⟨-, hcls, hlen, hfree, hset⟩
    · exact hsame
    · have hcid : (ReadU32LE w.data 0).toInt32 = -1 := Decidable.not_not.mp fun hne =>
        hclaims ⟨hid.symm.trans ((streamStart_entry hmem).mp hcls), hlen, hne⟩
      rw [hset, hcid, ← hfree]

/-- The same for a run of items. A second claim is never built. -/
theorem Built.globals {g g' : Globals} {ws : List WireItem} {items : List TDataItem}
    (h : Built pf g ws items g') :
    ((∀ w ∈ ws, ¬w.ClaimsStream) ∧ g' = g) ∨
      ((∃ w ∈ ws, w.ClaimsStream) ∧ g.AdcStreamingConnection = -1 ∧
        g'.AdcStreamingConnection ≠ -1) := by
  induction h with
  | nil => exact .inl ⟨fun w hw => absurd hw List.not_mem_nil, rfl⟩
  | @cons g g₁ g₂ w ws item items hw _ ih =>
    rcases hw.globals with ⟨hno, rfl⟩ | ⟨hclaims, hfree, htaken⟩
    · rcases ih with ⟨hnone, rfl⟩ | ⟨⟨v, hv, hclaims⟩, hfree, htaken⟩
      · exact .inl ⟨List.forall_mem_cons.mpr ⟨hno, hnone⟩, rfl⟩
      · exact .inr ⟨⟨v, List.mem_cons_of_mem w hv, hclaims⟩, hfree, htaken⟩
    · rcases ih with ⟨-, rfl⟩ | ⟨-, hfree', -⟩
      · exact .inr ⟨⟨w, List.mem_cons_self, hclaims⟩, hfree, htaken⟩
      · exact absurd hfree' htaken

theorem Built.config {g g' : Globals} {ws : List WireItem} {items : List TDataItem}
    (h : Built pf g ws items g') : g'.Config = g.Config := by
  induction h with
  | nil => rfl
  | cons hw _ ih =>
    obtain ⟨⟨_, -, -, hrun⟩, -⟩ := hw
    rw [ih, construct_config hrun]

/-- The item in front of `bytes` announces more than the `n` bytes of payload to
go, or a length that its id does not have. -/
inductive BadLength : TBytes → Nat → Prop
  | overlong {bytes : TBytes} {n : Nat} {l : UInt16} :
      4 ≤ n → readU16 bytes 2 = some l → n < 4 + l.toNat → BadLength bytes n
  | bounds {w : WireItem} {e : TDIdDictEntry} {xs : TBytes} {n : Nat} :
      DIdDict.find w.DId = some e → ¬e.Admits w.data →
      BadLength (w.bytes ++ xs) (w.bytes.length + n)

/-- The loop ends in front of `bytes` with `n` bytes of payload to go: it leaves
the result code or throws. -/
inductive Stops (pf : Platform) (g : Globals) : TBytes → Nat → Except Exn TError → Prop
  | leftover {bytes : TBytes} {n : Nat} : n < 4 → Stops pf g bytes n (.ok ERR_SUCCESS)
  | badLength {bytes : TBytes} {n : Nat} :
      BadLength bytes n → Stops pf g bytes n (.ok ERR_MSG_PAYLOAD_DATAITEM_LEN_MISMATCH)
  | unknown {bytes : TBytes} {n : Nat} {id l : UInt16} :
      4 ≤ n → readU16 bytes 0 = some id → readU16 bytes 2 = some l → 4 + l.toNat ≤ n →
      DIdDict.find id = none → Stops pf g bytes n (.error (.logicError (unknownIdWhat id)))
  | refused {w : WireItem} {e : TDIdDictEntry} {xs : TBytes} {n : Nat} {x : Exn} :
      DIdDict.find w.DId = some e → e.Admits w.data →
      (construct pf e.Construct w.data).exec g = some (.error x, g) →
      Stops pf g (w.bytes ++ xs) (w.bytes.length + n) (.error x)

namespace ParseLemmas

theorem parseItems_leftover {n : Nat} (h : n < 4) (fuel : Nat) (bytes : TBytes)
    (acc : List TDataItem) : parseItems pf (fuel + 1) bytes n acc = pure (acc, ERR_SUCCESS) := by
  rw [parseItems, if_neg (Nat.not_le_of_lt h)]

theorem parseItems_overlong {bytes : TBytes} {n : Nat} {l : UInt16} (hn : 4 ≤ n)
    (hl : readU16 bytes 2 = some l) (hover : n < 4 + l.toNat) (fuel : Nat)
    (acc : List TDataItem) :
    parseItems pf (fuel + 1) bytes n acc = pure (acc, ERR_MSG_PAYLOAD_DATAITEM_LEN_MISMATCH) := by
  rw [parseItems, if_pos hn, hl]
  apply ext_exec
  intro g
  simp only [exec_bind, exec_ofOption_some, Option.bind_some, resume_ok, if_pos hover, exec_pure]

/-- A round that gets as far as the factory. -/
theorem parseItems_round {bytes : TBytes} {n : Nat} {l : UInt16} (hn : 4 ≤ n)
    (hl : readU16 bytes 2 = some l) (hfit : 4 + l.toNat ≤ n) (fuel : Nat) (acc : List TDataItem) :
    parseItems pf (fuel + 1) bytes n acc =
      fromBytes pf bytes >>= fun p =>
        if p.2 ≠ ERR_SUCCESS then return (acc, p.2)
        else parseItems pf fuel (bytes.drop (4 + l.toNat)) (n - (4 + l.toNat)) (acc ++ [p.1]) := by
  rw [parseItems, if_pos hn, hl]
  apply ext_exec
  intro g
  simp only [exec_bind, exec_ofOption_some, Option.bind_some, resume_ok,
    if_neg (Nat.not_lt_of_le hfit), sizeofTDataItemHeader]

/-- A round on a complete item. -/
theorem parseItems_wire (w : WireItem) (xs : TBytes) (n fuel : Nat) (acc : List TDataItem) :
    parseItems pf (fuel + 1) (w.bytes ++ xs) (w.bytes.length + n) acc =
      fromBytes pf (w.bytes ++ xs) >>= fun p =>
        if p.2 ≠ ERR_SUCCESS then return (acc, p.2)
        else parseItems pf fuel xs n (acc ++ [p.1]) := by
  have hlen := w.length_bytes
  rw [parseItems_round (by omega) (w.readU16_length xs) (by rw [w.toNat_lengthField]; omega),
    w.toNat_lengthField, ← hlen, List.drop_left, Nat.add_sub_cancel_left]

theorem parseItems_builds {w : WireItem} {g g' : Globals} {item : TDataItem}
    (h : w.Builds pf g item g') (xs : TBytes) (n fuel : Nat) (acc : List TDataItem) :
    (parseItems pf (fuel + 1) (w.bytes ++ xs) (w.bytes.length + n) acc).exec g =
      (parseItems pf fuel xs n (acc ++ [item])).exec g' := by
  obtain ⟨⟨e, he, hadmits, hrun⟩, hid⟩ := h
  obtain ⟨body, id⟩ := item
  obtain rfl : id = w.DId := hid
  rw [parseItems_wire, fromBytes_item he, if_pos hadmits]
  simp only [exec_bind, hrun, Option.bind_some, resume_ok, exec_pure, ne_eq, not_true_eq_false,
    if_false]

/-- One round that ends the loop. -/
theorem parseItems_stops {g : Globals} {bytes : TBytes} {n : Nat} {c : Except Exn TError}
    (h : Stops pf g bytes n c) (fuel : Nat) (acc : List TDataItem) :
    (parseItems pf (fuel + 1) bytes n acc).exec g = some (c.map fun code => (acc, code), g) := by
  cases h with
  | leftover hn => rw [parseItems_leftover hn]; rfl
  | badLength hbad =>
    cases hbad with
    | overlong hn hl hover => rw [parseItems_overlong hn hl hover]; rfl
    | bounds he hbounds =>
      rw [parseItems_wire, fromBytes_item he, if_neg hbounds]
      rfl
  | unknown hn hid hl hfit hfind =>
    obtain ⟨hlen, -⟩ := header_cases hl
    rw [parseItems_round hn hl hfit, fromBytes_unknown hlen hid hfind]
    rfl
  | refused he hadmits hrun =>
    rw [parseItems_wire, fromBytes_item he, if_pos hadmits]
    simp only [exec_bind, hrun, Option.bind_some, resume_error]
    rfl

/-- A run of the loop goes over items that are built and then stops. -/
theorem parseItems_run {fuel : Nat} {bytes : TBytes} {n : Nat} {acc : List TDataItem}
    {g g' : Globals} {r : Except Exn (List TDataItem × TError)}
    (h : (parseItems pf fuel bytes n acc).exec g = some (r, g')) :
    ∃ ws items rest m c, bytes = itemFormat.encodeAll ws ++ rest ∧
      n = (itemFormat.encodeAll ws).length + m ∧ Built pf g ws items g' ∧
      Stops pf g' rest m c ∧ r = c.map fun code => (acc ++ items, code) := by
  induction fuel generalizing bytes n acc g with
  | zero => cases h
  | succ fuel ih =>
    have hstop (c : Except Exn TError) (hc : Stops pf g bytes n c) :
        ∃ ws items rest m c, bytes = itemFormat.encodeAll ws ++ rest ∧
          n = (itemFormat.encodeAll ws).length + m ∧ Built pf g ws items g' ∧
          Stops pf g' rest m c ∧ r = c.map fun code => (acc ++ items, code) := by
      rw [parseItems_stops hc] at h
      cases h
      exact ⟨[], [], bytes, n, c, rfl, (Nat.zero_add n).symm, .nil, hc, by rw [List.append_nil]⟩
    by_cases hn : n < 4
    · exact hstop _ (.leftover hn)
    cases hl : readU16 bytes 2 with
    | none =>
      rw [parseItems, if_pos (Nat.le_of_not_lt hn), hl] at h
      cases h
    | some l =>
      by_cases hfit : n < 4 + l.toNat
      · exact hstop _ (.badLength (.overlong (Nat.le_of_not_lt hn) hl hfit))
      obtain ⟨hlen, id, hid, hrest⟩ := header_cases hl
      cases hfind : DIdDict.find id with
      | none => exact hstop _ (.unknown (Nat.le_of_not_lt hn) hid hl (Nat.le_of_not_lt hfit) hfind)
      | some e =>
        rcases hrest with hcut | ⟨w, xs, rfl, rfl, hw⟩
        · rw [parseItems_round (Nat.le_of_not_lt hn) hl (Nat.le_of_not_lt hfit), exec_bind,
            fromBytes_cut hlen hid hl hfind hcut] at h
          cases h
        · obtain ⟨m, rfl⟩ : ∃ m, n = w.bytes.length + m :=
            ⟨n - w.bytes.length, by rw [w.length_bytes]; omega⟩
          by_cases hadmits : e.Admits w.data
          · cases hrun : (construct pf e.Construct w.data).exec g with
            | none =>
              rw [parseItems_wire, fromBytes_item hfind, if_pos hadmits, exec_bind, exec_bind,
                hrun] at h
              cases h
            | some q =>
              obtain ⟨q, g₁⟩ := q
              cases q with
              | error x =>
                rw [construct_throw hrun] at hrun
                exact hstop _ (.refused hfind hadmits hrun)
              | ok body =>
                have hbuilds : w.Builds pf g { body with DId := w.DId } g₁ :=
                  ⟨⟨e, hfind, hadmits, hrun⟩, rfl⟩
                rw [parseItems_builds hbuilds] at h
                obtain ⟨ws, items, rest, k, c, rfl, rfl, hbuilt, hc, rfl⟩ := ih h
                refine ⟨w :: ws, _ :: items, rest, k, c, ?_, ?_, .cons hbuilds hbuilt, hc, ?_⟩
                · rw [RecordFormat.encodeAll_cons, List.append_assoc]
                  rfl
                · rw [RecordFormat.encodeAll_cons, List.length_append, Nat.add_assoc]
                  rfl
                · rw [List.append_assoc]
                  rfl
          · exact hstop _ (.badLength (.bounds hfind hadmits))

/-- The loop goes on behind items that are built. -/
theorem parseItems_skip {g g' : Globals} {ws : List WireItem} {items : List TDataItem}
    (hbuilt : Built pf g ws items g') (xs : TBytes) (n fuel : Nat) (acc : List TDataItem) :
    (parseItems pf (fuel + ws.length) (itemFormat.encodeAll ws ++ xs)
      ((itemFormat.encodeAll ws).length + n) acc).exec g =
      (parseItems pf fuel xs n (acc ++ items)).exec g' := by
  induction hbuilt generalizing acc with
  | nil =>
    rw [RecordFormat.encodeAll_nil, List.nil_append, List.append_nil, List.length_nil,
      List.length_nil, Nat.zero_add, Nat.add_zero]
  | @cons g g₁ g₂ w ws item items hw _ ih =>
    have hround := parseItems_builds hw (itemFormat.encodeAll ws ++ xs)
      ((itemFormat.encodeAll ws).length + n) (fuel + ws.length) acc
    rw [ih, List.append_assoc] at hround
    rw [RecordFormat.encodeAll_cons, List.append_assoc, List.length_append, Nat.add_assoc]
    exact hround

theorem parseItems_of_built {g g' : Globals} {ws : List WireItem} {items : List TDataItem}
    (hbuilt : Built pf g ws items g') {rest : TBytes} {m fuel : Nat} {c : Except Exn TError}
    (hstops : Stops pf g' rest m c) (hfuel : (itemFormat.encodeAll ws).length + m < fuel)
    (acc : List TDataItem) :
    (parseItems pf fuel (itemFormat.encodeAll ws ++ rest)
      ((itemFormat.encodeAll ws).length + m) acc).exec g =
      some (c.map fun code => (acc ++ items, code), g') := by
  have hcount := itemFormat.length_le_length_encodeAll ws
  obtain ⟨k, rfl⟩ : ∃ k, fuel = k + 1 + ws.length := ⟨fuel - ws.length - 1, by omega⟩
  rw [parseItems_skip hbuilt, parseItems_stops hstops]

end ParseLemmas

open ParseLemmas

/-- The loop in front of `bytes`, with `n` bytes of payload to go, builds `items`
from `ws` and ends with `c`. -/
def Parses (pf : Platform) (g : Globals) (bytes : TBytes) (n : Nat) (ws : List WireItem)
    (items : List TDataItem) (c : Except Exn TError) (g' : Globals) : Prop :=
  ∃ rest m, bytes = itemFormat.encodeAll ws ++ rest ∧ n = (itemFormat.encodeAll ws).length + m ∧
    Built pf g ws items g' ∧ Stops pf g' rest m c

/-- Every run of `parsePayload`, and nothing else, is such a parse. -/
theorem parsePayload_iff {bytes : TBytes} {n : Nat} {g g' : Globals}
    {r : Except Exn (List TDataItem × TError)} :
    (parsePayload pf bytes n).exec g = some (r, g') ↔
      ∃ ws items c, Parses pf g bytes n ws items c g' ∧ r = c.map fun code => (items, code) := by
  have hloop : (parsePayload pf bytes n).exec g =
      (parseItems pf (n + 1) bytes n []).exec g := by
    by_cases hn : n = 0
    · subst hn
      rw [parseItems_leftover (by decide)]
      rfl
    · rw [parsePayload, if_neg hn]
  rw [hloop]
  constructor
  · intro h
    obtain ⟨ws, items, rest, m, c, hbytes, hn, hbuilt, hstops, rfl⟩ := parseItems_run h
    exact ⟨ws, items, c, ⟨rest, m, hbytes, hn, hbuilt, hstops⟩, rfl⟩
  · rintro ⟨ws, items, c, ⟨rest, m, rfl, rfl, hbuilt, hstops⟩, rfl⟩
    exact parseItems_of_built hbuilt hstops (Nat.lt_succ_self _) []

/-! ## 4. The message -/

theorem isValidMessageID_of_mem {id : TMessageId} (h : id ∈ ValidMessageIDs) :
    isValidMessageID pf id = true := by
  obtain ⟨i, hi, hid⟩ := List.mem_iff_getElem.mp h
  have hlt : i < 7 := hi
  have hrange : i ∈ List.range sizeofValidMessageIDs :=
    List.mem_range.mpr (Nat.lt_trans hlt (by decide))
  have hat : messageIdAt pf i = id := by rw [messageIdAt, dif_pos hi, hid]
  exact List.any_eq_true.mpr ⟨i, hrange, beq_iff_eq.mpr hat⟩

theorem new_of_mem {σ : Type} {id : TMessageId} (h : id ∈ ValidMessageIDs)
    (items : List TDataItem) :
    (TMessage.new pf id items : Prog Exn σ TMessage) = pure { Id := id, DataItems := items } := by
  rw [TMessage.new, if_pos (isValidMessageID_of_mem h)]

/-- The checks that come before the payload. -/
structure HeaderOk (pf : Platform) (buf : TBytes) : Prop where
  long : 6 ≤ buf.length
  id : isValidMessageID pf (buf.headD 0) = true
  stated : (6 + payloadSize buf) % 2 ^ 32 ≤ buf.length

/-- What `FromBytes` makes of the end of the loop. -/
def finish (buf : TBytes) (items : List TDataItem) (c : Except Exn TError) :
    Except Exn (TMessage × TError) :=
  c.map fun code =>
    if calculateChecksum buf ≠ 0 then (TMessage.empty, ERR_MSG_CHECKSUM)
    else ({ Id := buf.headD 0, DataItems := items }, code)

/-- Past the header checks, `FromBytes` parses the payload and looks at the checksum. -/
theorem FromBytes_exec {buf : TBytes} (h : HeaderOk pf buf) (g : Globals) :
    (FromBytes pf buf).exec g =
      ((parsePayload pf (buf.drop 5) (payloadSize buf)).exec g).map fun q =>
        (q.1.bind fun p => finish buf p.1 (.ok p.2), q.2) := by
  obtain ⟨hlong, hid, hstated⟩ := h
  rw [FromBytes, if_neg (Nat.not_lt_of_le hlong)]
  simp only [hid, Bool.not_true, Bool.false_eq_true, if_false, if_neg (Nat.not_lt_of_le hstated)]
  rw [exec_bind]
  cases (parsePayload pf (buf.drop 5) (payloadSize buf)).exec g with
  | none => rfl
  | some q =>
    obtain ⟨q, g'⟩ := q
    cases q with
    | error x => rfl
    | ok p =>
      by_cases hsum : calculateChecksum buf ≠ 0
      · simp only [Option.bind_some, Option.map_some, resume_ok, if_pos hsum, exec_pure]
        simp only [finish, Except.bind, Except.map, if_pos hsum]
      · simp only [Option.bind_some, Option.map_some, resume_ok, if_neg hsum, TMessage.new, hid,
          if_true, exec_bind, exec_pure]
        simp only [finish, Except.bind, Except.map, if_neg hsum]

theorem FromBytes_iff {buf : TBytes} (h : HeaderOk pf buf) {g g' : Globals}
    {r : Except Exn (TMessage × TError)} :
    (FromBytes pf buf).exec g = some (r, g') ↔
      ∃ ws items c, Parses pf g (buf.drop 5) (payloadSize buf) ws items c g' ∧
        r = finish buf items c := by
  rw [FromBytes_exec h, Option.map_eq_some_iff]
  constructor
  · rintro ⟨⟨q, g₁⟩, hq, hr⟩
    obtain ⟨ws, items, c, hparses, rfl⟩ := parsePayload_iff.mp hq
    simp only [Prod.mk.injEq] at hr
    obtain ⟨rfl, rfl⟩ := hr
    exact ⟨ws, items, c, hparses, by cases c <;> rfl⟩
  · rintro ⟨ws, items, c, hparses, rfl⟩
    exact ⟨_, parsePayload_iff.mpr ⟨ws, items, c, hparses, rfl⟩, by cases c <;> rfl⟩

/-- Without the header checks nothing is built, and the result is an error. -/
theorem FromBytes_of_not_headerOk {buf : TBytes} (h : ¬HeaderOk pf buf) :
    ∃ r, (∀ m code, r = .ok (m, code) → m.DataItems = [] ∧ code ≠ ERR_SUCCESS) ∧
      (∀ x, r = .error x → x = .logicError (text "ERR_MSG_ID_UNKNOWN")) ∧
      ∀ g, (FromBytes pf buf).exec g = some (r, g) := by
  by_cases hlong : buf.length < 6
  · cases hid : isValidMessageID pf 0xFF
    · refine ⟨.error (.logicError (text "ERR_MSG_ID_UNKNOWN")), fun _ _ => nofun,
        fun x hx => (Except.error.inj hx).symm, fun g => ?_⟩
      simp [FromBytes, hlong, TMessage.new, hid]
    · refine ⟨.ok ({ Id := 0xFF, DataItems := [] }, ERR_MSG_TOO_SHORT), fun m code hm => ?_,
        fun _ => nofun, fun g => ?_⟩
      · cases hm
        exact ⟨rfl, by decide⟩
      · simp [FromBytes, hlong, TMessage.new, hid]
  cases hid : isValidMessageID pf (buf.headD 0)
  · refine ⟨.ok (TMessage.empty, ERR_MSG_ID_UNKNOWN), fun m code hm => ?_,
      fun _ => nofun, fun g => ?_⟩
    · cases hm
      exact ⟨rfl, by decide⟩
    · rw [FromBytes, if_neg hlong]
      simp only [hid, Bool.not_false, if_true, exec_pure]
  · have hstated : buf.length < (6 + payloadSize buf) % 2 ^ 32 :=
      Nat.lt_of_not_le fun hle => h ⟨Nat.le_of_not_lt hlong, hid, hle⟩
    refine ⟨.ok (TMessage.empty, ERR_MSG_LEN_MISMATCH), fun m code hm => ?_,
      fun _ => nofun, fun g => ?_⟩
    · cases hm
      exact ⟨rfl, by decide⟩
    · rw [FromBytes, if_neg hlong]
      simp only [hid, Bool.not_true, Bool.false_eq_true, if_false, if_pos hstated, exec_pure]

end EnetTcp
