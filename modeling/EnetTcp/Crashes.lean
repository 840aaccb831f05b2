import EnetTcp.Receiving

/-!
# Frames that the daemon does not survive

`GotMessage` catches `std::logic_error` only. Two kinds of items get past it:

* a `SYS_UploadFileName` without data, whose constructor throws a
  `std::filesystem::filesystem_error`;
* volts for a DAC channel whose range code has no index, which are scaled with
  what stands in memory in front of a table.

`GotMessage_returns_iff`: nothing else does.
-/

namespace EnetTcp

open Prog

variable {pf : Platform}

/-! ## 1. Constructors that come back -/

/-- The exception is one that `GotMessage` catches. -/
def IsText (x : Exn) : Prop := ∃ what, x = .logicError what

namespace EndLemmas

variable {σ α : Type}

/-- What comes behind a GUARD may rely on it. -/
theorem ends_guard_bind {b : Bool} {rc : TError} {info : UInt32} {site : GuardSite}
    {f : Unit → Prog Exn σ α} (h : b = true → Ends IsText (f ())) :
    Ends IsText (GUARD b rc info site >>= f) := by
  cases b
  · refine fun s => ⟨.error (.logicError (guardWhat site rc info)), s, rfl, fun x hx => ?_⟩
    cases hx
    exact ⟨_, rfl⟩
  · exact h rfl

theorem readU16_isSome (bs : TBytes) (i : Nat) (h : i + 2 ≤ bs.length) :
    (readU16 bs i).isSome = true := by
  rw [readU16, List.getElem?_eq_getElem (by omega), List.getElem?_eq_getElem (by omega)]
  rfl

theorem readU32_isSome (bs : TBytes) (i : Nat) (h : i + 4 ≤ bs.length) :
    (readU32 bs i).isSome = true := by
  rw [readU32, List.getElem?_eq_getElem (by omega), List.getElem?_eq_getElem (by omega),
    List.getElem?_eq_getElem (by omega), List.getElem?_eq_getElem (by omega)]
  rfl

theorem ends_write1 (buf : TBytes) :
    Ends IsText (TREG_Write1.ctor buf : Prog Exn σ (List REG_Write)) := by
  refine ends_guard_bind fun hpos => ?_
  have hlen : 0 < buf.length := of_decide_eq_true hpos
  refine ends_bind (ends_ofOption (by rw [List.getElem?_eq_getElem hlen]; rfl)) fun ofs => ?_
  refine ends_guard_bind fun _ => ends_guard_bind fun hsize => ?_
  refine ends_bind (ends_ofOption ?_) fun _ => ends_pure _
  by_cases hw : widthFromOffset ofs.toNat = 8
  · rw [if_pos hw] at hsize ⊢
    have hlen : buf.length = 2 := of_decide_eq_true hsize
    rw [List.getElem?_eq_getElem (by omega)]
    rfl
  · rw [if_neg hw] at hsize ⊢
    have hlen : buf.length = 5 := of_decide_eq_true hsize
    exact readU32_isSome _ _ (by omega)

theorem ends_range1 (bytes : TBytes) :
    Ends IsText (TDAC_Range1.ctor bytes : Prog Exn σ (DAC_RangeParams × Bool)) := by
  cases bytes with
  | nil => exact ends_pure _
  | cons ch bytes =>
    refine ends_guard_bind fun _ => ends_ite (fun hlen => ?_) fun _ => ends_pure _
    refine ends_bind (ends_ofOption (readU32_isSome _ _ (by omega))) fun _ => ?_
    exact ends_ite (fun _ => ends_pure _) fun _ => ends_pure _

theorem ends_uploadFileName {buf : TBytes} (h : buf ≠ []) :
    Ends IsText (TSYS_UploadFileName.ctor pf buf : Prog Exn σ TBytes) := by
  obtain ⟨b, rest, rfl⟩ := List.exists_cons_of_ne_nil h
  have habs : Ends IsText (absolutePath pf.currentPath (b :: rest) : Prog Exn σ TBytes) :=
    ends_ite (fun _ => ends_pure _) fun _ => ends_ite (fun _ => ends_pure _) fun _ => ends_pure _
  refine ends_bind (ends_ite (fun _ => ends_pure _) fun _ => ?_) fun _ => ends_pure _
  exact ends_bind habs fun _ => ends_ite (fun _ => ends_pure _) fun _ => ends_pure _

theorem ends_baseClock (buf : TBytes) :
    Ends IsText (TADC_BaseClock.ctor buf : Prog Exn σ UInt32) :=
  ends_guard_bind fun _ => ends_pure _

theorem ends_numberOfAdcChannels (buf : TBytes) :
    Ends IsText (TBRD_GetNumberOfAdcChannels.ctor buf : Prog Exn σ UInt8) :=
  ends_guard_bind fun _ => ends_pure _

theorem ends_streamStart (data : TBytes) :
    Ends IsText (construct pf .TADC_StreamStart data) := by
  intro g
  rw [streamStart_exec]
  split
  · exact ⟨_, _, rfl, fun x hx => ⟨_, (Except.error.inj hx).symm⟩⟩
  · exact ⟨_, _, rfl, nofun⟩

end EndLemmas

open EndLemmas

/-- Every range code has an index. -/
def DacRangesValid (c : TConfig) : Prop :=
  ∀ ch : Fin MAX_DACs, (DacRangeIndexFromCode (c.dacRanges.get ch)).isSome

/-- Volts for a channel whose range code has no index. -/
def NoRangeIndex (c : TConfig) (data : TBytes) : Prop :=
  data.length = 5 ∧ data.headD 0 < 4 ∧
    DacRangeIndexFromCode (c.dacRanges.get (dacChannelOf data)) = none

namespace EndLemmas

/-- An output item ends, unless it needs a range index that does not exist. -/
theorem dacOutput_ends (pf : Platform) (lineChannel lineSize : Nat) {data : TBytes} {g : Globals}
    (h : ¬NoRangeIndex g.Config data) :
    ∃ r g', (DAC_Output.parseBytes pf lineChannel lineSize data).exec g = some (r, g') ∧
      ∀ x, r = .error x → IsText x := by
  have hguard {α : Type} (b : Bool) (rc : TError) (info : UInt32) (site : GuardSite)
      (f : Unit → Prog Exn Globals α)
      (hf : b = true → ∃ r g', (f ()).exec g = some (r, g') ∧ ∀ x, r = .error x → IsText x) :
      ∃ r g', (GUARD b rc info site >>= f).exec g = some (r, g') ∧
        ∀ x, r = .error x → IsText x := by
    cases b
    · exact ⟨_, _, rfl, fun x hx => ⟨_, (Except.error.inj hx).symm⟩⟩
    · exact hf rfl
  refine hguard _ _ _ _ _ fun hchannel => ?_
  rw [exec_get_bind]
  simp only
  split
  case isTrue hlen =>
    obtain ⟨v, hv⟩ := Option.isSome_iff_exists.mp
      (readU16_isSome data 1 (by omega))
    rw [hv]
    exact ⟨_, _, rfl, fun x hx => by cases hx⟩
  case isFalse =>
    split
    case isTrue hlen =>
      obtain ⟨v, hv⟩ := Option.isSome_iff_exists.mp
        (readU32_isSome data 1 (by omega))
      have hne : data.isEmpty = false := by
        cases data with
        | nil => cases hlen
        | cons => rfl
      rw [hne, Bool.false_or] at hchannel
      cases hindex : DacRangeIndexFromCode g.Config.dacRanges[dacChannelOf data] with
      | none => exact absurd ⟨hlen, of_decide_eq_true hchannel, hindex⟩ h
      | some ri =>
        have hcounts : DACVoltsToCounts pf g.Config (dacChannelOf data) v =
            some (voltsToCounts pf ri (Floats.widen v)) := by rw [DACVoltsToCounts, hindex]; rfl
        let p : DAC_OutputParams :=
          { dacChannel := data.headD 0
            dacCounts := scaleCounts pf (voltsToCounts pf ri (Floats.widen v))
              g.Config.dacScaleCoefficients[dacChannelOf data]
              g.Config.dacOffsetCoefficients[dacChannelOf data] }
        refine ⟨.ok (p, true), g, ?_, fun x hx => by cases hx⟩
        rw [hv, exec_bind, exec_ofOption_some, Option.bind_some, resume_ok, exec_bind]
        show Option.bind ((ofOption (DACVoltsToCounts pf g.Config (dacChannelOf data) v)).exec g)
          _ = _
        rw [hcounts]
        rfl
    case isFalse => exact hguard _ _ _ _ _ fun _ => ⟨.ok _, _, rfl, fun x hx => by cases hx⟩

/-- The index is needed and missing: the table is read outside its bounds. -/
theorem dacOutput_undefined {lineChannel lineSize : Nat} {data : TBytes} {g : Globals}
    (h : NoRangeIndex g.Config data) :
    (DAC_Output.parseBytes pf lineChannel lineSize data).exec g = none := by
  obtain ⟨hlen, hchannel, hindex⟩ := h
  have hpass : (data.isEmpty || decide (data.headD 0 < 4)) = true := by
    rw [decide_eq_true hchannel, Bool.or_true]
  have hcode : DacRangeIndexFromCode g.Config.dacRanges[dacChannelOf data] = none := hindex
  have hcounts (v : FloatBits) : DACVoltsToCounts pf g.Config (dacChannelOf data) v = none := by
    rw [DACVoltsToCounts, hcode]
    rfl
  rw [DAC_Output.parseBytes, GuardLemmas.guard_pass hpass, pure_bind, exec_get_bind]
  simp only
  rw [if_neg (by omega), if_pos hlen, exec_bind]
  cases readU32 data 1 with
  | none => rfl
  | some v =>
    rw [exec_ofOption_some, Option.bind_some, resume_ok, exec_bind]
    show Option.bind ((ofOption (DACVoltsToCounts pf g.Config (dacChannelOf data) v)).exec g) _ = _
    rw [hcounts]
    rfl

/-- Every other constructor gives an item or throws a text. -/
theorem construct_ends {cls : ItemClass} {data : TBytes} {g : Globals}
    (hname : cls = .TSYS_UploadFileName → data ≠ [])
    (hrange : cls = .TDAC_Output ∨ cls = .TDAC_OutputV → ¬NoRangeIndex g.Config data) :
    ∃ r g', (construct pf cls data).exec g = some (r, g') ∧ ∀ x, r = .error x → IsText x := by
  have hdac (lineChannel lineSize : Nat) (item : DAC_OutputParams × Bool → TItemBody)
      (h : ¬NoRangeIndex g.Config data) :
      ∃ r g', (DAC_Output.parseBytes pf lineChannel lineSize data >>= fun p =>
          return item p).exec g = some (r, g') ∧ ∀ x, r = .error x → IsText x := by
    obtain ⟨r, g', hr, hthrow⟩ := dacOutput_ends pf lineChannel lineSize h
    rw [exec_bind, hr, Option.bind_some]
    cases r with
    | ok p => exact ⟨.ok (item p), g', rfl, nofun⟩
    | error x => exact ⟨.error x, g', rfl, fun x' h => hthrow x' (by cases h; rfl)⟩
  cases cls
  case TDAC_Output => exact hdac 56 93 _ (hrange (.inl rfl))
  case TDAC_OutputV => exact hdac 137 174 _ (hrange (.inr rfl))
  case TADC_StreamStart => exact ends_streamStart data g
  case TREG_Write1 => exact ends_bind (ends_write1 data) (fun _ => ends_pure _) g
  case TDAC_Range1 => exact ends_bind (ends_range1 data) (fun _ => ends_pure _) g
  case TADC_BaseClock => exact ends_bind (ends_baseClock data) (fun _ => ends_pure _) g
  case TBRD_GetNumberOfAdcChannels =>
    exact ends_bind (ends_numberOfAdcChannels data) (fun _ => ends_pure _) g
  case TSYS_UploadFileName =>
    exact ends_bind (ends_uploadFileName (hname rfl)) (fun _ => ends_pure _) g
  all_goals exact ends_pure _ g

end EndLemmas

/-! ## 2. Frames -/

/-- Building the item ends the daemon. -/
inductive WireItem.Crashing (c : TConfig) (w : WireItem) : Prop
  | noName : w.DId = DataItemIds.SYS_UploadFileName → w.data = [] → w.Crashing c
  | noRange : w.DId = DataItemIds.DAC_Output1 ∨ w.DId = DataItemIds.DAC_Output1V →
      NoRangeIndex c w.data → w.Crashing c

/-- Parsing the frame ends the daemon. -/
def Crashes (pf : Platform) (g : Globals) (f : Frame) : Prop :=
  ∃ w, f.Constructs pf g w ∧ WireItem.Crashing g.Config w

theorem uploadFileName_entry {e : TDIdDictEntry} (he : e ∈ DIdDict) :
    e.Construct = .TSYS_UploadFileName ↔ e.DId = DataItemIds.SYS_UploadFileName := by
  revert e
  decide +kernel

namespace EndLemmas

/-- The class and the outcome of an item that ends the daemon. -/
theorem crashing_construct (pf : Platform) {w : WireItem} {g : Globals} (h : w.Crashing g.Config) :
    ∃ e, DIdDict.find w.DId = some e ∧ e.Admits w.data ∧
      ∀ r g', (construct pf e.Construct w.data).exec g = some (r, g') →
        ∃ what, r = .error (.stdException what) := by
  cases h with
  | noName hid hdata =>
    rw [hid, hdata]
    refine ⟨_, rfl, .inl rfl, fun r g' hr => ?_⟩
    cases hr
    exact ⟨_, rfl⟩
  | noRange hid hrange =>
    have hadmits : 3 ≤ w.data.length ∧ w.data.length ≤ 5 := by
      have hlen := hrange.1
      omega
    have hnone (lineChannel lineSize : Nat) (item : DAC_OutputParams × Bool → TItemBody) :
        (DAC_Output.parseBytes pf lineChannel lineSize w.data >>= fun p => return item p).exec g =
          none := by
      rw [exec_bind, dacOutput_undefined hrange]
      rfl
    rcases hid with hid | hid
    · rw [hid]
      refine ⟨_, rfl, .inr hadmits, fun r g' hr => ?_⟩
      have hctor := hnone 56 93 fun p =>
        { params := .TDAC_Output p.1, rawBytes := w.data, bWrite := p.2 }
      exact absurd (hctor.symm.trans hr) nofun
    · rw [hid]
      refine ⟨_, rfl, .inr hadmits, fun r g' hr => ?_⟩
      have hctor := hnone 137 174 fun p =>
        { params := .TDAC_OutputV p.1, rawBytes := w.data, bWrite := p.2 }
      exact absurd (hctor.symm.trans hr) nofun

/-- An item that does not end the daemon is built or throws a text. -/
theorem construct_ends_of_not_crashing (pf : Platform) {w : WireItem} {e : TDIdDictEntry}
    {g : Globals}
    (he : DIdDict.find w.DId = some e) (h : ¬w.Crashing g.Config) :
    ∃ r g', (construct pf e.Construct w.data).exec g = some (r, g') ∧
      ∀ x, r = .error x → IsText x := by
  obtain ⟨hmem, hid⟩ := find_some he
  refine construct_ends (fun hcls hdata => h ?_) (fun hcls hindex => h ?_)
  · exact .noName (hid ▸ (uploadFileName_entry hmem).mp hcls) hdata
  · exact .noRange (hid ▸ (dacOutput_entry hmem).mp hcls) hindex

theorem parses_cons {w : WireItem} {item : TDataItem} {g g₁ g₂ : Globals} {xs : TBytes} {n : Nat}
    {ws : List WireItem} {items : List TDataItem} {c : Except Exn TError}
    (hw : w.Builds pf g item g₁) (h : Parses pf g₁ xs n ws items c g₂) :
    Parses pf g (w.bytes ++ xs) (w.bytes.length + n) (w :: ws) (item :: items) c g₂ := by
  obtain ⟨rest, m, rfl, rfl, hbuilt, hstops⟩ := h
  refine ⟨rest, m, ?_, ?_, .cons hw hbuilt, hstops⟩
  · rw [RecordFormat.encodeAll_cons, List.append_assoc]
    rfl
  · rw [RecordFormat.encodeAll_cons, List.length_append, Nat.add_assoc]
    rfl

/-- The loop ends where no item does. -/
theorem stops_of_peel_none {payload : TBytes} (h : itemFormat.peel payload = none)
    (tail : TBytes) (g : Globals) :
    ∃ code, Stops pf g (payload ++ tail) payload.length (.ok code) := by
  by_cases hn : payload.length < 4
  · exact ⟨_, .leftover hn⟩
  obtain ⟨l, hl⟩ := Option.isSome_iff_exists.mp
    (readU16_isSome payload 2 (by omega))
  have htail : readU16 (payload ++ tail) 2 = some l := by
    have htake := readU16_take (payload ++ tail) payload.length 2
    rw [List.take_left, hl, if_pos (by omega)] at htake
    exact htake.symm
  obtain ⟨-, id, -, hcut | ⟨w, xs, rfl, -, -⟩⟩ := header_cases hl
  · exact ⟨_, .badLength (.overlong (Nat.le_of_not_lt hn) htail hcut)⟩
  · exact absurd ((itemFormat.peel_encode w xs).symm.trans h) nofun

/-- A payload without a deadly item is parsed to an end. -/
theorem parse_ends (pf : Platform) {g : Globals} (payload tail : TBytes)
    (h : ∀ ws items g' w rest, payload = itemFormat.encodeAll ws ++ (WireItem.bytes w ++ rest) →
      Built pf g ws items g' → ¬w.Crashing g'.Config) :
    ∃ ws items c g', Parses pf g (payload ++ tail) payload.length ws items c g' ∧
      ∀ x, c = .error x → IsText x := by
  induction payload using itemFormat.peel_induction generalizing g with
  | hstop payload hpeel =>
    obtain ⟨code, hstops⟩ := stops_of_peel_none hpeel tail g
    exact ⟨[], [], .ok code, g, ⟨payload ++ tail, payload.length, rfl,
      (Nat.zero_add _).symm, .nil, hstops⟩, nofun⟩
  | hrecord w payload ih =>
    have hstop {c : Except Exn TError} (hc : ∀ x, c = .error x → IsText x)
        (hstops : Stops pf g (w.bytes ++ (payload ++ tail)) (w.bytes.length + payload.length) c) :
        ∃ ws items c g', Parses pf g (w.bytes ++ payload ++ tail) (w.bytes ++ payload).length
          ws items c g' ∧ ∀ x, c = .error x → IsText x := by
      rw [List.append_assoc, List.length_append]
      exact ⟨[], [], c, g, ⟨_, _, rfl, (Nat.zero_add _).symm, .nil, hstops⟩, hc⟩
    have hlen := w.length_bytes
    cases he : DIdDict.find w.DId with
    | none =>
      refine hstop (fun x hx => ⟨_, (Except.error.inj hx).symm⟩)
        (.unknown (by omega) (w.readU16_id _) (w.readU16_length _) ?_ he)
      rw [w.toNat_lengthField]
      omega
    | some e =>
      by_cases hadmits : e.Admits w.data
      · obtain ⟨r, g₁, hr, hthrow⟩ := construct_ends_of_not_crashing pf he
          (h [] [] g w payload rfl .nil)
        cases r with
        | error x =>
          obtain rfl := construct_throw hr
          exact hstop (fun x' hx => Except.error.inj hx ▸ hthrow x rfl) (.refused he hadmits hr)
        | ok body =>
          have hbuilds : w.Builds pf g { body with DId := w.DId } g₁ :=
            ⟨⟨e, he, hadmits, hr⟩, rfl⟩
          obtain ⟨ws, items, c, g₂, hparses, hc⟩ := ih fun ws items g₂ w' rest hpayload hbuilt =>
            h (w :: ws) (_ :: items) g₂ w' rest
              (by rw [hpayload, RecordFormat.encodeAll_cons, List.append_assoc])
              (.cons hbuilds hbuilt)
          have hcons := parses_cons hbuilds hparses
          rw [← List.append_assoc, ← List.length_append] at hcons
          exact ⟨_, _, c, g₂, hcons, hc⟩
      · exact hstop (c := .ok _) nofun (.badLength (.bounds he hadmits))

/-- A deadly item behind items that are built. -/
theorem parsePayload_crashes {g g' : Globals} {ws : List WireItem} {items : List TDataItem}
    {w : WireItem} {rest tail : TBytes} {n : Nat} (hbuilt : Built pf g ws items g')
    (h : w.Crashing g'.Config)
    (hn : n = (itemFormat.encodeAll ws).length + (w.bytes.length + rest.length))
    {r : Except Exn (List TDataItem × TError)} {g'' : Globals}
    (hrun : (parsePayload pf (itemFormat.encodeAll ws ++ (w.bytes ++ (rest ++ tail))) n).exec g =
      some (r, g'')) : ∃ what, r = .error (.stdException what) := by
  subst hn
  have hcount := itemFormat.length_le_length_encodeAll ws
  have hpos := w.length_bytes
  obtain ⟨k, hk⟩ : ∃ k, (itemFormat.encodeAll ws).length + (w.bytes.length + rest.length) + 1 =
      k + 1 + ws.length := ⟨(itemFormat.encodeAll ws).length + (w.bytes.length + rest.length) -
        ws.length, by omega⟩
  rw [parsePayload, if_neg (by omega), hk, ParseLemmas.parseItems_skip hbuilt,
    ParseLemmas.parseItems_wire] at hrun
  obtain ⟨e, he, hadmits, hcrash⟩ := crashing_construct pf h
  rw [fromBytes_item he, if_pos hadmits, exec_bind, exec_bind] at hrun
  cases hctor : (construct pf e.Construct w.data).exec g' with
  | none =>
    rw [hctor] at hrun
    cases hrun
  | some q =>
    obtain ⟨q, g₁⟩ := q
    obtain ⟨what, rfl⟩ := hcrash q g₁ hctor
    rw [hctor] at hrun
    cases hrun
    exact ⟨what, rfl⟩

end EndLemmas

/-- `GotMessage` gives a message for all frames but those that crash. -/
theorem GotMessage_returns_iff {g : Globals} {f : Frame} :
    (∃ m g', (GotMessage pf f.bytes).exec g = some (.ok m, g')) ↔ ¬Crashes pf g f := by
  rw [GotMessage_exec]
  constructor
  · rintro ⟨m, g', hrun⟩ ⟨w, ⟨hid, ws, items, g₁, rest, hpayload, hbuilt⟩, hcrash⟩
    rw [← hbuilt.config] at hcrash
    rw [FromBytes_exec ((headerOk_frame f).mpr hid), Option.map_map, Option.map_eq_some_iff] at hrun
    obtain ⟨⟨r, g₂⟩, hparse, hm⟩ := hrun
    have hdata : f.bytes.drop 5 =
        itemFormat.encodeAll ws ++ (w.bytes ++ (rest ++ [f.checksum])) := by
      rw [f.drop_bytes, hpayload, List.append_assoc, List.append_assoc]
    have hsize : payloadSize f.bytes =
        (itemFormat.encodeAll ws).length + (w.bytes.length + rest.length) := by
      rw [f.payloadSize_bytes, hpayload, List.length_append, List.length_append]
    rw [hdata] at hparse
    obtain ⟨what, rfl⟩ := parsePayload_crashes hbuilt hcrash hsize hparse
    exact absurd (congrArg Prod.fst hm) nofun
  · intro h
    by_cases hid : isValidMessageID pf f.MId = true
    · obtain ⟨ws, items, c, g', hparses, hc⟩ := parse_ends pf f.payload
        [f.checksum] fun ws items g' w rest hpayload hbuilt hcrash =>
          h ⟨w, ⟨hid, ws, items, g', rest, hpayload, hbuilt⟩, hbuilt.config ▸ hcrash⟩
      rw [(FromBytes_frame hid).mpr ⟨ws, items, c, hparses, rfl⟩]
      match c, hc with
      | .ok code, _ => exact ⟨_, _, rfl⟩
      | .error x, hc =>
        obtain ⟨what, rfl⟩ := hc x rfl
        exact ⟨_, _, rfl⟩
    · obtain ⟨r, -, hthrow, hrun⟩ := FromBytes_of_not_headerOk
        (mt (headerOk_frame f).mp hid)
      rw [hrun]
      match r, hthrow with
      | .ok (m, code), _ => exact ⟨_, _, rfl⟩
      | .error x, hthrow =>
        obtain rfl := hthrow x rfl
        exact ⟨_, _, rfl⟩

end EnetTcp
