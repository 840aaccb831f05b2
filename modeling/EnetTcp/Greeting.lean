import EnetTcp.Serving
import EnetTcp.Lib.Runs

/-!
# Greeting a new client (aioenetd.cpp)

A receiver thread first sends an `H` message: the connection id, the range of each
DAC channel, and five items that are run for it. Nothing catches what
`SendControlHello` throws on the way to the five items.

`config_safe`: as long as no rejected model string is run, `Config` stays within
the bounds that the greeting relies on.
-/

namespace EnetTcp

open Prog

variable {ε : Type} {pf : Platform} {env : Env ε}

/-! ## 1. SendControlHello -/

section Hello

variable (pf : Platform) (env : Env ε)

/-- The item for the range of one DAC channel. An index past the channels is undefined. -/
def helloRange (channel : Nat) : Prog Exn (World ε) TDataItem := do
  let w ← get
  let range ← Prog.ofOption w.machine.Config.dacRanges[channel]?
  let (d2, _) ← World.onGlobals (fromBytes pf
    (itemBytes DataItemIds.DAC_Range1 (UInt8.ofNat channel :: stuff32 range)))
  return d2

/-- The items of the try block, as their default constructors leave them. -/
def helloItems : List TDataItem :=
  [ { params := .TBRD_Features { config := none }, DId := DataItemIds.BRD_Features },
    { params := .TBRD_DeviceID { config := none }, DId := DataItemIds.BRD_DeviceID },
    { params := .TADC_BaseClock 25000000, DId := DataItemIds.ADC_BaseClock },
    { params := .TBRD_FpgaId { config := none }, DId := DataItemIds.BRD_FpgaID },
    { params := .TBRD_GetNumberOfAdcChannels 16, DId := DataItemIds.BRD_GetNumberOfAdcChannels } ]

/-- The try block: an item is added when its `Go` has returned. A `std::logic_error`
ends the block, and any other exception gets out of it. -/
def runHelloItems : List TDataItem → Prog Exn (World ε) (List TDataItem)
  | [] => return []
  | item :: items => do
    match ← runGo (daemonGo pf env) item with
    | (.ok (), item) => return item :: (← runHelloItems items)
    | (.error (.logicError _), _) => return []
    | (.error e, _) => throw e

def SendControlHello (Socket : Int) : Prog Exn (World ε) Unit := do
  let (d2, _) ← World.onGlobals (fromBytes pf
    (itemBytes DataItemIds.TCP_ConnectionID (stuff32 (Int32.ofInt Socket).toUInt32)))
  let w ← get
  let ranges ← (List.range w.machine.Config.NUM_DACs.toNat).mapM (helloRange pf)
  let items ← runHelloItems pf env helloItems
  let HelloControl ← TMessage.new pf 72 (d2 :: ranges ++ items)
  SendResponse Socket HelloControl

end Hello

/-- At most four DACs: every channel that the greeting asks for is there. -/
def FewDacs (w : World ε) : Prop := w.machine.Config.NUM_DACs.toNat ≤ MAX_DACs

/-- The item has a payload, whatever the configuration is when it is serialized. -/
def Serializable (item : TDataItem) : Prop :=
  ∀ c, (calcPayload c true item.toTItemBody).isSome = true

namespace GreetingLemmas

variable {I : World ε → Prop}

/-- An item whose constructor returns comes out of the factory, and nothing changes. -/
theorem returns_fromBytes {w : WireItem} {e : TDIdDictEntry} (he : DIdDict.find w.DId = some e)
    (hadmits : e.Admits w.data) {body : TItemBody}
    (hbody : ∀ g, (construct pf e.Construct w.data).exec g = some (.ok body, g))
    (hpayload : ∀ c, (calcPayload c true body).isSome = true) :
    Returns I (fun p => Serializable p.1)
      (World.onGlobals (fromBytes pf w.bytes) : Prog Exn (World ε) (TDataItem × TError)) := by
  intro v hv
  have hrun : (fromBytes pf w.bytes).exec v.globals =
      some (.ok ({ body with DId := w.DId }, ERR_SUCCESS), v.globals) := by
    rw [← List.append_nil w.bytes, fromBytes_item he, if_pos hadmits, exec_bind, hbody]
    rfl
  refine ⟨({ body with DId := w.DId }, ERR_SUCCESS), v, ?_, hv, hpayload⟩
  rw [World.onGlobals, exec_zoom, hrun]
  rfl

theorem returns_connectionID (Socket : Int) :
    Returns I (fun p => Serializable p.1)
      (World.onGlobals (fromBytes pf (itemBytes DataItemIds.TCP_ConnectionID
        (stuff32 (Int32.ofInt Socket).toUInt32))) : Prog Exn (World ε) (TDataItem × TError)) :=
  returns_fromBytes
    (w := ⟨DataItemIds.TCP_ConnectionID, stuff32 (Int32.ofInt Socket).toUInt32,
      (by decide : 4 < 2 ^ 16)⟩)
    rfl (.inr ⟨Nat.le_refl 4, Nat.le_refl 4⟩) (fun _ => rfl) fun _ => rfl

/-- The constructor takes all four channels, with any range code. -/
theorem ctor_range {channel : Nat} (h : channel < MAX_DACs) (range : UInt32) :
    ∃ p, ∀ g : Globals,
      (TDAC_Range1.ctor (UInt8.ofNat channel :: stuff32 range)).exec g = some (.ok p, g) := by
  have hguard : decide (UInt8.ofNat channel < 4) = true := by
    revert channel
    decide
  obtain ⟨rangeCode, hread⟩ : ∃ v, readU32 (UInt8.ofNat channel :: stuff32 range) 1 = some v :=
    ⟨_, rfl⟩
  have hlen : (UInt8.ofNat channel :: stuff32 range).length = 5 := rfl
  simp only [TDAC_Range1.ctor, GuardLemmas.guard_pass hguard, pure_bind, if_pos hlen, hread,
    exec_bind, exec_ofOption_some, Option.bind_some, resume_ok]
  by_cases hcode : isDacRangeCode rangeCode = true
  · rw [if_pos hcode]
    exact ⟨_, fun _ => rfl⟩
  · rw [if_neg hcode]
    exact ⟨_, fun _ => rfl⟩

theorem returns_range {channel : Nat} (h : channel < MAX_DACs) :
    Returns I Serializable (helloRange (ε := ε) pf channel) := by
  refine returns_bind returns_get fun w _ => ?_
  have hrange : w.machine.Config.dacRanges[channel]? = some w.machine.Config.dacRanges[channel] :=
    Vector.getElem?_eq_getElem h
  rw [hrange]
  refine returns_bind (returns_ofOption (Q := fun _ => True) trivial) fun range _ => ?_
  obtain ⟨p, hctor⟩ := ctor_range h range
  let data := UInt8.ofNat channel :: stuff32 range
  have hbody (g : Globals) : (construct pf .TDAC_Range1 data).exec g =
      some (.ok { params := .TDAC_Range1 p.1, rawBytes := data, bWrite := p.2 }, g) := by
    show ((TDAC_Range1.ctor data >>= fun p => return _ : Prog Exn Globals TItemBody)).exec g = _
    rw [exec_bind, hctor]
    rfl
  refine returns_bind (returns_fromBytes
    (w := ⟨DataItemIds.DAC_Range1, data, (by decide : 5 < 2 ^ 16)⟩)
    rfl (.inr ⟨Nat.le_refl 5, Nat.le_refl 5⟩) hbody fun _ => rfl) fun item hitem => ?_
  exact returns_pure hitem

/-- A register read returns. -/
theorem in_exec (env : Env ε) (offset : Nat) (s : Sys ε) :
    ∃ v s', (in_ env offset).exec s = some (.ok v, s') := by
  unfold in_
  split
  · exact ⟨_, _, rfl⟩
  · split
    · exact ⟨_, _, rfl⟩
    · exact ⟨_, _, rfl⟩

/-- An item whose `Go` gets its parameters from a register. -/
theorem goItem_register {τ : Type} {item : TDataItem} {m m' : Machine ε} {a : τ}
    {p : Prog Exn (Machine ε) τ} (params : τ → Params)
    (hgo : (Go pf env item.DId).exec (item.toTItemBody, m) =
      (onMachine p >>= fun a => setParams (params a)).exec (item.toTItemBody, m))
    (hp : p.exec m = some (.ok a, m')) :
    goItem pf env item m = some ((.ok (), { item with params := params a }), m') := by
  rw [goItem, hgo, exec_bind, onMachine, exec_zoom, hp]
  rfl

/-- Each of the five items is run without an exception and has a payload afterwards. -/
theorem returns_helloItem {item : TDataItem} (h : item ∈ helloItems) :
    Returns FewDacs (fun q => q.1 = .ok () ∧ Serializable q.2)
      (runGo (daemonGo pf env) item : Prog Exn (World ε) GoResult) := by
  intro w hw
  have hgo : ∃ item' m', goItem pf env item w.machine = some ((.ok (), item'), m') ∧
      m'.Config.NUM_DACs = w.machine.Config.NUM_DACs ∧ Serializable item' := by
    have hio {τ : Type} {p : Prog Exn (Sys ε) τ} {a : τ} {s : Sys ε}
        (h : p.exec w.machine.sys = some (.ok a, s)) :
        (io p).exec w.machine = some (.ok a, { w.machine with sys := s }) := by
      rw [io, exec_zoom, h]
      rfl
    simp only [helloItems, List.mem_cons, List.not_mem_nil, or_false] at h
    obtain rfl | rfl | rfl | rfl | rfl := h
    · obtain ⟨v, s, hin⟩ := in_exec env ofsFeatures w.machine.sys
      have hrun : (TBRD_Features.Go env).exec w.machine =
          some (.ok { config := some v.toUInt8 }, { w.machine with
            Config := { w.machine.Config with features := v.toUInt8 }, sys := s }) := by
        rw [TBRD_Features.Go, exec_bind, hio hin]
        rfl
      exact ⟨_, _, goItem_register .TBRD_Features rfl hrun, rfl, fun _ => rfl⟩
    · obtain ⟨v, s, hin⟩ := in_exec env ofsDeviceID w.machine.sys
      have hrun : (TBRD_DeviceID.Go env).exec w.machine.sys =
          some (.ok { config := some v.toUInt16 }, s) := by
        rw [TBRD_DeviceID.Go, exec_bind, hin]
        rfl
      exact ⟨_, _, goItem_register .TBRD_DeviceID rfl (hio hrun), rfl, fun _ => rfl⟩
    · obtain ⟨v, s, hin⟩ := in_exec env ofsAdcBaseClock w.machine.sys
      exact ⟨_, _, goItem_register .TADC_BaseClock rfl (hio hin), rfl, fun _ => rfl⟩
    · obtain ⟨v, s, hin⟩ := in_exec env ofsFpgaID w.machine.sys
      have hrun : (TBRD_FpgaId.Go env).exec w.machine.sys = some (.ok { config := some v }, s) := by
        rw [TBRD_FpgaId.Go, exec_bind, hin]
        rfl
      exact ⟨_, _, goItem_register .TBRD_FpgaId rfl (hio hrun), rfl, fun _ => rfl⟩
    · exact ⟨_, _, rfl, rfl, fun _ => rfl⟩
  obtain ⟨item', m', hrun, hdacs, hpayload⟩ := hgo
  refine ⟨(.ok (), item'), { w with machine := m' }, ?_, ?_, rfl, hpayload⟩
  · rw [runGo_daemon, hrun]
    rfl
  · show m'.Config.NUM_DACs.toNat ≤ MAX_DACs
    rw [hdacs]
    exact hw

theorem returns_runHelloItems {items : List TDataItem} (h : ∀ item ∈ items, item ∈ helloItems) :
    Returns FewDacs (fun items => ∀ item ∈ items, Serializable item)
      (runHelloItems pf env items : Prog Exn (World ε) (List TDataItem)) := by
  induction items with
  | nil => exact returns_pure fun item hitem => absurd hitem List.not_mem_nil
  | cons item items ih =>
    obtain ⟨hitem, hitems⟩ := List.forall_mem_cons.mp h
    refine returns_bind (returns_helloItem hitem) fun q hq => ?_
    obtain ⟨r, item'⟩ := q
    obtain ⟨rfl, hpayload⟩ := hq
    refine returns_bind (ih hitems) fun rest hrest => returns_pure ?_
    exact List.forall_mem_cons.mpr ⟨hpayload, hrest⟩

/-- A message of items that have a payload is sent. -/
theorem returns_send (socket : Int) {m : TMessage}
    (h : ∀ item ∈ m.DataItems, Serializable item) :
    Returns FewDacs (fun _ => True) (SendResponse (ε := ε) socket m) := by
  intro w hw
  have hbytes : m.AsBytes w.machine.Config true = some _ :=
    AsBytes_eq (fun item => (calcPayload w.machine.Config true item.toTItemBody).getD [])
      fun item hitem => by
        obtain ⟨payload, hpayload⟩ := Option.isSome_iff_exists.mp (h item hitem w.machine.Config)
        rw [hpayload, Option.getD_some]
  rw [SendResponse_exec, hbytes]
  exact ⟨_, _, rfl, hw, trivial⟩

end GreetingLemmas

open GreetingLemmas

/-- With at most four DACs the greeting is sent, and nothing is thrown. -/
theorem SendControlHello_returns (Socket : Int) {w : World ε} (h : FewDacs w) :
    ∃ w', (SendControlHello pf env Socket).exec w = some (.ok (), w') := by
  have hall : Returns FewDacs (fun _ => True) (SendControlHello (ε := ε) pf env Socket) := by
    refine returns_bind (returns_connectionID Socket) fun d2 hd2 => ?_
    refine returns_bind returns_get fun w hw => ?_
    refine returns_bind (returns_mapM fun channel hchannel => returns_range ?_)
      fun ranges hranges => ?_
    · exact Nat.lt_of_lt_of_le (List.mem_range.mp hchannel) hw
    refine returns_bind (returns_runHelloItems fun _ hitem => hitem) fun items hitems => ?_
    rw [new_of_mem (by decide : (72 : TMessageId) ∈ ValidMessageIDs), pure_bind]
    refine returns_send Socket fun item hitem => ?_
    rcases List.mem_append.mp hitem with hitem | hitem
    · rcases List.mem_cons.mp hitem with rfl | hitem
      · exact hd2
      · exact hranges item hitem
    · exact hitems item hitem
  obtain ⟨_, w', hrun, -, -⟩ := hall w h
  exact ⟨w', hrun⟩

/-- With more than four the range of the fifth channel is looked for. -/
theorem SendControlHello_undefined (Socket : Int) {w : World ε} (h : ¬FewDacs w) :
    (SendControlHello pf env Socket).exec w = none := by
  obtain ⟨k, hk⟩ := Nat.exists_eq_add_of_lt (Nat.lt_of_not_le h)
  have hrange : List.range w.machine.Config.NUM_DACs.toNat =
      List.range MAX_DACs ++ MAX_DACs :: (List.range k).map (MAX_DACs + · + 1) := by
    rw [hk, Nat.add_assoc, List.range_add, @List.range_succ_eq_map k, List.map_cons, List.map_map]
    rfl
  obtain ⟨d2, v, hd2, rfl, -⟩ := @returns_connectionID ε pf (· = w) Socket w rfl
  obtain ⟨ranges, u, hranges, rfl, -⟩ := returns_mapM (I := (· = v)) (fun channel hchannel =>
    (returns_range (List.mem_range.mp hchannel) : Returns _ Serializable (helloRange pf _))) v rfl
  have hfifth : (helloRange (ε := ε) pf MAX_DACs).exec u = none := by
    have hout : u.machine.Config.dacRanges[MAX_DACs]? = none :=
      Vector.getElem?_eq_none (Nat.le_refl _)
    rw [helloRange, exec_get_bind, exec_bind, hout]
    rfl
  rw [SendControlHello, exec_bind_ok hd2, exec_get_bind, exec_bind, hrange, List.mapM_append,
    exec_bind_ok hranges, List.mapM_cons, exec_bind, exec_bind, hfifth]
  rfl

/-! ## 2. The bounds of the configuration -/

/-- The counts in `Config` that index its arrays. -/
structure TConfig.Bounded (c : TConfig) : Prop where
  dacs : c.NUM_DACs.toNat ≤ MAX_DACs
  submuxes : c.numberOfSubmuxes.toNat ≤ maxSubmuxes
  channels : c.adcChannels.toNat ≤ 128

theorem bounded_init : InitConfig.Bounded := ⟨by decide, by decide, by decide⟩

namespace GreetingLemmas

/-- An accepted model string has at most four DACs. -/
theorem dac_count_le {s : TBytes} (h : (enet_ai_parse_dac_count s).1 = 0) :
    (enet_ai_parse_dac_count s).2.toNat ≤ MAX_DACs := by
  unfold enet_ai_parse_dac_count at h ⊢
  cases hparts : modelParts s with
  | none =>
    rw [hparts] at h
    cases h
  | some p =>
    rw [hparts] at h
    simp only at h ⊢
    cases hscan : scanDacOptions p.2.2 none false with
    | none =>
      rw [hscan] at h
      cases h
    | some q =>
      rw [hscan] at h
      simp only at h ⊢
      split at h
      case isTrue hletter =>
        rw [if_pos hletter]
        split at h
        case isTrue => cases h
        case isFalse hrange =>
          rw [if_neg hrange]
          split <;> decide
      case isFalse hletter =>
        rw [if_neg hletter]
        split at h
        case isTrue => cases h
        case isFalse hrange =>
          rw [if_neg hrange]
          decide

/-- A channel count is at most 128, for a rejected string too. -/
theorem adc_count_le (s : TBytes) : (enet_ai_parse_adc_channel_count s).2.toNat ≤ 128 := by
  unfold enet_ai_parse_adc_channel_count
  split
  · decide
  · split
    · decide
    · rename_i n _
      split
      · decide
      · rename_i hn
        rw [UInt8.toNat_ofNat']
        omega

/-- A possible number of submuxes is at most four. -/
theorem submux_count_le {features newVal : UInt8} (h : validSubmuxCount features newVal = true) :
    newVal.toNat ≤ maxSubmuxes := by
  unfold validSubmuxCount at h
  simp only at h
  split at h
  · rw [eq_of_beq h]
    decide
  · split at h
    · rw [Bool.and_eq_true, decide_eq_true_eq, decide_eq_true_eq] at h
      exact UInt8.le_iff_toNat_le.mp h.2
    · split at h
      · rw [eq_of_beq h]
        decide
      · cases h

end GreetingLemmas

/-- The item is a model string that the parser of the DAC count rejects. -/
def TItemBody.RejectedModel (this : TItemBody) : Prop :=
  this.params = .TBRD_Model ∧ (enet_ai_parse_dac_count (c_str this.rawBytes)).1 ≠ 0

/-- Every change but that of a rejected model string keeps the bounds. -/
theorem ConfigChange.bounded {id : DataItemIds} {this : TItemBody} {c c' : TConfig}
    (h : ConfigChange id this c c') (hmodel : ¬this.RejectedModel) (hc : c.Bounded) :
    c'.Bounded := by
  cases h
  case Model hparams =>
    have haccepted : (enet_ai_parse_dac_count (c_str this.rawBytes)).1 = 0 :=
      Decidable.not_not.mp fun hcode => hmodel ⟨hparams, hcode⟩
    have hdacs := dac_count_le haccepted
    have hchannels := adc_count_le (c_str this.rawBytes)
    -- the item stores what the parsers have left, whatever it is
    generalize (enet_ai_parse_dac_count (c_str this.rawBytes)).2 = dacs at hdacs ⊢
    generalize (enet_ai_parse_adc_channel_count (c_str this.rawBytes)).2 = channels at hchannels ⊢
    exact ⟨hdacs, hc.submuxes, hchannels⟩
  case numberOfSubmuxes hvalid => exact ⟨hc.dacs, submux_count_le hvalid, hc.channels⟩
  all_goals exact ⟨hc.dacs, hc.submuxes, hc.channels⟩

/-! ## 3. Runs of accepted messages -/

/-- A step runs one accepted message: a buffer that is parsed without an error, from
the globals of any moment before. Messages that are no requests change nothing. -/
def messageSystem (pf : Platform) (env : Env ε) : StepSystem (Machine ε) (TBytes × Globals) where
  next a m :=
    match (FromBytes pf a.1).exec a.2 with
    | some (.ok (message, code), _) =>
      if code ≠ ERR_SUCCESS then none
      else if isRequest message.Id then (goItems pf env message.DataItems m).map Prod.snd
      else some m
    | _ => none

/-- What the items of a message keep of `Config`, when it is run in a step with `C`. -/
def MessageKeeps (pf : Platform) (C : Machine ε → TBytes × Globals → Prop)
    (P : TConfig → Prop) : Prop :=
  ∀ m a message g', C m a → (FromBytes pf a.1).exec a.2 = some (.ok (message, ERR_SUCCESS), g') →
    ∀ item ∈ message.DataItems, ∀ c c',
      ConfigChange item.DId item.toTItemBody c c' → P c → P c'

/-- What the items of every message keep of `Config` holds in every state that is reached. -/
theorem config_invariant {C : Machine ε → TBytes × Globals → Prop} {P : TConfig → Prop}
    (hkeeps : MessageKeeps pf C P) {m₀ m : Machine ε} (hstart : P m₀.Config)
    (h : (messageSystem pf env).Reaches C m₀ m) : P m.Config := by
  refine h.invariant (I := fun m => P m.Config) hstart ?_
  intro m a m' hm hcond hnext
  simp only [messageSystem] at hnext
  split at hnext
  · rename_i message code g' hparse
    split at hnext
    · cases hnext
    · rename_i hcode
      rw [Decidable.not_not.mp hcode] at hparse
      split at hnext
      · obtain ⟨⟨qs, m₁⟩, hrun, rfl⟩ := Option.map_eq_some_iff.mp hnext
        exact goItems_invariant hrun (hkeeps m a message g' hcond hparse) hm
      · cases hnext
        exact hm
  · cases hnext

/-- No item of the message is a model string that is rejected. -/
def NoRejectedModel (pf : Platform) (_ : Machine ε) (a : TBytes × Globals) : Prop :=
  ∀ message g', (FromBytes pf a.1).exec a.2 = some (.ok (message, ERR_SUCCESS), g') →
    ∀ item ∈ message.DataItems, ¬item.toTItemBody.RejectedModel

/-- The counts are within the bounds, and a new client is greeted without an exception. -/
structure ConfigSafe (pf : Platform) (env : Env ε) (m : Machine ε) : Prop where
  bounded : m.Config.Bounded
  greets : ∀ (Socket : Int) (w : World ε), w.machine = m →
    ∃ w', (SendControlHello pf env Socket).exec w = some (.ok (), w')

/-- In every state reached without running a rejected model string. -/
theorem config_safe {m₀ m : Machine ε} (hstart : m₀.Config = InitConfig)
    (h : (messageSystem pf env).Reaches (NoRejectedModel pf) m₀ m) : ConfigSafe pf env m := by
  have hbounded : m.Config.Bounded := by
    refine config_invariant ?_ (hstart ▸ bounded_init) h
    exact fun m a message g' hcond hparse item hitem c c' hchange =>
      hchange.bounded (hcond message g' hparse item hitem)
  refine ⟨hbounded, fun Socket w hw => SendControlHello_returns Socket ?_⟩
  rw [FewDacs, hw]
  exact hbounded.dacs

/-- A command with a model string that both parsers accept. -/
def exModel : TBytes :=
  frameBytes 67 [itemBytes DataItemIds.BRD_Model (text "eNET-AIO16-16F-10U")]

/-- Two DACs, sixteen channels, and a client is greeted. -/
theorem config_safe_model :
    ∃ m : Machine Unit, (messageSystem exPlatform exEnv).Reaches (NoRejectedModel exPlatform)
      (exWorld []).machine m ∧ m.Config.NUM_DACs = 2 ∧ m.Config.adcChannels = 16 ∧
      ConfigSafe exPlatform exEnv m := by
  have hparse : (FromBytes exPlatform exModel).exec exGlobals = some (.ok (
      { Id := 67
        DataItems := [{ params := .TBRD_Model, rawBytes := text "eNET-AIO16-16F-10U",
                        DId := DataItemIds.BRD_Model }] }, ERR_SUCCESS), exGlobals) := by
    rfl
  have haccepted : NoRejectedModel exPlatform (exWorld []).machine (exModel, exGlobals) := by
    intro message g' h item hitem
    cases hparse.symm.trans h
    obtain rfl := List.mem_singleton.mp hitem
    exact fun hrejected => hrejected.2 (by decide +kernel)
  have hrun : ((messageSystem exPlatform exEnv).next (exModel, exGlobals) (exWorld []).machine).map
      (fun m => decide (m.Config.NUM_DACs = 2 ∧ m.Config.adcChannels = 16)) = some true := by
    decide +kernel
  obtain ⟨m, hnext, hcounts⟩ := Option.map_eq_some_iff.mp hrun
  have hreach : (messageSystem exPlatform exEnv).Reaches (NoRejectedModel exPlatform)
      (exWorld []).machine m := .step .start haccepted hnext
  obtain ⟨hdacs, hchannels⟩ := of_decide_eq_true hcounts
  exact ⟨m, hreach, hdacs, hchannels, config_safe rfl hreach⟩

/-- A command with a `BRD_Model` that has no data. -/
def exNoModel : TBytes := [0x43, 4, 0, 0, 0, 8, 0, 0, 0, 0xB1]

/-- The error mark of the parser is left in `Config`, and the next greeting reads
past the four channels. -/
theorem rejected_model_unsafe :
    ∃ m : Machine Unit, (messageSystem exPlatform exEnv).Reachable (exWorld []).machine m ∧
      ¬ConfigSafe exPlatform exEnv m ∧ m.Config.NUM_DACs = 255 ∧
      ∀ (Socket : Int) (w : World Unit), w.machine = m →
        (SendControlHello exPlatform exEnv Socket).exec w = none := by
  have hrun : (((messageSystem exPlatform exEnv).run [(exNoModel, exGlobals)]
      (exWorld []).machine).map fun m => decide (m.Config.NUM_DACs = 255)) = some true := by
    decide +kernel
  obtain ⟨m, hreach, hdacs⟩ := StepSystem.exists_reachable_of_run hrun
  have hdacs : m.Config.NUM_DACs = 255 := of_decide_eq_true hdacs
  have hmany : ¬m.Config.NUM_DACs.toNat ≤ MAX_DACs := by
    rw [hdacs]
    decide
  refine ⟨m, hreach, fun h => hmany h.bounded.dacs, hdacs, ?_⟩
  rintro Socket w rfl
  exact SendControlHello_undefined Socket hmany

end EnetTcp
