import EnetTcp.Receiving

/-!
# What is read outside a Go

An item acts when its `Go` runs. A few fields of `Config` are looked at at another
moment: a constructor reads the settings of a DAC channel, and a reply is
serialized with the model and the serial number of that moment. These fields are
the cells.

* `WireItem.reads`: the cells that the constructor of an item reads.
* `GotMessage_agree`: a frame gives the same message under two configurations that
  agree on the cells it reads.
* `calcPayload_agree`: the same for the payload of an item and the cells it reports.
-/

namespace EnetTcp

open Prog

variable {pf : Platform}

/-! ## 1. Cells -/

/-- The fields of `Config` that are read outside a `Go`. -/
inductive Cell
  | dacScale (ch : Fin MAX_DACs)
  | dacOffset (ch : Fin MAX_DACs)
  | dacRange (ch : Fin MAX_DACs)
  | model
  | serialNumber
  deriving DecidableEq

def Cell.Value : Cell → Type
  | .dacScale _ | .dacOffset _ | .dacRange _ => UInt32
  | .model | .serialNumber => TBytes

/-- What a configuration holds in a cell. -/
def TConfig.at (c : TConfig) : (cell : Cell) → cell.Value
  | .dacScale ch => getElem c.dacScaleCoefficients ch ch.isLt
  | .dacOffset ch => getElem c.dacOffsetCoefficients ch ch.isLt
  | .dacRange ch => getElem c.dacRanges ch ch.isLt
  | .model => c.Model
  | .serialNumber => c.SerialNumber

/-- The cells that an output item on `data` is scaled with. -/
def dacReads (data : TBytes) : List Cell :=
  let ch := dacChannelOf data
  if data.headD 0 < 4 then
    if data.length = 3 then [.dacScale ch, .dacOffset ch]
    else if data.length = 5 then [.dacScale ch, .dacOffset ch, .dacRange ch]
    else []
  else []

/-- The cells that the constructor of the item reads. -/
def WireItem.reads (w : WireItem) : List Cell :=
  if w.DId = DataItemIds.DAC_Output1 ∨ w.DId = DataItemIds.DAC_Output1V then dacReads w.data else []

/-! ## 2. Items -/

/-- The same globals under another configuration. -/
def Globals.withConfig (c : TConfig) (g : Globals) : Globals := { g with Config := c }

namespace CellLemmas

theorem dacView_agree {data : TBytes} {c c' : TConfig}
    (h : ∀ cell ∈ dacReads data, c.at cell = c'.at cell) : dacView data c = dacView data c' := by
  by_cases hchannel : data.headD 0 < 4
  · by_cases h3 : data.length = 3
    · simp only [dacReads, hchannel, h3, if_true] at h
      have hscale : c.dacScaleCoefficients[dacChannelOf data] =
        c'.dacScaleCoefficients[dacChannelOf data] := h (.dacScale _) (by simp)
      have hoffset : c.dacOffsetCoefficients[dacChannelOf data] =
        c'.dacOffsetCoefficients[dacChannelOf data] := h (.dacOffset _) (by simp)
      simp only [dacView, hchannel, h3, if_true, hscale, hoffset]
    · by_cases h5 : data.length = 5
      · simp only [dacReads, hchannel, h5, if_true] at h
        have hscale : c.dacScaleCoefficients[dacChannelOf data] =
          c'.dacScaleCoefficients[dacChannelOf data] := h (.dacScale _) (by simp)
        have hoffset : c.dacOffsetCoefficients[dacChannelOf data] =
          c'.dacOffsetCoefficients[dacChannelOf data] := h (.dacOffset _) (by simp)
        have hrange : c.dacRanges[dacChannelOf data] = c'.dacRanges[dacChannelOf data] :=
          h (.dacRange _) (by simp)
        simp only [dacView, hchannel, h5, if_true, hscale, hoffset, hrange]
      · simp only [dacView, h3, h5, if_false]
  · simp only [dacView, hchannel, if_false]

end CellLemmas

open CellLemmas

/-- A constructor does the same under two configurations that agree on what it reads. -/
theorem construct_agree {w : WireItem} {e : TDIdDictEntry} (he : DIdDict.find w.DId = some e)
    {g g' : Globals} {c : TConfig} (h : ∀ cell ∈ w.reads, g.Config.at cell = c.at cell)
    {r : Except Exn TItemBody} (hrun : (construct pf e.Construct w.data).exec g = some (r, g')) :
    (construct pf e.Construct w.data).exec (g.withConfig c) = some (r, g'.withConfig c) := by
  obtain ⟨hmem, hid⟩ := find_some he
  by_cases huses : e.Construct.usesGlobals = false
  · obtain ⟨rfl, hall⟩ := (construct_stateless huses w.data).exec_eq hrun
    exact hall _
  by_cases hdac : e.Construct = .TDAC_Output ∨ e.Construct = .TDAC_OutputV
  · have hreads : w.reads = dacReads w.data :=
      if_pos (hid ▸ (dacOutput_entry hmem).mp hdac)
    obtain ⟨f, hf⟩ := dacItem_exec hdac pf w.data
    rw [hf, Option.map_eq_some_iff] at hrun
    obtain ⟨q, hq, hr⟩ := hrun
    obtain ⟨rfl, rfl⟩ := Prod.mk.inj hr
    have hview : dacView w.data c = dacView w.data g.Config :=
      (dacView_agree (hreads ▸ h)).symm
    have hq' : f (dacView w.data (g.withConfig c).Config) = some q := by
      rw [← hq, ← hview]
      rfl
    rw [hf, hq']
    rfl
  · have hstart : e.Construct = .TADC_StreamStart := by
      revert huses hdac
      generalize e.Construct = cls
      intro huses hdac
      cases cls
      case TADC_StreamStart => rfl
      case TDAC_Output => exact absurd (.inl rfl) hdac
      case TDAC_OutputV => exact absurd (.inr rfl) hdac
      all_goals exact absurd rfl huses
    rw [hstart, streamStart_exec] at hrun ⊢
    show (if w.data.length = 4 ∧ g.AdcStreamingConnection ≠ -1 then _ else _) = _
    split at hrun
    case isTrue hbusy =>
      rw [if_pos hbusy]
      cases hrun
      rfl
    case isFalse hfree =>
      rw [if_neg hfree]
      cases hrun
      by_cases hlen : w.data.length = 4
      · rw [if_pos hlen, if_pos hlen]
        rfl
      · rw [if_neg hlen, if_neg hlen]

theorem WireItem.Builds.agree {w : WireItem} {g g' : Globals} {item : TDataItem} {c : TConfig}
    (h : w.Builds pf g item g') (hreads : ∀ cell ∈ w.reads, g.Config.at cell = c.at cell) :
    w.Builds pf (g.withConfig c) item (g'.withConfig c) := by
  obtain ⟨⟨e, he, hadmits, hrun⟩, hid⟩ := h
  exact ⟨⟨e, he, hadmits, construct_agree he hreads hrun⟩, hid⟩

theorem Built.agree {ws : List WireItem} {g g' : Globals} {items : List TDataItem} {c : TConfig}
    (h : Built pf g ws items g')
    (hreads : ∀ w ∈ ws, ∀ cell ∈ w.reads, g.Config.at cell = c.at cell) :
    Built pf (g.withConfig c) ws items (g'.withConfig c) := by
  induction h with
  | nil => exact .nil
  | @cons g g₁ g₂ w ws item items hw _ ih =>
    obtain ⟨hhead, htail⟩ := List.forall_mem_cons.mp hreads
    refine .cons (hw.agree hhead) (ih ?_)
    obtain ⟨⟨e, -, -, hrun⟩, -⟩ := hw
    rwa [construct_config hrun]

theorem Built.append_inv {ws ws' : List WireItem} {g g' : Globals} {items : List TDataItem}
    (h : Built pf g (ws ++ ws') items g') :
    ∃ xs ys g₁, items = xs ++ ys ∧ Built pf g ws xs g₁ ∧ Built pf g₁ ws' ys g' := by
  induction ws generalizing g items with
  | nil => exact ⟨[], items, g, rfl, .nil, h⟩
  | cons w ws ih =>
    cases h with
    | cons hw hrest =>
      obtain ⟨xs, ys, g₁, rfl, hxs, hys⟩ := ih hrest
      exact ⟨_ :: xs, ys, g₁, rfl, .cons hw hxs, hys⟩

theorem Stops.agree {g : Globals} {bytes : TBytes} {n : Nat} {r : Except Exn TError} {c : TConfig}
    (h : Stops pf g bytes n r)
    (hreads : ∀ w xs m, bytes = WireItem.bytes w ++ xs → n = w.bytes.length + m →
      ∀ cell ∈ w.reads, g.Config.at cell = c.at cell) :
    Stops pf (g.withConfig c) bytes n r := by
  cases h with
  | leftover hn => exact .leftover hn
  | badLength hbad => exact .badLength hbad
  | unknown hn hid hl hfit hfind => exact .unknown hn hid hl hfit hfind
  | @refused w e xs m x he hadmits hrun =>
    exact .refused he hadmits (construct_agree he (hreads w xs m rfl rfl) hrun)

/-! ## 3. Frames -/

/-- Parsing the frame reads the cell. -/
def Frame.Reads (pf : Platform) (g : Globals) (f : Frame) (cell : Cell) : Prop :=
  ∃ w, f.Constructs pf g w ∧ cell ∈ w.reads

namespace CellLemmas

/-- An item that is built, or that the parser stops at, is one that it constructs. -/
theorem constructs_of_mem {f : Frame} (hid : isValidMessageID pf f.MId = true) {g g' : Globals}
    {ws : List WireItem} {items : List TDataItem} {rest : TBytes}
    (hpayload : f.payload = itemFormat.encodeAll ws ++ rest) (hbuilt : Built pf g ws items g')
    {w : WireItem} (hw : w ∈ ws) : f.Constructs pf g w := by
  obtain ⟨pre, post, rfl⟩ := List.append_of_mem hw
  obtain ⟨xs, ys, g₁, -, hpre, -⟩ := hbuilt.append_inv
  refine ⟨hid, pre, xs, g₁, itemFormat.encodeAll post ++ rest, ?_, hpre⟩
  rw [hpayload, RecordFormat.encodeAll_append, RecordFormat.encodeAll_cons, List.append_assoc,
    List.append_assoc]
  rfl

/-- The payload of a frame that is parsed. -/
theorem payload_of_parses {f : Frame} {ws : List WireItem} {rest : TBytes} {m : Nat}
    (hbytes : f.payload ++ [f.checksum] = itemFormat.encodeAll ws ++ rest)
    (hlen : f.payload.length = (itemFormat.encodeAll ws).length + m) :
    f.payload = itemFormat.encodeAll ws ++ rest.take m := by
  have htake := congrArg (List.take f.payload.length) hbytes
  rwa [List.take_left, hlen, List.take_length_add_append] at htake

end CellLemmas

/-- A frame is parsed alike under two configurations that agree on what it reads. -/
theorem FromBytes_agree {f : Frame} {g g' : Globals} {c : TConfig}
    (h : ∀ cell, f.Reads pf g cell → g.Config.at cell = c.at cell)
    {r : Except Exn (TMessage × TError)} (hrun : (FromBytes pf f.bytes).exec g = some (r, g')) :
    (FromBytes pf f.bytes).exec (g.withConfig c) = some (r, g'.withConfig c) := by
  by_cases hid : isValidMessageID pf f.MId = true
  · obtain ⟨ws, items, code, ⟨rest, m, hbytes, hlen, hbuilt, hstops⟩, rfl⟩ :=
      (FromBytes_frame hid).mp hrun
    have hpayload := payload_of_parses hbytes hlen
    refine (FromBytes_frame hid).mpr ⟨ws, items, code, ⟨rest, m, hbytes, hlen, ?_, ?_⟩, rfl⟩
    · exact hbuilt.agree fun w hw cell hcell =>
        h cell ⟨w, constructs_of_mem hid hpayload hbuilt hw, hcell⟩
    · refine hstops.agree fun w xs k hrest hm cell hcell => ?_
      rw [hbuilt.config]
      refine h cell ⟨w, ⟨hid, ws, items, g', xs.take k, ?_, hbuilt⟩, hcell⟩
      rw [hpayload, hrest, hm, List.take_length_add_append]
  · obtain ⟨r', -, -, hall⟩ := FromBytes_of_not_headerOk (mt (headerOk_frame f).mp hid)
    rw [hall] at hrun ⊢
    cases hrun
    rfl

theorem GotMessage_agree {f : Frame} {g g' : Globals} {c : TConfig}
    (h : ∀ cell, f.Reads pf g cell → g.Config.at cell = c.at cell)
    {r : Except Exn TMessage} (hrun : (GotMessage pf f.bytes).exec g = some (r, g')) :
    (GotMessage pf f.bytes).exec (g.withConfig c) = some (r, g'.withConfig c) := by
  rw [GotMessage_exec, Option.map_eq_some_iff] at hrun
  obtain ⟨⟨q, g₁⟩, hq, hr⟩ := hrun
  obtain ⟨rfl, rfl⟩ := Prod.mk.inj hr
  rw [GotMessage_exec, FromBytes_agree h hq]
  rfl

/-! ## 4. Replies -/

/-- The cells that the payload of an item shows. -/
def Params.reports : Params → List Cell
  | .TBRD_Model | .TBRD_GetModel => [.model]
  | .TBRD_SerialNumber | .TBRD_GetSerialNumber => [.serialNumber]
  | _ => []

theorem calcPayload_agree {c c' : TConfig} (bAsReply : Bool) {this : TItemBody}
    (h : ∀ cell ∈ this.params.reports, c.at cell = c'.at cell) :
    calcPayload c bAsReply this = calcPayload c' bAsReply this := by
  obtain ⟨params, Data, rawBytes, resultCode, bWrite⟩ := this
  cases params
  case TBRD_Model | TBRD_GetModel => exact congrArg some (h .model (by simp [Params.reports]))
  case TBRD_SerialNumber | TBRD_GetSerialNumber =>
    exact congrArg some (h .serialNumber (by simp [Params.reports]))
  all_goals rfl

end EnetTcp
