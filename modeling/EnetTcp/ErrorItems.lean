import EnetTcp.Parsing
import EnetTcp.Receiver
import Mathlib.Data.Nat.Digits.Defs

/-!
# Building error items

`BuildSysError` and `BuildSysItemError` send their twelve bytes and the text
through the factory, whose dictionary allows twelve bytes. So an item comes out
only where the text is empty or so long that the 16-bit length wraps around
(`BuildSysError_exec`, `BuildSysItemError_exec`). The texts of the parser are
neither (`FromBytes_throws`).
-/

namespace EnetTcp

open Prog

variable {pf : Platform}

/-! ## 1. The factory on an error item -/

/-- What a 16-bit length field leaves of a payload. -/
def wrapped (payload : TBytes) : TBytes := payload.take (payload.length % 65536)

theorem length_wrapped (payload : TBytes) : (wrapped payload).length = payload.length % 65536 :=
  List.length_take_of_le (Nat.mod_le ..)

/-- The item that the bytes of `BuildDataItem` start with. -/
theorem itemBytes_eq (did : DataItemIds) (payload : TBytes) :
    ∃ w xs, itemBytes did payload = WireItem.bytes w ++ xs ∧ w.DId = did ∧
      w.data = wrapped payload := by
  have hfits : (wrapped payload).length < 2 ^ 16 := by
    rw [length_wrapped]
    exact Nat.mod_lt _ (by decide)
  refine ⟨⟨did, wrapped payload, hfits⟩, payload.drop (payload.length % 65536), ?_, rfl, rfl⟩
  have hlen : UInt16.ofNat (wrapped payload).length = UInt16.ofNat payload.length := by
    apply UInt16.toNat_inj.mp
    rw [UInt16.toNat_ofNat', UInt16.toNat_ofNat', length_wrapped, Nat.mod_mod]
  have hdata := List.take_append_drop (payload.length % 65536) payload
  rw [WireItem.bytes_eq, hlen, itemBytes, List.append_assoc, List.append_assoc, List.append_assoc]
  exact congrArg (stuff16 did ++ ·)
    (congrArg (stuff16 (UInt16.ofNat payload.length) ++ ·) hdata.symm)

/-- Building an item of a class whose constructor keeps the bytes as they are. -/
theorem BuildDataItem_exec (pf : Platform) (params : TBytes → Params) {did : DataItemIds}
    {e : TDIdDictEntry} (he : DIdDict.find did = some e)
    (hcls : ∀ data, construct pf e.Construct data =
      pure { params := params data, rawBytes := data }) (payload : TBytes) (g : Globals) :
    (BuildDataItem pf did payload).exec g =
      some (.ok (if e.Admits (wrapped payload) then
        some { params := params (wrapped payload), rawBytes := wrapped payload, DId := did }
        else none), g) := by
  obtain ⟨w, xs, hbytes, rfl, hdata⟩ := itemBytes_eq did payload
  rw [BuildDataItem, hbytes, fromBytes_item he, hdata]
  by_cases hadmits : e.Admits (wrapped payload)
  · simp only [if_pos hadmits, hcls]
    rfl
  · simp only [if_neg hadmits]
    rfl

/-- The entries of both error items allow up to twelve bytes. -/
theorem reportEntry_admits {e : TDIdDictEntry} (hmin : e.minLen = 0) (hmax : e.maxLen = 12)
    (data : TBytes) : e.Admits data ↔ data.length ≤ 12 := by
  rw [TDIdDictEntry.Admits, hmin, hmax]
  constructor
  · rintro (rfl | ⟨-, h⟩)
    · exact Nat.zero_le _
    · exact h
  · exact fun h => .inr ⟨Nat.zero_le _, h⟩

theorem BuildSysError_exec (pf : Platform) (stage : SysErrStage) (errIndex info : UInt32)
    (what : TBytes) (g : Globals) :
    (BuildSysError pf stage errIndex info what).exec g =
      let data := wrapped (stuff32 stage.code ++ stuff32 errIndex ++ stuff32 info ++ what)
      some (.ok (if data.length ≤ 12 then
        some { params := .TSYS_Error (TSYS_Error.ctor data), rawBytes := data,
               DId := DataItemIds.SYS_Error }
        else none), g) := by
  have he : ∃ e, DIdDict.find DataItemIds.SYS_Error = some e ∧ e.Construct = .TSYS_Error ∧
      e.minLen = 0 ∧ e.maxLen = 12 := ⟨_, rfl, rfl, rfl, rfl⟩
  obtain ⟨e, hfind, hcls, hmin, hmax⟩ := he
  have hbuild := BuildDataItem_exec pf (fun data => .TSYS_Error (TSYS_Error.ctor data)) hfind
    (fun data => by rw [hcls]; rfl)
    (stuff32 stage.code ++ stuff32 errIndex ++ stuff32 info ++ what) g
  simp only [reportEntry_admits hmin hmax] at hbuild
  exact hbuild

theorem BuildSysItemError_exec (pf : Platform) (itemIndex : UInt16) (originalDid : DataItemIds)
    (errIndex info : UInt32) (what : TBytes) (g : Globals) :
    (BuildSysItemError pf itemIndex originalDid errIndex info what).exec g =
      let data := wrapped
        (stuff16 itemIndex ++ stuff16 originalDid ++ stuff32 errIndex ++ stuff32 info ++ what)
      some (.ok (if data.length ≤ 12 then
        some { params := .TSYS_ItemError (TSYS_ItemError.ctor data), rawBytes := data,
               DId := DataItemIds.SYS_ItemError }
        else none), g) := by
  have he : ∃ e, DIdDict.find DataItemIds.SYS_ItemError = some e ∧
      e.Construct = .TSYS_ItemError ∧ e.minLen = 0 ∧ e.maxLen = 12 := ⟨_, rfl, rfl, rfl, rfl⟩
  obtain ⟨e, hfind, hcls, hmin, hmax⟩ := he
  have hbuild := BuildDataItem_exec pf (fun data => .TSYS_ItemError (TSYS_ItemError.ctor data))
    hfind (fun data => by rw [hcls]; rfl)
    (stuff16 itemIndex ++ stuff16 originalDid ++ stuff32 errIndex ++ stuff32 info ++ what) g
  simp only [reportEntry_admits hmin hmax] at hbuild
  exact hbuild

/-- A text that is there and does not wrap the length around keeps the item from being built. -/
theorem BuildSysError_text {what : TBytes} (hpos : 0 < what.length) (hshort : what.length < 65524)
    (pf : Platform) (stage : SysErrStage) (errIndex info : UInt32) (g : Globals) :
    (BuildSysError pf stage errIndex info what).exec g = some (.ok none, g) := by
  have hlen : ¬(wrapped (stuff32 stage.code ++ stuff32 errIndex ++ stuff32 info ++
      what)).length ≤ 12 := by
    simp only [length_wrapped, List.length_append, length_stuff32]
    omega
  rw [BuildSysError_exec]
  simp only [if_neg hlen]

/-! ## 2. The texts of the parser -/

/-- A text that is there, and far too short to wrap a 16-bit length around. -/
def ShortText : Exn → Prop
  | .logicError what => 0 < what.length ∧ what.length < 1000
  | _ => True

namespace TextLemmas

theorem length_toDecimal {n d : Nat} (hd : 0 < d) (hn : n < 10 ^ d) :
    (toDecimal n).length ≤ d := by
  rw [toDecimal, List.length_map]
  exact Nat.toDigits_length 10 n d hd hn

theorem length_intToDecimal (n : Int32) : (intToDecimal n.toInt).length ≤ 11 := by
  have hlow := n.le_toInt
  have hhigh := n.toInt_lt
  have hdigits : (toDecimal n.toInt.natAbs).length ≤ 10 :=
    length_toDecimal (by decide) (by omega)
  rw [intToDecimal]
  split
  · rw [List.length_cons]
    omega
  · omega

theorem length_err_msg (i : Nat) : (text (err_msg.getD i "")).length ≤ 30 := by
  have hall : ∀ s ∈ err_msg, (text s).length ≤ 30 := by decide
  rw [List.getD_eq_getElem?_getD]
  cases h : err_msg[i]? with
  | none => decide
  | some s => exact hall s (List.mem_of_getElem? h)

/-- A site with names and a line number of the usual size. -/
def SmallSite (site : GuardSite) : Prop :=
  (text site.file).length ≤ 40 ∧ (text site.func).length ≤ 40 ∧ site.line < 10 ^ 4

theorem guardWhat_short {site : GuardSite} (h : SmallSite site) (rc : TError) (info : UInt32) :
    ShortText (.logicError (guardWhat site rc info)) := by
  obtain ⟨hfile, hfunc, hline⟩ := h
  have hline : (toDecimal site.line).length ≤ 4 := length_toDecimal (by decide) hline
  have hindex : (toDecimal (ErrIndex rc).toNat).length ≤ 10 :=
    length_toDecimal (by decide) (Nat.lt_trans (ErrIndex rc).toNat_lt (by decide))
  have hmsg := length_err_msg (ErrIndex rc).toNat
  have hhex : (to_hex 4 info.toNat).length = 8 := by
    rw [to_hex, List.length_map, List.length_range]
  have hlits : (text "\nGUARD! ").length = 8 ∧ (text ": ").length = 2 ∧ (text "(").length = 1 ∧
      (text "): -").length = 4 ∧ (text " ").length = 1 ∧ (text " = ").length = 3 := by decide
  obtain ⟨h₁, h₂, h₃, h₄, h₅, h₆⟩ := hlits
  simp only [ShortText, guardWhat, List.length_append, h₁, h₂, h₃, h₄, h₅, h₆, hhex]
  omega

theorem throws_guard {σ : Type} {site : GuardSite} (h : SmallSite site) {b : Bool} {rc : TError}
    {info : UInt32} : Throws ShortText (GUARD b rc info site : Prog Exn σ Unit) :=
  throws_ite (throws_pure _) (throws_throw (guardWhat_short h rc info))

theorem throws_dacOutput {lineChannel lineSize : Nat} (hlines : lineChannel < 10 ^ 4 ∧
    lineSize < 10 ^ 4) (data : TBytes) :
    Throws ShortText (DAC_Output.parseBytes pf lineChannel lineSize data) := by
  have hsite (line : Nat) (h : line < 10 ^ 4) : SmallSite (TDAC_Output.site line) :=
    ⟨(by decide : (text "./DataItems/DAC_.cpp").length ≤ 40),
      (by decide : (text "parseBytes").length ≤ 40), h⟩
  refine throws_bind (throws_guard (hsite _ hlines.1)) fun _ => throws_bind throws_get fun g => ?_
  refine throws_ite ?_ (throws_ite ?_ ?_)
  · exact throws_bind (throws_ofOption _) fun _ => throws_pure _
  · exact throws_bind (throws_ofOption _) fun _ =>
      throws_bind (throws_ofOption _) fun _ => throws_pure _
  · exact throws_bind (throws_guard (hsite _ hlines.2)) fun _ => throws_pure _

theorem throws_range1 (data : TBytes) :
    Throws ShortText (TDAC_Range1.ctor data : Prog Exn Globals (DAC_RangeParams × Bool)) := by
  have hsite : SmallSite (TDAC_Output.site 221) := ⟨by decide, by decide, by decide⟩
  cases data with
  | nil => exact throws_pure _
  | cons ch data =>
    refine throws_bind (throws_guard hsite) fun _ =>
      throws_ite (throws_bind (throws_ofOption _) fun rangeCode => ?_) (throws_pure _)
    exact throws_ite (throws_pure _) (throws_pure _)

theorem throws_write1 (data : TBytes) :
    Throws ShortText (TREG_Write1.ctor data : Prog Exn Globals (List REG_Write)) := by
  have hsite (line : Nat) (h : line < 10 ^ 4) : SmallSite (TREG_Write1.site line) :=
    ⟨(by decide : (text "./DataItems/REG_.cpp").length ≤ 40),
      (by decide : (text "TREG_Write1").length ≤ 40), h⟩
  exact throws_bind (throws_guard (hsite 255 (by decide))) fun _ =>
    throws_bind (throws_ofOption _) fun _ =>
    throws_bind (throws_guard (hsite 258 (by decide))) fun _ =>
    throws_bind (throws_guard (hsite 259 (by decide))) fun _ =>
    throws_bind (throws_ofOption _) fun _ => throws_pure _

theorem throws_uploadFileName (data : TBytes) :
    Throws ShortText (TSYS_UploadFileName.ctor pf data : Prog Exn Globals TBytes) := by
  have habs : Throws ShortText (absolutePath pf.currentPath data : Prog Exn Globals TBytes) := by
    unfold absolutePath
    split
    · exact throws_throw trivial
    · exact throws_ite (throws_pure _) (throws_ite (throws_pure _) (throws_pure _))
  refine throws_bind (throws_ite (throws_pure _) ?_) fun _ => throws_pure _
  exact throws_bind habs fun _ => throws_ite (throws_pure _) (throws_pure _)

theorem throws_streamStart (data : TBytes) :
    Throws ShortText (construct pf .TADC_StreamStart data) := by
  intro g x g' h
  rw [streamStart_exec] at h
  split at h
  · cases h
    have hbusy : (text "ADC Busy already on Connection: ").length = 32 := by decide
    have hid := length_intToDecimal g.AdcStreamingConnection
    simp only [ShortText, List.length_append, hbusy]
    omega
  · cases h

end TextLemmas

open TextLemmas

/-- The texts that constructors throw. -/
theorem construct_throws (pf : Platform) (cls : ItemClass) (data : TBytes) :
    Throws ShortText (construct pf cls data) := by
  have hclock : SmallSite TADC_BaseClock.site := ⟨by decide, by decide, by decide⟩
  have hchannels : SmallSite TBRD_GetNumberOfAdcChannels.site := ⟨by decide, by decide, by decide⟩
  cases cls
  case TDAC_Output | TDAC_OutputV =>
    exact throws_bind (throws_dacOutput ⟨by decide, by decide⟩ data) fun _ => throws_pure _
  case TADC_StreamStart => exact throws_streamStart data
  case TREG_Write1 => exact throws_bind (throws_write1 data) fun _ => throws_pure _
  case TDAC_Range1 => exact throws_bind (throws_range1 data) fun _ => throws_pure _
  case TADC_BaseClock =>
    exact throws_bind (throws_bind (throws_guard hclock) fun _ => throws_pure _)
      fun _ => throws_pure _
  case TBRD_GetNumberOfAdcChannels =>
    exact throws_bind (throws_bind (throws_guard hchannels) fun _ => throws_pure _)
      fun _ => throws_pure _
  case TSYS_UploadFileName =>
    exact throws_bind (throws_uploadFileName data) fun _ => throws_pure _
  all_goals exact throws_pure _

/-- The texts that the parser throws. -/
theorem FromBytes_throws (pf : Platform) (buf : TBytes) : Throws ShortText (FromBytes pf buf) := by
  intro g x g' h
  by_cases hheader : HeaderOk pf buf
  · obtain ⟨ws, items, c, ⟨rest, m, -, -, -, hstops⟩, hr⟩ := (FromBytes_iff hheader).mp h
    match c, hr with
    | .error x', hr =>
      obtain rfl : x = x' := Except.error.inj hr
      cases hstops with
      | unknown =>
        have hsite : SmallSite (fromBytesSite 545) := ⟨by decide, by decide, by decide⟩
        exact guardWhat_short hsite _ _
      | refused _ _ hrun => exact construct_throws pf _ _ _ _ _ hrun
  · obtain ⟨r, -, hr, hrun⟩ := FromBytes_of_not_headerOk hheader
    rw [hrun] at h
    cases h
    obtain rfl := hr x rfl
    exact ⟨by decide, by decide⟩

end EnetTcp
