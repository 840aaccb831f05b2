import EnetTcp.Parsing

/-!
# Items that the factory accepts

* `accepts_item`: the factory on a complete item gives one with the result `ERR_SUCCESS` if the
  id is known, the entry admits the length, and the constructor takes the data.
* `accepts_iff`: where no complete item begins, there is no such result.
-/

namespace EnetTcp

open Prog GuardLemmas

variable {pf : Platform}

/-- `TDataItemBase::fromBytes` gives the item and the result `ERR_SUCCESS`. -/
def Accepts (pf : Platform) (g : Globals) (bytes : TBytes) (item : TDataItem) (g' : Globals) :
    Prop :=
  (fromBytes pf bytes).exec g = some (.ok (item, ERR_SUCCESS), g')

/-- A complete item is accepted where it can be built. -/
theorem accepts_item {g g' : Globals} {w : WireItem} {item : TDataItem} {xs : TBytes} :
    Accepts pf g (w.bytes ++ xs) item g' ↔ w.Builds pf g item g' := by
  cases hfind : DIdDict.find w.DId with
  | none =>
    refine iff_of_false (fun h => ?_) fun ⟨⟨e, he, _⟩, _⟩ => ?_
    · have hlen : 4 ≤ (w.bytes ++ xs).length := by
        rw [List.length_append, w.length_bytes]
        omega
      rw [Accepts, fromBytes_unknown hlen (w.readU16_id xs) hfind] at h
      cases h
    · rw [hfind] at he
      cases he
  | some e =>
    rw [Accepts, fromBytes_item hfind]
    by_cases hadmits : e.Admits w.data
    · rw [if_pos hadmits, exec_bind]
      constructor
      · intro h
        rw [Option.bind_eq_some_iff] at h
        obtain ⟨⟨r, g₁⟩, hrun, hitem⟩ := h
        cases r with
        | error x => cases hitem
        | ok body =>
          cases hitem
          exact ⟨⟨e, hfind, hadmits, hrun⟩, rfl⟩
      · rintro ⟨⟨e', he', -, hrun⟩, hid⟩
        rw [hfind] at he'
        cases he'
        rw [hrun]
        rw [← hid]
        rfl
    · rw [if_neg hadmits]
      refine iff_of_false (fun h => ?_) fun ⟨⟨e', he', hadmits', _⟩, _⟩ => ?_
      · cases h
      · rw [hfind] at he'
        cases he'
        exact hadmits hadmits'

/-- A constructor that does no more than return a body. -/
theorem body_of_pure {b body : TItemBody} {g g' : Globals}
    (h : (pure b : Prog Exn Globals TItemBody).exec g = some (.ok body, g')) : body = b :=
  (Except.ok.inj (congrArg Prod.fst (Option.some.inj h))).symm

/-- What the dictionary has for an id. -/
theorem entry_of_find {id : DataItemIds} {e : TDIdDictEntry} (he : DIdDict.find id = some e)
    {x : ItemClass × Nat × Nat}
    (hx : (DIdDict.find id).map (fun e => (e.Construct, e.minLen, e.maxLen)) = some x) :
    e.Construct = x.1 ∧ e.minLen = x.2.1 ∧ e.maxLen = x.2.2 := by
  rw [he] at hx
  cases hx
  exact ⟨rfl, rfl, rfl⟩

/-- What is accepted begins with a complete item. -/
theorem accepts_iff {g g' : Globals} {bytes : TBytes} {item : TDataItem} :
    Accepts pf g bytes item g' ↔
      ∃ w xs, bytes = WireItem.bytes w ++ xs ∧ w.Builds pf g item g' := by
  constructor
  · intro h
    have hread := h
    rw [Accepts, fromBytes] at hread
    obtain ⟨-, hread⟩ := guard_bind_ok hread
    obtain ⟨id, hid, hread⟩ := ofOption_bind_some hread
    obtain ⟨-, hread⟩ := guard_bind_ok hread
    obtain ⟨e, he, hread⟩ := ofOption_bind_some hread
    obtain ⟨l, hl, -⟩ := ofOption_bind_some hread
    obtain ⟨hlen, id', hid', hcut | ⟨w, xs, rfl, -, -⟩⟩ := header_cases hl
    · cases hid.symm.trans hid'
      rw [Accepts, fromBytes_cut hlen hid hl he hcut] at h
      cases h
    · exact ⟨w, xs, rfl, accepts_item.mp h⟩
  · rintro ⟨w, xs, rfl, hbuilds⟩
    exact accepts_item.mpr hbuilds

end EnetTcp
