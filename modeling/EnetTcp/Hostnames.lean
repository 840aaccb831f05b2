import Mathlib.Data.List.TakeWhile
import EnetTcp.Items.Cfg

/-!
# Host names (utilities.cpp, IsValidHostname)

The loop over the labels of a name goes past each dot and ends with the string. So it does not
look at the empty label behind a dot at the very end.

* `Hostname`: what a host name is.
* `isValidHostname_iff`: the function recognises the host names, but for a host name with one
  more dot.
-/

namespace EnetTcp

/-! ## 1. The grammar -/

def LetterOrDigit (c : UInt8) : Prop :=
  (48 ≤ c ∧ c ≤ 57) ∨ (65 ≤ c ∧ c ≤ 90) ∨ (97 ≤ c ∧ c ≤ 122)

/-- What stands between two dots. -/
structure HostnameLabel (s : TBytes) : Prop where
  min : 1 ≤ s.length
  max : s.length ≤ 63
  starts : s.head? ≠ some 45
  ends : s.getLast? ≠ some 45
  bytes : ∀ c ∈ s, LetterOrDigit c ∨ c = 45

structure Hostname (host : TBytes) : Prop where
  min : 1 ≤ host.length
  max : host.length ≤ 253
  labels : ∀ s ∈ host.splitOn 46, HostnameLabel s

/-- Labels with one more dot. They are taken for a host name. -/
structure EndsWithDot (host : TBytes) : Prop where
  max : host.length ≤ 253
  labels : ∃ name, host = name ++ [46] ∧ ∀ s ∈ name.splitOn 46, HostnameLabel s

/-! ## 2. The scan -/

namespace HostnameLemmas

theorem isAlnumByte_iff (c : UInt8) : isAlnumByte c = true ↔ LetterOrDigit c := by
  unfold isAlnumByte isDigitByte LetterOrDigit
  simp only [Bool.or_eq_true, Bool.and_eq_true, decide_eq_true_eq, or_assoc]

theorem isValidHostnameLabel_iff (s : TBytes) :
    IsValidHostnameLabel s = true ↔ HostnameLabel s := by
  unfold IsValidHostnameLabel
  simp only [Bool.and_eq_true, Bool.not_eq_true', List.isEmpty_eq_false_iff, decide_eq_true_eq,
    bne_iff_ne, ne_eq, List.all_eq_true, Bool.or_eq_true, beq_iff_eq, isAlnumByte_iff]
  constructor
  · rintro ⟨⟨⟨⟨hne, hmax⟩, hstarts⟩, hends⟩, hbytes⟩
    exact ⟨List.length_pos_iff.mpr hne, hmax, hstarts, hends, hbytes⟩
  · intro h
    exact ⟨⟨⟨⟨List.length_pos_iff.mp h.min, h.max⟩, h.starts⟩, h.ends⟩, h.bytes⟩

/-- One round of the loop takes a label and the dot behind it. -/
theorem validLabels_label {n : Nat} {label : TBytes} (rest : TBytes) (hdot : 46 ∉ label) :
    validLabels (n + 1) (label ++ 46 :: rest) = true ↔
      HostnameLabel label ∧ validLabels n rest = true := by
  have hbytes : ∀ c ∈ label, (c != 46) = true := fun c hc =>
    bne_iff_ne.mpr fun heq => hdot (heq ▸ hc)
  have htake : (label ++ 46 :: rest).takeWhile (· != 46) = label := by
    rw [List.takeWhile_append_of_pos hbytes]
    exact List.append_nil label
  have hdrop : ((label ++ 46 :: rest).dropWhile (· != 46)).drop 1 = rest := by
    rw [List.dropWhile_append_of_pos hbytes]
    rfl
  cases hs : label ++ 46 :: rest with
  | nil => exact absurd hs (List.append_ne_nil_of_right_ne_nil _ (List.cons_ne_nil _ _))
  | cons b s =>
    rw [validLabels, Bool.and_eq_true, ← hs, htake, hdrop, isValidHostnameLabel_iff]
    exact fun h => List.cons_ne_nil _ _ h

/-- The last label has no dot behind it. -/
theorem validLabels_last {n : Nat} {label : TBytes} (hdot : 46 ∉ label) (hne : label ≠ []) :
    validLabels (n + 1) label = true ↔ HostnameLabel label := by
  have hbytes : ∀ c ∈ label, (c != 46) = true := fun c hc =>
    bne_iff_ne.mpr fun heq => hdot (heq ▸ hc)
  have htake : label.takeWhile (· != 46) = label := List.takeWhile_eq_self_iff.mpr hbytes
  have hdrop : (label.dropWhile (· != 46)).drop 1 = [] := by
    rw [List.dropWhile_eq_nil_iff.mpr hbytes]
    rfl
  cases label with
  | nil => exact absurd rfl hne
  | cons b s =>
    rw [validLabels, Bool.and_eq_true, htake, hdrop, isValidHostnameLabel_iff]
    · cases n <;> exact and_iff_left rfl
    · exact hne

/-- The loop looks at the labels of `s`, whether a dot comes at the end of it or not. -/
theorem validLabels_iff {n : Nat} {s last : TBytes} (hlen : (s ++ last).length ≤ n)
    (hlast : last = [46] ∨ last = [] ∧ s ≠ [] ∧ s.getLast? ≠ some 46) :
    validLabels n (s ++ last) = true ↔ ∀ label ∈ s.splitOn 46, HostnameLabel label := by
  induction n generalizing s with
  | zero =>
    have hnil := List.append_eq_nil_iff.mp (List.length_eq_zero_iff.mp (Nat.le_zero.mp hlen))
    rcases hlast with hlast | ⟨-, hne, -⟩
    · rw [hlast] at hnil
      cases hnil.2
    · exact absurd hnil.1 hne
  | succ n ih =>
    by_cases hdot : 46 ∈ s
    · obtain ⟨label, rest, rfl, hfirst⟩ := List.eq_append_cons_of_mem hdot
      have hlen' : (rest ++ last).length ≤ n := by
        simp only [List.length_append, List.length_cons] at hlen ⊢
        omega
      have hlast' : last = [46] ∨ last = [] ∧ rest ≠ [] ∧ rest.getLast? ≠ some 46 := by
        refine hlast.imp_right fun ⟨hnil, _, hend⟩ => ?_
        cases rest with
        | nil => exact absurd (by rw [List.getLast?_append]; rfl) hend
        | cons b rest =>
          refine ⟨hnil, List.cons_ne_nil _ _, ?_⟩
          rw [List.getLast?_append, List.getLast?_cons_cons, List.getLast?_cons] at hend
          rwa [List.getLast?_cons]
      rw [List.splitOn_append_cons_self_of_not_mem hfirst, List.forall_mem_cons, List.append_assoc,
        List.cons_append, validLabels_label _ hfirst, ih hlen' hlast']
    · rw [List.splitOn_eq_singleton hdot, List.forall_mem_singleton]
      rcases hlast with rfl | ⟨rfl, hne, -⟩
      · rw [validLabels_label [] hdot]
        cases n <;> exact and_iff_left rfl
      · rw [List.append_nil, validLabels_last hdot hne]

theorem validLabels_of_no_dot {s : TBytes} (hne : s ≠ []) (hend : s.getLast? ≠ some 46) :
    validLabels s.length s = true ↔ ∀ label ∈ s.splitOn 46, HostnameLabel label := by
  have hlen : (s ++ []).length ≤ s.length := by rw [List.append_nil]
  have hiff := validLabels_iff hlen (.inr ⟨rfl, hne, hend⟩)
  rwa [List.append_nil] at hiff

end HostnameLemmas

open HostnameLemmas

/-! ## 3. What is recognised -/

/-- Host names are recognised, and nothing else but labels with one more dot. -/
theorem isValidHostname_iff (host : TBytes) :
    (IsValidHostname host = true ↔ Hostname host) ↔ ¬EndsWithDot host := by
  have hscan : IsValidHostname host = true ↔
      host ≠ [] ∧ host.length ≤ 253 ∧ validLabels host.length host = true := by
    unfold IsValidHostname
    rw [Bool.and_eq_true, Bool.and_eq_true, Bool.not_eq_true', List.isEmpty_eq_false_iff,
      decide_eq_true_eq, and_assoc]
  by_cases hend : host.getLast? = some 46
  · -- the last component is empty
    obtain ⟨name, rfl⟩ := List.getLast?_eq_some_iff.mp hend
    have hlast : (name ++ [46]).splitOn 46 = name.splitOn 46 ++ [[]] :=
      List.splitOn_append_cons_self name []
    have hnot : ¬Hostname (name ++ [46]) := fun h => by
      have hlabel := h.labels [] (hlast ▸ List.mem_append_right _ List.mem_cons_self)
      exact absurd hlabel.min (by decide)
    rw [iff_false_right hnot, hscan, validLabels_iff (Nat.le_refl _) (.inl rfl)]
    refine not_congr ⟨fun h => ⟨h.2.1, name, rfl, h.2.2⟩, fun h => ?_⟩
    obtain ⟨name', hname, hlabels⟩ := h.labels
    rw [List.append_cancel_right hname]
    exact ⟨List.append_ne_nil_of_right_ne_nil _ (List.cons_ne_nil _ _), hname ▸ h.max, hlabels⟩
  · have hnot : ¬EndsWithDot host := fun h => by
      obtain ⟨name, rfl, -⟩ := h.labels
      exact hend (by rw [List.getLast?_append]; rfl)
    refine iff_of_true (hscan.trans ?_) hnot
    constructor
    · rintro ⟨hne, hmax, hlabels⟩
      exact ⟨List.length_pos_iff.mpr hne, hmax, (validLabels_of_no_dot hne hend).mp hlabels⟩
    · intro h
      have hne := List.length_pos_iff.mp h.min
      exact ⟨hne, h.max, (validLabels_of_no_dot hne hend).mpr h.labels⟩

/-- The label behind the dot is empty. -/
theorem dot_at_end_accepted :
    IsValidHostname (text "enet.") = true ∧ ¬Hostname (text "enet.") := by
  refine ⟨by decide, ?_⟩
  intro h
  exact absurd (h.labels [] (by decide)).min (by decide)

end EnetTcp
