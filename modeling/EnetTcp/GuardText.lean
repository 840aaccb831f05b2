import EnetTcp.Restoring

/-!
# The text of a failed GUARD, read back (utilities.h, aioenetd.cpp)

The number of an error and the info value travel in the text of an exception, behind the names of
a file and a function. The reader looks for the first `): -` and for the last `=`.

* `guard_text_parses`: both numbers come back when no `): -` comes before the one of the writer.
* `guard_text_straddled`: a file and a function can have one between them.
-/

namespace EnetTcp

open Prog LoadLemmas RestoreLemmas GuardLemmas

/-! ## 1. The text, and all that the reader gives -/

/-- The text that `GUARD` makes of any names and any `int` as a line number. -/
def guardText (file func : TBytes) (line : Int) (rc : TError) (info : UInt32) : TBytes :=
  text "\nGUARD! " ++ (file ++ text ": " ++ func) ++ text "(" ++ intToDecimal line ++ text "): -" ++
    toDecimal (ErrIndex rc).toNat ++ text " " ++ text (err_msg.getD (ErrIndex rc).toNat "") ++
    text " = " ++ to_hex 4 info.toNat

theorem guardWhat_eq (site : GuardSite) (rc : TError) (info : UInt32) :
    guardWhat site rc info = guardText (text site.file) (text site.func) site.line rc info := by
  have hline : intToDecimal site.line = toDecimal site.line := by
    rw [intToDecimal, if_neg (Int.not_lt.mpr (Int.natCast_nonneg _)), Int.natAbs_natCast]
  unfold guardWhat guardText
  simp only [hline, List.append_assoc]

/-- The function with what it returns: whether an error index was found. -/
def TryParseGuardWhat.withResult (what : TBytes) (errIndex info : UInt32) :
    Bool × UInt32 × UInt32 :=
  match afterFirst (text "): -") what with
  | none => (false, errIndex, info)
  | some s =>
    let digits := s.takeWhile isDigitByte
    if digits.isEmpty then (false, errIndex, info)
    else
      match stoul 10 digits with
      | none => (false, errIndex, info)
      | some n =>
        let info :=
          match afterLast 61 what with
          | none => info
          | some hex =>
            let hex := trim hex
            let hex := if hex.head? == some 48 && (hex[1]? == some 120 || hex[1]? == some 88)
              then hex.drop 2 else hex
            match stoul 16 hex with
            | none => info
            | some v => UInt32.ofNat v
        (true, UInt32.ofNat n, info)

/-- The values that the callers go on with. -/
theorem TryParseGuardWhat.withResult_snd (what : TBytes) (errIndex info : UInt32) :
    (TryParseGuardWhat.withResult what errIndex info).2 =
      TryParseGuardWhat what errIndex info := by
  unfold TryParseGuardWhat.withResult TryParseGuardWhat
  cases afterFirst (text "): -") what with
  | none => rfl
  | some s =>
    simp only
    cases hdigits : s.takeWhile isDigitByte with
    | nil => rfl
    | cons b digits =>
      rw [if_neg (by simp)]
      cases stoul 10 (b :: digits) with
      | none => rfl
      | some n => rfl

/-! ## 2. The first and the last occurrence -/

namespace GuardTextLemmas

theorem afterFirst_skip {c : UInt8} {pat x : TBytes} (hx : c ∉ x) (s : TBytes) :
    afterFirst (c :: pat) (x ++ s) = afterFirst (c :: pat) s := by
  induction x with
  | nil => rfl
  | cons b x ih =>
    rw [List.mem_cons, not_or] at hx
    have hne : (c == b) = false := by simpa using hx.1
    rw [List.cons_append, afterFirst, List.isPrefixOf, hne, Bool.false_and, if_neg (by simp),
      ih hx.2]

/-- A byte that the pattern does not have ends what comes before the first occurrence. -/
theorem afterFirst_append {pat x : TBytes} {d : UInt8} (hx : ¬pat <:+: x) (hd : d ∉ pat)
    (s : TBytes) : afterFirst pat (x ++ d :: s) = afterFirst pat (d :: s) := by
  induction x with
  | nil => rfl
  | cons b x ih =>
    have hno : ¬pat <+: b :: (x ++ d :: s) := by
      intro hbegins
      rcases List.prefix_or_prefix_of_prefix hbegins (List.prefix_append (b :: x) (d :: s)) with
        hshort | ⟨r, hlong⟩
      · exact hx hshort.isInfix
      · rw [← hlong, ← List.cons_append, List.prefix_append_right_inj] at hbegins
        cases r with
        | nil =>
          rw [List.append_nil] at hlong
          exact hx (hlong ▸ List.infix_rfl)
        | cons d' r =>
          cases (List.cons_prefix_cons.mp hbegins).1
          exact hd (hlong ▸ List.mem_append_right _ List.mem_cons_self)
    rw [List.cons_append, afterFirst, if_neg fun h => hno (List.isPrefixOf_iff_prefix.mp h)]
    exact ih fun h => hx (List.infix_cons h)

theorem afterFirst_self {c : UInt8} (pat s : TBytes) :
    afterFirst (c :: pat) (c :: pat ++ s) = some s := by
  rw [List.cons_append, afterFirst, if_pos, ← List.cons_append, List.drop_left]
  exact List.isPrefixOf_iff_prefix.mpr (List.prefix_append (c :: pat) s)

theorem afterLast_append {c : UInt8} {s : TBytes} (hs : c ∉ s) (x : TBytes) :
    afterLast c (x ++ c :: s) = some s := by
  have hplain : ∀ b ∈ s.reverse, (b != c) = true := fun b hb =>
    bne_iff_ne.mpr fun heq => hs (heq ▸ List.mem_reverse.mp hb)
  unfold afterLast
  rw [if_pos (List.mem_append_right _ List.mem_cons_self), List.reverse_append, List.reverse_cons,
    List.append_assoc, List.takeWhile_append_of_pos hplain]
  simp

/-! ## 3. The two numbers -/

theorem toDecimal_digits (n : Nat) : ∀ b ∈ toDecimal n, isDigitByte b = true := by
  intro b hb
  obtain ⟨c, hc, rfl⟩ := List.mem_map.mp hb
  have hdigit := Nat.isDigit_of_mem_toDigits (by decide) (by decide) hc
  have hall : ∀ n : Fin 58, 48 ≤ n.val → isDigitByte (UInt8.ofNat n) = true := by decide
  rw [Char.isDigit_iff_toNat] at hdigit
  exact hall ⟨c.toNat, Nat.lt_succ_of_le hdigit.2⟩ hdigit.1

theorem not_mem_intToDecimal (n : Int) : 41 ∉ intToDecimal n := by
  have hdigits : 41 ∉ toDecimal n.natAbs := fun h => absurd (toDecimal_digits _ 41 h) (by decide)
  unfold intToDecimal
  split
  · rw [List.mem_cons, not_or]
    exact ⟨by decide, hdigits⟩
  · exact hdigits

/-- An index is written in decimal and read back. -/
theorem stoul_toDecimal {i : Nat} (hi : i < 16) : stoul 10 (toDecimal i) = some i := by
  have hall : ∀ i : Fin 16, stoul 10 (toDecimal i) = some i.val := by decide
  exact hall ⟨i, hi⟩

theorem mapM_to_hex (n : Nat) : ∃ ds, (to_hex 4 n).mapM (digitValue 16) = some ds ∧
    ds.foldl (fun n d => n * 16 + d) 0 = n % 16 ^ 8 :=
  ⟨_, mapM_hexDigit (fun _ => Nat.mod_lt _ (by decide)) _, foldl_digits n 8⟩

theorem length_to_hex (w n : Nat) : (to_hex w n).length = 2 * w := by
  rw [to_hex, List.length_map, List.length_range]

theorem to_hex_plain {n : Nat} {b : UInt8} (hb : b ∈ to_hex 4 n) :
    isSpaceByte b = false ∧ b ≠ 120 ∧ b ≠ 88 ∧ b ≠ 61 := by
  obtain ⟨ds, hds, -⟩ := mapM_to_hex n
  obtain ⟨d, hd⟩ := mapM_mem hds b hb
  obtain ⟨hspace, -, -, hlower, hupper, -⟩ := digitValue_ne hd
  refine ⟨hspace, hlower, hupper, ?_⟩
  rintro rfl
  cases hd

theorem stoul_to_hex (n : UInt32) : stoul 16 (to_hex 4 n.toNat) = some n.toNat := by
  obtain ⟨ds, hds, hvalue⟩ := mapM_to_hex n.toNat
  have hlen := length_to_hex 4 n.toNat
  rw [stoul_of_mapM hds (List.ne_nil_of_length_pos (by omega)) (by omega), hvalue,
    Nat.mod_eq_of_lt (Nat.lt_of_lt_of_le n.toNat_lt (by decide))]

/-- What stands behind the last equals sign, without the blank before it. -/
theorem trim_to_hex (n : Nat) : trim (32 :: to_hex 4 n) = to_hex 4 n := by
  have hdrop : ∀ s : TBytes, (∀ b ∈ s, isSpaceByte b = false) → s.dropWhile isSpaceByte = s := by
    intro s hs
    cases s with
    | nil => rfl
    | cons b s => rw [List.dropWhile_cons_of_neg (by simp [hs b List.mem_cons_self])]
  have hplain : ∀ b ∈ to_hex 4 n, isSpaceByte b = false := fun b hb => (to_hex_plain hb).1
  unfold trim
  rw [List.dropWhile_cons_of_pos rfl, hdrop _ hplain,
    hdrop _ fun b hb => hplain b (List.mem_reverse.mp hb), List.reverse_reverse]

end GuardTextLemmas

open GuardTextLemmas

/-! ## 4. The text read back -/

section Parse

variable {file func : TBytes} (line : Int) (rc : TError) (info : UInt32)

namespace GuardTextLemmas

/-- What the writer puts behind the error index. -/
def afterIndex : TBytes :=
  32 :: (text (err_msg.getD (ErrIndex rc).toNat "") ++ [32] ++ 61 :: 32 :: to_hex 4 info.toNat)

theorem guardText_eq : guardText file func line rc info =
    text "\nGUARD! " ++ (file ++ text ": " ++ func ++ 40 :: (intToDecimal line ++
      (41 :: [58, 32, 45] ++ (toDecimal (ErrIndex rc).toNat ++ afterIndex rc info)))) := by
  have hopen : text "(" = [40] := rfl
  have hclose : text "): -" = 41 :: [58, 32, 45] := rfl
  have hblank : text " " = [32] := rfl
  have hequals : text " = " = [32] ++ [61, 32] := rfl
  unfold guardText afterIndex
  simp only [hopen, hclose, hblank, hequals, List.append_assoc, List.cons_append, List.nil_append]

theorem afterFirst_guardText (hnames : ¬text "): -" <:+: file ++ text ": " ++ func) :
    afterFirst (text "): -") (guardText file func line rc info) =
      some (toDecimal (ErrIndex rc).toNat ++ afterIndex rc info) := by
  have hclose : text "): -" = 41 :: [58, 32, 45] := rfl
  rw [hclose] at hnames ⊢
  -- neither the names nor the line number have a place where the reader would stop
  rw [guardText_eq, afterFirst_skip (by decide), afterFirst_append hnames (by decide),
    ← List.cons_append, afterFirst_skip, afterFirst_self]
  rw [List.mem_cons, not_or]
  exact ⟨by decide, not_mem_intToDecimal line⟩

theorem takeWhile_index :
    (toDecimal (ErrIndex rc).toNat ++ afterIndex rc info).takeWhile isDigitByte =
      toDecimal (ErrIndex rc).toNat := by
  rw [List.takeWhile_append_of_pos (toDecimal_digits _), afterIndex,
    List.takeWhile_cons_of_neg (by decide), List.append_nil]

theorem afterLast_guardText (file func : TBytes) :
    afterLast 61 (guardText file func line rc info) = some (32 :: to_hex 4 info.toNat) := by
  have hequals : text " = " = [32, 61, 32] := rfl
  have hsplit (x : TBytes) : x ++ text " = " ++ to_hex 4 info.toNat =
      (x ++ [32]) ++ 61 :: 32 :: to_hex 4 info.toNat := by
    rw [hequals, List.append_assoc, List.append_assoc]
    rfl
  unfold guardText
  rw [hsplit, afterLast_append]
  intro hmem
  rcases List.mem_cons.mp hmem with hmem | hmem
  · exact absurd hmem (by decide)
  · exact (to_hex_plain hmem).2.2.2 rfl

end GuardTextLemmas

/-- The error index and the info value are read back. -/
theorem guard_text_parses (hnames : ¬text "): -" <:+: file ++ text ": " ++ func)
    (hrc : (ErrIndex rc).toNat < err_msg.length) (errIndex₀ info₀ : UInt32) :
    TryParseGuardWhat.withResult (guardText file func line rc info) errIndex₀ info₀ =
        (true, ErrIndex rc, info) ∧
      ∀ (σ : Type) (s : σ) (site : GuardSite), text site.file = file → text site.func = func →
        (site.line : Int) = line → (GUARD false rc info site).exec s =
          some (.error (.logicError (guardText file func line rc info)), s) := by
  constructor
  · have hne : (toDecimal (ErrIndex rc).toNat).isEmpty = false := by
      have hall : ∀ i : Fin 16, (toDecimal i).isEmpty = false := by decide
      exact hall ⟨_, hrc⟩
    have hx : ∀ b : UInt8, b = 120 ∨ b = 88 → (to_hex 4 info.toNat)[1]? ≠ some b := by
      rintro b hb hget
      obtain ⟨-, hlower, hupper, -⟩ := to_hex_plain (List.mem_of_getElem? hget)
      exact hb.elim hlower hupper
    have hprefixed : ((to_hex 4 info.toNat).head? == some 48 &&
        ((to_hex 4 info.toNat)[1]? == some 120 || (to_hex 4 info.toNat)[1]? == some 88)) =
          false := by
      rw [beq_eq_false_iff_ne.mpr (hx 120 (.inl rfl)), beq_eq_false_iff_ne.mpr (hx 88 (.inr rfl)),
        Bool.or_self, Bool.and_false]
    unfold TryParseGuardWhat.withResult
    rw [afterFirst_guardText line rc info hnames, afterLast_guardText]
    simp only [takeWhile_index, hne, Bool.false_eq_true, if_false, stoul_toDecimal hrc, trim_to_hex,
      hprefixed, stoul_to_hex, UInt32.ofNat_toNat]
  · rintro σ s site rfl rfl rfl
    rw [guard_exec, guardWhat_eq]
    rfl

end Parse

/-- The text of a GUARD of fromBytes. -/
theorem guard_text_fromBytes :
    TryParseGuardWhat.withResult (guardText (text "./DataItems/TDataItem.cpp") (text "fromBytes")
      545 ERR_DId_INVALID 0x7777) 3 0 = (true, ErrIndex ERR_DId_INVALID, 0x7777) :=
  (guard_text_parses 545 ERR_DId_INVALID 0x7777 (by decide) (by decide) 3 0).1

/-- Between a file and a function that have none of it the text has what the reader looks for. -/
theorem guard_text_straddled :
    ¬text "): -" <:+: text "a)" ∧ ¬text "): -" <:+: text "-b" ∧
      (GUARD false ERR_DId_INVALID 7 ⟨"a)", "-b", 1⟩).exec () =
        some (.error (.logicError (guardText (text "a)") (text "-b") 1 ERR_DId_INVALID 7)), ()) ∧
      TryParseGuardWhat.withResult (guardText (text "a)") (text "-b") 1 ERR_DId_INVALID 7) 3 0 =
        (false, 3, 0) := by
  refine ⟨by decide, by decide, ?_, by decide +kernel⟩
  rw [guard_exec, guardWhat_eq]
  rfl

end EnetTcp
