import Mathlib.Data.Bool.AllAny
import Mathlib.Data.List.DropRight
import EnetTcp.Items.Brd

/-!
# The DAC count in the model string (BRD_.cpp, enet_ai_parse_dac_count)

A model string is `eNET-AI` with a core, a block and options between dashes. The parser trims
the string as a whole and each option once more, and goes through the options with `strtok_r`.

* `parse_dac_count_eq`: the result, in terms of the codes that the options stand for.
* `dac_count_iff`: when the parser succeeds, with what count, and that the order of the options
  does not matter.
-/

namespace EnetTcp

/-! ## 1. Model strings -/

def dacRangeCodes : List TBytes := [text "5B", text "10B", text "5U", text "10U"]

/-- `eNET-AI<core>-<block>-<options>` -/
structure ModelString where
  head : TBytes
  core : TBytes
  block : TBytes
  options : List TBytes
  /-- Upper and lower case are the same. -/
  head_eq : head.map toUpperByte = (text "eNET-AI").map toUpperByte
  core_ne : core ≠ []
  block_ne : block ≠ []
  core_plain : ∀ b ∈ core, b ≠ 45 ∧ isSpaceByte b = false
  block_plain : ∀ b ∈ block, b ≠ 45 ∧ isSpaceByte b = false
  options_plain : ∀ option ∈ options, 45 ∉ option ∧ option.length ≤ 31
  bytes : TBytes
  bytes_eq : bytes = head ++ [45].intercalate (core :: block :: options)
  /-- It is a C string. -/
  nonzero : 0 ∉ bytes
  short : bytes.length < 256

/-- What an option stands for. -/
def optionCode (option : TBytes) : TBytes := (trim option).map toUpperByte

namespace ModelString

variable (s : ModelString)

def codes : List TBytes := s.options.map optionCode

/-- The core begins with an O: there are DACs. -/
def HasDacs : Prop := s.core.head? = some 79 ∨ s.core.head? = some 111

instance : Decidable s.HasDacs := inferInstanceAs (Decidable (_ ∨ _))

/-- The codes that are ranges, repetitions included. -/
def ranges : List TBytes := s.codes.filter dacRangeCodes.contains

def Has4AO : Prop := text "4AO" ∈ s.codes

instance : Decidable s.Has4AO :=
  decidable_of_iff (s.codes.contains (text "4AO") = true) List.contains_iff_mem

/-- The options go with the core. -/
def Consistent : Prop :=
  (s.HasDacs ∧ s.ranges.length = 1) ∨ (¬s.HasDacs ∧ s.ranges = [] ∧ ¬s.Has4AO)

instance : Decidable s.Consistent := inferInstanceAs (Decidable (_ ∨ _))

def dacCount : UInt8 := if s.HasDacs then if s.Has4AO then 4 else 2 else 0

end ModelString

/-! ## 2. Trimming -/

namespace ModelLemmas

open List

theorem trim_eq (s : TBytes) : trim s = (s.dropWhile isSpaceByte).rdropWhile isSpaceByte := rfl

theorem rdropWhile_append_cons {α : Type} {p : α → Bool} {a : α} (h : p a = false)
    (l r : List α) : (l ++ a :: r).rdropWhile p = l ++ a :: r.rdropWhile p := by
  have hreverse : (l ++ a :: r).reverse = r.reverse ++ a :: l.reverse := by
    rw [List.reverse_append, List.reverse_cons, List.append_assoc]
    rfl
  unfold rdropWhile
  rw [hreverse, List.dropWhile_append]
  split
  case isTrue hempty =>
    have ha : ¬p a = true := by
      rw [h]
      exact Bool.false_ne_true
    rw [List.isEmpty_iff.mp hempty, List.dropWhile_cons_of_neg ha, List.reverse_cons,
      List.reverse_reverse]
    rfl
  case isFalse =>
    rw [List.reverse_append, List.reverse_cons, List.reverse_reverse, List.append_assoc]
    rfl

/-- Trimming the string on the right trims its last part. -/
def trimLast : List TBytes → List TBytes
  | [] => []
  | [part] => [part.rdropWhile isSpaceByte]
  | part :: part' :: parts => part :: trimLast (part' :: parts)

theorem splitOn_rdropWhile {parts : List TBytes} (hparts : ∀ part ∈ parts, 45 ∉ part)
    (hne : parts ≠ []) :
    (([45].intercalate parts).rdropWhile isSpaceByte).splitOn 45 = trimLast parts := by
  induction parts with
  | nil => exact absurd rfl hne
  | cons part parts ih =>
    obtain ⟨hpart, hrest⟩ := List.forall_mem_cons.mp hparts
    cases parts with
    | nil =>
      rw [List.intercalate_singleton, trimLast, List.splitOn_eq_singleton]
      exact fun hmem => hpart (List.IsPrefix.mem hmem (List.rdropWhile_prefix _ _))
    | cons part' parts =>
      rw [List.intercalate_cons_cons, List.append_assoc, List.singleton_append,
        rdropWhile_append_cons (by decide), List.splitOn_append_cons_self_of_not_mem hpart,
        ih hrest (List.cons_ne_nil _ _), trimLast]

theorem mem_trimLast {parts : List TBytes} {part' : TBytes} (h : part' ∈ trimLast parts) :
    ∃ part ∈ parts, part' <+: part := by
  induction parts with
  | nil => cases h
  | cons part parts ih =>
    cases parts with
    | nil =>
      rw [trimLast, List.mem_singleton] at h
      exact ⟨part, List.mem_cons_self, h ▸ rdropWhile_prefix _ _⟩
    | cons part₂ parts =>
      rw [trimLast, List.mem_cons] at h
      rcases h with rfl | h
      · exact ⟨_, List.mem_cons_self, List.prefix_refl _⟩
      · obtain ⟨part₃, hmem, hbegins⟩ := ih h
        exact ⟨part₃, List.mem_cons_of_mem _ hmem, hbegins⟩

theorem rdropWhile_append_of_pos {α : Type} {p : α → Bool} {l r : List α} (h : ∀ a ∈ r, p a) :
    (l ++ r).rdropWhile p = l.rdropWhile p := by
  unfold rdropWhile
  rw [List.reverse_append, List.dropWhile_append_of_pos fun a ha => h a (List.mem_reverse.mp ha)]

theorem trim_rdropWhile (s : TBytes) : trim (s.rdropWhile isSpaceByte) = trim s := by
  have hspaces : ∀ b ∈ s.rtakeWhile isSpaceByte, isSpaceByte b = true := fun b hb =>
    mem_rtakeWhile_imp hb
  rw [trim_eq, trim_eq]
  conv =>
    rhs
    rw [← rdropWhile_append_rtakeWhile (p := isSpaceByte) (l := s), List.dropWhile_append]
  split
  case isTrue hempty =>
    rw [List.isEmpty_iff.mp hempty, List.dropWhile_eq_nil_iff.mpr hspaces]
  case isFalse => rw [rdropWhile_append_of_pos hspaces]

theorem codes_trimLast (parts : List TBytes) :
    (trimLast parts).map optionCode = parts.map optionCode := by
  induction parts with
  | nil => rfl
  | cons part parts ih =>
    cases parts with
    | nil =>
      rw [trimLast, List.map_singleton, List.map_singleton, optionCode, trim_rdropWhile]
      rfl
    | cons part' parts =>
      rw [trimLast, List.map_cons, ih]
      rfl

theorem mem_intercalate {sep part : TBytes} {parts : List TBytes} {b : UInt8}
    (hpart : part ∈ parts) (hb : b ∈ part) : b ∈ sep.intercalate parts := by
  induction parts with
  | nil => cases hpart
  | cons first parts ih =>
    cases parts with
    | nil =>
      rw [List.intercalate_singleton]
      exact List.mem_singleton.mp hpart ▸ hb
    | cons second parts =>
      rw [List.intercalate_cons_cons]
      rcases List.mem_cons.mp hpart with rfl | hpart
      · exact List.mem_append_left _ (List.mem_append_left _ hb)
      · exact List.mem_append_right _ (ih hpart)

/-- A short text without a zero byte fits a buffer. -/
theorem snprintfBuf_eq {n : Nat} {s : TBytes} (hzero : 0 ∉ s) (hlen : s.length < n) :
    snprintfBuf n s = s := by
  have hself : c_str s = s :=
    List.takeWhile_eq_self_iff.mpr fun b hb => bne_iff_ne.mpr fun heq => hzero (heq ▸ hb)
  rw [snprintfBuf, hself, List.take_of_length_le (Nat.le_sub_one_of_lt hlen)]

/-! ## 3. The options -/

theorem is_valid_dac_range_iff (code : TBytes) :
    is_valid_dac_range code = true ↔ code ∈ dacRangeCodes := by
  simp only [is_valid_dac_range, dacRangeCodes, Bool.or_eq_true, beq_iff_eq, List.mem_cons,
    List.not_mem_nil, or_false, or_assoc]

/-- The scan finds the first range, and gives up at the second. -/
theorem scanDacOptions_eq {toks : List TBytes}
    (htoks : ∀ tok ∈ toks, 0 ∉ tok ∧ tok.length ≤ 31) (range : Option TBytes) (seen_4ao : Bool) :
    scanDacOptions toks range seen_4ao =
      if (range.toList ++ (toks.map optionCode).filter dacRangeCodes.contains).length ≤ 1 then
        some ((range.toList ++ (toks.map optionCode).filter dacRangeCodes.contains).head?,
          seen_4ao || decide (text "4AO" ∈ toks.map optionCode))
      else none := by
  induction toks generalizing range seen_4ao with
  | nil => cases range <;> cases seen_4ao <;> rfl
  | cons tok toks ih =>
    obtain ⟨⟨hzero, hlen⟩, hrest⟩ := List.forall_mem_cons.mp htoks
    have hcode : (trim (snprintfBuf 32 tok)).map toUpperByte = optionCode tok := by
      rw [snprintfBuf_eq hzero (Nat.lt_succ_of_le hlen)]
      rfl
    have hother (h : optionCode tok ∉ dacRangeCodes) :
        (optionCode tok :: toks.map optionCode).filter dacRangeCodes.contains =
          (toks.map optionCode).filter dacRangeCodes.contains :=
      List.filter_cons_of_neg (by rwa [List.contains_iff_mem])
    have hmem (h : optionCode tok ≠ text "4AO") :
        text "4AO" ∈ optionCode tok :: toks.map optionCode ↔ text "4AO" ∈ toks.map optionCode := by
      rw [List.mem_cons]
      exact or_iff_right fun heq => h heq.symm
    unfold scanDacOptions
    rw [hcode, List.map_cons]
    by_cases hempty : optionCode tok = []
    · rw [if_pos (List.isEmpty_iff.mpr hempty), ih hrest, hother (by rw [hempty]; decide)]
      simp only [hmem (by rw [hempty]; decide)]
    rw [if_neg (fun h => hempty (List.isEmpty_iff.mp h))]
    by_cases h4ao : optionCode tok = text "4AO"
    · rw [if_pos (beq_iff_eq.mpr h4ao), ih hrest, hother (by rw [h4ao]; decide), h4ao]
      simp only [List.mem_cons_self, decide_true, Bool.or_true, Bool.true_or]
    rw [if_neg (fun h => h4ao (beq_iff_eq.mp h))]
    simp only [hmem h4ao]
    by_cases hrange : optionCode tok ∈ dacRangeCodes
    · have hfilter : (optionCode tok :: toks.map optionCode).filter dacRangeCodes.contains =
          optionCode tok :: (toks.map optionCode).filter dacRangeCodes.contains :=
        List.filter_cons_of_pos (by rwa [List.contains_iff_mem])
      rw [if_pos ((is_valid_dac_range_iff _).mpr hrange), hfilter]
      cases range with
      | none => exact ih hrest _ _
      | some r =>
        -- the second range ends the scan
        rw [if_neg]
        simp only [Option.toList_some, List.singleton_append, List.length_cons]
        omega
    · rw [if_neg (fun h => hrange ((is_valid_dac_range_iff _).mp h)), hother hrange]
      exact ih hrest _ _

/-- A letter, in either case. -/
theorem toUpperByte_cases {b u : UInt8} (h : toUpperByte b = u) : b = u ∨ b = u + 32 := by
  unfold toUpperByte at h
  split at h
  · exact .inr (by rw [← h, UInt8.sub_add_cancel])
  · exact .inl h

end ModelLemmas

open ModelLemmas

/-! ## 4. The parser -/

namespace ModelString

variable (s : ModelString)

theorem head_cons : ∃ b rest, s.head = b :: rest ∧ (b = 69 ∨ b = 101) := by
  cases hhead : s.head with
  | nil =>
    have h := s.head_eq
    rw [hhead] at h
    cases h
  | cons b rest =>
    have h := s.head_eq
    rw [hhead] at h
    exact ⟨b, rest, rfl, toUpperByte_cases (List.cons.inj h).1⟩

theorem length_head : s.head.length = 7 := by
  have h := congrArg List.length s.head_eq
  rw [List.length_map, List.length_map] at h
  exact h

/-- What is left of the string after trimming. -/
def trimmed : TBytes :=
  s.head ++ ([45].intercalate (s.core :: s.block :: s.options)).rdropWhile isSpaceByte

theorem trim_bytes : trim s.bytes = s.trimmed := by
  obtain ⟨b, rest, hhead, hb⟩ := s.head_cons
  have hfirst : isSpaceByte b = false := by rcases hb with rfl | rfl <;> decide
  rw [s.bytes_eq, trim_eq, trimmed, hhead, List.cons_append,
    List.dropWhile_cons_of_neg (by rw [hfirst]; exact Bool.false_ne_true)]
  rw [List.intercalate_cons_cons, List.append_assoc, List.singleton_append,
    rdropWhile_append_cons (by decide), ← List.cons_append, ← List.append_assoc,
    rdropWhile_append_cons (by decide), List.append_assoc]

/-- There is nothing more to trim. -/
theorem trim_trimmed : trim s.trimmed = s.trimmed := by
  obtain ⟨b, rest, hhead, hb⟩ := s.head_cons
  have hfirst : isSpaceByte b = false := by rcases hb with rfl | rfl <;> decide
  have hright : s.trimmed.rdropWhile isSpaceByte = s.trimmed := by
    rw [← s.trim_bytes, trim_eq]
    exact List.rdropWhile_idempotent _ _
  have hleft : s.trimmed.dropWhile isSpaceByte = s.trimmed := by
    rw [trimmed, hhead, List.cons_append,
      List.dropWhile_cons_of_neg (by rw [hfirst]; exact Bool.false_ne_true)]
  rw [trim_eq, hleft, hright]

theorem block_trimmed : s.block.rdropWhile isSpaceByte = s.block :=
  List.rdropWhile_eq_self_iff.mpr fun hne h =>
    absurd h (by rw [(s.block_plain _ (List.getLast_mem hne)).2]; exact Bool.false_ne_true)

theorem trimLast_parts :
    trimLast (s.core :: s.block :: s.options) = s.core :: s.block :: trimLast s.options := by
  cases hoptions : s.options with
  | nil =>
    show s.core :: [s.block.rdropWhile isSpaceByte] = _
    rw [s.block_trimmed]
    rfl
  | cons option options => rw [trimLast, trimLast]

/-- The parts of the trimmed string, without the empty options. -/
theorem strtokDash_parts :
    strtokDash (([45].intercalate (s.core :: s.block :: s.options)).rdropWhile isSpaceByte) =
      s.core :: s.block :: (trimLast s.options).filter (!·.isEmpty) := by
  have hparts : ∀ part ∈ s.core :: s.block :: s.options, 45 ∉ part := by
    refine List.forall_mem_cons.mpr ⟨fun h => (s.core_plain _ h).1 rfl, ?_⟩
    refine List.forall_mem_cons.mpr ⟨fun h => (s.block_plain _ h).1 rfl, fun o ho => ?_⟩
    exact (s.options_plain o ho).1
  have hcore : (!s.core.isEmpty) = true := by
    rw [List.isEmpty_eq_false_iff.mpr s.core_ne]
    rfl
  have hblock : (!s.block.isEmpty) = true := by
    rw [List.isEmpty_eq_false_iff.mpr s.block_ne]
    rfl
  rw [strtokDash, splitOn_rdropWhile hparts (List.cons_ne_nil _ _), s.trimLast_parts]
  exact (List.filter_cons_of_pos (p := fun part : TBytes => !part.isEmpty) hcore).trans
    (congrArg _ (List.filter_cons_of_pos hblock))

theorem modelParts_eq :
    modelParts s.bytes = some (s.core, s.block, (trimLast s.options).filter (!·.isEmpty)) := by
  obtain ⟨b, rest, hhead, hb⟩ := s.head_cons
  have hbegins : (text "\\000027").isPrefixOf s.trimmed = false := by
    rw [trimmed, hhead, List.cons_append]
    show (92 == b && _) = false
    rcases hb with rfl | rfl <;> rfl
  have htake : s.trimmed.take 7 = s.head := List.take_left' s.length_head
  have hdrop : s.trimmed.drop 7 =
      ([45].intercalate (s.core :: s.block :: s.options)).rdropWhile isSpaceByte :=
    List.drop_left' s.length_head
  unfold modelParts
  rw [snprintfBuf_eq s.nonzero s.short, s.trim_bytes]
  dsimp only
  rw [hbegins, if_neg Bool.false_ne_true, s.trim_trimmed, htake, hdrop, s.strtokDash_parts,
    if_neg (fun h => h s.head_eq)]

/-- Empty options have no code that counts. -/
theorem codes_nonempty {q : TBytes → Bool} (hq : q [] = false) (options : List TBytes) :
    ((options.filter (!·.isEmpty)).map optionCode).filter q =
      (options.map optionCode).filter q := by
  induction options with
  | nil => rfl
  | cons option options ih =>
    rw [List.map_cons]
    by_cases hempty : option = []
    · have hcode : ¬q (optionCode option) = true := by
        rw [hempty]
        exact ne_true_of_eq_false hq
      rw [List.filter_cons_of_neg hcode, hempty]
      exact ih
    · have hnonempty : (!option.isEmpty) = true := by
        rw [List.isEmpty_eq_false_iff.mpr hempty]
        rfl
      rw [List.filter_cons_of_pos (p := fun part : TBytes => !part.isEmpty) hnonempty,
        List.map_cons, List.filter_cons, List.filter_cons, ih]

theorem toks_plain :
    ∀ tok ∈ (trimLast s.options).filter (!·.isEmpty), 0 ∉ tok ∧ tok.length ≤ 31 := by
  intro tok htok
  obtain ⟨option, hoption, hbegins⟩ := mem_trimLast (List.mem_filter.mp htok).1
  have hbytes : 0 ∉ option := fun hzero => s.nonzero <| by
    rw [s.bytes_eq]
    refine List.mem_append_right _ (mem_intercalate ?_ hzero)
    exact List.mem_cons_of_mem _ (List.mem_cons_of_mem _ hoption)
  exact ⟨fun h => hbytes (hbegins.mem h),
    Nat.le_trans hbegins.length_le (s.options_plain option hoption).2⟩

/-- What the scan of the options gives. -/
theorem scan_eq : scanDacOptions ((trimLast s.options).filter (!·.isEmpty)) none false =
    if s.ranges.length ≤ 1 then some (s.ranges.head?, decide s.Has4AO) else none := by
  have hranges : (((trimLast s.options).filter (!·.isEmpty)).map optionCode).filter
      dacRangeCodes.contains = s.ranges := by
    rw [codes_nonempty (by decide), codes_trimLast]
    rfl
  have h4ao : text "4AO" ∈ ((trimLast s.options).filter (!·.isEmpty)).map optionCode ↔
      s.Has4AO := by
    have hfilter := codes_nonempty (q := (· == text "4AO")) (by decide) (trimLast s.options)
    have hmem := congrArg (text "4AO" ∈ ·) hfilter
    simp only [List.mem_filter, beq_self_eq_true, and_true] at hmem
    rw [hmem, codes_trimLast]
    rfl
  rw [scanDacOptions_eq s.toks_plain, hranges]
  simp only [h4ao, Option.toList_none, List.nil_append, Bool.false_or]

/-- The parser finds what the options say when they go with the core, and nothing otherwise. -/
theorem parse_dac_count_eq : enet_ai_parse_dac_count s.bytes =
    if s.Consistent then (0, s.dacCount) else (-1, 255) := by
  have hdacs : s.core.head?.map toUpperByte = some 79 ↔ s.HasDacs := by
    obtain ⟨b, rest, hcore⟩ := List.exists_cons_of_ne_nil s.core_ne
    rw [HasDacs, hcore, List.head?_cons, Option.map_some, Option.some.injEq, Option.some.injEq,
      Option.some.injEq]
    exact ⟨toUpperByte_cases, by rintro (rfl | rfl) <;> decide⟩
  unfold enet_ai_parse_dac_count
  rw [s.modelParts_eq]
  dsimp only
  rw [s.scan_eq]
  by_cases hlen : s.ranges.length ≤ 1
  · rw [if_pos hlen]
    dsimp only
    simp only [hdacs]
    cases hranges : s.ranges with
    | nil =>
      by_cases hhas : s.HasDacs <;> by_cases h4ao : s.Has4AO <;>
        simp [Consistent, dacCount, hranges, hhas, h4ao]
    | cons r rs =>
      obtain rfl : rs = [] := List.length_eq_zero_iff.mp (by rw [hranges] at hlen; simpa using hlen)
      by_cases hhas : s.HasDacs <;> by_cases h4ao : s.Has4AO <;>
        simp [Consistent, dacCount, hranges, hhas, h4ao]
  · have hnot : ¬s.Consistent := by
      rintro (⟨-, hone⟩ | ⟨-, hnone, -⟩)
      · exact hlen (Nat.le_of_eq hone)
      · rw [hnone] at hlen
        exact hlen (Nat.zero_le _)
    rw [if_neg hlen, if_neg hnot]

end ModelString

/-! ## 5. Success, count and order -/

/-- The parser succeeds on the consistent strings and gives their count. Strings whose cores agree
on the DACs and whose options are the same but for their order have the same result. -/
theorem dac_count_iff (s : ModelString) :
    ((enet_ai_parse_dac_count s.bytes).1 = 0 ↔ s.Consistent) ∧
      (s.Consistent → (enet_ai_parse_dac_count s.bytes).2 = s.dacCount) ∧
      ∀ s' : ModelString, (s'.HasDacs ↔ s.HasDacs) → s'.codes.Perm s.codes →
        enet_ai_parse_dac_count s'.bytes = enet_ai_parse_dac_count s.bytes := by
  refine ⟨?_, ?_, ?_⟩
  · rw [s.parse_dac_count_eq]
    split
    case isTrue h => exact iff_of_true rfl h
    case isFalse h => exact iff_of_false (by decide) h
  · intro h
    rw [s.parse_dac_count_eq, if_pos h]
  · intro s' hdacs hcodes
    have hranges : s'.ranges.Perm s.ranges := hcodes.filter _
    have hnone : s'.ranges = [] ↔ s.ranges = [] := by
      rw [← List.length_eq_zero_iff, hranges.length_eq, List.length_eq_zero_iff]
    have h4ao : s'.Has4AO ↔ s.Has4AO := hcodes.mem_iff
    have hconsistent : s'.Consistent ↔ s.Consistent := by
      rw [ModelString.Consistent, ModelString.Consistent, hdacs, h4ao, hnone, hranges.length_eq]
    have hcount : s'.dacCount = s.dacCount := by
      simp only [ModelString.dacCount, hdacs, h4ao]
    rw [s'.parse_dac_count_eq, s.parse_dac_count_eq, hcount]
    simp only [hconsistent]

/-- A model with a range and the option for four DACs. -/
def exAioModel : ModelString where
  head := text "eNET-AI"
  core := text "O16"
  block := text "16F"
  options := [text "5u ", text "4AO"]
  head_eq := rfl
  core_ne := by decide
  block_ne := by decide
  core_plain := List.all_iff_forall_prop.mp rfl
  block_plain := List.all_iff_forall_prop.mp rfl
  options_plain := by decide
  bytes := text "eNET-AIO16-16F-5u -4AO"
  bytes_eq := rfl
  nonzero := by decide
  short := by decide

theorem dac_count_four : (enet_ai_parse_dac_count exAioModel.bytes).1 = 0 ∧
    (enet_ai_parse_dac_count exAioModel.bytes).2 = 4 :=
  ⟨(dac_count_iff exAioModel).1.mpr (by decide), (dac_count_iff exAioModel).2.1 (by decide)⟩

end EnetTcp
