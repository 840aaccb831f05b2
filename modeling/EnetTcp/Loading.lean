import Mathlib.Data.List.TakeWhile
import EnetTcp.ConfigTree

/-!
# Loading one key or another (config.cpp, LoadConfig)

The loader goes through the fields one after the other. What a file holds decides what comes
of its field: nothing, a new value, or an exception that ends the loading.

* `loadFields_run`: where no field throws, each is loaded on its own.
* `loadsEachKey_iff`: loading is independent for each key when every file is `Tidy`.
-/

namespace EnetTcp

open Prog

/-! ## 1. What comes of a field -/

section Effect

variable (tree : ConfigTree) (which : TBytes)

/-- What comes of a number: an exception, no change, or the number that is read. -/
def hexEffect (digits : Nat) (key : TBytes) : Except Exn (Option Nat) :=
  match ReadConfigString tree key which with
  | .error _ => .ok none
  | .ok v =>
    if v.length < digits then .ok none
    else
      match stoul 16 v with
      | none => .error (.logicError (text "stoul"))
      | some n => .ok (some n)

def keyEffect (key : TBytes) : (t : FieldType) → Except Exn (Option t.Value)
  | .text =>
    match ReadConfigString tree key which with
    | .error _ => .ok none
    | .ok v => .ok (some v)
  | .u8 => (hexEffect tree which 2 key).map (Option.map UInt8.ofNat)
  | .u32 => (hexEffect tree which 8 key).map (Option.map UInt32.ofNat)

def fieldEffect (f : ConfigField) : Except Exn (Option f.type.Value) :=
  keyEffect tree which f.key f.type

/-- The value that a field gets, if any. -/
def newValue (f : ConfigField) : Option f.type.Value :=
  match fieldEffect tree which f with
  | .ok v => v
  | .error _ => none

end Effect

variable {tree : ConfigTree} {which : TBytes}

namespace LoadLemmas

theorem readConfigHex_exec {σ : Type} (tree : ConfigTree) (which : TBytes) (digits : Nat)
    (key : TBytes) (s : σ) : ∃ rc, (readConfigHex tree digits key which).exec s =
      some ((hexEffect tree which digits key).map fun v => v.elim (.error rc) .ok, s) := by
  unfold readConfigHex hexEffect
  cases ReadConfigString tree key which with
  | error rc => exact ⟨rc, rfl⟩
  | ok v =>
    by_cases hshort : v.length < digits
    · exact ⟨EINVAL_neg, by simp only [if_pos hshort]; rfl⟩
    · simp only [if_neg hshort]
      cases stoul 16 v with
      | none => exact ⟨0, rfl⟩
      | some n => exact ⟨0, rfl⟩

theorem readConfig_exec {σ : Type} (tree : ConfigTree) (which key : TBytes) (t : FieldType)
    (s : σ) : ∃ rc, (readConfig tree key which t).exec s =
      some ((keyEffect tree which key t).map fun v => v.elim (.error rc) .ok, s) := by
  cases t with
  | text =>
    show ∃ rc, some (Except.ok (ReadConfigString tree key which), s) = _
    simp only [keyEffect]
    cases ReadConfigString tree key which with
    | error rc => exact ⟨rc, rfl⟩
    | ok v => exact ⟨0, rfl⟩
  | u8 =>
    obtain ⟨rc, hrc⟩ := readConfigHex_exec tree which 2 key s
    refine ⟨rc, ?_⟩
    show (ReadConfigU8 tree key which : Prog Exn σ (Except Int UInt8)).exec s =
      some (((hexEffect tree which 2 key).map (Option.map UInt8.ofNat)).map
        fun v => v.elim (.error rc) .ok, s)
    rw [ReadConfigU8, exec_bind, hrc, Option.bind_some]
    rcases hexEffect tree which 2 key with e | (_ | n) <;> rfl
  | u32 =>
    obtain ⟨rc, hrc⟩ := readConfigHex_exec tree which 8 key s
    refine ⟨rc, ?_⟩
    show (ReadConfigU32 tree key which : Prog Exn σ (Except Int UInt32)).exec s =
      some (((hexEffect tree which 8 key).map (Option.map UInt32.ofNat)).map
        fun v => v.elim (.error rc) .ok, s)
    rw [ReadConfigU32, exec_bind, hrc, Option.bind_some]
    rcases hexEffect tree which 8 key with e | (_ | n) <;> rfl

end LoadLemmas

open LoadLemmas

/-- Loading one field. -/
theorem loadField_exec (f : ConfigField) (c : TConfig) :
    (loadField tree which f).exec c =
      some (match fieldEffect tree which f with
        | .error e => (.error e, c)
        | .ok none => (.ok (), c)
        | .ok (some v) => (.ok (), f.set c v)) := by
  obtain ⟨rc, hrc⟩ := readConfig_exec tree which f.key f.type c
  rw [loadField, exec_bind, hrc, Option.bind_some, fieldEffect]
  rcases keyEffect tree which f.key f.type with e | (_ | v) <;> rfl

/-- Fields that do not throw are loaded each on its own. -/
theorem loadFields_run {fs : List ConfigField} (hnodup : fs.Nodup)
    (h : ∀ f ∈ fs, ∀ e, fieldEffect tree which f ≠ .error e) (c : TConfig) :
    ∃ c', (loadFields tree which fs).exec c = some (.ok (), c') ∧
      ∀ f, f.get c' = if f ∈ fs then (newValue tree which f).getD (f.get c) else f.get c := by
  induction fs generalizing c with
  | nil => exact ⟨c, rfl, fun f => (if_neg List.not_mem_nil).symm⟩
  | cons f fs ih =>
    obtain ⟨hf, hfs⟩ := List.nodup_cons.mp hnodup
    obtain ⟨hhead, htail⟩ := List.forall_mem_cons.mp h
    obtain ⟨c₁, hrun₁, hsame, hothers⟩ : ∃ c₁, (loadField tree which f).exec c = some (.ok (), c₁) ∧
        f.get c₁ = (newValue tree which f).getD (f.get c) ∧
        ∀ f', f' ≠ f → f'.get c₁ = f'.get c := by
      rw [loadField_exec, newValue]
      cases heffect : fieldEffect tree which f with
      | error e => exact absurd heffect (hhead e)
      | ok v =>
        cases v with
        | none => exact ⟨c, rfl, rfl, fun _ _ => rfl⟩
        | some v =>
          exact ⟨_, rfl, f.get_set_self v, fun f' hne => ConfigField.get_set_of_ne hne v⟩
    obtain ⟨c', hrun, hget⟩ := ih hfs htail c₁
    refine ⟨c', ?_, fun f' => ?_⟩
    · rw [loadFields, List.forM_cons, exec_bind_ok hrun₁]
      exact hrun
    · rw [hget]
      by_cases hf' : f' = f
      · subst hf'
        rw [if_neg hf, if_pos List.mem_cons_self, hsame]
      · have hmem : f' ∈ f :: fs ↔ f' ∈ fs := by rw [List.mem_cons, or_iff_right hf']
        rw [hothers f' hf']
        simp only [hmem]

/-- The first field that throws ends the loading. -/
theorem loadFields_throws {fs : List ConfigField} {f : ConfigField} (hf : f ∈ fs) {e : Exn}
    (h : fieldEffect tree which f = .error e) (c : TConfig) :
    ∃ e' c', (loadFields tree which fs).exec c = some (.error e', c') := by
  induction fs generalizing c with
  | nil => exact absurd hf List.not_mem_nil
  | cons f' fs ih =>
    have hrun : (loadFields tree which (f' :: fs)).exec c =
        ((loadField tree which f').exec c).bind (resume fun _ => loadFields tree which fs) := by
      rw [loadFields, List.forM_cons, exec_bind]
      rfl
    rw [hrun, loadField_exec]
    cases heffect : fieldEffect tree which f' with
    | error e' => exact ⟨e', c, rfl⟩
    | ok v =>
      have hmem : f ∈ fs := by
        refine (List.mem_cons.mp hf).resolve_left fun heq => ?_
        subst heq
        rw [h] at heffect
        cases heffect
      cases v with
      | none => exact ih hmem c
      | some v => exact ih hmem (f'.set c v)

/-! ## 2. LoadConfig -/

/-- The name of the host, then all fields. -/
theorem LoadConfig_eq :
    LoadConfig tree which = LoadHostname tree >>= fun _ => loadFields tree which loadedFields := by
  simp only [LoadConfig, LoadBrdConfig, LoadCalConfig, LoadDacCalConfig, LoadAdcCalConfig,
    LoadDacConfig, LoadAdcConfig, LoadSubmuxConfig, loadFields, loadedFields, List.forM_append,
    bind_assoc]

theorem LoadHostname_exec (tree : ConfigTree) (c : TConfig) : ∃ Hostname,
    (LoadHostname tree).exec c = some (.ok (), { c with Hostname }) := by
  rw [LoadHostname]
  split
  · exact ⟨c.Hostname, rfl⟩
  · exact ⟨c.Hostname, rfl⟩
  · exact ⟨[], rfl⟩
  · exact ⟨_, rfl⟩

theorem get_hostname (c : TConfig) (Hostname : TBytes) (f : ConfigField) :
    f.get { c with Hostname } = f.get c := by
  cases f <;> rfl

theorem LoadConfig_run (h : ∀ f e, fieldEffect tree which f ≠ .error e) (c : TConfig) :
    ∃ c', (LoadConfig tree which).exec c = some (.ok (), c') ∧
      ∀ f, f.get c' = (newValue tree which f).getD (f.get c) := by
  obtain ⟨Hostname, hhost⟩ := LoadHostname_exec tree c
  obtain ⟨c', hrun, hget⟩ :=
    loadFields_run loadedFields_nodup (fun f _ => h f) { c with Hostname }
  refine ⟨c', by rw [LoadConfig_eq, exec_bind_ok hhost, hrun], ?_⟩
  intro f
  rw [hget, if_pos (mem_loadedFields f), get_hostname]

theorem LoadConfig_throws {f : ConfigField} {e : Exn} (h : fieldEffect tree which f = .error e)
    (c : TConfig) : ∃ e' c', (LoadConfig tree which).exec c = some (.error e', c') := by
  obtain ⟨Hostname, hhost⟩ := LoadHostname_exec tree c
  obtain ⟨e', c', hrun⟩ := loadFields_throws (mem_loadedFields f) h { c with Hostname }
  exact ⟨e', c', by rw [LoadConfig_eq, exec_bind_ok hhost, hrun]⟩

/-! ## 3. Numbers in files -/

/-- The number that a file spells with so many hexadecimal digits. Line ends may follow. -/
def hexNumber (digits : Nat) (bytes : TBytes) : Option Nat :=
  let v := stripLineEnds bytes
  if v.length = digits then
    (v.mapM (digitValue 16)).map (List.foldl (fun n d => n * 16 + d) 0)
  else none

/-- The string that is read from a file, if any: its first 1023 bytes, up to a zero byte and
without line ends at the back. -/
def ConfFile.text : ConfFile → Option TBytes
  | .content bytes => some (stripLineEnds ((bytes.take 1023).takeWhile (· != 0)))
  | _ => none

def ConfFile.number (digits : Nat) : ConfFile → Option Nat
  | .content bytes => hexNumber digits bytes
  | _ => none

namespace LoadLemmas

theorem digitValue_lt {b : UInt8} {d : Nat} (h : digitValue 16 b = some d) : d < 16 := by
  obtain ⟨x, hdigit⟩ : ∃ x, digitValue 16 b = if x < 16 then some x else none := ⟨_, rfl⟩
  rw [hdigit] at h
  split at h
  case isTrue hlt =>
    cases h
    exact hlt
  case isFalse => cases h

/-- A hexadecimal digit is none of the characters that have a meaning of their own. -/
theorem digitValue_ne {b : UInt8} {d : Nat} (h : digitValue 16 b = some d) :
    isSpaceByte b = false ∧ b ≠ 43 ∧ b ≠ 45 ∧ b ≠ 120 ∧ b ≠ 88 ∧ b ≠ 0 ∧ b ≠ 10 ∧ b ≠ 13 := by
  have hall : ∀ n : Fin 256, (digitValue 16 (UInt8.ofNat n)).isSome = true →
      isSpaceByte (UInt8.ofNat n) = false ∧ UInt8.ofNat n ≠ 43 ∧ UInt8.ofNat n ≠ 45 ∧
        UInt8.ofNat n ≠ 120 ∧ UInt8.ofNat n ≠ 88 ∧ UInt8.ofNat n ≠ 0 ∧ UInt8.ofNat n ≠ 10 ∧
        UInt8.ofNat n ≠ 13 := by
    decide +kernel
  have hb := hall ⟨b.toNat, b.toNat_lt⟩
  simp only [UInt8.ofNat_toNat] at hb
  exact hb (by rw [h]; rfl)

theorem digitsValue_of_mapM {v : TBytes} {ds : List Nat} (h : v.mapM (digitValue 16) = some ds)
    (acc : Nat) (seen : Bool) :
    digitsValue 16 v acc seen = (ds.foldl (fun n d => n * 16 + d) acc, seen || !v.isEmpty) := by
  induction v generalizing ds acc seen with
  | nil =>
    cases h
    simp [digitsValue]
  | cons b v ih =>
    rw [List.mapM_cons] at h
    obtain ⟨d, hd, h⟩ := Option.bind_eq_some_iff.mp h
    obtain ⟨ds', hds, h⟩ := Option.bind_eq_some_iff.mp h
    cases h
    rw [digitsValue, hd]
    simp only [ih hds, List.foldl_cons, Bool.true_or, List.isEmpty_cons, Bool.not_false,
      Bool.or_true]

theorem foldl_lt {v : TBytes} {ds : List Nat} (h : v.mapM (digitValue 16) = some ds) :
    ds.foldl (fun n d => n * 16 + d) 0 < 16 ^ v.length := by
  suffices hall : ∀ acc, ds.foldl (fun n d => n * 16 + d) acc < (acc + 1) * 16 ^ v.length by
    simpa using hall 0
  induction v generalizing ds with
  | nil =>
    cases h
    intro acc
    simp
  | cons b v ih =>
    rw [List.mapM_cons] at h
    obtain ⟨d, hd, h⟩ := Option.bind_eq_some_iff.mp h
    obtain ⟨ds', hds, h⟩ := Option.bind_eq_some_iff.mp h
    cases h
    intro acc
    have hlt := digitValue_lt hd
    rw [List.foldl_cons, List.length_cons, Nat.pow_succ']
    refine Nat.lt_of_lt_of_le (ih hds _) ?_
    rw [← Nat.mul_assoc]
    exact Nat.mul_le_mul_right _ (by omega)

theorem skipHexPrefix_of_mapM {v : TBytes} {ds : List Nat}
    (h : v.mapM (digitValue 16) = some ds) : skipHexPrefix v = v := by
  unfold skipHexPrefix
  split
  case h_1 x d rest =>
    rw [List.mapM_cons] at h
    obtain ⟨_, -, h⟩ := Option.bind_eq_some_iff.mp h
    obtain ⟨ds', hds, -⟩ := Option.bind_eq_some_iff.mp h
    rw [List.mapM_cons] at hds
    obtain ⟨_, hx, -⟩ := Option.bind_eq_some_iff.mp hds
    obtain ⟨-, -, -, hlower, hupper, -⟩ := digitValue_ne hx
    rw [if_neg]
    simp only [Bool.and_eq_true, Bool.or_eq_true, beq_iff_eq, not_and]
    exact fun hcases => absurd hcases (not_or.mpr ⟨hlower, hupper⟩)
  case h_2 => rfl

/-- Digits alone are read by `std::stoul` as they are. -/
theorem stoul_of_mapM {v : TBytes} {ds : List Nat} (h : v.mapM (digitValue 16) = some ds)
    (hpos : v ≠ []) (hlen : v.length ≤ 8) :
    stoul 16 v = some (ds.foldl (fun n d => n * 16 + d) 0) := by
  have hlt : ds.foldl (fun n d => n * 16 + d) 0 < 2 ^ 64 := by
    refine Nat.lt_of_lt_of_le (foldl_lt h) ?_
    exact Nat.le_trans (Nat.pow_le_pow_right (by decide) hlen) (by decide)
  have hskip := skipHexPrefix_of_mapM h
  have hvalue := digitsValue_of_mapM h 0 false
  obtain ⟨b, v, rfl⟩ := List.exists_cons_of_ne_nil hpos
  rw [List.mapM_cons] at h
  obtain ⟨d, hd, -⟩ := Option.bind_eq_some_iff.mp h
  obtain ⟨hspace, hplus, hminus, -⟩ := digitValue_ne hd
  have hminus' : ((b :: v).head? == some 45) = false := by simpa using hminus
  have hplus' : ((b :: v).head? == some 43) = false := by simpa using hplus
  have hdrop : (b :: v).dropWhile isSpaceByte = b :: v := by
    rw [List.dropWhile_cons, hspace, if_neg Bool.false_ne_true]
  rw [stoul]
  simp only [hdrop, hminus', hplus', hskip, hvalue, Bool.or_self, Bool.false_eq_true, if_false,
    beq_self_eq_true, if_true, List.isEmpty_cons, Bool.not_false, Bool.or_true, Bool.not_true,
    Nat.not_le.mpr hlt, decide_false]

def isLineEnd (b : UInt8) : Bool := b == 10 || b == 13

theorem stripLineEnds_append (v : TBytes) {t : TBytes} (h : ∀ b ∈ t, isLineEnd b = true) :
    stripLineEnds (v ++ t) = stripLineEnds v := by
  rw [stripLineEnds, List.reverse_append, List.dropWhile_append_of_pos]
  · rfl
  · exact fun b hb => h b (List.mem_reverse.mp hb)

theorem exists_lineEnds (v : TBytes) :
    ∃ t, v = stripLineEnds v ++ t ∧ ∀ b ∈ t, isLineEnd b = true := by
  refine ⟨(v.reverse.takeWhile isLineEnd).reverse, ?_, ?_⟩
  · rw [stripLineEnds, ← List.reverse_append]
    exact (List.reverse_reverse v).symm.trans
      (congrArg List.reverse (List.takeWhile_append_dropWhile (p := isLineEnd)).symm)
  · exact fun b hb => List.mem_takeWhile_imp (List.mem_reverse.mp hb)

theorem mapM_mem {v : TBytes} {ds : List Nat} (h : v.mapM (digitValue 16) = some ds) :
    ∀ b ∈ v, ∃ d, digitValue 16 b = some d := by
  induction v generalizing ds with
  | nil => exact fun b hb => absurd hb List.not_mem_nil
  | cons b v ih =>
    rw [List.mapM_cons] at h
    obtain ⟨d, hd, h⟩ := Option.bind_eq_some_iff.mp h
    obtain ⟨ds', hds, -⟩ := Option.bind_eq_some_iff.mp h
    exact List.forall_mem_cons.mpr ⟨⟨d, hd⟩, ih hds⟩

theorem lineEnd_ne {b : UInt8} (h : isLineEnd b = true) : (b != 0) = true := by
  simp only [isLineEnd, Bool.or_eq_true, beq_iff_eq] at h
  rcases h with rfl | rfl <;> decide

theorem stripLineEnds_digits {v : TBytes} (h : ∀ b ∈ v, ∃ d, digitValue 16 b = some d) :
    stripLineEnds v = v := by
  have hall : ∀ b ∈ v.reverse, ¬isLineEnd b = true := by
    intro b hb
    obtain ⟨d, hd⟩ := h b (List.mem_reverse.mp hb)
    obtain ⟨-, -, -, -, -, -, hlf, hcr⟩ := digitValue_ne hd
    simpa [isLineEnd] using ⟨hlf, hcr⟩
  have hnone : v.reverse.dropWhile isLineEnd = v.reverse := by
    cases hv : v.reverse with
    | nil => rfl
    | cons b w => exact List.dropWhile_cons_of_neg (hall b (hv ▸ List.mem_cons_self))
  exact (congrArg List.reverse hnone).trans (List.reverse_reverse v)

/-- A number is read as it is written. -/
theorem text_of_number {digits x : Nat} (hpos : 0 < digits) (hle : digits ≤ 8) {file : ConfFile}
    (h : file.number digits = some x) :
    ∃ v, file.text = some v ∧ v.length = digits ∧ stoul 16 v = some x ∧ x < 16 ^ digits := by
  cases file with
  | absent | unopenable _ | unreadable _ => cases h
  | content bytes =>
    have hnumber : hexNumber digits bytes = some x := h
    unfold hexNumber at hnumber
    simp only at hnumber
    split at hnumber
    case isFalse => cases hnumber
    case isTrue hlen =>
      obtain ⟨ds, hds, rfl⟩ := Option.map_eq_some_iff.mp hnumber
      have hne : stripLineEnds bytes ≠ [] := List.length_pos_iff.mp (by omega)
      refine ⟨stripLineEnds bytes, ?_, hlen, stoul_of_mapM hds hne (by omega), ?_⟩
      · obtain ⟨t, hbytes, hends⟩ := exists_lineEnds bytes
        have hdigits := mapM_mem hds
        show some (stripLineEnds ((bytes.take 1023).takeWhile (· != 0))) = _
        generalize stripLineEnds bytes = v at hbytes hdigits hlen ⊢
        have hall : ∀ b ∈ v ++ t.take (1023 - v.length), (b != 0) = true := by
          intro b hb
          rcases List.mem_append.mp hb with hb | hb
          · obtain ⟨d, hd⟩ := hdigits b hb
            simpa using (digitValue_ne hd).2.2.2.2.2.1
          · exact lineEnd_ne (hends b (List.mem_of_mem_take hb))
        rw [hbytes, List.take_append, List.take_of_length_le (by omega),
          List.takeWhile_eq_self_iff.mpr hall,
          stripLineEnds_append v fun b hb => hends b (List.mem_of_mem_take hb),
          stripLineEnds_digits hdigits]
      · rw [← hlen]
        exact foldl_lt hds

end LoadLemmas

/-! ## 4. One key or another -/

/-- The file that the loader finds for a key. The user layer falls back on the current one
first. -/
def foundFile (tree : ConfigTree) (which key : TBytes) : ConfFile :=
  if (tree (FilePathFor which key)).exists then tree (FilePathFor which key)
  else if (text CONFIG_USER).isPrefixOf which &&
      (tree (FilePathFor (text CONFIG_CURRENT) key)).exists then
    tree (FilePathFor (text CONFIG_CURRENT) key)
  else tree (FilePathFor (text CONFIG_FACTORY) key)

/-- The file of a key in the requested layer, or in the factory layer when it is absent there. -/
def ownFile (tree : ConfigTree) (which key : TBytes) : ConfFile :=
  if (tree (FilePathFor which key)).exists then tree (FilePathFor which key)
  else tree (FilePathFor (text CONFIG_FACTORY) key)

def FieldType.digits : FieldType → Nat
  | .text => 0
  | .u8 => 2
  | .u32 => 8

/-- The value that a file encodes, when it holds a well-formed number. -/
def encoded (file : ConfFile) : (t : FieldType) → Option t.Value
  | .text => none
  | .u8 => (file.number 2).map UInt8.ofNat
  | .u32 => (file.number 8).map UInt32.ofNat

/-- Every numeric field gets the value that its own file encodes, or else keeps its value. -/
def LoadsEachKey (tree : ConfigTree) (which : TBytes) : Prop :=
  ∀ c, ∃ c', (LoadConfig tree which).exec c = some (.ok (), c') ∧ ∀ f : ConfigField,
    f.type ≠ .text → f.get c' = (encoded (ownFile tree which f.key) f.type).getD (f.get c)

/-- Either what is found is too short to be read and the own file has no number, or what is
found is read as the number that the own file has. -/
def Tidy (found own : ConfFile) (digits : Nat) : Prop :=
  ((∀ v, found.text = some v → v.length < digits) ∧ own.number digits = none) ∨
    ∃ v n, found.text = some v ∧ digits ≤ v.length ∧ stoul 16 v = some n ∧
      own.number digits = some (n % 16 ^ digits)

namespace LoadLemmas

theorem readConfigString_cases (tree : ConfigTree) (which key : TBytes) :
    (∃ v, ReadConfigString tree key which = .ok v ∧ (foundFile tree which key).text = some v) ∨
      ∃ rc, ReadConfigString tree key which = .error rc ∧
        (foundFile tree which key).text = none := by
  have hraw (which' : TBytes) :
      (∃ v, ReadConfigStringRaw tree key which' = .ok v ∧
        (tree (FilePathFor which' key)).text = some v) ∨
      ∃ rc, ReadConfigStringRaw tree key which' = .error rc ∧
        (tree (FilePathFor which' key)).text = none := by
    unfold ReadConfigStringRaw
    cases tree (FilePathFor which' key) with
    | absent | unopenable _ | unreadable _ => exact .inr ⟨_, rfl, rfl⟩
    | content bytes => exact .inl ⟨_, rfl, rfl⟩
  unfold ReadConfigString foundFile
  split
  case isTrue => exact hraw which
  case isFalse =>
    split
    case isTrue => exact hraw _
    case isFalse =>
      split
      case isTrue => exact hraw _
      case isFalse h =>
        refine .inr ⟨_, rfl, ?_⟩
        cases htree : tree (FilePathFor (text CONFIG_FACTORY) key) with
        | absent => rfl
        | _ => exact absurd (by rw [htree]; rfl) h

theorem number_lt {digits x : Nat} {file : ConfFile} (h : file.number digits = some x)
    (hpos : 0 < digits) (hle : digits ≤ 8) : x < 16 ^ digits := by
  obtain ⟨-, -, -, -, hlt⟩ := text_of_number hpos hle h
  exact hlt

theorem hexEffect_tidy {α : Type} {digits : Nat} (hpos : 0 < digits) (hle : digits ≤ 8)
    {wrap : Nat → α} (hwrap : ∀ n m, wrap n = wrap m ↔ n % 16 ^ digits = m % 16 ^ digits)
    (key : TBytes) (own : ConfFile) :
    (hexEffect tree which digits key).map (Option.map wrap) =
        .ok ((own.number digits).map wrap) ↔
      Tidy (foundFile tree which key) own digits := by
  have hnone : (Except.ok none : Except Exn (Option α)) = .ok ((own.number digits).map wrap) ↔
      own.number digits = none := by
    rw [Except.ok.injEq, eq_comm, Option.map_eq_none_iff]
  unfold hexEffect Tidy
  rcases readConfigString_cases tree which key with ⟨v, hread, htext⟩ | ⟨rc, hread, htext⟩
  · simp only [hread, htext, Option.some.injEq, forall_eq', exists_and_left, exists_eq_left']
    by_cases hshort : v.length < digits
    · simp only [hshort, if_true, true_and, Nat.not_le.mpr hshort, false_and, or_false]
      exact hnone
    · simp only [hshort, if_false, false_and, false_or, Nat.not_lt.mp hshort, true_and]
      cases hn : stoul 16 v with
      | none =>
        refine iff_of_false (fun h => by cases h) ?_
        rintro ⟨n, hcases, -⟩
        cases hcases
      | some n =>
        simp only [Option.some.injEq, exists_eq_left']
        show Except.ok (some (wrap n)) = _ ↔ _
        rw [Except.ok.injEq, eq_comm, Option.map_eq_some_iff]
        constructor
        · rintro ⟨x, hx, heq⟩
          rw [hx, ← Nat.mod_eq_of_lt (number_lt hx hpos hle), (hwrap x n).mp heq]
        · intro hx
          exact ⟨_, hx, (hwrap _ _).mpr (Nat.mod_mod _ _)⟩
  · simp only [hread, htext]
    constructor
    · exact fun h => .inl ⟨fun v hv => (by cases hv), hnone.mp h⟩
    · rintro (⟨-, h⟩ | ⟨v, n, hv, -⟩)
      · exact hnone.mpr h
      · cases hv

theorem ofNat_u8_iff (n m : Nat) :
    UInt8.ofNat n = UInt8.ofNat m ↔ n % 16 ^ 2 = m % 16 ^ 2 := by
  rw [← UInt8.toNat_inj, UInt8.toNat_ofNat', UInt8.toNat_ofNat']
  rfl

theorem ofNat_u32_iff (n m : Nat) :
    UInt32.ofNat n = UInt32.ofNat m ↔ n % 16 ^ 8 = m % 16 ^ 8 := by
  rw [← UInt32.toNat_inj, UInt32.toNat_ofNat', UInt32.toNat_ofNat']
  rfl

theorem keyEffect_tidy {t : FieldType} (ht : t ≠ .text) (key : TBytes) (own : ConfFile) :
    keyEffect tree which key t = .ok (encoded own t) ↔
      Tidy (foundFile tree which key) own t.digits := by
  cases t with
  | text => exact absurd rfl ht
  | u8 => exact hexEffect_tidy (by decide) (by decide) ofNat_u8_iff key own
  | u32 => exact hexEffect_tidy (by decide) (by decide) ofNat_u32_iff key own

/-- A numeric field has two values. -/
theorem exists_ne_value {t : FieldType} (ht : t ≠ .text) (v : t.Value) : ∃ x : t.Value, x ≠ v := by
  have hother {α : Type} [DecidableEq α] {a b : α} (hab : a ≠ b) (v : α) : ∃ x, x ≠ v := by
    by_cases hv : a = v
    · exact ⟨b, fun h => hab (hv.trans h.symm)⟩
    · exact ⟨a, hv⟩
  cases t with
  | text => exact absurd rfl ht
  | u8 => exact hother (show (0 : UInt8) ≠ 1 by decide) v
  | u32 => exact hother (show (0 : UInt32) ≠ 1 by decide) v

/-- What a field comes to tells its new value. -/
theorem option_ext {α : Type} {a b : Option α} (hne : ∀ v : α, ∃ x, x ≠ v)
    (h : ∀ x, a.getD x = b.getD x) : a = b := by
  cases a with
  | none =>
    cases b with
    | none => rfl
    | some v =>
      obtain ⟨x, hx⟩ := hne v
      exact absurd (h x) hx
  | some v =>
    obtain ⟨x, hx⟩ := hne v
    cases b with
    | none => exact absurd (h x).symm hx
    | some w => exact congrArg some (h x)

theorem fieldEffect_text {f : ConfigField} (hf : f.type = .text) (e : Exn) :
    fieldEffect tree which f ≠ .error e := by
  unfold fieldEffect
  rw [hf]
  simp only [keyEffect]
  split <;> exact fun h => by cases h

end LoadLemmas

/-- Loading is independent for each key when all files of numbers are tidy. -/
theorem loadsEachKey_iff : LoadsEachKey tree which ↔ ∀ f : ConfigField, f.type ≠ .text →
    Tidy (foundFile tree which f.key) (ownFile tree which f.key) f.type.digits := by
  constructor
  · intro h f hf
    have hnothrow : ∀ f' e, fieldEffect tree which f' ≠ .error e := by
      intro f' e heffect
      obtain ⟨c', hrun, -⟩ := h InitConfig
      obtain ⟨e', c'', hthrow⟩ := LoadConfig_throws heffect InitConfig
      cases hrun.symm.trans hthrow
    refine (keyEffect_tidy hf f.key _).mp ?_
    show fieldEffect tree which f = _
    cases heffect : fieldEffect tree which f with
    | error e => exact absurd heffect (hnothrow f e)
    | ok v =>
      refine congrArg Except.ok (option_ext (exists_ne_value hf) fun x => ?_)
      obtain ⟨c', hrun, hget⟩ := h (f.set InitConfig x)
      obtain ⟨c'', hrun', hget'⟩ := LoadConfig_run hnothrow (f.set InitConfig x)
      cases hrun.symm.trans hrun'
      have hsame := (hget' f).symm.trans (hget f hf)
      rw [f.get_set_self, newValue, heffect] at hsame
      exact hsame
  · intro h c
    have hnothrow : ∀ f e, fieldEffect tree which f ≠ .error e := by
      intro f e heffect
      by_cases hf : f.type = .text
      · exact fieldEffect_text hf e heffect
      · cases ((keyEffect_tidy hf f.key _).mpr (h f hf)).symm.trans heffect
    obtain ⟨c', hrun, hget⟩ := LoadConfig_run hnothrow c
    refine ⟨c', hrun, fun f hf => ?_⟩
    have heffect : fieldEffect tree which f = _ := (keyEffect_tidy hf f.key _).mpr (h f hf)
    rw [hget, newValue, heffect]

/-- Outside the user layer, and where the layer has the file, the loader looks into the own file
of a key. -/
theorem foundFile_eq {key : TBytes} (h : (text CONFIG_USER).isPrefixOf which = false ∨
    (tree (FilePathFor which key)).exists = true) :
    foundFile tree which key = ownFile tree which key := by
  unfold foundFile ownFile
  by_cases hexists : (tree (FilePathFor which key)).exists = true
  · rw [if_pos hexists, if_pos hexists]
  · rw [if_neg hexists, if_neg hexists, h.resolve_right hexists, Bool.false_and,
      if_neg Bool.false_ne_true]

/-- A file by itself is tidy when its text is too short or a number of the right width. -/
theorem tidy_self {file : ConfFile} {digits : Nat} (hpos : 0 < digits) (hle : digits ≤ 8) :
    Tidy file file digits ↔
      (∀ v, file.text = some v → v.length < digits) ∨ (file.number digits).isSome = true := by
  constructor
  · rintro (⟨hshort, -⟩ | ⟨v, n, -, -, -, hnumber⟩)
    · exact .inl hshort
    · exact .inr (by rw [hnumber]; rfl)
  · intro h
    cases hnumber : file.number digits with
    | none =>
      rw [hnumber] at h
      exact .inl ⟨h.resolve_right Bool.false_ne_true, hnumber⟩
    | some x =>
      obtain ⟨v, htext, hlen, hstoul, hlt⟩ := text_of_number hpos hle hnumber
      exact .inr ⟨v, x, htext, by omega, hstoul, by rw [hnumber, Nat.mod_eq_of_lt hlt]⟩

/-! ## 5. A file that is no number -/

/-- The file with the number of ADC channels holds `zz`. No other file is there. -/
def exTree : ConfigTree := fun path =>
  if path = FilePathFor (text CONFIG_CURRENT) (text "BRD_NumberOfAdcChannels") then
    .content (text "zz")
  else .absent

/-- The loader throws. -/
theorem untidy_file_throws : ¬LoadsEachKey exTree (text CONFIG_CURRENT) := by
  have heffect : fieldEffect exTree (text CONFIG_CURRENT) .adcChannels =
      .error (.logicError (text "stoul")) := by rfl
  intro h
  obtain ⟨c', hrun, -⟩ := h InitConfig
  obtain ⟨e', c'', hthrow⟩ := LoadConfig_throws heffect InitConfig
  cases hrun.symm.trans hthrow

end EnetTcp
