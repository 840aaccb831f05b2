import EnetTcp.Hostnames
import EnetTcp.Restoring

/-!
# The hosts file (utilities.cpp, UpdateEtcHosts127011)

The lines of the file are copied one after the other. A line for 127.0.1.1 gives way to one with
the new name, and when there was none one more is added.

* `FirstField`: the first field of a line, as the scan takes it.
* `HostsUpdated`: what an update makes of the file.
* `updateHosts_updateHosts`: of two updates the second one counts.
* `hosts_updates`: the same of runs of `UpdateEtcHosts127011`.
-/

namespace EnetTcp

open Prog SaveLemmas RestoreLemmas HostnameLemmas

/-! ## 1. The file and its lines -/

def hostsPath : TBytes := text "/etc/hosts"

def loopback : TBytes := text "127.0.1.1"

/-- The line for a host name. -/
def hostsLine (newHost : TBytes) : TBytes := loopback ++ [9] ++ newHost

/-- White space comes before the first field, and a blank or a tab ends it. -/
def FirstField (line field : TBytes) : Prop :=
  ∃ lead rest, line = lead ++ (field ++ rest) ∧ (∀ b ∈ lead, isSpaceByte b = true) ∧
    (∃ b ∈ field.head?, isSpaceByte b = false) ∧ (∀ b ∈ field, b ≠ 32 ∧ b ≠ 9) ∧
    ∀ b ∈ rest.head?, b = 32 ∨ b = 9

/-- What becomes of a line. -/
structure LineUpdated (newHost line line' : TBytes) : Prop where
  renamed : FirstField line loopback → line' = hostsLine newHost
  kept : ¬FirstField line loopback → line' = line

/-- A file of these lines. -/
def ofLines (lines : List TBytes) : TBytes := lines.flatMap (· ++ [10])

/-- What becomes of the file. -/
structure HostsUpdated (newHost content content' : TBytes) : Prop where
  /-- Each line is kept or renamed in its place, and one more comes when none was renamed. -/
  lines : ∃ front back, getlines content' = front ++ back ∧
    List.Forall₂ (LineUpdated newHost) (getlines content) front ∧
    ((∃ line ∈ getlines content, FirstField line loopback) ∧ back = [] ∨
      (∀ line ∈ getlines content, ¬FirstField line loopback) ∧ back = [hostsLine newHost])
  ends : content' = ofLines (getlines content')
  present : ∃ line ∈ getlines content', FirstField line loopback
  names : ∀ line ∈ getlines content', FirstField line loopback → line = hostsLine newHost

/-! ## 2. The scan of a line -/

namespace HostsLemmas

/-- A byte of a field. -/
def plain (b : UInt8) : Bool := b != 32 && b != 9

theorem plain_iff {b : UInt8} : plain b = true ↔ b ≠ 32 ∧ b ≠ 9 := by
  unfold plain
  simp

theorem plain_of_not_space {b : UInt8} (h : isSpaceByte b = false) : plain b = true := by
  rw [plain_iff]
  constructor <;> rintro rfl <;> simp [isSpaceByte] at h

/-- White space is skipped, and the bytes up to a blank are taken. -/
theorem hostsAddress_lead {lead s : TBytes} {b : UInt8} (hlead : ∀ b ∈ lead, isSpaceByte b = true)
    (hb : isSpaceByte b = false) (hcomment : b ≠ 35) :
    hostsAddress (lead ++ b :: s) = some ((b :: s).takeWhile plain) := by
  have htrim : (lead ++ b :: s).dropWhile isSpaceByte = b :: s := by
    rw [List.dropWhile_append_of_pos hlead, List.dropWhile_cons_of_neg (by simp [hb])]
  unfold hostsAddress
  simp [htrim, hcomment]
  rfl

theorem firstField_lead {lead s : TBytes} {b : UInt8} (hlead : ∀ b ∈ lead, isSpaceByte b = true)
    (hb : isSpaceByte b = false) : FirstField (lead ++ b :: s) ((b :: s).takeWhile plain) := by
  unfold FirstField
  refine ⟨lead, (b :: s).dropWhile plain, ?_, hlead, ?_, ?_, ?_⟩
  · rw [List.takeWhile_append_dropWhile]
  · simp [plain_of_not_space hb, hb]
  · intro c hc
    exact plain_iff.mp (List.mem_takeWhile_imp hc)
  · intro c hc
    have hstop := List.head?_dropWhile_not plain (b :: s)
    rw [Option.mem_def.mp hc] at hstop
    simpa [plain, Classical.or_iff_not_imp_left] using hstop

theorem hostsAddress_iff {line field : TBytes} (hcomment : field.head? ≠ some 35) :
    hostsAddress line = some field ↔ FirstField line field := by
  constructor
  · intro h
    -- the line is its white space, and what begins with another byte
    cases htrim : line.dropWhile isSpaceByte with
    | nil => simp [hostsAddress, htrim] at h
    | cons b s =>
      have hb : isSpaceByte b = false := by
        simpa [htrim] using List.head?_dropWhile_not isSpaceByte line
      have hlead : ∀ c ∈ line.takeWhile isSpaceByte, isSpaceByte c = true := fun c hc =>
        List.mem_takeWhile_imp hc
      have hline : line.takeWhile isSpaceByte ++ b :: s = line := by
        rw [← htrim, List.takeWhile_append_dropWhile]
      have hbyte : b ≠ 35 := by
        rintro rfl
        simp [hostsAddress, htrim] at h
      rw [← hline, hostsAddress_lead hlead hb hbyte] at h
      cases h
      rw [← hline]
      exact firstField_lead hlead hb
  · rintro ⟨lead, rest, rfl, hlead, ⟨b, hb, hspace⟩, hfield, hrest⟩
    cases field with
    | nil => cases hb
    | cons c field =>
      cases hb
      have hbyte : b ≠ 35 := fun heq => hcomment (by rw [heq]; rfl)
      rw [List.cons_append, hostsAddress_lead hlead hspace hbyte, ← List.cons_append,
        List.takeWhile_append_of_pos fun c hc => plain_iff.mpr (hfield c hc)]
      have hstop : rest.takeWhile plain = [] := by
        cases rest with
        | nil => rfl
        | cons d rest =>
          rcases hrest d rfl with rfl | rfl <;> rfl
      rw [hstop, List.append_nil]

theorem isEntry_iff (line : TBytes) :
    (hostsAddress line == some loopback) = true ↔ FirstField line loopback := by
  rw [beq_iff_eq]
  exact hostsAddress_iff (by decide)

theorem firstField_hostsLine (newHost : TBytes) : FirstField (hostsLine newHost) loopback := by
  unfold FirstField hostsLine
  have hall : (loopback.all fun b => decide (b ≠ 32 ∧ b ≠ 9)) = true := by decide
  have hplain : ∀ b ∈ loopback, b ≠ 32 ∧ b ≠ 9 :=
    fun b hb => of_decide_eq_true (List.all_eq_true.mp hall b hb)
  refine ⟨[], 9 :: newHost, by simp, by simp, ⟨49, rfl, rfl⟩, hplain, ?_⟩
  rintro b ⟨⟩
  exact .inr rfl

end HostsLemmas

open HostsLemmas

/-! ## 3. The lines of a file -/

namespace HostsLemmas

theorem not_mem_of_mem_splitOn {content line : TBytes} (h : line ∈ content.splitOn 10) :
    10 ∉ line := by
  induction content generalizing line with
  | nil =>
    rw [List.splitOn_nil, List.mem_singleton] at h
    rw [h]
    exact List.not_mem_nil
  | cons b content ih =>
    rw [List.splitOn_cons_eq_if_modifyHead] at h
    split at h
    case isTrue =>
      rcases List.mem_cons.mp h with rfl | h
      · exact List.not_mem_nil
      · exact ih h
    case isFalse hb =>
      cases hlines : content.splitOn 10 with
      | nil => exact absurd hlines (List.splitOn_ne_nil 10 content)
      | cons first lines =>
        rw [hlines] at h ih
        rcases List.mem_cons.mp h with rfl | h
        · rw [List.mem_cons, not_or]
          constructor
          · rintro rfl
            exact hb rfl
          · exact ih List.mem_cons_self
        · exact ih (List.mem_cons_of_mem _ h)

theorem not_mem_of_mem_getlines {content line : TBytes} (h : line ∈ getlines content) :
    10 ∉ line := by
  unfold getlines at h
  simp only at h
  split at h
  · exact not_mem_of_mem_splitOn ((List.dropLast_sublist _).subset h)
  · exact not_mem_of_mem_splitOn h

theorem ofLines_eq (lines : List TBytes) :
    ofLines lines = [10].intercalate (lines ++ [[]]) := by
  unfold ofLines
  induction lines with
  | nil => rfl
  | cons line lines ih =>
    rw [List.flatMap_cons, ih, List.cons_append,
      List.intercalate_cons_of_ne_nil (by simp), List.append_assoc]

/-- What is written line by line is read line by line. -/
theorem getlines_ofLines {lines : List TBytes} (h : ∀ line ∈ lines, 10 ∉ line) :
    getlines (ofLines lines) = lines := by
  have hsplit : (ofLines lines).splitOn 10 = lines ++ [[]] := by
    rw [ofLines_eq]
    refine List.splitOn_intercalate 10 ?_ (by simp)
    intro line hline
    rcases List.mem_append.mp hline with hline | hline
    · exact h line hline
    · rw [List.mem_singleton.mp hline]
      exact List.not_mem_nil
  unfold getlines
  simp [hsplit]

theorem not_mem_of_validLabels {fuel : Nat} {s : TBytes} (h : validLabels fuel s = true) :
    10 ∉ s := by
  induction fuel generalizing s with
  | zero =>
    rw [List.isEmpty_iff.mp h]
    exact List.not_mem_nil
  | succ fuel ih =>
    cases s with
    | nil => exact List.not_mem_nil
    | cons b s =>
      rw [validLabels, Bool.and_eq_true, isValidHostnameLabel_iff] at h
      · obtain ⟨hlabel, hrest⟩ := h
        rw [← List.takeWhile_append_dropWhile (p := (· != 46)) (l := b :: s), List.mem_append,
          not_or]
        constructor
        · intro hmem
          rcases hlabel.bytes 10 hmem with hbyte | hbyte
          · exact absurd hbyte (by unfold LetterOrDigit; decide)
          · exact absurd hbyte (by decide)
        · intro hmem
          cases hdrop : (b :: s).dropWhile (· != 46) with
          | nil =>
            rw [hdrop] at hmem
            cases hmem
          | cons dot rest =>
            have hdot := List.head?_dropWhile_not (· != (46 : UInt8)) (b :: s)
            rw [hdrop] at hmem hdot hrest
            rcases List.mem_cons.mp hmem with rfl | hmem
            · simp at hdot
            · exact ih hrest hmem
      · exact List.cons_ne_nil b s

theorem not_mem_hostsLine {newHost : TBytes} (h : IsValidHostname newHost = true) :
    10 ∉ hostsLine newHost := by
  unfold IsValidHostname at h
  rw [Bool.and_eq_true] at h
  unfold hostsLine
  rw [List.mem_append, not_or]
  exact ⟨by decide, not_mem_of_validLabels h.2⟩

end HostsLemmas

/-- The lines of the new file. -/
def updatedLines (newHost : TBytes) (lines : List TBytes) : List TBytes :=
  (lines.map fun line => if hostsAddress line == some loopback then hostsLine newHost else line) ++
    if lines.any (hostsAddress · == some loopback) then [] else [hostsLine newHost]

namespace HostsLemmas

theorem updateHosts_eq (content newHost : TBytes) :
    updateHosts content newHost = ofLines (updatedLines newHost (getlines content)) := by
  have hentry : text "127.0.1.1\t" ++ newHost = hostsLine newHost := rfl
  unfold updateHosts updatedLines ofLines
  simp only [List.flatMap_append, List.flatMap_map, hentry, ← loopback.eq_def]
  congr 1
  · refine List.flatMap_congr fun line _ => ?_
    split <;> rfl
  · rw [apply_ite (List.flatMap (· ++ [10])), List.flatMap_singleton]
    rfl

theorem not_mem_updatedLines {newHost : TBytes} (h : IsValidHostname newHost = true)
    {lines : List TBytes} (hlines : ∀ line ∈ lines, 10 ∉ line) :
    ∀ line ∈ updatedLines newHost lines, 10 ∉ line := by
  intro line hline
  rcases List.mem_append.mp hline with hline | hline
  · obtain ⟨line', hmem, rfl⟩ := List.mem_map.mp hline
    split
    · exact not_mem_hostsLine h
    · exact hlines line' hmem
  · split at hline
    · cases hline
    · rw [List.mem_singleton.mp hline]
      exact not_mem_hostsLine h

theorem getlines_updateHosts {newHost : TBytes} (h : IsValidHostname newHost = true)
    (content : TBytes) :
    getlines (updateHosts content newHost) = updatedLines newHost (getlines content) := by
  rw [updateHosts_eq, getlines_ofLines]
  exact not_mem_updatedLines h fun line => not_mem_of_mem_getlines

theorem isEntry_hostsLine (newHost : TBytes) :
    (hostsAddress (hostsLine newHost) == some loopback) = true :=
  (isEntry_iff _).mpr (firstField_hostsLine newHost)

theorem any_updatedLines (newHost : TBytes) (lines : List TBytes) :
    (updatedLines newHost lines).any (hostsAddress · == some loopback) = true := by
  rw [List.any_eq_true]
  unfold updatedLines
  cases hany : lines.any (hostsAddress · == some loopback) with
  | true =>
    obtain ⟨line, hline, hentry⟩ := List.any_eq_true.mp hany
    refine ⟨hostsLine newHost, List.mem_append_left _ ?_, isEntry_hostsLine newHost⟩
    exact List.mem_map.mpr ⟨line, hline, if_pos hentry⟩
  | false =>
    exact ⟨hostsLine newHost, List.mem_append_right _ List.mem_cons_self,
      isEntry_hostsLine newHost⟩

/-- The lines that the first update has written are found by the second one. -/
theorem updatedLines_updatedLines (h₁ h₂ : TBytes) (lines : List TBytes) :
    updatedLines h₂ (updatedLines h₁ lines) = updatedLines h₂ lines := by
  have hany := any_updatedLines h₁ lines
  conv_lhs => rw [updatedLines, hany]
  unfold updatedLines
  rw [if_pos rfl, List.append_nil, List.map_append, List.map_map]
  congr 1
  · refine List.map_congr_left fun line _ => ?_
    simp only [Function.comp_apply]
    split
    · rw [if_pos (isEntry_hostsLine h₁)]
    · rfl
  · split
    · rfl
    · rw [List.map_singleton, if_pos (isEntry_hostsLine h₁)]

end HostsLemmas

/-! ## 4. Updates of the content -/

theorem updateHosts_updateHosts {h₁ : TBytes} (hvalid : IsValidHostname h₁ = true)
    (h₂ content : TBytes) :
    updateHosts (updateHosts content h₁) h₂ = updateHosts content h₂ := by
  rw [updateHosts_eq, getlines_updateHosts hvalid, updatedLines_updatedLines, ← updateHosts_eq]

theorem updateHosts_updated {newHost : TBytes} (hvalid : IsValidHostname newHost = true)
    (content : TBytes) : HostsUpdated newHost content (updateHosts content newHost) := by
  have hlines := getlines_updateHosts hvalid content
  constructor
  case lines =>
    refine ⟨_, _, hlines, ?_, ?_⟩
    · rw [List.forall₂_map_right_iff, List.forall₂_same]
      intro line _
      constructor
      · intro hfield
        rw [if_pos ((isEntry_iff line).mpr hfield)]
      · intro hfield
        rw [if_neg fun hentry => hfield ((isEntry_iff line).mp hentry)]
    · split
      case isTrue hany =>
        obtain ⟨line, hline, hentry⟩ := List.any_eq_true.mp hany
        exact .inl ⟨⟨line, hline, (isEntry_iff line).mp hentry⟩, rfl⟩
      case isFalse hany =>
        refine .inr ⟨fun line hline hfield => hany ?_, rfl⟩
        exact List.any_eq_true.mpr ⟨line, hline, (isEntry_iff line).mpr hfield⟩
  case ends => rw [hlines, updateHosts_eq]
  case present =>
    rw [hlines]
    obtain ⟨line, hline, hentry⟩ := List.any_eq_true.mp (any_updatedLines newHost _)
    exact ⟨line, hline, (isEntry_iff line).mp hentry⟩
  case names =>
    rw [hlines]
    intro line hline hfield
    -- a line that was kept names no loopback address, or it would have been changed
    rcases List.mem_append.mp hline with hline | hline
    · obtain ⟨line', _, rfl⟩ := List.mem_map.mp hline
      split
      · rfl
      · exact absurd ((isEntry_iff line').mpr (by rwa [if_neg ‹_›] at hfield)) ‹_›
    · split at hline
      · cases hline
      · exact List.mem_singleton.mp hline

/-! ## 5. Runs -/

/-- What a stream gives of a file. -/
def ConfFile.bytes : ConfFile → TBytes
  | .content bytes => bytes
  | _ => []

/-- The calls of an update do to the files what they are for. -/
structure HostsDisk {ε : Type} (env : Env ε) (disk : Disk ε) : Prop where
  reads : ∀ e, (env.answer (.ifstream hostsPath) e).1 = (disk.tree e hostsPath).bytes
  makes : ∀ (e e' : ε) (fd : Int) (name : TBytes),
    env.answer (.mkstemp (hostsPath ++ text ".XXXXXX")) e = (some (fd, name), e') →
    hostsPath ++ [46] <+: name
  /-- The second file is empty when it has been opened. -/
  creates : ∀ (name : TBytes) (e e' : ε) (fd : Int), hostsPath ++ [46] <+: name →
    env.answer (.open_ name) e = (fd, e') → 0 ≤ fd →
    disk.tree e' name = .content [] ∧ disk.file e' fd = some name
  fchmods : ∀ fd e, disk.tree (env.answer (.fchmod fd) e).2 = disk.tree e ∧
    disk.file (env.answer (.fchmod fd) e).2 = disk.file e
  /-- A write may be short. -/
  appends : ∀ (fd : Int) (bytes path old : TBytes) (e e' : ε) (n : Int),
    env.answer (.write fd bytes) e = (n, e') → 0 ≤ n → disk.file e fd = some path →
    disk.tree e path = .content old →
    disk.tree e' path = .content (old ++ bytes.take n.toNat)
  fsyncs : ∀ fd e, disk.tree (env.answer (.fsync fd) e).2 = disk.tree e
  closes : ∀ fd e, disk.tree (env.answer (.close fd) e).2 = disk.tree e
  renames : ∀ (src dst bytes : TBytes) (e e' : ε),
    env.answer (.rename src dst) e = ((0 : Int), e') → disk.tree e src = .content bytes →
    disk.tree e' dst = .content bytes

/-- No call of an update fails. -/
structure HostsNeverFails {ε : Type} (env : Env ε) : Prop extends NeverFails env where
  makes : ∀ template e, ((env.answer (.mkstemp template) e).1 : Option (Int × TBytes)).isSome
  fchmods : ∀ fd e, (env.answer (.fchmod fd) e).1 = (0 : Int)

namespace HostsLemmas

variable {ε : Type} {env : Env ε} {disk : Disk ε}

theorem getTempFileName_name (hdisk : HostsDisk env disk) {s s' : Sys ε} {name : TBytes}
    (hrun : (GetTempFileNameInDir env (parentPath hostsPath)
      (hostsPath ++ text ".XXXXXX")).exec s = some (.ok (some name), s')) :
    hostsPath ++ [46] <+: name := by
  unfold GetTempFileNameInDir at hrun
  obtain ⟨(rc : Int), e₁, -, hrun⟩ := call_inv (c := .create_directories _) hrun
  split at hrun
  case isTrue => cases hrun
  case isFalse =>
  obtain ⟨(made : Option (Int × TBytes)), e₂, hmake, hrun⟩ := call_inv (c := .mkstemp _) hrun
  cases made with
  | none => cases hrun
  | some made =>
  obtain ⟨fd, name'⟩ := made
  obtain ⟨-, e₃, -, hrun⟩ := call_inv (c := .close fd) hrun
  cases hrun
  exact hdisk.makes _ e₂ fd name hmake

/-- A file that was replaced has the new content. -/
theorem writeFileAtomic_tree (hdisk : HostsDisk env disk) {content : TBytes} {s s' : Sys ε}
    (hrun : (WriteFileAtomic env hostsPath content).exec s = some (.ok (), s')) :
    disk.tree s'.env hostsPath = .content content := by
  unfold WriteFileAtomic at hrun
  obtain ⟨tmp, s₁, htmp, hrun⟩ := bind_exec_ok hrun
  cases tmp with
  | none => cases hrun
  | some tmp =>
  have hname := getTempFileName_name hdisk htmp
  obtain ⟨(fd : Int), e₂, hopen, hrun⟩ := call_inv (c := .open_ tmp) hrun
  split at hrun
  case isTrue => cases hrun
  case isFalse hfd =>
  obtain ⟨htree₂, hfile₂⟩ := hdisk.creates tmp _ e₂ fd hname hopen (Int.not_lt.mp hfd)
  obtain ⟨(rc₃ : Int), e₃, hfchmod, hrun⟩ := call_inv (c := .fchmod fd) hrun
  obtain ⟨htree₃, hfile₃⟩ := hdisk.fchmods fd e₂
  rw [hfchmod] at htree₃ hfile₃
  split at hrun
  case isTrue => cases hrun
  case isFalse =>
  obtain ⟨(w : Int), e₄, hwrite, hrun⟩ := call_inv (c := .write fd content) hrun
  -- the one write has to take all of the content
  split at hrun
  case isTrue => cases hrun
  case isFalse hw =>
  cases Decidable.not_not.mp hw
  have htree₄ := hdisk.appends fd content tmp [] e₃ e₄ _ hwrite (Int.natCast_nonneg _)
    ((congrFun hfile₃ fd).trans hfile₂) ((congrFun htree₃ tmp).trans htree₂)
  obtain ⟨(rc₅ : Int), e₅, hfsync, hrun⟩ := call_inv (c := .fsync fd) hrun
  have htree₅ := hdisk.fsyncs fd e₄
  rw [hfsync] at htree₅
  split at hrun
  case isTrue => cases hrun
  case isFalse =>
  obtain ⟨_, e₆, hclose, hrun⟩ := call_inv (c := .close fd) hrun
  have htree₆ := hdisk.closes fd e₅
  rw [hclose] at htree₆
  obtain ⟨(rc₇ : Int), e₇, hrename, hrun⟩ := call_inv (c := .rename tmp hostsPath) hrun
  split at hrun
  case isTrue => cases hrun
  case isFalse hrc =>
  cases Decidable.not_not.mp hrc
  cases hrun
  refine hdisk.renames tmp hostsPath content e₆ e₇ hrename ?_
  rw [htree₆, htree₅, htree₄, Int.toNat_natCast, List.take_length, List.nil_append]

theorem returns_getTempFileName (henv : HostsNeverFails env) (dir tmpl : TBytes) :
    Returns (fun _ => True) (fun name => name.isSome) (GetTempFileNameInDir env dir tmpl) := by
  refine returns_bind (returns_call (c := .create_directories dir) (Q := fun rc : Int => rc = 0)
    (henv.creates_directories dir)) fun (rc : Int) hrc => ?_
  rw [hrc, if_neg (by decide)]
  refine returns_bind (returns_call (c := .mkstemp tmpl)
    (Q := fun made : Option (Int × TBytes) => made.isSome)
    (henv.makes tmpl)) fun (made : Option (Int × TBytes)) hmade => ?_
  obtain ⟨⟨fd, name⟩, rfl⟩ := Option.isSome_iff_exists.mp hmade
  exact returns_bind (returns_any (.close fd)) fun _ _ => returns_pure rfl

theorem returns_writeFileAtomic (henv : HostsNeverFails env) (path content : TBytes) :
    Returns (fun _ => True) (fun _ => True) (WriteFileAtomic env path content) := by
  refine returns_bind (returns_getTempFileName henv _ _) fun tmp htmp => ?_
  obtain ⟨tmp, rfl⟩ := Option.isSome_iff_exists.mp htmp
  refine returns_bind (returns_call (c := .open_ tmp) (Q := fun fd : Int => 0 ≤ fd)
    (henv.opens tmp)) fun (fd : Int) hfd => ?_
  rw [if_neg (Int.not_lt.mpr hfd)]
  refine returns_bind (returns_call (c := .fchmod fd) (Q := fun rc : Int => rc = 0)
    (henv.fchmods fd)) fun (rc : Int) hrc => ?_
  rw [hrc, if_neg (by decide)]
  refine returns_bind (returns_call (c := .write fd content)
    (Q := fun w : Int => w = content.length) (henv.writes fd content)) fun (w : Int) hw => ?_
  rw [hw, if_neg (not_not.mpr rfl)]
  refine returns_bind (returns_call (c := .fsync fd) (Q := fun rc : Int => rc = 0)
    (henv.fsyncs fd)) fun (rc : Int) hrc => ?_
  rw [hrc, if_neg (by decide)]
  refine returns_bind (returns_any (.close fd)) fun _ _ => ?_
  refine returns_bind (returns_call (c := .rename tmp path) (Q := fun rc : Int => rc = 0)
    (henv.renames _ _)) fun (rc : Int) hrc => ?_
  rw [hrc, if_neg (by decide)]
  exact returns_pure trivial

end HostsLemmas

section Update

variable {ε : Type} {env : Env ε} {disk : Disk ε}

/-- An update that ends has replaced the file. -/
theorem hosts_written (hdisk : HostsDisk env disk) {newHost : TBytes} {s s' : Sys ε}
    (hrun : (UpdateEtcHosts127011 env newHost).exec s = some (.ok (), s')) :
    disk.tree s'.env hostsPath =
      .content (updateHosts (disk.tree s.env hostsPath).bytes newHost) := by
  obtain ⟨(content : TBytes), e, hread, hrun⟩ := call_inv (c := .ifstream hostsPath) hrun
  have hcontent := hdisk.reads s.env
  rw [hread] at hcontent
  rw [← show content = _ from hcontent]
  exact writeFileAtomic_tree hdisk hrun

/-- An update of which no call fails ends. -/
theorem hosts_update_returns (henv : HostsNeverFails env) (newHost : TBytes) (s : Sys ε) :
    ∃ s', (UpdateEtcHosts127011 env newHost).exec s = some (.ok (), s') := by
  obtain ⟨⟨⟩, s', hrun, -⟩ := returns_bind (returns_any (.ifstream hostsPath)) (fun content _ =>
    returns_writeFileAtomic henv hostsPath (updateHosts content newHost)) s trivial
  exact ⟨s', hrun⟩

/-- An update keeps the lines that are not for 127.0.1.1, and of two updates the second one
counts. -/
theorem hosts_updates (hdisk : HostsDisk env disk) {h₁ : TBytes}
    (hvalid : IsValidHostname h₁ = true) (h₂ : TBytes) (s : Sys ε) :
    (∀ s₁, (UpdateEtcHosts127011 env h₁).exec s = some (.ok (), s₁) →
      HostsUpdated h₁ (disk.tree s.env hostsPath).bytes (disk.tree s₁.env hostsPath).bytes ∧
      ∀ s₂ s₂', (UpdateEtcHosts127011 env h₂).exec s₁ = some (.ok (), s₂) →
        (UpdateEtcHosts127011 env h₂).exec s = some (.ok (), s₂') →
        disk.tree s₂.env hostsPath = disk.tree s₂'.env hostsPath) ∧
      (HostsNeverFails env → ∃ s₁, (UpdateEtcHosts127011 env h₁).exec s = some (.ok (), s₁)) := by
  refine ⟨fun s₁ hrun₁ => ⟨?_, ?_⟩, fun henv => hosts_update_returns henv h₁ s⟩
  · rw [hosts_written hdisk hrun₁]
    exact updateHosts_updated hvalid _
  · intro s₂ s₂' hrun₂ hrun₂'
    rw [hosts_written hdisk hrun₂, hosts_written hdisk hrun₂', hosts_written hdisk hrun₁,
      ConfFile.bytes, updateHosts_updateHosts hvalid]

end Update

/-- Files as on `exDisk`, which can be read as well. -/
def exHostsEnv : Env ExFiles where
  answer c e :=
    match c with
    | .ifstream path => ((e.tree path).bytes, e)
    | c => exDiskEnv.answer c e

theorem exHosts_works : HostsDisk exHostsEnv exDisk where
  reads _ := rfl
  makes e e' fd name h := by
    cases h
    exact List.prefix_iff_eq_take.mpr (by decide)
  creates name e e' fd hbegins h _ := by
    have hdirs : ∀ dir ∈ exDirs, ¬hostsPath ++ [46] <+: dir := by decide
    have hname : name ∉ exDirs := fun hmem => hdirs name hmem hbegins
    simp only [exHostsEnv, exDiskEnv, if_neg hname] at h
    cases h
    exact ⟨Function.update_self .., rfl⟩
  fchmods _ _ := ⟨rfl, rfl⟩
  appends fd bytes path old e e' n h hn hfile hold := by
    rw [(exDisk_works.appends fd bytes path old e e' n h hn hfile hold).2.2]
    exact Function.update_self ..
  fsyncs _ _ := rfl
  closes _ _ := rfl
  renames src dst bytes e e' h hsrc := by
    rw [exDisk_works.renames src dst bytes e e' h hsrc]
    exact Function.update_self ..

/-- A file with a comment, an empty line and no line end at its end. -/
def exHosts : Sys ExFiles :=
  ⟨⟨fun path =>
    if path = hostsPath then
      .content (text "127.0.0.1 localhost\n\n# board\n 127.0.1.1 old old.lan")
    else .absent, none⟩, []⟩

theorem hosts_updates_board :
    ∃ s₁, (UpdateEtcHosts127011 exHostsEnv (text "enet-1")).exec exHosts = some (.ok (), s₁) ∧
      HostsUpdated (text "enet-1") (exDisk.tree exHosts.env hostsPath).bytes
        (exDisk.tree s₁.env hostsPath).bytes ∧
      ∀ s₂ s₂', (UpdateEtcHosts127011 exHostsEnv (text "enet-2")).exec s₁ = some (.ok (), s₂) →
        (UpdateEtcHosts127011 exHostsEnv (text "enet-2")).exec exHosts = some (.ok (), s₂') →
        exDisk.tree s₂.env hostsPath = exDisk.tree s₂'.env hostsPath := by
  have henv : HostsNeverFails exHostsEnv :=
    { exDisk_neverFails with
      makes := fun _ _ => rfl
      fchmods := fun _ _ => rfl }
  have hvalid : IsValidHostname (text "enet-1") = true := by decide
  obtain ⟨hupdates, hreturns⟩ := hosts_updates exHosts_works hvalid (text "enet-2") exHosts
  obtain ⟨s₁, hrun⟩ := hreturns henv
  exact ⟨s₁, hrun, hupdates s₁ hrun⟩

example : updateHosts (text "127.0.0.1 localhost\n\n# board\n 127.0.1.1 old") (text "enet-1") =
    text "127.0.0.1 localhost\n\n# board\n127.0.1.1\tenet-1\n" := by decide

end EnetTcp
