import EnetTcp.DacSettings

/-!
# A model string that is rejected (BRD_.cpp, TBRD_Model::Go)

Two parsers read the numbers of DACs and of ADC channels from the model string. `Go` hands them
pointers to the fields of `Config`, and only logs what they report.

* `model_run`: the three fields take the string and what the parsers leave, and four keys are
  written.
* `rejected_model_iff`: when a rejected string changes nothing.
-/

namespace EnetTcp

open Prog FailureLemmas PersistLemmas

variable {ε : Type}

/-! ## 1. What a model string sets -/

/-- Both parsers accept the string. -/
def ModelAccepted (rawBytes : TBytes) : Prop :=
  (enet_ai_parse_dac_count (c_str rawBytes)).1 = 0 ∧
    (enet_ai_parse_adc_channel_count (c_str rawBytes)).1 = 0

instance (rawBytes : TBytes) : Decidable (ModelAccepted rawBytes) :=
  inferInstanceAs (Decidable (_ ∧ _))

/-- The string, and the two counts as the parsers leave them. -/
def modelSettings (rawBytes : TBytes) : List Setting :=
  [⟨.Model, rawBytes⟩, ⟨.NUM_DACs, (enet_ai_parse_dac_count (c_str rawBytes)).2⟩,
    ⟨.adcChannels, (enet_ai_parse_adc_channel_count (c_str rawBytes)).2⟩]

/-- The fields that `SaveBrdConfig` writes. -/
def boardFields : List ConfigField := [.Description, .Model, .adcChannels, .SerialNumber]

def boardSettings (c : TConfig) : List Setting := boardFields.map fun f => ⟨f, f.get c⟩

/-- The key is one of the board. -/
def ConfigField.IsBoardKey (f : ConfigField) : Prop := text "BRD_" <+: f.key

/-- An accepted string sets the three fields. A rejected one changes neither them nor a file of
the board. -/
structure RejectsModel (disk : Disk ε) (rawBytes : TBytes) (m m' : Machine ε) : Prop where
  accepted : ModelAccepted rawBytes → ∀ x ∈ modelSettings rawBytes, x.InMemory m'.Config
  memory : ¬ModelAccepted rawBytes →
    ∀ x ∈ modelSettings rawBytes, x.field.get m'.Config = x.field.get m.Config
  files : ¬ModelAccepted rawBytes → ∀ f : ConfigField, f.IsBoardKey →
    disk.tree m'.sys.env (confPath currentLayer f) = disk.tree m.sys.env (confPath currentLayer f)

/-- Every write of a board key fails, or finds its text in the file. -/
def BoardStays (env : Env ε) (fuel : Nat) (disk : Disk ε) (m : Machine ε) : Prop :=
  Gives (writeKeys env fuel ((boardSettings m.Config).map Setting.write)) m.sys fun rcs =>
    List.Forall₂ (fun x rc => x.Stays (disk.tree m.sys.env) rc) (boardSettings m.Config) rcs

/-! ## 2. What Go does -/

namespace BoardLemmas

theorem boardSettings_field (c : TConfig) :
    (boardSettings c).map Setting.field = boardFields := rfl

theorem boardFields_key : ∀ f ∈ boardFields, f.IsBoardKey := by
  unfold ConfigField.IsBoardKey
  decide +kernel

theorem modelSettings_nodup (rawBytes : TBytes) :
    ((modelSettings rawBytes).map Setting.field).Nodup := by
  show [ConfigField.Model, .NUM_DACs, .adcChannels].Nodup
  decide

theorem assign_model (Model : TBytes) (dacs channels : UInt8) (c : TConfig) :
    assign [⟨.Model, Model⟩, ⟨.NUM_DACs, dacs⟩, ⟨.adcChannels, channels⟩] c =
      { c with Model, NUM_DACs := dacs, adcChannels := channels } := rfl

theorem quiet_saveBrdConfig (env : Env ε) (fuel : Nat) (c : TConfig) :
    Quiet (SaveBrdConfig env fuel c) :=
  throws_bind (quiet_writeConfigString env fuel _ _) fun _ =>
    throws_bind (quiet_writeConfigString env fuel _ _) fun _ =>
      throws_bind (quiet_writeConfigString env fuel _ _) fun _ =>
        throws_bind (quiet_writeConfigString env fuel _ _) fun _ => throws_pure _

end BoardLemmas

open BoardLemmas

/-- `Go` stores the string and both counts, accepted or not, and writes the keys of the board. -/
theorem model_run {env : Env ε} {fuel : Nat} {rawBytes : TBytes} {m m' : Machine ε}
    {r : Except Exn Unit} (h : (TBRD_Model.Go env fuel rawBytes).exec m = some (r, m')) :
    m'.Config = assign (modelSettings rawBytes) m.Config ∧
      ∃ rcs, (writeKeys env fuel ((boardSettings m'.Config).map Setting.write)).exec m.sys =
        some (.ok rcs, m'.sys) := by
  have hconfig : m'.Config = assign (modelSettings rawBytes) m.Config := by
    rw [modelSettings, assign_model]
    rw [TBRD_Model.Go, exec_get_bind, exec_set_bind] at h
    have hsave := assigns_bind (assigns_io (quiet_saveBrdConfig env fuel _))
      (fun _ => assigns_pure ()) _ r m' h
    exact hsave.2
  obtain ⟨-, rcs, hrcs⟩ := model_writes rawBytes h
  refine ⟨hconfig, rcs, ?_⟩
  rw [hconfig, modelSettings, assign_model]
  exact hrcs

/-! ## 3. A rejected string -/

/-- `Go` leaves everything as it was for a rejected string when `Config` had the string and the
counts already, and no write changes a file. -/
theorem rejected_model_iff {env : Env ε} {disk : Disk ε}
    (hdisk : FaultyDisk env disk currentLayer) {fuel : Nat} {rawBytes : TBytes} {m m' : Machine ε}
    {r : Except Exn Unit} (h : (TBRD_Model.Go env fuel rawBytes).exec m = some (r, m')) :
    RejectsModel disk rawBytes m m' ↔ ModelAccepted rawBytes ∨
      (∀ x ∈ modelSettings rawBytes, x.InMemory m.Config) ∧ BoardStays env fuel disk m := by
  obtain ⟨hconfig, rcs, hrcs⟩ := model_run h
  have hassigned : ∀ x ∈ modelSettings rawBytes, x.InMemory m'.Config := fun x hx => by
    rw [hconfig]
    exact get_assign_of_mem (modelSettings_nodup rawBytes) hx _
  obtain ⟨hwritten, hkept⟩ := writeKeys_files hdisk (by
    rw [boardSettings_field]
    decide) hrcs
  -- memory that had the values already is as it was
  have hsame (hmemory : ∀ x ∈ modelSettings rawBytes, x.InMemory m.Config) :
      boardSettings m'.Config = boardSettings m.Config := by
    refine List.map_congr_left fun f _ => ?_
    rw [hconfig, get_assign_of_inMemory (modelSettings_nodup rawBytes) hmemory]
  constructor
  · intro hrejects
    refine or_iff_not_imp_left.mpr fun hno => ?_
    have hmemory : ∀ x ∈ modelSettings rawBytes, x.InMemory m.Config := fun x hx =>
      (hrejects.memory hno x hx).symm.trans (hassigned x hx)
    rw [hsame hmemory] at hrcs hwritten
    refine ⟨hmemory, rcs, m'.sys, hrcs, ?_⟩
    refine (forall_mem_iff_forall₂ hwritten fun x rc => unchanged_iff).mp fun x hx => ?_
    exact hrejects.files hno x.field (boardFields_key _ (List.mem_map_of_mem hx))
  · rintro (hyes | ⟨hmemory, rcs', s', hrcs', hstays⟩)
    · exact ⟨fun _ => hassigned, absurd hyes, absurd hyes⟩
    · rw [hsame hmemory] at hrcs hwritten hkept
      cases hrcs.symm.trans hrcs'
      have hfiles := (forall_mem_iff_forall₂ hwritten fun x rc => unchanged_iff).mpr hstays
      refine ⟨fun _ => hassigned, fun _ x hx => (hassigned x hx).trans (hmemory x hx).symm, ?_⟩
      intro _ f _
      by_cases hf : f ∈ boardFields
      · exact hfiles ⟨f, f.get m.Config⟩ (List.mem_map_of_mem hf)
      · exact hkept f hf

namespace BoardLemmas

/-- On a disk that works the string is stored and saved. -/
theorem model_returns (rawBytes : TBytes) (m : Machine ExFiles) :
    ∃ m', (TBRD_Model.Go exDiskEnv 1 rawBytes).exec m = some (.ok (), m') := by
  have hsave (c : TConfig) : Returns (fun _ => True) (fun _ => True)
      (SaveBrdConfig exDiskEnv 1 c) := by
    rw [SaveBrdConfig_eq]
    have hfields := RestoreLemmas.returns_saveFields exDisk_neverFails c currentLayer boardFields
    exact returns_bind hfields fun _ _ => returns_pure trivial
  rw [TBRD_Model.Go, exec_get_bind, exec_set_bind, exec_bind, io, exec_zoom]
  obtain ⟨b, s', hrun, -, -⟩ := hsave _ m.sys trivial
  rw [hrun]
  exact ⟨_, rfl⟩

end BoardLemmas

theorem accepted_model_kept : ∃ m', (TBRD_Model.Go exDiskEnv 1
      (text "eNET-AIO16-16F-10U")).exec exDiskMachine = some (.ok (), m') ∧
    RejectsModel exDisk (text "eNET-AIO16-16F-10U") exDiskMachine m' := by
  obtain ⟨m', hrun⟩ := model_returns (text "eNET-AIO16-16F-10U") exDiskMachine
  exact ⟨m', hrun, (rejected_model_iff exDisk_faulty hrun).mpr (.inl (by decide +kernel))⟩

/-- A board without DACs, with an option for their range. -/
def exContradiction : TBytes := text "eNET-AI16-16F-10U"

/-- The string is stored, with 255 DACs. -/
theorem rejected_model_stored : FaultyDisk exDiskEnv exDisk currentLayer ∧
    ¬ModelAccepted exContradiction ∧
      ∃ m', (TBRD_Model.Go exDiskEnv 1 exContradiction).exec exDiskMachine = some (.ok (), m') ∧
        m'.Config.NUM_DACs = 255 ∧ ¬RejectsModel exDisk exContradiction exDiskMachine m' := by
  have hno : ¬ModelAccepted exContradiction := by decide +kernel
  obtain ⟨m', hrun⟩ := model_returns exContradiction exDiskMachine
  have hconfig := (model_run hrun).1
  refine ⟨exDisk_faulty, hno, m', hrun, ?_, ?_⟩
  · rw [hconfig]
    show (enet_ai_parse_dac_count (c_str exContradiction)).2 = 255
    decide +kernel
  · intro h
    have hmodel := h.memory hno ⟨.Model, exContradiction⟩ List.mem_cons_self
    rw [hconfig] at hmodel
    have hkept : exContradiction = text "eNET-untested" := hmodel
    exact absurd hkept (by decide +kernel)

end EnetTcp
