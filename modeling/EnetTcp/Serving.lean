import EnetTcp.Running
import EnetTcp.Writes

/-!
# What the daemon does with a message

The `Go`s of the daemon work on the machine only. So what comes of a message is a
function of the message and the machine (`respond`), and the queue, the claim on
the ADC stream and earlier replies have no part in it (`handleMessage_daemon`).
-/

namespace EnetTcp

open Prog

variable {ε : Type} {pf : Platform} {env : Env ε}

/-! ## 1. Items -/

/-- The cells that an item may write. -/
def TDataItem.writes (item : TDataItem) : List Cell := item.toTItemBody.writes item.DId

section

variable (pf : Platform) (env : Env ε)

/-- Run an item on the machine. -/
def goItem (item : TDataItem) (m : Machine ε) : Option (GoResult × Machine ε) :=
  ((Go pf env item.DId).exec (item.toTItemBody, m)).map fun r =>
    ((r.1, { r.2.1 with DId := item.DId }), r.2.2)

/-- Run items one after the other. -/
def goItems : List TDataItem → Machine ε → Option (List GoResult × Machine ε)
  | [], m => some ([], m)
  | item :: items, m => (goItem pf env item m).bind fun q =>
    (goItems items q.2).map fun qs => (q.1 :: qs.1, qs.2)

end

theorem goItems_append (xs ys : List TDataItem) (m : Machine ε) :
    goItems pf env (xs ++ ys) m = (goItems pf env xs m).bind fun q =>
      (goItems pf env ys q.2).map fun r => (q.1 ++ r.1, r.2) := by
  induction xs generalizing m with
  | nil =>
    rw [List.nil_append, goItems, Option.bind_some]
    cases goItems pf env ys m <;> rfl
  | cons item xs ih =>
    rw [List.cons_append, goItems, goItems, Option.bind_assoc]
    congr 1
    funext q
    rw [ih]
    cases goItems pf env xs q.2 with
    | none => rfl
    | some qs =>
      simp only [Option.bind_some, Option.map_some, Option.map_map]
      rfl

/-- An item is run on the machine of the world. -/
theorem runGo_daemon (item : TDataItem) (w : World ε) :
    (runGo (daemonGo pf env) item).exec w =
      (goItem pf env item w.machine).map fun q => (.ok q.1, { w with machine := q.2 }) := by
  show Option.map _ (Option.map _ ((Go pf env item.DId).exec (item.toTItemBody, w.machine))) = _
  rw [goItem, Option.map_map, Option.map_map]
  rfl

/-- The loop of `RunMessage` runs its items on the machine of the world. -/
theorem mapM_daemonGo (items : List TDataItem) (w : World ε) :
    (items.mapM (runGo (daemonGo pf env))).exec w =
      (goItems pf env items w.machine).map fun r => (.ok r.1, { w with machine := r.2 }) := by
  induction items generalizing w with
  | nil => rfl
  | cons item items ih =>
    rw [RunningLemmas.mapM_runGo_cons, runGo_daemon, goItems]
    cases goItem pf env item w.machine with
    | none => rfl
    | some q =>
      simp only [Option.map_some, Option.bind_some, resume_ok, exec_bind, ih]
      cases goItems pf env items q.2 <;> rfl

/-! ## 2. Messages -/

/-- The reply to a message, and the machine afterwards. -/
def respond (pf : Platform) (env : Env ε) (m : TMessage) (machine : Machine ε) :
    Option (TBytes × Machine ε) :=
  if isRequest m.Id then
    (goItems pf env m.DataItems machine).bind fun r =>
      ((replyTo r.1).AsBytes r.2.Config true).map fun bytes => (bytes, r.2)
  else (m.AsBytes machine.Config true).map fun bytes => (bytes, machine)

theorem handleMessage_daemon (socket : Int) (m : TMessage) (w : World ε) :
    (handleMessage pf (daemonGo pf env) socket m).exec w =
      (respond pf env m w.machine).map fun r =>
        (.ok (), { w with machine := r.2, sent := w.sent ++ [(socket, r.1)] }) := by
  rw [handleMessage, respond]
  by_cases hreq : isRequest m.Id = true
  · rw [if_pos hreq, if_pos hreq, exec_bind, RunMessage_exec, mapM_daemonGo]
    cases goItems pf env m.DataItems w.machine with
    | none => rfl
    | some r =>
      simp only [Option.map_some, Option.bind_some, resume_ok, exec_pure, SendResponse_exec,
        Option.map_map]
      rfl
  · rw [if_neg hreq, if_neg hreq, exec_bind, exec_pure, Option.bind_some, resume_ok,
      SendResponse_exec, Option.map_map]
    rfl

/-! ## 3. What a message keeps -/

/-- An item makes its own changes only, and comes to report no other cell. -/
theorem goItem_effect {item : TDataItem} {m m' : Machine ε} {q : GoResult}
    (h : goItem pf env item m = some (q, m')) :
    Changes pf env item.DId item.toTItemBody m m' ∧ q.2.params.reports ⊆ item.params.reports := by
  rw [goItem, Option.map_eq_some_iff] at h
  obtain ⟨r, hr, hq⟩ := h
  obtain ⟨rfl, rfl⟩ := Prod.mk.inj hq
  have heffect := Go_effect pf env hr
  exact ⟨heffect.machine, heffect.reports⟩

theorem goItem_reports {item : TDataItem} {m m' : Machine ε} {q : GoResult}
    (h : goItem pf env item m = some (q, m')) : q.2.params.reports ⊆ item.params.reports :=
  (goItem_effect h).2

/-- What holds of each change that an item of a message may make holds of the message. -/
theorem goItems_closed {R : Machine ε → Machine ε → Prop} [Std.Refl R] [IsTrans (Machine ε) R]
    {items : List TDataItem} {m m' : Machine ε} {qs : List GoResult}
    (h : goItems pf env items m = some (qs, m'))
    (hR : ∀ item ∈ items, ∀ m m', Change pf env item.DId item.toTItemBody m m' → R m m') :
    R m m' := by
  induction items generalizing m qs with
  | nil =>
    cases h
    exact refl (r := R) _
  | cons item items ih =>
    obtain ⟨hhead, htail⟩ := List.forall_mem_cons.mp hR
    rw [goItems, Option.bind_eq_some_iff] at h
    obtain ⟨⟨q, m₁⟩, hq, h⟩ := h
    obtain ⟨⟨qs', m₂⟩, hqs, hr⟩ := Option.map_eq_some_iff.mp h
    obtain ⟨-, rfl⟩ := Prod.mk.inj hr
    exact IsTrans.trans _ _ _ ((goItem_effect hq).1.closed hhead) (ih hqs htail)

/-- What each item of a message keeps of `Config`, the message keeps. -/
theorem goItems_invariant {P : TConfig → Prop} {items : List TDataItem} {m m' : Machine ε}
    {qs : List GoResult} (h : goItems pf env items m = some (qs, m'))
    (hP : ∀ item ∈ items, ∀ c c', ConfigChange item.DId item.toTItemBody c c' → P c → P c')
    (hm : P m.Config) : P m'.Config := by
  let R (m m' : Machine ε) : Prop := P m.Config → P m'.Config
  have : Std.Refl R := ⟨fun _ hm => hm⟩
  have : IsTrans (Machine ε) R := ⟨fun _ _ _ h h' hm => h' (h hm)⟩
  have hall : R m m' := goItems_closed h fun item hitem _ _ hchange =>
    hchange.config_invariant (hP item hitem)
  exact hall hm

theorem goItems_keeps {items : List TDataItem} {m m' : Machine ε} {qs : List GoResult}
    (h : goItems pf env items m = some (qs, m')) {cell : Cell}
    (hcell : ∀ item ∈ items, cell ∉ item.writes) : m.Config.at cell = m'.Config.at cell :=
  goItems_invariant (P := fun c => m.Config.at cell = c.at cell) h
    (fun item hitem _ _ hchange hc => hc.trans (hchange.keeps (hcell item hitem))) rfl

/-- The cells that a message may write when it is handled. -/
def TMessage.writes (m : TMessage) : List Cell :=
  if isRequest m.Id then m.DataItems.flatMap TDataItem.writes else []

theorem respond_keeps {m : TMessage} {machine machine' : Machine ε} {bytes : TBytes}
    (h : respond pf env m machine = some (bytes, machine')) {cell : Cell}
    (hcell : cell ∉ m.writes) : machine.Config.at cell = machine'.Config.at cell := by
  unfold respond at h
  unfold TMessage.writes at hcell
  split at h
  case isTrue hreq =>
    rw [if_pos hreq] at hcell
    rw [Option.bind_eq_some_iff] at h
    obtain ⟨⟨qs, m'⟩, hqs, h⟩ := h
    obtain ⟨_, -, hr⟩ := Option.map_eq_some_iff.mp h
    obtain ⟨-, rfl⟩ := Prod.mk.inj hr
    exact goItems_keeps hqs fun item hitem hmem =>
      hcell (List.mem_flatMap.mpr ⟨item, hitem, hmem⟩)
  case isFalse =>
    obtain ⟨_, -, hr⟩ := Option.map_eq_some_iff.mp h
    obtain ⟨-, rfl⟩ := Prod.mk.inj hr
    rfl

end EnetTcp
