import EnetTcp.Lib.Runs

/-!
# Objects and servers

An operation on an object gives an answer and changes the state. A server keeps an object for
its clients: it takes their operations in, and carries them out one after the other in the
order in which it has taken them in.

* `answers_append`, `final_append`: a run of operations, in two parts.
* `serves_object`: the answers of a server are those of one run of its object.
* `accepted_grows`, `served_grows`: that run only grows.
-/

/-- Operations `ω` on states `σ`, with answers `α`. -/
structure SharedObject (σ ω α : Type) where
  apply : ω → σ → α × σ

namespace SharedObject

variable {σ ω α : Type} (O : SharedObject σ ω α)

/-! ## 1. Runs of operations -/

/-- The answers to operations that are carried out one after the other. -/
def answers : List ω → σ → List α
  | [], _ => []
  | op :: ops, s => (O.apply op s).1 :: answers ops (O.apply op s).2

/-- The state that they leave. -/
def final : List ω → σ → σ
  | [], s => s
  | op :: ops, s => final ops (O.apply op s).2

variable {O}

theorem answers_append (ops ops' : List ω) (s : σ) :
    O.answers (ops ++ ops') s = O.answers ops s ++ O.answers ops' (O.final ops s) := by
  induction ops generalizing s with
  | nil => rfl
  | cons op ops ih =>
    rw [List.cons_append, answers, answers, ih]
    rfl

theorem final_append (ops ops' : List ω) (s : σ) :
    O.final (ops ++ ops') s = O.final ops' (O.final ops s) := by
  induction ops generalizing s with
  | nil => rfl
  | cons op ops ih => exact ih _

/-! ## 2. Servers -/

/-- Operations wait in a queue. Those that have been carried out are kept with their answers. -/
structure ServerState (σ ω α : Type) where
  state : σ
  waiting : List ω := []
  served : List (ω × α) := []

inductive ServerAction (ω : Type)
  | accept (op : ω)
  | serve

variable (O)

def server : StepSystem (ServerState σ ω α) (ServerAction ω) where
  next a s :=
    match a, s.waiting with
    | .accept op, waiting => some { s with waiting := waiting ++ [op] }
    | .serve, [] => none
    | .serve, op :: waiting =>
      some { state := (O.apply op s.state).2
             waiting := waiting
             served := s.served ++ [(op, (O.apply op s.state).1)] }

namespace ServerState

/-- All operations so far, in the order in which they were taken in. -/
def accepted (s : ServerState σ ω α) : List ω := s.served.map Prod.fst ++ s.waiting

end ServerState

variable {O} {s₀ : σ} {s s' : ServerState σ ω α}

theorem next_accept (op : ω) (s : ServerState σ ω α) :
    O.server.next (.accept op) s = some { s with waiting := s.waiting ++ [op] } := rfl

theorem next_serve {op : ω} {waiting : List ω} (h : s.waiting = op :: waiting) :
    O.server.next .serve s = some
      { state := (O.apply op s.state).2
        waiting := waiting
        served := s.served ++ [(op, (O.apply op s.state).1)] } := by
  simp only [server, h]

/-- What a step does to the two lists. -/
theorem server_step {a : ServerAction ω} (h : O.server.next a s = some s') :
    s.accepted <+: s'.accepted ∧ s.served <+: s'.served := by
  cases a with
  | accept op =>
    cases h
    exact ⟨⟨[op], List.append_assoc ..⟩, List.prefix_rfl⟩
  | serve =>
    cases hwaiting : s.waiting with
    | nil =>
      simp only [server, hwaiting] at h
      cases h
    | cons op waiting =>
      rw [next_serve hwaiting] at h
      cases h
      refine ⟨?_, List.prefix_append _ _⟩
      rw [ServerState.accepted, hwaiting, ServerState.accepted, List.map_append, List.append_assoc]
      exact List.prefix_rfl

theorem accepted_grows (h : O.server.Reachable s s') : s.accepted <+: s'.accepted :=
  h.invariant (I := fun x => s.accepted <+: x.accepted) List.prefix_rfl
    fun _ _ _ hgrows _ hnext => hgrows.trans (server_step hnext).1

theorem served_grows (h : O.server.Reachable s s') : s.served <+: s'.served :=
  h.invariant (I := fun x => s.served <+: x.served) List.prefix_rfl
    fun _ _ _ hgrows _ hnext => hgrows.trans (server_step hnext).2

/-- The server has carried out the operations in one run of its object. -/
structure Serves (O : SharedObject σ ω α) (s₀ : σ) (s : ServerState σ ω α) : Prop where
  answers : s.served.map Prod.snd = O.answers (s.served.map Prod.fst) s₀
  state : s.state = O.final (s.served.map Prod.fst) s₀

theorem serves_object (h : O.server.Reachable { state := s₀ } s) : Serves O s₀ s := by
  refine h.invariant ⟨rfl, rfl⟩ fun s a s' hserves _ hnext => ?_
  cases a with
  | accept op =>
    cases hnext
    exact ⟨hserves.answers, hserves.state⟩
  | serve =>
    cases hwaiting : s.waiting with
    | nil =>
      simp only [server, hwaiting] at hnext
      cases hnext
    | cons op waiting =>
      rw [next_serve hwaiting] at hnext
      cases hnext
      constructor
      · simp only [List.map_append, List.map_cons, List.map_nil, answers_append]
        rw [hserves.answers, ← hserves.state]
        rfl
      · simp only [List.map_append, List.map_cons, List.map_nil, final_append]
        rw [← hserves.state]
        rfl

end SharedObject
