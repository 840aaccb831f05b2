import Mathlib.Data.List.Basic
import Mathlib.Logic.Function.Basic

/-!
# One output stream for several writers

A stream has at most one file open. Opening a file empties it, writing adds to the file that
is open, and what is written while none is open is lost. Files are opened by name, and two
names may lead to the same file.

A `Job` opens a file, writes some chunks and closes the stream. When two writers share the
stream, their operations interleave (`Interleaves`).

* `interleaved_iff`: both files end with the chunks of their own job only when the jobs do
  not get in each other's way (`InTurn`).
-/

/-- An operation on a stream of elements of type `α`, with files named by `ν`. -/
inductive StreamOp (ν α : Type)
  | opens (name : ν)
  | writes (xs : List α)
  | closes

/-- The files that are there, and the one that the stream has open. -/
structure Files (φ α : Type) where
  current : Option φ
  content : φ → List α

namespace Files

variable {ν φ α : Type} [DecidableEq φ] (fileOf : ν → φ)

def step (s : Files φ α) : StreamOp ν α → Files φ α
  | .opens name =>
    { current := some (fileOf name), content := Function.update s.content (fileOf name) [] }
  | .writes xs =>
    match s.current with
    | none => s
    | some f => { s with content := Function.update s.content f (s.content f ++ xs) }
  | .closes => { s with current := none }

def run (s : Files φ α) (ops : List (StreamOp ν α)) : Files φ α := ops.foldl (step fileOf) s

@[simp] theorem run_nil (s : Files φ α) : s.run fileOf [] = s := rfl

@[simp] theorem run_cons (s : Files φ α) (op : StreamOp ν α) (ops : List (StreamOp ν α)) :
    s.run fileOf (op :: ops) = (s.step fileOf op).run fileOf ops := rfl

theorem run_append (s : Files φ α) (ops ops' : List (StreamOp ν α)) :
    s.run fileOf (ops ++ ops') = (s.run fileOf ops).run fileOf ops' := List.foldl_append

end Files

/-- Write the chunks to a file: what one writer has to do. -/
structure Job (ν α : Type) where
  name : ν
  chunks : List (List α)
  chunks_ne : ∀ xs ∈ chunks, xs ≠ []

namespace Job

variable {ν α : Type} (j : Job ν α)

/-- All but the end. -/
def begin : List (StreamOp ν α) := .opens j.name :: j.chunks.map .writes

def ops : List (StreamOp ν α) := j.begin ++ [.closes]

/-- What the file is to contain. -/
def data : List α := j.chunks.flatten

end Job

/-- The list has the elements of both lists, and those of each in order. -/
inductive Interleaves {τ : Type} : List τ → List τ → List τ → Prop
  | nil : Interleaves [] [] []
  | left {x : τ} {xs ys zs : List τ} : Interleaves xs ys zs → Interleaves (x :: xs) ys (x :: zs)
  | right {y : τ} {xs ys zs : List τ} : Interleaves xs ys zs → Interleaves xs (y :: ys) (y :: zs)

/-- The first job is done before the second begins, or it lacks no more than its end by then
and the second has written all its chunks before anyone closes the stream. -/
def InTurn {ν α : Type} (j k : Job ν α) (ops : List (StreamOp ν α)) : Prop :=
  ops = j.ops ++ k.ops ∨ ops = j.begin ++ k.begin ++ [.closes, .closes]

/-! ## 1. Interleavings -/

namespace Interleaves

variable {τ υ : Type} {xs ys zs : List τ}

theorem symm (h : Interleaves xs ys zs) : Interleaves ys xs zs := by
  induction h with
  | nil => exact .nil
  | left _ ih => exact .right ih
  | right _ ih => exact .left ih

theorem eq_of_nil_left (h : Interleaves [] ys zs) : zs = ys := by
  induction ys generalizing zs with
  | nil =>
    cases h
    rfl
  | cons y ys ih =>
    cases h with
    | right h => rw [ih h]

theorem append_left (ws : List τ) (h : Interleaves xs ys zs) :
    Interleaves (ws ++ xs) ys (ws ++ zs) := by
  induction ws with
  | nil => exact h
  | cons w ws ih => exact .left ih

theorem mem {z : τ} (h : Interleaves xs ys zs) (hz : z ∈ zs) : z ∈ xs ∨ z ∈ ys := by
  induction h with
  | nil => exact .inl hz
  | left _ ih =>
    rcases List.mem_cons.mp hz with rfl | hz
    · exact .inl List.mem_cons_self
    · exact (ih hz).imp_left (List.mem_cons_of_mem _)
  | right _ ih =>
    rcases List.mem_cons.mp hz with rfl | hz
    · exact .inr List.mem_cons_self
    · exact (ih hz).imp_right (List.mem_cons_of_mem _)

/-- One of the first elements comes first. -/
theorem cons_cons {x y : τ} (h : Interleaves (x :: xs) (y :: ys) zs) :
    (∃ rest, zs = x :: rest ∧ Interleaves xs (y :: ys) rest) ∨
      ∃ rest, zs = y :: rest ∧ Interleaves (x :: xs) ys rest := by
  cases h with
  | left h => exact .inl ⟨_, rfl, h⟩
  | right h => exact .inr ⟨_, rfl, h⟩

/-- Elements that stand for lists. -/
theorem flatMap (f : τ → List υ) (h : Interleaves xs ys zs) :
    Interleaves (xs.flatMap f) (ys.flatMap f) (zs.flatMap f) := by
  induction h with
  | nil => exact .nil
  | left _ ih => exact ih.append_left _
  | right _ ih => exact (ih.symm.append_left _).symm

end Interleaves

/-! ## 2. Two jobs -/

namespace Files

variable {ν φ α : Type} [DecidableEq φ] {fileOf : ν → φ}

/-- Both files have the chunks of their own job. -/
def Whole (fileOf : ν → φ) (s : Files φ α) (j k : Job ν α) : Prop :=
  s.content (fileOf j.name) = j.data ∧ s.content (fileOf k.name) = k.data

theorem run_writes (fileOf : ν → φ) (s : Files φ α) {f : φ} (h : s.current = some f)
    (chunks : List (List α)) : s.run fileOf (chunks.map .writes) =
      { s with content := Function.update s.content f (s.content f ++ chunks.flatten) } := by
  obtain ⟨current, content⟩ := s
  cases h
  induction chunks generalizing content with
  | nil =>
    rw [List.flatten_nil, List.append_nil, Function.update_eq_self]
    rfl
  | cons xs chunks ih =>
    rw [List.map_cons, run_cons, step, ih]
    simp only [Function.update_idem, Function.update_self, List.flatten_cons, List.append_assoc]

/-- A job that is not disturbed. -/
theorem run_job (fileOf : ν → φ) (s : Files φ α) (j : Job ν α) :
    s.run fileOf j.ops =
      { current := none, content := Function.update s.content (fileOf j.name) j.data } := by
  rw [Job.ops, Job.begin, List.cons_append, run_cons, run_append, run_writes _ _ rfl, run_cons,
    run_nil]
  simp only [step, Function.update_idem, Function.update_self, List.nil_append]
  rfl

/-- A file that is not open changes when it is opened only. -/
theorem run_content_of_ne {s : Files φ α} {f : φ} (hf : s.current ≠ some f)
    {ops : List (StreamOp ν α)} (hopens : ∀ name, .opens name ∈ ops → fileOf name ≠ f) :
    (s.run fileOf ops).content f = s.content f := by
  induction ops generalizing s with
  | nil => rfl
  | cons op ops ih =>
    have hrest : ∀ name, .opens name ∈ ops → fileOf name ≠ f :=
      fun name h => hopens name (List.mem_cons_of_mem _ h)
    rw [run_cons]
    cases op with
    | opens name =>
      have hne := hopens name List.mem_cons_self
      refine Eq.trans (ih (s := s.step fileOf (.opens name)) ?_ hrest) ?_
      · exact fun h => hne (Option.some.inj h)
      · exact Function.update_of_ne hne.symm _ _
    | closes => exact ih (s := { s with current := none }) (fun h => by cases h) hrest
    | writes xs =>
      obtain ⟨current, content⟩ := s
      cases current with
      | none => exact ih hf hrest
      | some g =>
        have hne : f ≠ g := fun h => hf (congrArg some h.symm)
        have hstep : Function.update content g (content g ++ xs) f = content f :=
          Function.update_of_ne hne _ _
        refine Eq.trans ?_ hstep
        exact ih (s := ⟨some g, Function.update content g (content g ++ xs)⟩) hf hrest

theorem opens_notMem {chunks : List (List α)} {ops : List (StreamOp ν α)} (name : ν)
    (h : Interleaves (chunks.map .writes ++ [.closes]) [.closes] ops) : .opens name ∉ ops := by
  intro hmem
  have hcases := h.mem hmem
  simp at hcases

/-- The second job, with an end to come from the first: that must not come too early. -/
theorem second_iff (fileOf : ν → φ) {s : Files φ α} {f : φ} (hf : s.current = some f)
    {chunks : List (List α)}
    (hne : ∀ xs ∈ chunks, xs ≠ []) {ops : List (StreamOp ν α)}
    (h : Interleaves (chunks.map .writes ++ [.closes]) [.closes] ops) :
    (s.run fileOf ops).content f = s.content f ++ chunks.flatten ↔
      ops = chunks.map .writes ++ [.closes, .closes] := by
  obtain ⟨current, content⟩ := s
  cases hf
  induction chunks generalizing content ops with
  | nil =>
    have hops : ops = [.closes, .closes] := by
      rcases h.cons_cons with ⟨rest, rfl, hrest⟩ | ⟨rest, rfl, hrest⟩
      · rw [hrest.eq_of_nil_left]
      · rw [hrest.symm.eq_of_nil_left]
    subst hops
    exact iff_of_true (List.append_nil _).symm rfl
  | cons xs chunks ih =>
    obtain ⟨hxs, hchunks⟩ := List.forall_mem_cons.mp hne
    rcases h.cons_cons with ⟨rest, rfl, hrest⟩ | ⟨rest, rfl, hrest⟩
    · have htail := ih hchunks hrest (Function.update content f (content f ++ xs))
      simp only [Function.update_self, List.append_assoc] at htail
      rw [run_cons, List.map_cons, List.cons_append, List.cons_inj_right]
      exact htail
    · rw [hrest.symm.eq_of_nil_left]
      refine iff_of_false (fun hcontent => ?_) fun hops => by cases hops
      have hlost : (run fileOf ⟨none, content⟩
          (((xs :: chunks).map StreamOp.writes ++ [.closes] : List (StreamOp ν α)))).content f =
          content f :=
        run_content_of_ne (fun h => by cases h) fun name hmem => by simp at hmem
      have hnil : xs ++ chunks.flatten = [] :=
        List.self_eq_append_right.mp (hlost.symm.trans hcontent)
      exact hxs (List.append_eq_nil_iff.mp hnil).1

/-- The first job has its file open, and the second has yet to begin. -/
theorem first_iff {s : Files φ α} {f : φ} (hf : s.current = some f) {k : Job ν α}
    (hdistinct : f ≠ fileOf k.name) {chunks : List (List α)} (hne : ∀ xs ∈ chunks, xs ≠ [])
    {ops : List (StreamOp ν α)} (h : Interleaves (chunks.map .writes ++ [.closes]) k.ops ops) :
    (s.run fileOf ops).content f = s.content f ++ chunks.flatten ∧
        (s.run fileOf ops).content (fileOf k.name) = k.data ↔
      ops = chunks.map .writes ++ .closes :: k.ops ∨
        ops = chunks.map .writes ++ k.begin ++ [.closes, .closes] := by
  obtain ⟨current, content⟩ := s
  cases hf
  have hcons : k.ops = .opens k.name :: (k.chunks.map .writes ++ [.closes]) := rfl
  induction chunks generalizing content ops with
  | nil =>
    rcases (hcons ▸ h).cons_cons with ⟨rest, rfl, hrest⟩ | ⟨rest, rfl, hrest⟩
    · rw [hrest.eq_of_nil_left, ← hcons, run_cons, run_job]
      refine iff_of_true ⟨?_, Function.update_self ..⟩ (.inl rfl)
      exact (Function.update_of_ne hdistinct _ _).trans (List.append_nil _).symm
    · have hopened : ((step fileOf ⟨some f, content⟩ (.opens k.name)).run fileOf rest).content f =
          content f :=
        (run_content_of_ne (fun h => hdistinct (Option.some.inj h).symm) fun name hmem =>
          absurd hmem (opens_notMem name hrest.symm)).trans (Function.update_of_ne hdistinct _ _)
      rw [run_cons, hopened, List.flatten_nil, List.append_nil, and_iff_right rfl]
      have hsecond := second_iff fileOf
        (s := step fileOf ⟨some f, content⟩ (.opens k.name)) rfl k.chunks_ne hrest.symm
      simp only [step, Function.update_self, List.nil_append] at hsecond
      refine hsecond.trans ⟨fun heq => .inr (by rw [heq]; rfl), ?_⟩
      rintro (hops | hops)
      · cases hops
      · exact (List.cons.inj hops).2
  | cons xs chunks ih =>
    obtain ⟨hxs, hchunks⟩ := List.forall_mem_cons.mp hne
    rcases (hcons ▸ h).cons_cons with ⟨rest, rfl, hrest⟩ | ⟨rest, rfl, hrest⟩
    · have htail := ih hchunks hrest (Function.update content f (content f ++ xs))
      rw [List.append_assoc] at htail
      simp only [Function.update_self, List.append_assoc (content f)] at htail
      rw [run_cons, List.map_cons, List.append_assoc, List.cons_append, List.cons_append,
        List.cons_inj_right, List.cons_inj_right]
      exact htail
    · refine iff_of_false (fun hcontent => ?_) ?_
      · have hopened : ((step fileOf ⟨some f, content⟩ (.opens k.name)).run fileOf rest).content f =
            content f := by
          have hcurrent : some (fileOf k.name) ≠ some f :=
            fun h => hdistinct (Option.some.inj h).symm
          refine (run_content_of_ne hcurrent fun name hmem => ?_).trans
            (Function.update_of_ne hdistinct _ _)
          have hcases := hrest.mem hmem
          simp at hcases
        have hnil : xs ++ chunks.flatten = [] :=
          List.self_eq_append_right.mp (hopened.symm.trans hcontent.1)
        exact hxs (List.append_eq_nil_iff.mp hnil).1
      · rintro (hops | hops) <;> cases hops

theorem whole_iff_inTurn (s : Files φ α) {j k : Job ν α} (hne : fileOf j.name ≠ fileOf k.name)
    {rest : List (StreamOp ν α)}
    (h : Interleaves (j.chunks.map .writes ++ [.closes]) k.ops rest) :
    (s.run fileOf (.opens j.name :: rest)).Whole fileOf j k ↔
      InTurn j k (.opens j.name :: rest) ∨ InTurn k j (.opens j.name :: rest) := by
  have hfirst := first_iff (s := s.step fileOf (.opens j.name)) rfl hne j.chunks_ne h
  have hname : j.name ≠ k.name := fun h => hne (congrArg fileOf h)
  have hother : ¬InTurn k j (.opens j.name :: rest) := by
    rintro (hops | hops)
    · exact hname (StreamOp.opens.inj (List.cons.inj hops).1)
    · exact hname (StreamOp.opens.inj (List.cons.inj hops).1)
  simp only [step, Function.update_self, List.nil_append] at hfirst
  rw [or_iff_left hother, InTurn, Job.ops, Job.begin, List.cons_append, List.cons_append,
    List.cons_append, List.cons_append, List.cons_inj_right, List.cons_inj_right,
    List.append_assoc]
  exact hfirst

/-- Both files are whole only when the jobs are in turn. -/
theorem interleaved_iff (s : Files φ α) {j k : Job ν α} (hne : fileOf j.name ≠ fileOf k.name)
    {ops : List (StreamOp ν α)} (h : Interleaves j.ops k.ops ops) :
    (s.run fileOf ops).Whole fileOf j k ↔ InTurn j k ops ∨ InTurn k j ops := by
  rcases Interleaves.cons_cons h with ⟨rest, rfl, hrest⟩ | ⟨rest, rfl, hrest⟩
  · exact whole_iff_inTurn s hne hrest
  · rw [or_comm, ← whole_iff_inTurn s hne.symm hrest.symm]
    exact and_comm

end Files
