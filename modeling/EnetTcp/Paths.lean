import EnetTcp.Item
import EnetTcp.Lib.Paths

/-!
# Upload paths (utilities.cpp, sanitizePath)

`sanitizePath` takes a path that begins with `/home/acces/` once it is absolute and its
backslashes are slashes. What follows may contain `..`, which the file system resolves.

`confined_iff`: the paths that stay in `/home/acces/` are those that, wherever they climb
above it, come back by name.
-/

namespace EnetTcp

open Prog Paths

/-! ## 1. The check in place -/

/-- `sanitizePath` on the string it is given a reference to. -/
def sanitizePathInPlace (currentPath : TBytes) : Prog Exn TBytes Bool := do
  let path ← get
  if 0 ∈ path then return false
  let absPath ← absolutePath currentPath path
  let absPath := absPath.map fun b => if b = 92 then 47 else b
  if basePath.isPrefixOf absPath then
    set absPath
    return true
  else return false

/-- The constructor of `SYS_UploadFileName` runs the check on a copy of its data. -/
theorem sanitizePathInPlace_exec (currentPath path : TBytes) :
    (sanitizePathInPlace currentPath).exec path =
      ((sanitizePath currentPath path).exec path).map fun q =>
        match q with
        | (.ok (some absPath), _) => (.ok true, absPath)
        | (.ok none, s) => (.ok false, s)
        | (.error x, s) => (.error x, s) := by
  rw [sanitizePathInPlace, sanitizePath, exec_get_bind]
  by_cases hnul : 0 ∈ path
  · rw [if_pos hnul, if_pos hnul]
    rfl
  · rw [if_neg hnul, if_neg hnul, exec_bind, exec_bind]
    cases (absolutePath currentPath path).exec path with
    | none => rfl
    | some q =>
      obtain ⟨q, s⟩ := q
      cases q with
      | error x => rfl
      | ok absPath =>
        simp only [Option.bind_some, resume_ok]
        split <;> rfl

/-! ## 2. Where a path leads -/

/-- The step that the file system takes for a part of a path, if any. -/
def component (part : TBytes) : Option (Step TBytes) :=
  if part = [] ∨ part = text "." then none
  else if part = text ".." then some .up
  else some (.name part)

def components (path : TBytes) : List (Step TBytes) := (path.splitOn 47).filterMap component

/-- The names that lead from the root to the file of an absolute path. -/
def resolved (path : TBytes) : List TBytes := walk [] (components path)

/-- The path leads into `/home/acces/`. -/
def InsideBase (path : TBytes) : Prop := [text "home", text "acces"] <+: resolved path

instance (path : TBytes) : Decidable (InsideBase path) := inferInstanceAs (Decidable (_ <+: _))

/-- `sanitizePath` takes the path for one that leads into `/home/acces/`, or refuses it and
leaves it as it is. -/
def Confined (currentPath path : TBytes) : Prop :=
  match (sanitizePathInPlace currentPath).exec path with
  | some (.ok true, absPath) => InsideBase absPath
  | some (.ok false, path') => path' = path
  | _ => True

/-- The path as it is compared: absolute, with slashes only. -/
def slashed (currentPath path : TBytes) : TBytes :=
  let absPath :=
    if path.head? = some 47 then path
    else if currentPath.getLast? = some 47 then currentPath ++ path
    else currentPath ++ [47] ++ path
  absPath.map fun b => if b = 92 then 47 else b

/-- From `/home/acces/`, two levels below the root: a walk that comes up to a level last
leaves it by the name that leads back. -/
def ComesBack (steps : List (Step TBytes)) : Prop :=
  (StaysBelow 0 2 steps ∨ LastEnters 0 (text "home") 2 steps) ∧
    (StaysBelow 1 2 steps ∨ LastEnters 1 (text "acces") 2 steps)

namespace PathLemmas

theorem pair_prefix {α : Type} {a b : α} {xs : List α} :
    [a, b] <+: xs ↔ xs[0]? = some a ∧ xs[1]? = some b := by
  cases xs with
  | nil => simp
  | cons x xs =>
    cases xs with
    | nil => simp
    | cons y ys => simp [List.cons_prefix_cons, eq_comm]

theorem components_base (s : TBytes) :
    components (basePath ++ s) = .name (text "home") :: .name (text "acces") :: components s := by
  have hsplit : (basePath ++ s).splitOn 47 =
      [] :: text "home" :: text "acces" :: s.splitOn 47 := by
    show List.splitOnP (· == 47)
      ([] ++ 47 :: (text "home" ++ 47 :: (text "acces" ++ 47 :: s))) = _
    rw [List.splitOnP_append_cons _ _ rfl, List.splitOnP_append_cons _ _ rfl,
      List.splitOnP_append_cons _ _ rfl]
    rfl
  rw [components, hsplit]
  rfl

theorem insideBase_iff (s : TBytes) : InsideBase (basePath ++ s) ↔ ComesBack (components s) := by
  rw [InsideBase, resolved, components_base, pair_prefix]
  show (walk [text "home", text "acces"] (components s))[0]? = _ ∧
    (walk [text "home", text "acces"] (components s))[1]? = _ ↔ _
  rw [walk_getElem?, walk_getElem?]
  exact and_congr (or_congr_left (and_iff_right rfl)) (or_congr_left (and_iff_right rfl))

theorem absolutePath_eq {σ : Type} (currentPath : TBytes) {path : TBytes} (h : path ≠ []) :
    ∃ absPath, (absolutePath currentPath path : Prog Exn σ TBytes) = pure absPath ∧
      slashed currentPath path = absPath.map fun b => if b = 92 then 47 else b := by
  cases path with
  | nil => exact absurd rfl h
  | cons b path =>
    simp only [absolutePath, slashed, List.head?_cons, Option.some.injEq]
    split
    · exact ⟨_, rfl, rfl⟩
    · split
      · exact ⟨_, rfl, rfl⟩
      · exact ⟨_, rfl, rfl⟩

end PathLemmas

open PathLemmas

/-- The paths that `sanitizePath` confines. -/
theorem confined_iff {currentPath path : TBytes} :
    Confined currentPath path ↔
      0 ∈ path ∨ path = [] ∨
        ∀ s, slashed currentPath path = basePath ++ s → ComesBack (components s) := by
  by_cases hnul : 0 ∈ path
  · have hrun : (sanitizePathInPlace currentPath).exec path = some (.ok false, path) := by
      rw [sanitizePathInPlace, exec_get_bind, if_pos hnul]
      rfl
    rw [Confined, hrun]
    exact iff_of_true rfl (.inl hnul)
  rw [or_iff_right hnul]
  by_cases hempty : path = []
  · subst hempty
    exact iff_of_true trivial (.inl rfl)
  rw [or_iff_right hempty]
  obtain ⟨absPath, habs, hslashed⟩ := absolutePath_eq (σ := TBytes) currentPath hempty
  rw [hslashed]
  by_cases hbase : basePath.isPrefixOf (absPath.map fun b => if b = 92 then 47 else b) = true
  · have hrun : (sanitizePathInPlace currentPath).exec path =
        some (.ok true, absPath.map fun b => if b = 92 then 47 else b) := by
      rw [sanitizePathInPlace, exec_get_bind, if_neg hnul, habs, exec_bind, exec_pure,
        Option.bind_some, resume_ok, if_pos hbase]
      rfl
    rw [Confined, hrun]
    obtain ⟨s, hs⟩ := List.isPrefixOf_iff_prefix.mp hbase
    simp only [← hs, List.append_cancel_left_eq, forall_eq']
    exact insideBase_iff s
  · have hrun : (sanitizePathInPlace currentPath).exec path = some (.ok false, path) := by
      rw [sanitizePathInPlace, exec_get_bind, if_neg hnul, habs, exec_bind, exec_pure,
        Option.bind_some, resume_ok, if_neg hbase]
      rfl
    rw [Confined, hrun]
    refine iff_of_true rfl fun s hs => absurd ?_ hbase
    exact List.isPrefixOf_iff_prefix.mpr ⟨s, hs.symm⟩

/-- Two levels up from `/home/acces/`. -/
def exClimbing : TBytes := text "/home/acces/../../etc/passwd"

theorem climbing_path_escapes : ¬Confined (text "/root") exClimbing := by
  have hrun : (sanitizePathInPlace (text "/root")).exec exClimbing =
      some (.ok true, exClimbing) := by rfl
  rw [Confined, hrun]
  decide

end EnetTcp
