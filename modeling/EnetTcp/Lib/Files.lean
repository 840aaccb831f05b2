import Mathlib.Logic.Function.Basic

/-!
# Files and symbolic links

A file system gives each path a file, a symbolic link, or nothing. Directories are not
part of it: a path is a name. `locate` follows links up to the limit of the kernel,
`read` gives what a program gets that opens the path.

* `read_file`, `read_symlink`: what is read through at most one link.
* `put`, `exchange`, `rename`: the calls that change a directory, with what they leave
  alone.
-/

/-- What stands behind a path. -/
inductive Node (π β : Type)
  | file (content : List β) (executable : Bool)
  | symlink (target : π)
  deriving DecidableEq

abbrev FileSystem (π β : Type) : Type := π → Option (Node π β)

namespace FileSystem

variable {π β : Type}

/-- The path behind the links. Too many of them are an error. -/
def locate (fs : FileSystem π β) : Nat → π → Option π
  | 0, p =>
    match fs p with
    | some (.symlink _) => none
    | _ => some p
  | n + 1, p =>
    match fs p with
    | some (.symlink target) => fs.locate n target
    | _ => some p

/-- `MAXSYMLINKS` -/
abbrev maxLinks : Nat := 40

/-- The content behind a path, and whether it can be executed. -/
def read (fs : FileSystem π β) (p : π) : Option (List β × Bool) :=
  (fs.locate maxLinks p).bind fun q =>
    match fs q with
    | some (.file content executable) => some (content, executable)
    | _ => none

section

variable [DecidableEq π] (fs : FileSystem π β)

def put (p : π) (node : Option (Node π β)) : FileSystem π β := Function.update fs p node

/-- `RENAME_EXCHANGE` -/
def exchange (p q : π) : FileSystem π β := (fs.put p (fs q)).put q (fs p)

def rename (p q : π) : FileSystem π β := (fs.put q (fs p)).put p none

/-- Change the file at a path. -/
def mapFile (p : π) (f : List β → Bool → Node π β) : FileSystem π β :=
  fs.put p <|
    match fs p with
    | some (.file content executable) => some (f content executable)
    | node => node

end

variable {fs : FileSystem π β} {p q t : π} {content : List β} {executable : Bool}

theorem locate_file (h : ∀ t, fs p ≠ some (.symlink t)) (n : Nat) : fs.locate n p = some p := by
  cases n <;> unfold locate <;> split <;> first | exact absurd ‹_› (h _) | rfl

theorem read_file (h : fs p = some (.file content executable)) :
    fs.read p = some (content, executable) := by
  have hlocate : fs.locate maxLinks p = some p := locate_file (fun t ht => by simp [h] at ht) _
  unfold read
  rw [hlocate, Option.bind_some, h]

theorem read_none (h : fs p = none) : fs.read p = none := by
  have hlocate : fs.locate maxLinks p = some p := locate_file (fun t ht => by simp [h] at ht) _
  unfold read
  rw [hlocate, Option.bind_some, h]

theorem read_symlink (h : fs p = some (.symlink t)) (ht : fs t = some (.file content executable)) :
    fs.read p = some (content, executable) := by
  have hlocate : fs.locate maxLinks p = some t := by
    unfold locate
    rw [h]
    exact locate_file (fun t' ht' => by simp [ht] at ht') _
  unfold read
  rw [hlocate, Option.bind_some, ht]

/-- A link to nothing. -/
theorem read_dangling (h : fs p = some (.symlink t)) (ht : fs t = none) : fs.read p = none := by
  have hlocate : fs.locate maxLinks p = some t := by
    unfold locate
    rw [h]
    exact locate_file (fun t' ht' => by simp [ht] at ht') _
  unfold read
  rw [hlocate, Option.bind_some, ht]

section

variable [DecidableEq π] {node : Option (Node π β)}

@[simp] theorem put_same : fs.put p node p = node := Function.update_self ..

@[simp] theorem put_other (h : q ≠ p) : fs.put p node q = fs q := Function.update_of_ne h ..

@[simp] theorem exchange_right : fs.exchange p q q = fs p := put_same

@[simp] theorem exchange_other (hp : t ≠ p) (hq : t ≠ q) : fs.exchange p q t = fs t := by
  unfold exchange
  rw [put_other hq, put_other hp]

@[simp] theorem rename_old : fs.rename p q p = none := put_same

@[simp] theorem rename_new (h : q ≠ p) : fs.rename p q q = fs p := by
  unfold rename
  rw [put_other h, put_same]

@[simp] theorem rename_other (hp : t ≠ p) (hq : t ≠ q) : fs.rename p q t = fs t := by
  unfold rename
  rw [put_other hp, put_other hq]

variable {f : List β → Bool → Node π β}

@[simp] theorem mapFile_same (h : fs p = some (.file content executable)) :
    fs.mapFile p f p = some (f content executable) := by
  unfold mapFile
  rw [put_same, h]

@[simp] theorem mapFile_other (h : q ≠ p) : fs.mapFile p f q = fs q := put_other h

end

end FileSystem
