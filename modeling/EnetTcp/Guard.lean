import Mathlib.Algebra.Group.Nat.Defs
import EnetTcp.Types
import EnetTcp.Lib.Prog

/-!
# Exceptions and the text of a failed GUARD (utilities.h, aioenetd.cpp)

`GUARD` reports a failed check as a `std::logic_error` whose text holds the
error index and an info value. `TryParseGuardWhat` gets the two numbers back
from the text of a caught exception.
-/

namespace EnetTcp

/-- What the daemon's code can throw. The handlers tell three kinds apart: a
`std::logic_error`, any other `std::exception` (both with the C string that
`what()` returns), and anything else. -/
inductive Exn
  | logicError (what : TBytes)
  | stdException (what : TBytes)
  | unknown
  deriving Repr, DecidableEq

/-! ## 1. Numbers as text -/

/-- `std::to_string` of an unsigned number. -/
def toDecimal (n : Nat) : TBytes := (Nat.toDigits 10 n).map fun c => UInt8.ofNat c.toNat

/-- `std::to_string` of a signed number. -/
def intToDecimal (n : Int) : TBytes :=
  if n < 0 then 45 :: toDecimal n.natAbs else toDecimal n.natAbs

/-- One upper-case hexadecimal digit. -/
def hexDigit (d : Nat) : UInt8 := UInt8.ofNat (if d < 10 then 48 + d else 55 + d)

/-- `to_hex<T>` for a type of `w` bytes: exactly `2 * w` upper-case digits. -/
def to_hex (w n : Nat) : TBytes :=
  (List.range (2 * w)).map fun i => hexDigit (n / 16 ^ (2 * w - 1 - i) % 16)

/-! ## 2. GUARD -/

/-- Where a `GUARD` stands in the source: `__builtin_FILE`, `__builtin_FUNCTION`
and `__builtin_LINE` at the call. -/
structure GuardSite where
  file : String
  func : String
  line : Nat

/-- The text of the exception that a failed `GUARD` throws. -/
def guardWhat (site : GuardSite) (rc : TError) (info : UInt32) : TBytes :=
  text "\nGUARD! " ++ text site.file ++ text ": " ++ text site.func ++ text "(" ++
    toDecimal site.line ++ text "): -" ++ toDecimal (ErrIndex rc).toNat ++ text " " ++
    text (err_msg.getD (ErrIndex rc).toNat "") ++ text " = " ++ to_hex 4 info.toNat

/-- Throw unless the condition holds. -/
def GUARD {σ : Type} (allGood : Bool) (rc : TError) (info : UInt32) (site : GuardSite) :
    Prog Exn σ Unit :=
  if allGood then pure () else throw (.logicError (guardWhat site rc info))

/-! ## 3. TryParseGuardWhat -/

def isDigitByte (b : UInt8) : Bool := 48 ≤ b && b ≤ 57

/-- `std::isspace` in the C locale. -/
def isSpaceByte (b : UInt8) : Bool := b == 32 || (9 ≤ b && b ≤ 13)

/-- What follows the first occurrence of `pat` in `s` (`std::string::find`). -/
def afterFirst (pat : TBytes) : TBytes → Option TBytes
  | [] => if pat.isEmpty then some [] else none
  | b :: s => if pat.isPrefixOf (b :: s) then some ((b :: s).drop pat.length) else afterFirst pat s

/-- What follows the last occurrence of the byte `c` in `s` (`std::string::rfind`). -/
def afterLast (c : UInt8) (s : TBytes) : Option TBytes :=
  if c ∈ s then some (s.reverse.takeWhile (· != c)).reverse else none

/-- The value of a digit in the given base, if it is one. -/
def digitValue (base : Nat) (b : UInt8) : Option Nat :=
  let d :=
    if isDigitByte b then b.toNat - 48
    else if 65 ≤ b && b ≤ 90 then b.toNat - 55
    else if 97 ≤ b && b ≤ 122 then b.toNat - 87
    else base
  if d < base then some d else none

/-- The number spelled by the longest run of digits at the start of `s`, and
whether there was a digit at all. -/
def digitsValue (base : Nat) (s : TBytes) (acc : Nat) (seen : Bool) : Nat × Bool :=
  match s with
  | [] => (acc, seen)
  | b :: s =>
    match digitValue base b with
    | some d => digitsValue base s (acc * base + d) true
    | none => (acc, seen)

/-- Skip a `0x` that a hexadecimal digit follows. -/
def skipHexPrefix (s : TBytes) : TBytes :=
  match s with
  | 48 :: x :: d :: rest =>
    if (x == 120 || x == 88) && (digitValue 16 d).isSome then d :: rest else s
  | _ => s

/-- `std::stoul`: white space, an optional sign, digits; what follows is
ignored. `none` when it throws (no digit, or beyond an `unsigned long`). -/
def stoul (base : Nat) (s : TBytes) : Option Nat :=
  let s := s.dropWhile isSpaceByte
  let neg := s.head? == some 45
  let s := if s.head? == some 45 || s.head? == some 43 then s.drop 1 else s
  let s := if base == 16 then skipHexPrefix s else s
  let (n, seen) := digitsValue base s 0 false
  if !seen || 2 ^ 64 ≤ n then none else some (if neg then (2 ^ 64 - n) % 2 ^ 64 else n)

/-- Remove white space at both ends. -/
def trim (s : TBytes) : TBytes :=
  ((s.dropWhile isSpaceByte).reverse.dropWhile isSpaceByte).reverse

/-- The error index and the info value in the text of an exception. The
arguments are the values the caller has put in the two out-parameters. `info`
keeps its value when the text after the last `=` is no number. -/
def TryParseGuardWhat (what : TBytes) (errIndex info : UInt32) : UInt32 × UInt32 :=
  match afterFirst (text "): -") what with
  | none => (errIndex, info)
  | some s =>
    match stoul 10 (s.takeWhile isDigitByte) with
    | none => (errIndex, info)
    | some n =>
      let info :=
        match afterLast 61 what with
        | none => info
        | some hex =>
          let hex := trim hex
          let hex := if hex.head? == some 48 && (hex[1]? == some 120 || hex[1]? == some 88)
            then hex.drop 2 else hex
          match stoul 16 hex with
          | none => info
          | some v => UInt32.ofNat v
      (UInt32.ofNat n, info)

/-- The texts of `GUARD` at a site of fromBytes. -/
example : TryParseGuardWhat (guardWhat ⟨"./DataItems/TDataItem.cpp", "fromBytes", 545⟩
    ERR_DId_INVALID 0x7777) 3 0 = (12, 0x7777) := by decide +kernel

/-! ## 4. A GUARD either passes or throws its text -/

namespace GuardLemmas

variable {σ : Type}

@[simp] theorem guard_pass {b : Bool} (h : b = true) (rc : TError) (info : UInt32)
    (site : GuardSite) : (GUARD b rc info site : Prog Exn σ Unit) = pure () := by
  simp only [GUARD, h, if_true]

theorem guard_exec (b : Bool) (rc : TError) (info : UInt32) (site : GuardSite) (s : σ) :
    (GUARD b rc info site).exec s =
      some (if b then .ok () else .error (.logicError (guardWhat site rc info)), s) := by
  cases b <;> rfl

/-- What comes behind a GUARD runs only when the GUARD has passed. -/
theorem guard_bind_ok {α : Type} {b : Bool} {rc : TError} {info : UInt32} {site : GuardSite}
    {f : Unit → Prog Exn σ α} {s s' : σ} {a : α}
    (h : (GUARD b rc info site >>= f).exec s = some (.ok a, s')) :
    b = true ∧ (f ()).exec s = some (.ok a, s') := by
  cases b
  · cases h
  · exact ⟨rfl, h⟩

end GuardLemmas

end EnetTcp
